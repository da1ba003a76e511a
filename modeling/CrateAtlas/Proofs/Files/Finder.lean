import CrateAtlas.Files.Finder
import CrateAtlas.Proofs.Attempts
import CrateAtlas.Proofs.Files.Tree
import CrateAtlas.Proofs.Sorting

/-!
What is relied on in a finder, and what follows for the files in order.
-/

namespace CrateAtlas.Finder

/-- The laws of a finder: it finds no text twice, each text leads to a file, and without a file it
finds the texts that lead elsewhere. -/
structure Lawful (find : Finder) : Prop where
  distinct {search : FileSearch} {tree : FileTree} {place : Path} {texts : List String}
    (found : find search tree place = .ok texts) : texts.Nodup
  file {search : FileSearch} {tree : FileTree} {place : Path} {texts : List String}
    (formed : tree.WellFormed) (found : find search tree place = .ok texts) {text : String}
    (member : text ∈ texts) : ∃ content, tree.node? (place.resolve text) = some (.file content)
  without {search : FileSearch} {tree : FileTree} {place path : Path} {content : String}
    {texts : List String} (formed : tree.WellFormed)
    (stored : tree.node? path = some (.file content)) (found : find search tree place = .ok texts) :
    ∃ rest, find search (tree.without path) place = .ok rest ∧
      rest.Perm (texts.filter fun text => place.resolve text ≠ path)

variable {find : Finder} {search : FileSearch} {tree : FileTree} {place path : Path}
  {content : String} {files : List String}

theorem inOrder_eq_ok :
    find.inOrder search tree place = .ok files ↔
      ∃ texts, find search tree place = .ok texts ∧ files = Text.sortTexts texts := by
  rw [inOrder]
  cases find search tree place with
  | error failure => simp [Except.map]
  | ok texts => simp [Except.map, eq_comm]

namespace Lawful

theorem ascending (lawful : find.Lawful) (found : find.inOrder search tree place = .ok files) :
    Text.Ascending files := by
  obtain ⟨texts, answer, rfl⟩ := inOrder_eq_ok.mp found
  exact Text.ascending_sortTexts (lawful.distinct answer)

theorem inOrder_without (lawful : find.Lawful) (formed : tree.WellFormed)
    (stored : tree.node? path = some (.file content))
    (found : find.inOrder search tree place = .ok files) :
    find.inOrder search (tree.without path) place =
      .ok (files.filter fun text => place.resolve text ≠ path) := by
  obtain ⟨texts, answer, rfl⟩ := inOrder_eq_ok.mp found
  obtain ⟨rest, again, perm⟩ := lawful.without formed stored answer
  refine inOrder_eq_ok.mpr ⟨rest, again, ?_⟩
  rw [Text.sortTexts_eq_of_perm perm, Text.sortTexts_filter]

end Lawful

end CrateAtlas.Finder
