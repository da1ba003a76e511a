import CrateAtlas.Proofs.Files.Task
import CrateAtlas.Proofs.Files.Tree
import CrateAtlas.Proofs.Json.Check
import CrateAtlas.Proofs.Json.RoundTrip
import CrateAtlas.Store.Manifest

/-!
What a manifest says of a store. Main statements: a manifest is read as the names it was written
with, the entry of a straight file path stands for the artifact of that file, and any entry stands
for an artifact strictly below the store or for none.
-/

namespace CrateAtlas

theorem artifactName_ne_empty (filePath : String) : artifactName filePath ≠ "" := by
  simp [artifactName, artifactExtension]

theorem artifactName_injective : Function.Injective artifactName := by
  intro left right same
  have texts := congrArg String.toList same
  simp only [artifactName, String.toList_append] at texts
  exact String.toList_injective (List.append_cancel_right texts)

theorem straight_artifactName {filePath : String} (straight : Path.Straight filePath) :
    Path.Straight (artifactName filePath) :=
  straight.append (by decide)

theorem endsWith_artifactName (filePath : String) :
    Text.endsWith artifactExtension (artifactName filePath).toList := by
  rw [artifactName, Text.endsWith, String.toList_append]
  exact List.isSuffixOf_iff_suffix.mpr (List.suffix_append _ _)

namespace Manifest

open Json FileTree FileTask

variable {store path : Path} {tree after : FileTree} {names : List String} {filePath : String}

theorem textualItems_texts (texts : List String) : TextualItems (texts.map .string) := by
  induction texts with
  | nil => trivial
  | cons text rest ih => exact ⟨trivial, ih⟩

theorem textual_document (names : List String) : Textual (document names) :=
  ⟨by simp [OrderedMap.keys], textualItems_texts names, trivial⟩

def IsListing (document : Json) (names : List String) : Prop :=
  document.member? "artifacts" = some (.ofTexts names) ∧ ∀ name ∈ names, name ≠ ""

theorem forall₂_names {documents : List Json} {names : List String} :
    List.Forall₂ (fun document name => document = .string name ∧ name ≠ "") documents names ↔
      documents = names.map .string ∧ ∀ name ∈ names, name ≠ "" := by
  induction names generalizing documents with
  | nil => simp
  | cons name rest ih =>
      rw [List.forall₂_cons_right_iff]
      simp only [ih, List.map_cons, List.forall_mem_cons]
      constructor
      · rintro ⟨_, _, ⟨rfl, filled⟩, ⟨rfl, others⟩, rfl⟩
        exact ⟨rfl, filled, others⟩
      · rintro ⟨rfl, filled, others⟩
        exact ⟨_, _, ⟨rfl, filled⟩, ⟨rfl, others⟩, rfl⟩

theorem run_check_eq_passed {document : Json} :
    run check document = .passed names ↔ IsListing document names := by
  have listed (part : Part) : checkList checkNonEmpty part = .passed names ↔
      part.value = some (.ofTexts names) ∧ ∀ name ∈ names, name ≠ "" := by
    have each (path : List Step) (item : Json) (name : String) :
        checkNonEmpty ⟨path, some item⟩ = .passed name ↔ item = .string name ∧ name ≠ "" := by
      rw [checkNonEmpty_eq_passed, Option.some.injEq]
    rw [checkList_eq_passed each]
    constructor
    · rintro ⟨documents, held, read⟩
      obtain ⟨rfl, filled⟩ := forall₂_names.mp read
      exact ⟨held, filled⟩
    · rintro ⟨held, filled⟩
      exact ⟨_, held, forall₂_names.mpr ⟨rfl, filled⟩⟩
  rw [run, check, checkRecord_eq_passed, listed, IsListing, Part.member, Part.whole]
  refine and_iff_right_of_imp ?_
  rintro ⟨held, _⟩
  -- only a record has members
  cases document with
  | record members => exact ⟨members, rfl⟩
  | _ => simp [member?] at held

theorem parse_eq_ok {content : String} :
    parse path content = .ok names ↔
      ∃ document, Json.parse content = .ok document ∧ IsListing document names := by
  rw [parse]
  cases Json.parse content with
  | error failure => simp
  | ok document =>
      simp only [Except.ok.injEq, exists_eq_left', ← run_check_eq_passed]
      cases run check document <;> simp

theorem parse_refuses {content : String} {failure : Failure}
    (refused : parse path content = .error failure) :
    ∃ detail, failure = .snapshotFormat path.render detail := by
  rw [parse] at refused
  split at refused
  · exact ⟨_, (Except.error.inj refused).symm⟩
  · split at refused
    · simp at refused
    · exact ⟨_, (Except.error.inj refused).symm⟩

theorem parse_print (filled : ∀ name ∈ names, name ≠ "") (path : Path) :
    parse path (print names) = .ok names := by
  have read : Json.parse (print names) = .ok (document names) :=
    parse_pretty (textual_document names) (by simp [Blank, isSpace])
  exact parse_eq_ok.mpr ⟨document names, read, rfl, filled⟩

theorem place?_eq_some {entry : String} :
    place? store entry = some path ↔
      Text.endsWith artifactExtension entry.toList ∧ path = store.resolve entry ∧
        ∃ first rest, path = ⟨store.names ++ first :: rest⟩ ∧
          Text.startsWith ".." first.toList = false := by
  rw [place?]
  by_cases ends : Text.endsWith artifactExtension entry.toList = true
  · rw [if_pos ends]
    simp only [ends, true_and]
    constructor
    · intro found
      split at found
      · rename_i first rest below
        split at found
        · simp at found
        · rename_i plain
          obtain rfl := Option.some.inj found
          exact ⟨rfl, first, rest, Path.below?_eq_some.mp below, by simpa using plain⟩
      · simp at found
    · rintro ⟨rfl, first, rest, leads, plain⟩
      have below := Path.below?_eq_some.mpr leads
      simp only [below, plain, Bool.false_eq_true, if_false]
  · simp [ends]

/-- An artifact strictly below a store, by names that files can have. -/
structure Inside (store path : Path) : Prop where
  below : ∃ names, names ≠ [] ∧ path = ⟨store.names ++ names⟩ ∧ ∀ name ∈ names, Path.IsName name
  artifact : Text.endsWith artifactExtension path.render.toList

theorem isName_of_endsWith {name : String} (whole : '/' ∉ name.toList)
    (ends : artifactExtension.toList <:+ name.toList) : Path.IsName name := by
  have long : 5 ≤ name.toList.length := ends.length_le
  refine ⟨?_, ?_, ?_, whole⟩
  · rintro rfl
    simp at long
  · rintro rfl
    simp at long
  · rintro rfl
    simp at long

theorem inside_of_place? {entry : String} (found : place? store entry = some path) :
    Inside store path := by
  obtain ⟨ends, rfl, first, rest, leads, -⟩ := place?_eq_some.mp found
  refine ⟨⟨first :: rest, List.cons_ne_nil _ _, leads, Path.isName_of_resolve leads⟩, ?_⟩
  obtain ⟨text, written⟩ := List.isSuffixOf_iff_suffix.mp ends
  -- the extension has no slash, so the last segment of the entry ends in it
  have free : '/' ∉ artifactExtension.toList := by decide
  obtain ⟨front, last, -, long⟩ := Text.splitOn_append free text
  have split : Text.splitText '/' entry =
      front.map String.ofList ++ [String.ofList (last ++ artifactExtension.toList)] := by
    rw [Text.splitText, ← written, long, List.map_append]
    rfl
  have whole : '/' ∉ (String.ofList (last ++ artifactExtension.toList)).toList :=
    Text.not_mem_of_mem_splitText (by rw [split]; exact List.mem_append_right _ (by simp))
  have isName := isName_of_endsWith whole (by rw [String.toList_ofList]; exact List.suffix_append _ _)
  obtain ⟨before, rendered⟩ := Path.render_resolve isName split store
  rw [Text.endsWith, List.isSuffixOf_iff_suffix, rendered, String.toList_append, String.toList_ofList,
    ← List.append_assoc]
  exact List.suffix_append _ _

def artifactPlace (store : Path) (filePath : String) : Path :=
  store.descend (artifactName filePath)

theorem place?_artifactName (straight : Path.Straight filePath) (store : Path) :
    place? store (artifactName filePath) = some (artifactPlace store filePath) := by
  have straightName := straight_artifactName straight
  rw [place?, if_pos (endsWith_artifactName filePath)]
  simp only [Path.resolve_straight straightName, artifactPlace, Path.descend_straight straightName,
    Path.below?_append]
  cases segments : Text.splitText '/' (artifactName filePath) with
  | nil => exact absurd segments (Text.splitText_ne_nil '/' _)
  | cons first rest =>
      have plain := (straightName first (by simp [segments])).2
      dsimp only
      rw [if_neg (by simp [Path.startsWith_points plain])]

theorem artifactPlace_injective {left right : String} (leftStraight : Path.Straight left)
    (rightStraight : Path.Straight right)
    (same : artifactPlace store left = artifactPlace store right) : left = right :=
  artifactName_injective (Path.descend_injective (straight_artifactName leftStraight)
    (straight_artifactName rightStraight) same)

theorem artifactPlace_ne_manifest (straight : Path.Straight filePath) (store : Path) :
    artifactPlace store filePath ≠ store.child fileName := by
  have straightName := straight_artifactName straight
  intro same
  rw [artifactPlace, Path.descend_straight straightName, Path.child] at same
  have segments := List.append_cancel_left (congrArg Path.names same)
  have plain := (straightName fileName (by simp [segments])).2
  simp [fileName, Text.startsWith] at plain

theorem load_cases (store : Path) (tree : FileTree) :
    tree.has (store.child fileName) = false ∧ outcome (load store) tree = (.ok none, tree) ∨
      tree.has (store.child fileName) ∧
        ((∃ content names, tree.read (store.child fileName) = .ok content ∧
          parse (store.child fileName) content = .ok names ∧
            outcome (load store) tree = (.ok (some names), tree)) ∨
        ∃ detail, (∀ content names, tree.read (store.child fileName) = .ok content →
          parse (store.child fileName) content ≠ .ok names) ∧
            outcome (load store) tree =
              (.error (.snapshotFormat (store.child fileName).render detail), tree)) := by
  rw [load, outcome_bind, outcome_has]
  cases present : tree.has (store.child fileName) with
  | false => exact .inl ⟨rfl, rfl⟩
  | true =>
      refine .inr ⟨rfl, ?_⟩
      simp only [Bool.not_true, Bool.false_eq_true, if_false]
      rw [outcome_bind, outcome_get]
      cases read : tree.read (store.child fileName) with
      | error fault =>
          refine .inr ⟨fault.message, by simp, ?_⟩
          simp only [read, outcome_throw]
      | ok content =>
          simp only [read]
          rw [outcome_bind, outcome_ofExcept]
          cases parsed : parse (store.child fileName) content with
          | ok names => exact .inl ⟨content, names, rfl, parsed, rfl⟩
          | error failure =>
              obtain ⟨detail, rfl⟩ := parse_refuses parsed
              refine .inr ⟨detail, ?_, rfl⟩
              rintro _ names ⟨⟩
              simp [parsed]

theorem does_load (sound : tree.Sound) {listed : Option (List String)} :
    Does (load store) tree listed after ↔ after = tree ∧
      (listed = none ∧ tree.has (store.child fileName) = false ∨
        ∃ content names, listed = some names ∧
          tree.text? (store.child fileName) = some content ∧
          parse (store.child fileName) content = .ok names) := by
  simp only [← read_eq_ok sound]
  rcases load_cases store tree with ⟨missing, loaded⟩ | ⟨present, listing | refusal⟩
  · refine (Does.iff loaded).trans ⟨?_, ?_⟩
    · rintro ⟨rfl, rfl⟩
      exact ⟨rfl, .inl ⟨rfl, missing⟩⟩
    · rintro ⟨rfl, ⟨rfl, _⟩ | ⟨content, names, _, read, _⟩⟩
      · exact ⟨rfl, rfl⟩
      · simp [has_of_text? sound ((read_eq_ok sound).mp read)] at missing
  · obtain ⟨content, names, read, parsed, loaded⟩ := listing
    refine (Does.iff loaded).trans ⟨?_, ?_⟩
    · rintro ⟨rfl, rfl⟩
      exact ⟨rfl, .inr ⟨content, names, rfl, read, parsed⟩⟩
    · rintro ⟨rfl, ⟨_, missing⟩ | ⟨_, _, rfl, again, accepted⟩⟩
      · simp [present] at missing
      · obtain rfl := Except.ok.inj (read.symm.trans again)
        rw [Except.ok.inj (accepted.symm.trans parsed)]
        exact ⟨rfl, rfl⟩
  · obtain ⟨detail, refused, failed⟩ := refusal
    refine iff_of_false (fun done => ?_) ?_
    · simp [Does, failed] at done
    · rintro ⟨rfl, ⟨_, missing⟩ | ⟨content, names, _, read, parsed⟩⟩
      · simp [present] at missing
      · exact refused content names read parsed

theorem load_missing (sound : tree.Sound) (missing : tree.text? (store.child fileName) = none)
    {listed : Option (List String)} (does : Does (load store) tree listed after) :
    listed = none ∧ after = tree := by
  obtain ⟨rfl, ⟨rfl, -⟩ | ⟨content, names, -, held, -⟩⟩ := (does_load sound).mp does
  · exact ⟨rfl, rfl⟩
  · simp [missing] at held

theorem load_written (sound : tree.Sound) (filled : ∀ name ∈ names, name ≠ "")
    (held : tree.text? (store.child fileName) = some (print names)) :
    Does (load store) tree (some names) tree :=
  (does_load sound).mpr ⟨rfl, .inr ⟨_, names, rfl, held, parse_print filled _⟩⟩

end Manifest

end CrateAtlas
