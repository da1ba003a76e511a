import CrateAtlas.Proofs.ModulePath
import Mathlib.Data.List.Basic

/-!
Names without null characters, which separate the parts of keys. Main statement: the module path
of a file is such a name, and is not empty.
-/

namespace CrateAtlas

/-- A name in which no null character stands. -/
def ProperName (name : String) : Prop :=
  '\x00' ∉ name.toList

theorem properName_ofList {text : List Char} (proper : '\x00' ∉ text) :
    ProperName (String.ofList text) := by
  rwa [ProperName, String.toList_ofList]

theorem ProperName.append {left right : String} (leftProper : ProperName left)
    (rightProper : ProperName right) : ProperName (left ++ right) := by
  rw [ProperName, String.toList_append, List.mem_append, not_or]
  exact ⟨leftProper, rightProper⟩

theorem not_wordChar_null : Text.isWordChar '\x00' = false := by
  decide

namespace ModulePath

theorem properName_joinWith {separator : String} (separatorProper : ProperName separator)
    {parts : List String} (proper : ∀ part ∈ parts, ProperName part) :
    ProperName (Text.joinWith separator parts) := by
  induction parts with
  | nil => exact List.not_mem_nil
  | cons first rest ih =>
      have firstProper := proper first (by simp)
      have restProper := ih fun part member => proper part (by simp [member])
      cases rest with
      | nil => exact firstProper
      | cons second others => exact (firstProper.append separatorProper).append restProper

theorem properName_separator : ProperName "::" := by
  unfold ProperName
  decide

theorem properName_join {parts : List String} (proper : ∀ part ∈ parts, ProperName part) :
    ProperName (join parts) :=
  properName_joinWith properName_separator fun part member =>
    proper part (List.mem_of_mem_filter member)

theorem joinWith_ne_empty {separator first : String} (filled : first ≠ "") (rest : List String) :
    Text.joinWith separator (first :: rest) ≠ "" := by
  cases rest with
  | nil => exact filled
  | cons second others => simp [Text.joinWith, filled]

theorem join_ne_empty {first : String} (filled : first ≠ "") (rest : List String) :
    join (first :: rest) ≠ "" := by
  rw [join, List.filter_cons_of_pos (by simpa using filled)]
  exact joinWith_ne_empty filled _

theorem sanitizeComponent_proper (component : List Char) :
    '\x00' ∉ sanitizeComponent component := by
  intro member
  have word := isWordChar_of_mem_sanitizeComponent member
  rw [not_wordChar_null] at word
  simp at word

theorem properName_components {path component : String} (member : component ∈ components path) :
    ProperName component := by
  simp only [components, List.mem_map] at member
  obtain ⟨piece, _, rfl⟩ := member
  exact properName_ofList (sanitizeComponent_proper piece)

theorem mem_of_mem_dropLastIf {unwanted name : String} {names : List String}
    (member : name ∈ dropLastIf unwanted names) : name ∈ names := by
  simp only [dropLastIf] at member
  split at member
  · exact List.dropLast_subset names member
  · exact member

theorem properName_ofComponents {names : List String}
    (proper : ∀ name ∈ names, ProperName name) : ProperName (ofComponents names) := by
  unfold ofComponents
  split
  · unfold ProperName
    decide
  · apply properName_join
    intro part member
    rcases List.mem_cons.mp member with rfl | later
    · exact proper "bin" (by simp)
    · rcases List.mem_cons.mp later with rfl | inner
      · exact proper part (by simp)
      · have kept := mem_of_mem_dropLastIf inner
        split at kept
        · simp at kept
        · exact proper part (by simp [kept])
  · unfold ProperName
    decide
  · apply properName_joinWith properName_separator
    intro part member
    rcases List.mem_cons.mp member with rfl | kept
    · unfold ProperName
      decide
    · exact proper part (mem_of_mem_dropLastIf kept)

theorem ofComponents_ne_empty (names : List String) : ofComponents names ≠ "" := by
  unfold ofComponents
  split
  · decide
  · exact join_ne_empty (by decide) _
  · decide
  · exact joinWith_ne_empty (by decide) _

theorem properName_ofFile (path : String) : ProperName (ofFile path) := by
  have proper : ∀ name ∈ components path, ProperName name := fun _ => properName_components
  unfold ofFile
  split
  · rename_i rest source
    rw [source] at proper
    exact properName_ofComponents fun name member => proper name (by simp [member])
  · exact properName_ofComponents proper

theorem ofFile_ne_empty (path : String) : ofFile path ≠ "" := by
  unfold ofFile
  split <;> exact ofComponents_ne_empty _

end ModulePath

end CrateAtlas
