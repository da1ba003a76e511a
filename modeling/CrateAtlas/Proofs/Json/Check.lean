import CrateAtlas.Json.Check
import CrateAtlas.Proofs.Maps

/-!
Which documents a check passes, and with what value. Main statements: a check of a record passes
as soon as the checks of its members do, and a list passes exactly when each of its items does.
-/

namespace CrateAtlas.Json

variable {α : Type}

/-- A check that finds `value` in a document, wherever the document stands. -/
def Passes (check : Part → Checked α) (document : Json) (value : α) : Prop :=
  ∀ part : Part, part.value = some document → check part = .passed value

theorem Passes.run {check : Part → Checked α} {document : Json} {value : α}
    (passes : Passes check document value) : run check document = .passed value :=
  passes _ rfl

theorem passes_text (text : String) : Passes checkText (.string text) text := by
  intro part held
  rw [checkText, held]

theorem passes_nonEmpty {text : String} (filled : text ≠ "") :
    Passes checkNonEmpty (.string text) text := by
  intro part held
  rw [checkNonEmpty]
  split
  · rename_i empty
    rw [held] at empty
    exact absurd (Json.string.inj (Option.some.inj empty)) filled
  · exact passes_text text part held

theorem passes_optionalText (text : Option String) :
    Passes checkOptionalText (.ofOptionalText text) text := by
  intro part held
  cases text with
  | none => simp [checkOptionalText, held, ofOptionalText]
  | some text =>
      have read := passes_text text part held
      simp only [checkOptionalText, held, ofOptionalText, read]
      rfl

theorem passes_whole {least value : Int} (above : least ≤ value) :
    Passes (checkWhole least none) (.ofInt value) value := by
  intro part held
  simp [checkWhole, held, ofInt, Number.ofInt, Number.isWhole, Number.atLeast, Number.whole,
    Int.pow, above]

theorem passes_choice {choices : List α} {label : α → String} (injective : label.Injective)
    {choice : α} (member : choice ∈ choices) :
    Passes (checkChoice choices label) (.string (label choice)) choice := by
  intro part held
  have present : (choices.find? fun other => label other = label choice).isSome :=
    List.find?_isSome.mpr ⟨choice, member, by simp⟩
  obtain ⟨other, found⟩ := Option.isSome_iff_exists.mp present
  have same : label other = label choice := by simpa using List.find?_some found
  obtain rfl := injective same
  simp only [checkChoice, held, found]

theorem passes_record {check : Part → Checked α} {members : List (String × Json)} {value : α}
    (inner : Passes check (.record members) value) :
    Passes (checkRecord check) (.record members) value := by
  intro part held
  rw [checkRecord, held]
  exact inner part held

theorem Passes.member {check : Part → Checked α} {document : Json} {value : α}
    (passes : Passes check document value) {part : Part} {members : List (String × Json)}
    (held : part.value = some (.record members)) {name : String}
    (stored : OrderedMap.get? name members = some document) :
    check (part.member name) = .passed value := by
  apply passes
  rw [Part.member, held]
  exact stored

theorem passes_default (fallback : α) {check : Part → Checked α} {document : Json} {value : α}
    (inner : Passes check document value) :
    Passes (checkDefault fallback check) document value := by
  intro part held
  rw [checkDefault, held]
  exact inner part held

theorem all_itemParts {check : Part → Checked α} {document : α → Json} (path : List Step)
    (index : Nat) {items : List α} (passes : ∀ item ∈ items, Passes check (document item) item) :
    Checked.all ((itemParts path index (items.map document)).map check) = .passed items := by
  induction items generalizing index with
  | nil => rfl
  | cons item rest ih =>
      have first := passes item (by simp) { path := path ++ [.item index], value := _ } rfl
      have others := ih (index + 1) fun item member => passes item (by simp [member])
      simp only [List.map_cons, itemParts, Checked.all, first, others]
      rfl

theorem passes_list {check : Part → Checked α} {document : α → Json} {items : List α}
    (passes : ∀ item ∈ items, Passes check (document item) item) :
    Passes (checkList check) (.list (items.map document)) items := by
  intro part held
  rw [checkList, held]
  exact all_itemParts part.path 0 passes

theorem passes_pair {check : Part → Checked α} {first second : Json} {left right : α}
    (leftPasses : Passes check first left) (rightPasses : Passes check second right) :
    Passes (checkPair check) (.list [first, second]) (left, right) := by
  intro part held
  have leftRead := leftPasses { path := part.path ++ [.item 0], value := some first } rfl
  have rightRead := rightPasses { path := part.path ++ [.item 1], value := some second } rfl
  simp only [checkPair, held, itemParts, leftRead, rightRead]
  rfl

section Refusals

variable {part : Part}

theorem not_unexpected (part : Part) (expected : String) (value : α) :
    part.unexpected expected ≠ .passed value := by
  rw [Part.unexpected]
  split <;> simp [Part.fail]

theorem checkNonEmpty_eq_passed {text : String} :
    checkNonEmpty part = .passed text ↔ part.value = some (.string text) ∧ text ≠ "" := by
  constructor
  · intro passed
    rw [checkNonEmpty] at passed
    split at passed
    · simp [Part.fail] at passed
    · rename_i filled
      rw [checkText] at passed
      split at passed
      · rename_i found held
        obtain rfl := Checked.passed.inj passed
        exact ⟨held, fun empty => filled (empty ▸ held)⟩
      · exact absurd passed (not_unexpected part "string" text)
  · rintro ⟨held, filled⟩
    exact passes_nonEmpty filled part held

theorem checkRecord_eq_passed {check : Part → Checked α} {value : α} :
    checkRecord check part = .passed value ↔
      (∃ members, part.value = some (.record members)) ∧ check part = .passed value := by
  rw [checkRecord]
  split
  · rename_i members held
    simp [held]
  · rename_i other
    refine iff_of_false (not_unexpected part "object" value) ?_
    rintro ⟨⟨members, held⟩, _⟩
    exact other members held

theorem all_cons_eq_passed {first : Checked α} {rest : List (Checked α)} {values : List α} :
    Checked.all (first :: rest) = .passed values ↔
      ∃ value others, values = value :: others ∧ first = .passed value ∧
        Checked.all rest = .passed others := by
  rw [show Checked.all (first :: rest) = Checked.apply (first.map List.cons) (Checked.all rest) from rfl]
  cases first <;> cases Checked.all rest <;> simp [Checked.map, Checked.apply, eq_comm]

theorem checkList_eq_passed {check : Part → Checked α} {holds : Json → α → Prop} {values : List α}
    (items : ∀ path item value, check ⟨path, some item⟩ = .passed value ↔ holds item value) :
    checkList check part = .passed values ↔
      ∃ documents, part.value = some (.list documents) ∧ List.Forall₂ holds documents values := by
  have all (path : List Step) (documents : List Json) (index : Nat) (values : List α) :
      Checked.all ((itemParts path index documents).map check) = .passed values ↔
        List.Forall₂ holds documents values := by
    induction documents generalizing index values with
    | nil => simp [itemParts, Checked.all, eq_comm]
    | cons document rest ih =>
        rw [itemParts, List.map_cons, all_cons_eq_passed, List.forall₂_cons_left_iff]
        simp only [items, ih]
        constructor
        · rintro ⟨value, others, rfl, first, more⟩
          exact ⟨value, others, first, more, rfl⟩
        · rintro ⟨value, others, first, more, rfl⟩
          exact ⟨value, others, rfl, first, more⟩
  rw [checkList]
  split
  · rename_i documents held
    rw [all, held]
    simp
  · rename_i other
    refine iff_of_false (not_unexpected part "array" values) ?_
    rintro ⟨documents, held, _⟩
    exact other documents held

end Refusals

end CrateAtlas.Json
