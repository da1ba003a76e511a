import CrateAtlas.ModulePath
import CrateAtlas.Proofs.Text.Lines

/-!
Segments of module paths, and components as they enter them. Main statements: a segment without
colons ends at the separator behind it, only a path of one segment is its own parent, and a
component in which nothing is replaced by an underscore stays as it is.
-/

namespace CrateAtlas.ModulePath

open CrateAtlas.Text

section Segments

variable {front last text : List Char}

theorem intercalate_cons_head (mark : List α) (first : α) (segment : List α)
    (segments : List (List α)) :
    mark.intercalate ((first :: segment) :: segments) =
      first :: mark.intercalate (segment :: segments) := by
  cases segments with
  | nil => simp
  | cons => simp [List.intercalate_cons_cons]

theorem segmentsOf_ne_nil (text : List Char) : segmentsOf text ≠ [] := by
  fun_induction segmentsOf text <;> simp

theorem intercalate_segmentsOf (text : List Char) :
    [':', ':'].intercalate (segmentsOf text) = text := by
  fun_induction segmentsOf text with
  | case1 => rfl
  | case2 rest ih =>
      cases pieces : segmentsOf rest with
      | nil => exact absurd pieces (segmentsOf_ne_nil rest)
      | cons segment segments =>
          rw [List.intercalate_cons_cons, ← pieces, ih]
          rfl
  | case3 character rest _ none => exact absurd none (segmentsOf_ne_nil rest)
  | case4 character rest _ segment segments pieces ih =>
      rw [intercalate_cons_head, ← pieces, ih]

theorem segmentsOf_cons {first : Char} (noColon : first ≠ ':') (rest : List Char) :
    segmentsOf (first :: rest) =
      match segmentsOf rest with
      | [] => [[first]]
      | segment :: segments => (first :: segment) :: segments :=
  segmentsOf.eq_3 first rest fun _ colon _ => noColon colon

theorem segmentsOf_of_free (free : ':' ∉ text) : segmentsOf text = [text] := by
  induction text with
  | nil => rfl
  | cons first others ih =>
      rw [List.mem_cons, not_or] at free
      rw [segmentsOf_cons (Ne.symm free.1), ih free.2]

theorem segmentsOf_append (free : ':' ∉ front) (rest : List Char) :
    segmentsOf (front ++ ':' :: ':' :: rest) = front :: segmentsOf rest := by
  induction front with
  | nil => rfl
  | cons first others ih =>
      rw [List.mem_cons, not_or] at free
      rw [List.cons_append, segmentsOf_cons (Ne.symm free.1), ih free.2]

theorem segments_of_free {name : String} (free : ':' ∉ name.toList) : segments name = [name] := by
  rw [segments, segmentsOf_of_free free, List.map_singleton, String.ofList_toList]

theorem segments_append {name : String} (free : ':' ∉ name.toList) (rest : String) :
    segments (name ++ "::" ++ rest) = name :: segments rest := by
  have shape : (name ++ "::" ++ rest).toList = name.toList ++ ':' :: ':' :: rest.toList := by
    simp
  rw [segments, shape, segmentsOf_append free, List.map_cons, String.ofList_toList, segments]

theorem cutLast?_of_free (free : ∀ character ∈ last, character ≠ ':') :
    cutLast? last = none := by
  induction last with
  | nil => rfl
  | cons first others ih =>
      obtain ⟨here, later⟩ := List.forall_mem_cons.mp free
      have apart : startsWith "::" (first :: others) = false := by
        simp [startsWith, List.isPrefixOf, Ne.symm here]
      simp [cutLast?, ih later, afterLead?, apart]

theorem cutLast?_append (free : ∀ character ∈ last, character ≠ ':') :
    cutLast? (front ++ ':' :: ':' :: last) = some (front, last) := by
  induction front with
  | nil =>
      have single : cutLast? (':' :: last) = none := by
        have apart : startsWith "::" (':' :: last) = false := by
          cases last with
          | nil => rfl
          | cons first others =>
              simp [startsWith, List.isPrefixOf, Ne.symm (free first List.mem_cons_self)]
        simp [cutLast?, cutLast?_of_free free, afterLead?, apart]
      have double : afterLead? "::" (':' :: ':' :: last) = some last := afterLead?_eq_some.mpr rfl
      rw [List.nil_append, cutLast?, single, double]
      rfl
  | cons first others ih => rw [List.cons_append, cutLast?, ih]

theorem eq_of_cutLast? {front last : List Char} (cut : cutLast? text = some (front, last)) :
    text = front ++ ':' :: ':' :: last := by
  induction text generalizing front with
  | nil => simp [cutLast?] at cut
  | cons first rest ih =>
      simp only [cutLast?] at cut
      split at cut
      · rename_i earlier behind deeper
        obtain ⟨rfl, rfl⟩ := Prod.mk.inj (Option.some.inj cut)
        rw [ih deeper, List.cons_append]
      · obtain ⟨behind, starts, shape⟩ := Option.map_eq_some_iff.mp cut
        obtain ⟨rfl, rfl⟩ := Prod.mk.inj shape
        exact afterLead?_eq_some.mp starts

theorem cutLast?_isSome (text : List Char) :
    (cutLast? text).isSome ↔ 2 ≤ (segmentsOf text).length := by
  fun_induction segmentsOf text with
  | case1 => simp [cutLast?]
  | case2 rest ih =>
      have several := List.length_pos_iff.mpr (segmentsOf_ne_nil rest)
      have starts : afterLead? "::" (':' :: ':' :: rest) = some rest := afterLead?_eq_some.mpr rfl
      refine iff_of_true ?_ (by rw [List.length_cons]; omega)
      rw [cutLast?, starts]
      cases cutLast? (':' :: rest) <;> rfl
  | case3 character rest _ none => exact absurd none (segmentsOf_ne_nil rest)
  | case4 character rest apart segment segments pieces ih =>
      have inside : afterLead? "::" (character :: rest) = none := by
        rw [← Option.not_isSome_iff_eq_none, Option.isSome_iff_exists]
        rintro ⟨behind, starts⟩
        obtain ⟨rfl, shape⟩ := List.cons.inj (afterLead?_eq_some.mp starts)
        exact apart _ rfl shape
      rw [List.length_cons, ← List.length_cons, ← pieces, ← ih, cutLast?, inside]
      cases cutLast? rest <;> rfl

theorem parent_eq_self_iff (path : String) : parent path = path ↔ (segments path).length < 2 := by
  rw [segments, List.length_map, ← not_le, ← cutLast?_isSome, parent]
  split
  · rename_i front last cut
    refine iff_of_false (fun same => ?_) (by simp [cut])
    have longer := congrArg List.length (eq_of_cutLast? cut)
    rw [← same, String.toList_ofList] at longer
    simp at longer
  · rename_i none
    simp [none]

end Segments

section Components

variable {text : List Char}

theorem sanitizeComponent_cons_word {character : Char} (word : isWordChar character)
    (rest : List Char) :
    sanitizeComponent (character :: rest) = character :: sanitizeComponent rest := by
  simp [sanitizeComponent, replaceChars, word]

theorem isWordChar_of_mem_sanitizeComponent {component : List Char} {character : Char}
    (member : character ∈ sanitizeComponent component) : isWordChar character := by
  simp only [sanitizeComponent, replaceChars, List.mem_flatMap] at member
  obtain ⟨original, _, spelled⟩ := member
  by_cases word : isWordChar original = true
  · simp only [word, if_true, List.mem_singleton] at spelled
    rwa [spelled]
  · have underscore : character = '_' := by
      by_cases basic : original.toNat < 0x10000 <;> simpa [word, basic] using spelled
    rw [underscore]
    decide

theorem sanitizeComponent_of_free (free : '_' ∉ sanitizeComponent text) :
    sanitizeComponent text = text := by
  induction text with
  | nil => rfl
  | cons first rest ih =>
      have parts : sanitizeComponent (first :: rest) =
          sanitizeComponent [first] ++ sanitizeComponent rest := by
        simp [sanitizeComponent, replaceChars]
      rw [parts, List.mem_append, not_or] at free
      have kept : sanitizeComponent [first] = [first] := by
        have here := free.1
        simp only [sanitizeComponent, replaceChars, List.flatMap_singleton] at here ⊢
        by_cases word : isWordChar first = true
        · simp [word]
        · by_cases basic : first.toNat < 0x10000 <;> simp [word, basic] at here
      rw [parts, ih free.2, kept, List.singleton_append]

end Components

end CrateAtlas.ModulePath
