import CrateAtlas.Proofs.Text.Lines

/-!
Blanks against the characters of words, and what is left of a text when its blanks are normalized.
Main statement: a normalized text holds single spaces and the visible characters of the text.
-/

namespace CrateAtlas.Text

variable {character : Char} {text : List Char}

theorem isBlank_of_isNameChar (name : isNameChar character) : isBlank character = false := by
  have code : character.val.toNat = character.toNat := rfl
  simp only [isNameChar, isWordChar, isWordStart, isAsciiLetter, isAsciiDigit, Bool.or_eq_true,
    Bool.and_eq_true, decide_eq_true_eq, Char.le_def, UInt32.le_iff_toNat_le, code,
    Char.ext_iff, ← UInt32.toNat_inj] at name
  have bounds : character.toNat = 0x2D ∨ 0x30 ≤ character.toNat ∧ character.toNat < 0x7B := by
    simp at name
    omega
  simp only [isBlank]
  simp
  omega

theorem isNameChar_of_isBlank (blank : isBlank character) : isNameChar character = false := by
  by_contra name
  rw [Bool.not_eq_false] at name
  rw [isBlank_of_isNameChar name] at blank
  simp at blank

theorem isBlank_of_isLineBreak (lineBreak : isLineBreak character) : isBlank character := by
  simp only [isLineBreak, Bool.or_eq_true, decide_eq_true_eq] at lineBreak
  obtain ((rfl | rfl) | code) | code := lineBreak
  · decide
  · decide
  · simp [isBlank, code]
  · simp [isBlank, code]

theorem mem_collapseRuns {inRun : Bool} (member : character ∈ collapseRuns inRun text) :
    character = ' ' ∨ character ∈ text ∧ isBlank character = false := by
  induction text generalizing inRun with
  | nil => simp [collapseRuns] at member
  | cons first rest ih =>
      have later {inRun : Bool} (deeper : character ∈ collapseRuns inRun rest) :
          character = ' ' ∨ character ∈ first :: rest ∧ isBlank character = false :=
        (ih deeper).imp_right fun ⟨held, visible⟩ => ⟨List.mem_cons_of_mem first held, visible⟩
      simp only [collapseRuns] at member
      split at member
      · split at member
        · exact later member
        · rcases List.mem_cons.mp member with rfl | deeper
          · exact .inl rfl
          · exact later deeper
      · rename_i visible
        rcases List.mem_cons.mp member with rfl | deeper
        · exact .inr ⟨List.mem_cons_self, by simpa using visible⟩
        · exact later deeper

section Runs

variable {inRun : Bool} {left right gap : List Char}

theorem collapseRuns_of_head (head : ∀ character ∈ text.head?, isBlank character = false) :
    collapseRuns inRun text = collapseRuns false text := by
  cases text with
  | nil => rfl
  | cons first rest => simp [collapseRuns, head first rfl]

theorem collapseRuns_append (head : ∀ character ∈ right.head?, isBlank character = false) :
    collapseRuns inRun (left ++ right) = collapseRuns inRun left ++ collapseRuns false right := by
  induction left generalizing inRun with
  | nil => exact collapseRuns_of_head head
  | cons first rest ih =>
      simp only [List.cons_append, collapseRuns]
      split
      · split
        · exact ih
        · rw [ih, List.cons_append]
      · rw [ih, List.cons_append]

theorem collapseRuns_visible_append (filled : left ≠ [])
    (visible : ∀ character ∈ left, isBlank character = false) :
    collapseRuns inRun (left ++ right) = left ++ collapseRuns false right := by
  induction left generalizing inRun with
  | nil => exact absurd rfl filled
  | cons first rest ih =>
      obtain ⟨here, others⟩ := List.forall_mem_cons.mp visible
      rw [List.cons_append, collapseRuns, if_neg (by simp [here]), List.cons_append]
      cases rest with
      | nil => rfl
      | cons second more => rw [ih (by simp) others]

theorem collapseRuns_blanks (blank : ∀ character ∈ gap, isBlank character) :
    collapseRuns inRun gap = if gap = [] ∨ inRun then [] else [' '] := by
  induction gap generalizing inRun with
  | nil => rfl
  | cons first rest ih =>
      obtain ⟨here, others⟩ := List.forall_mem_cons.mp blank
      rw [collapseRuns, if_pos here, ih others]
      simp

end Runs

theorem dropBlanks_append (left right : List Char) :
    dropBlanks (left ++ right) = dropBlanks left ++ dropBlanks right :=
  List.filter_append ..

theorem dropBlanks_of_visible (visible : ∀ character ∈ text, isBlank character = false) :
    dropBlanks text = text := by
  rw [dropBlanks, List.filter_eq_self]
  intro character member
  rw [visible character member]
  rfl

theorem dropBlanks_of_blank (blank : ∀ character ∈ text, isBlank character) :
    dropBlanks text = [] := by
  rw [dropBlanks, List.filter_eq_nil_iff]
  intro character member
  simp [blank character member]

theorem mem_normalize (member : character ∈ normalize text) :
    character = ' ' ∨ character ∈ text ∧ isBlank character = false :=
  mem_collapseRuns (mem_of_mem_trim member)

end CrateAtlas.Text
