import CrateAtlas.TypeText.Split
import Mathlib.Tactic

/-!
Texts with brackets under the one counter that all kinds of brackets share. Main statement: balanced
pieces are what splitting makes of the pieces joined by their separator, and texts in which every
bracket has its partner are balanced.
-/

namespace CrateAtlas.TypeText

open CrateAtlas.Text

section Counter

def IsSeparator (character : Char) : Prop :=
  isOpener character = false ∧ (∀ previous, isCloser previous character = false) ∧ character ≠ '-'

def Balanced (separator : Char) : Nat → Option Char → List Char → Prop
  | depth, _, [] => depth = 0
  | depth, previous, character :: rest =>
      if isOpener character then Balanced separator (depth + 1) (some character) rest
      else if isCloser previous character then
        ∃ outer, depth = outer + 1 ∧ Balanced separator outer (some character) rest
      else (character = separator → depth ≠ 0) ∧ Balanced separator depth (some character) rest

variable {separator : Char} {depth : Nat} {previous : Option Char} {text rest : List Char}

theorem splitPieces_append (balanced : Balanced separator depth previous text)
    (piece rest : List Char) :
    splitPieces (some separator) depth previous piece (text ++ rest) =
      splitPieces (some separator) 0 (text.getLast?.or previous) (text.reverse ++ piece) rest := by
  induction text generalizing depth previous piece with
  | nil =>
      obtain rfl : depth = 0 := balanced
      rfl
  | cons character others ih =>
      have last : (character :: others).getLast?.or previous =
          others.getLast?.or (some character) := by
        rw [List.getLast?_cons]
        cases others.getLast? <;> rfl
      rw [last, List.cons_append, splitPieces, List.reverse_cons, List.append_assoc]
      simp only [Balanced] at balanced
      split at balanced
      · rw [if_pos ‹_›]
        exact ih balanced (character :: piece)
      · rw [if_neg ‹_›]
        split at balanced
        · obtain ⟨outer, rfl, inner⟩ := balanced
          rw [if_pos ‹_›, Int.natCast_succ, Int.add_sub_cancel]
          exact ih inner (character :: piece)
        · obtain ⟨inside, inner⟩ := balanced
          have together : ¬(some separator = some character && (depth : Int) = 0) := by
            simp only [Bool.and_eq_true, decide_eq_true_eq, Option.some.injEq, not_and]
            exact fun same zero => inside same.symm (by omega)
          rw [if_neg ‹_›, if_neg together]
          exact ih inner (character :: piece)

theorem Balanced.restart (balanced : Balanced separator depth none text)
    (noArrow : previous ≠ some '-') : Balanced separator depth previous text := by
  cases text with
  | nil => exact balanced
  | cons character others =>
      have same : isCloser previous character = isCloser none character := by
        simp [isCloser, noArrow]
      rwa [Balanced, same]

theorem splitPieces_intercalate (separates : IsSeparator separator) {pieces : List (List Char)}
    (filled : pieces ≠ []) (balanced : ∀ piece ∈ pieces, Balanced separator 0 none piece)
    (noArrow : previous ≠ some '-') :
    splitPieces (some separator) 0 previous [] ([separator].intercalate pieces) = pieces := by
  induction pieces generalizing previous with
  | nil => exact absurd rfl filled
  | cons piece others ih =>
      obtain ⟨here, deeper⟩ := List.forall_mem_cons.mp balanced
      have read := splitPieces_append (here.restart noArrow) []
      rw [Nat.cast_zero] at read
      cases others with
      | nil =>
          rw [List.intercalate_singleton, ← List.append_nil piece, read]
          simp [splitPieces]
      | cons second more =>
          obtain ⟨noOpener, noCloser, noDash⟩ := separates
          rw [List.intercalate_cons_cons, List.append_assoc, read, List.singleton_append,
            splitPieces, if_neg (by simp [noOpener]), if_neg (by simp [noCloser]),
            if_pos (by simp), ih (by simp) deeper (by simpa using noDash)]
          simp

/-- Splitting undoes joining, up to the blanks around the separators. -/
theorem splitTopLevelChars_intercalate (separates : IsSeparator separator)
    {pieces : List (List Char)} (balanced : ∀ piece ∈ pieces, Balanced separator 0 none piece) :
    splitTopLevelChars (some separator) ([separator].intercalate pieces) =
      (pieces.map trim).filter (· ≠ []) := by
  cases pieces with
  | nil => rfl
  | cons piece others =>
      rw [splitTopLevelChars, splitPieces_intercalate separates (by simp) balanced (by simp)]

end Counter

section Partners

def partner? : Char → Option Char
  | '<' => some '>'
  | '(' => some ')'
  | '[' => some ']'
  | '\x7b' => some '\x7d'
  | _ => none

/-- Every bracket has its partner, where the bracket of an arrow needs none, and commas stand inside
of brackets; the closing brackets still awaited are listed from the inside out. -/
def isPaired (awaited : List Char) (previous : Option Char) : List Char → Bool
  | [] => awaited.isEmpty
  | character :: rest =>
      match partner? character with
      | some closer => isPaired (closer :: awaited) (some character) rest
      | none =>
          if isCloser previous character then
            awaited.head? = some character && isPaired awaited.tail (some character) rest
          else (character ≠ ',' || !awaited.isEmpty) && isPaired awaited (some character) rest

variable {awaited : List Char} {previous : Option Char} {text : List Char}

theorem isOpener_eq (character : Char) : isOpener character = (partner? character).isSome := by
  unfold isOpener partner?
  split <;> simp_all

theorem isSeparator_comma : IsSeparator ',' := ⟨by decide, fun _ => by simp [isCloser], by decide⟩

theorem isPaired_cases {character : Char} (paired : isPaired awaited previous (character :: text)) :
    (∃ closer, partner? character = some closer ∧
      isPaired (closer :: awaited) (some character) text) ∨
    (partner? character = none ∧ isCloser previous character = true ∧
      ∃ outer, awaited = character :: outer ∧ isPaired outer (some character) text) ∨
    (partner? character = none ∧ isCloser previous character = false ∧
      (character = ',' → awaited ≠ []) ∧ isPaired awaited (some character) text) := by
  rw [isPaired.eq_def] at paired
  dsimp only at paired
  split at paired
  · rename_i closer opens
    exact .inl ⟨closer, opens, paired⟩
  · rename_i opensNot
    refine .inr ?_
    split at paired
    · rename_i closes
      rw [Bool.and_eq_true, decide_eq_true_eq] at paired
      obtain ⟨outer, rfl⟩ := List.head?_eq_some_iff.mp paired.1
      exact .inl ⟨opensNot, closes, outer, rfl, paired.2⟩
    · rename_i closesNot
      rw [Bool.and_eq_true] at paired
      refine .inr ⟨opensNot, by simpa using closesNot, ?_, paired.2⟩
      rintro rfl
      simpa using paired.1

theorem balanced_of_isPaired (paired : isPaired awaited previous text) :
    Balanced ',' awaited.length previous text := by
  induction text generalizing awaited previous with
  | nil => simpa [isPaired, Balanced] using paired
  | cons character rest ih =>
      rw [Balanced, isOpener_eq]
      obtain ⟨closer, opens, inner⟩ | ⟨opensNot, closes, outer, rfl, inner⟩ |
        ⟨opensNot, closesNot, inside, inner⟩ := isPaired_cases paired
      · rw [if_pos (by simp [opens])]
        exact ih inner
      · rw [if_neg (by simp [opensNot]), if_pos closes]
        exact ⟨outer.length, rfl, ih inner⟩
      · rw [if_neg (by simp [opensNot]), if_neg (by simp [closesNot])]
        exact ⟨fun comma => by simpa using inside comma, ih inner⟩

theorem isPaired_of_free (free : ∀ character ∈ text,
      IsSeparator character ∧ character ≠ ',') : isPaired [] previous text := by
  induction text generalizing previous with
  | nil => rfl
  | cons character rest ih =>
      obtain ⟨⟨⟨noOpener, noCloser, _⟩, noComma⟩, others⟩ := List.forall_mem_cons.mp free
      rw [isOpener_eq, Option.isSome_eq_false_iff, Option.isNone_iff_eq_none] at noOpener
      simp [isPaired, noOpener, noCloser, noComma, ih others]

theorem splitTopLevelChars_paired {pieces : List (List Char)}
    (paired : ∀ piece ∈ pieces, isPaired [] none piece) :
    splitTopLevelChars (some ',') ([','].intercalate pieces) =
      (pieces.map trim).filter (· ≠ []) :=
  splitTopLevelChars_intercalate isSeparator_comma fun piece member =>
    balanced_of_isPaired (paired piece member)

end Partners

end CrateAtlas.TypeText
