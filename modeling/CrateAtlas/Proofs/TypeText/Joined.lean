import CrateAtlas.Proofs.Text.Blanks
import CrateAtlas.Proofs.TypeText.Split

/-!
Splitting against joining. Main statement: pieces with balanced brackets, joined by a separator with
any blanks around it, are what splitting gives back, and what it makes of any text with balanced
brackets are such pieces.
-/

namespace CrateAtlas.TypeText

open CrateAtlas.Text

section Depth

/-- What a character adds to the count of open brackets; the bracket of an arrow closes nothing. -/
def weight (previous : Option Char) (character : Char) : Int :=
  if character ∈ ['<', '(', '[', '\x7b'] then 1
  else if character ∈ [')', ']', '\x7d'] ∨ character = '>' ∧ previous ≠ some '-' then -1
  else 0

def depthFrom (previous : Option Char) : List Char → Int
  | [] => 0
  | character :: rest => weight previous character + depthFrom (some character) rest

/-- From a depth on, no bracket is closed that is not open, and in the end none is open. -/
structure BalancedFrom (start : Int) (previous : Option Char) (text : List Char) : Prop where
  never : ∀ front, front <+: text → 0 ≤ start + depthFrom previous front
  closed : start + depthFrom previous text = 0

/-- From a depth on, the separator only stands inside of brackets. -/
def NestedFrom (separator : Char) (start : Int) (previous : Option Char) (text : List Char) :
    Prop :=
  ∀ front, front ++ [separator] <+: text → start + depthFrom previous front ≠ 0

variable {separator character : Char} {previous : Option Char} {text rest : List Char}

theorem balancedFrom_iff {start : Int} : BalancedFrom start previous text ↔
    (∀ front ∈ text.inits, 0 ≤ start + depthFrom previous front) ∧
      start + depthFrom previous text = 0 := by
  simp only [List.mem_inits]
  exact ⟨fun ⟨never, closed⟩ => ⟨never, closed⟩, fun ⟨never, closed⟩ => ⟨never, closed⟩⟩

theorem nestedFrom_iff {start : Int} : NestedFrom separator start previous text ↔
    ∀ front ∈ text.inits, front ++ [separator] <+: text →
      start + depthFrom previous front ≠ 0 := by
  simp only [List.mem_inits]
  exact ⟨fun nested front _ => nested front,
    fun nested front leads => nested front ((List.prefix_append front _).trans leads) leads⟩

instance (start : Int) : Decidable (BalancedFrom start previous text) :=
  decidable_of_iff _ balancedFrom_iff.symm

instance (start : Int) : Decidable (NestedFrom separator start previous text) :=
  decidable_of_iff _ nestedFrom_iff.symm

theorem isOpener_iff : isOpener character ↔ character ∈ ['<', '(', '[', '\x7b'] := by
  simp [isOpener, or_assoc]

theorem isCloser_iff : isCloser previous character ↔
    character ∈ [')', ']', '\x7d'] ∨ character = '>' ∧ previous ≠ some '-' := by
  simp only [isCloser, Bool.or_eq_true, Bool.and_eq_true, decide_eq_true_eq, List.mem_cons,
    List.not_mem_nil, or_false]
  tauto

theorem weight_eq (previous : Option Char) (character : Char) :
    weight previous character =
      if isOpener character then 1 else if isCloser previous character then -1 else 0 := by
  simp only [weight, isOpener_iff, isCloser_iff]

theorem balancedFrom_cons {start : Int} :
    BalancedFrom start previous (character :: rest) ↔
      0 ≤ start ∧ BalancedFrom (start + weight previous character) (some character) rest := by
  constructor
  · intro balanced
    refine ⟨by simpa [depthFrom] using balanced.never [] List.nil_prefix, fun front leads => ?_, ?_⟩
    · have bound := balanced.never (character :: front) (List.cons_prefix_cons.mpr ⟨rfl, leads⟩)
      rw [depthFrom] at bound
      omega
    · have closed := balanced.closed
      rw [depthFrom] at closed
      omega
  · rintro ⟨bound, balanced⟩
    refine ⟨fun front leads => ?_, ?_⟩
    · rcases List.prefix_cons_iff.mp leads with rfl | ⟨inner, rfl, within⟩
      · simpa [depthFrom] using bound
      · have later := balanced.never inner within
        rw [depthFrom]
        omega
    · have closed := balanced.closed
      rw [depthFrom]
      omega

theorem nestedFrom_cons {start : Int} :
    NestedFrom separator start previous (character :: rest) ↔
      (character = separator → start ≠ 0) ∧
        NestedFrom separator (start + weight previous character) (some character) rest := by
  constructor
  · intro nested
    refine ⟨?_, fun front leads => ?_⟩
    · rintro rfl
      simpa [depthFrom] using nested [] (by simp)
    · have inside := nested (character :: front) (List.prefix_cons_inj character |>.mpr leads)
      rw [depthFrom] at inside
      omega
  · rintro ⟨here, nested⟩ front leads
    cases front with
    | nil =>
        obtain rfl : separator = character := by simpa using leads
        simpa [depthFrom] using here rfl
    | cons first inner =>
        rw [List.cons_append, List.cons_prefix_cons] at leads
        obtain ⟨rfl, leads⟩ := leads
        have later := nested inner leads
        rw [depthFrom]
        omega

theorem balanced_iff (separates : IsSeparator separator) (start : Nat) (previous : Option Char)
    (text : List Char) :
    Balanced separator start previous text ↔
      BalancedFrom start previous text ∧ NestedFrom separator start previous text := by
  induction text generalizing start previous with
  | nil =>
      rw [Balanced]
      constructor
      · rintro rfl
        refine ⟨⟨fun front leads => ?_, rfl⟩, fun front leads => by simp at leads⟩
        rw [List.prefix_nil.mp leads]
        rfl
      · intro both
        have closed := both.1.closed
        rw [depthFrom] at closed
        omega
  | cons character rest ih =>
      rw [balancedFrom_cons, nestedFrom_cons, weight_eq, Balanced]
      split
      · rename_i opens
        have apart : character ≠ separator := by
          rintro rfl
          simp [separates.1] at opens
        rw [ih, Nat.cast_succ]
        simp [apart]
      · split
        · rename_i closes
          have apart : character ≠ separator := by
            rintro rfl
            simp [separates.2.1] at closes
          constructor
          · rintro ⟨outer, rfl, inner⟩
            obtain ⟨balanced, nested⟩ := (ih outer (some character)).mp inner
            have below : ((outer + 1 : Nat) : Int) + -1 = outer := by omega
            rw [below]
            exact ⟨⟨by omega, balanced⟩, fun same => absurd same apart, nested⟩
          · rintro ⟨⟨-, balanced⟩, -, nested⟩
            have positive := balanced.never [] List.nil_prefix
            rw [depthFrom] at positive
            obtain ⟨outer, rfl⟩ : ∃ outer, start = outer + 1 := ⟨start - 1, by omega⟩
            have below : ((outer + 1 : Nat) : Int) + -1 = outer := by omega
            rw [below] at balanced nested
            exact ⟨outer, rfl, (ih outer (some character)).mpr ⟨balanced, nested⟩⟩
        · rw [ih, Int.add_zero]
          simp only [Int.natCast_nonneg, true_and, ne_eq, Int.natCast_eq_zero]
          tauto

end Depth

section Blanks

variable {separator character : Char} {start : Nat} {previous : Option Char}
  {text lead tail : List Char}

theorem isSeparator_iff : IsSeparator character ↔
    character ∉ ['<', '(', '[', '\x7b', '>', ')', ']', '\x7d', '-'] := by
  simp only [IsSeparator, ← Bool.not_eq_true, isOpener_iff, isCloser_iff]
  simp only [List.mem_cons, List.not_mem_nil, or_false]
  constructor
  · rintro ⟨opensNot, closesNot, noDash⟩
    have none := closesNot none
    simp at none
    tauto
  · intro other
    refine ⟨by tauto, fun previous => by tauto, by tauto⟩

theorem isSeparator_of_isBlank (blank : isBlank character) : IsSeparator character := by
  rw [isSeparator_iff]
  intro member
  have visible : ∀ mark ∈ ['<', '(', '[', '\x7b', '>', ')', ']', '\x7d', '-'],
      isBlank mark = false := by simp [isBlank]
  rw [visible character member] at blank
  exact absurd blank Bool.false_ne_true

theorem balanced_restart (noArrow : previous ≠ some '-') :
    Balanced separator start previous text ↔ Balanced separator start none text := by
  refine ⟨fun balanced => ?_, fun balanced => balanced.restart noArrow⟩
  cases text with
  | nil => exact balanced
  | cons character others =>
      have same : isCloser previous character = isCloser none character := by
        simp [isCloser, noArrow]
      rwa [Balanced, same] at balanced

theorem balanced_blank_cons (solid : isBlank separator = false) (blank : isBlank character) :
    Balanced separator start previous (character :: text) ↔ Balanced separator start none text := by
  obtain ⟨opensNot, closesNot, noDash⟩ := isSeparator_of_isBlank blank
  have apart : character ≠ separator := by
    rintro rfl
    rw [solid] at blank
    exact absurd blank Bool.false_ne_true
  rw [Balanced, if_neg (by simp [opensNot]), if_neg (by simp [closesNot]),
    balanced_restart (by simpa using noDash)]
  simp [apart]

theorem balanced_blanks_append (solid : isBlank separator = false)
    (blank : ∀ character ∈ lead, isBlank character) :
    Balanced separator start none (lead ++ text) ↔ Balanced separator start none text := by
  induction lead with
  | nil => rfl
  | cons first rest ih =>
      obtain ⟨here, others⟩ := List.forall_mem_cons.mp blank
      rw [List.cons_append, balanced_blank_cons solid here, ih others]

theorem balanced_append_blanks (solid : isBlank separator = false)
    (blank : ∀ character ∈ tail, isBlank character) :
    Balanced separator start previous (text ++ tail) ↔ Balanced separator start previous text := by
  induction text generalizing start previous with
  | nil =>
      rw [List.nil_append]
      cases tail with
      | nil => rfl
      | cons first rest =>
          obtain ⟨here, others⟩ := List.forall_mem_cons.mp blank
          have ended : Balanced separator start none (rest ++ []) ↔
              Balanced separator start none [] := balanced_blanks_append solid others
          rw [balanced_blank_cons solid here, ← List.append_nil rest, ended]
          rfl
  | cons first rest ih => simp only [List.cons_append, Balanced, ih]

theorem balanced_trim (solid : isBlank separator = false) (text : List Char) :
    Balanced separator start none (trim text) ↔ Balanced separator start none text := by
  obtain ⟨lead, tail, whole, leadBlank, tailBlank⟩ := exists_blanks_trim text
  conv_rhs => rw [whole]
  rw [balanced_blanks_append solid leadBlank, balanced_append_blanks solid tailBlank]

end Blanks

section Joining

/-- A text that is the pieces with the separator in between, and with any blanks around it. -/
inductive Joined (separator : Char) : List (List Char) → List Char → Prop
  | nothing : Joined separator [] []
  | one (piece : List Char) : Joined separator [piece] piece
  | more (piece left right : List Char) {second : List Char} {others : List (List Char)}
      {text : List Char} : (∀ character ∈ left, isBlank character) →
      (∀ character ∈ right, isBlank character) → Joined separator (second :: others) text →
      Joined separator (piece :: second :: others) (piece ++ left ++ separator :: (right ++ text))

def Padded (piece wide : List Char) : Prop :=
  ∃ left right, wide = left ++ (piece ++ right) ∧ (∀ character ∈ left, isBlank character) ∧
    ∀ character ∈ right, isBlank character

variable {separator : Char} {pieces padded : List (List Char)} {piece wide text : List Char}

theorem Padded.balanced (solid : isBlank separator = false) (blanks : Padded piece wide)
    (balanced : Balanced separator 0 none piece) : Balanced separator 0 none wide := by
  obtain ⟨left, right, rfl, leftBlank, rightBlank⟩ := blanks
  rwa [balanced_blanks_append solid leftBlank, balanced_append_blanks solid rightBlank]

theorem Padded.trim_eq (blanks : Padded piece wide) (trimmed : Trimmed piece) :
    trim wide = piece := by
  obtain ⟨left, right, rfl, leftBlank, rightBlank⟩ := blanks
  rw [trim_blanks_append leftBlank, trim_append_blanks rightBlank, trim_of_trimmed trimmed]

theorem Padded.blanks_append {lead : List Char} (blanks : Padded piece wide)
    (blank : ∀ character ∈ lead, isBlank character) : Padded piece (lead ++ wide) := by
  obtain ⟨left, right, rfl, leftBlank, rightBlank⟩ := blanks
  refine ⟨lead ++ left, right, by simp, fun character member => ?_, rightBlank⟩
  exact (List.mem_append.mp member).elim (blank character) (leftBlank character)

theorem intercalate_append (front wide : List Char) (others : List (List Char)) :
    [separator].intercalate ((front ++ wide) :: others) =
      front ++ [separator].intercalate (wide :: others) := by
  cases others <;> simp [List.intercalate_cons_cons, List.intercalate_singleton]

theorem Joined.exists_padded (joined : Joined separator pieces text) :
    ∃ padded, text = [separator].intercalate padded ∧ List.Forall₂ Padded pieces padded := by
  induction joined with
  | nothing => exact ⟨[], rfl, .nil⟩
  | one piece =>
      refine ⟨[piece], (List.intercalate_singleton ..).symm, .cons ?_ .nil⟩
      exact ⟨[], [], by simp, by simp, by simp⟩
  | more piece left right leftBlank rightBlank _ ih =>
      obtain ⟨padded, rfl, related⟩ := ih
      obtain ⟨wide, wider, blanks, others, rfl⟩ := List.forall₂_cons_left_iff.mp related
      refine ⟨(piece ++ left) :: (right ++ wide) :: wider, ?_,
        .cons ⟨[], left, rfl, by simp, leftBlank⟩ (.cons (blanks.blanks_append rightBlank) others)⟩
      rw [List.intercalate_cons_cons, intercalate_append]
      simp

theorem forall_padded (solid : isBlank separator = false)
    (related : List.Forall₂ Padded pieces padded)
    (sound : ∀ piece ∈ pieces, Trimmed piece ∧ Balanced separator 0 none piece) :
    padded.map trim = pieces ∧ ∀ wide ∈ padded, Balanced separator 0 none wide := by
  induction related with
  | nil => simp
  | cons blanks _ ih =>
      obtain ⟨⟨trimmed, balanced⟩, later⟩ := List.forall_mem_cons.mp sound
      obtain ⟨trims, others⟩ := ih later
      rw [List.map_cons, blanks.trim_eq trimmed, trims]
      exact ⟨rfl, List.forall_mem_cons.mpr ⟨blanks.balanced solid balanced, others⟩⟩

end Joining

section Pieces

variable {separator : Char} {previous : Option Char} {start : Nat} {text : List Char}

/-- What a text between two separators is, without the blanks around it. -/
structure IsPiece (separator : Char) (piece : List Char) : Prop where
  filled : piece ≠ []
  trimmed : Trimmed piece
  balanced : BalancedFrom 0 none piece
  nested : NestedFrom separator 0 none piece

theorem isPiece_iff {piece : List Char} : IsPiece separator piece ↔
    piece ≠ [] ∧ trim piece = piece ∧ BalancedFrom 0 none piece ∧
      NestedFrom separator 0 none piece := by
  rw [← trimmed_iff]
  exact ⟨fun ⟨filled, trimmed, balanced, nested⟩ => ⟨filled, trimmed, balanced, nested⟩,
    fun ⟨filled, trimmed, balanced, nested⟩ => ⟨filled, trimmed, balanced, nested⟩⟩

instance (piece : List Char) : Decidable (IsPiece separator piece) :=
  decidable_of_iff _ isPiece_iff.symm

theorem weight_of_isSeparator (separates : IsSeparator separator) :
    weight previous separator = 0 := by
  rw [weight_eq, separates.1, separates.2.1]
  rfl

/-- A text with balanced brackets comes apart at the separators that stand outside of them. -/
theorem BalancedFrom.exists_pieces (balanced : BalancedFrom start previous text)
    (separates : IsSeparator separator) :
    ∃ first others, text = [separator].intercalate (first :: others) ∧
      Balanced separator start previous first ∧
        ∀ piece ∈ others, Balanced separator 0 none piece := by
  induction text generalizing start previous with
  | nil =>
      have closed := balanced.closed
      rw [depthFrom] at closed
      exact ⟨[], [], rfl, by rw [Balanced]; omega, by simp⟩
  | cons character rest ih =>
      obtain ⟨-, inner⟩ := balancedFrom_cons.mp balanced
      have bound := inner.never [] List.nil_prefix
      rw [depthFrom, Int.add_zero] at bound
      obtain ⟨depth, reached⟩ := Int.eq_ofNat_of_zero_le bound
      rw [reached] at inner
      obtain ⟨first, others, rfl, here, later⟩ := ih inner
      by_cases outside : character = separator ∧ start = 0
      · obtain ⟨rfl, rfl⟩ := outside
        obtain rfl : depth = 0 := by
          rw [weight_of_isSeparator separates] at reached
          omega
        have restarted := (balanced_restart (by simpa using separates.2.2)).mp here
        exact ⟨[], first :: others, rfl, rfl, List.forall_mem_cons.mpr ⟨restarted, later⟩⟩
      · refine ⟨character :: first, others, ?_, ?_, later⟩
        · exact (intercalate_append [character] first others).symm
        · obtain ⟨closed, nested⟩ := (balanced_iff separates ..).mp here
          rw [balanced_iff separates, balancedFrom_cons, nestedFrom_cons, reached]
          exact ⟨⟨by omega, closed⟩, fun same zero => outside ⟨same, by omega⟩, nested⟩

theorem splitTopLevelChars_joined (separates : IsSeparator separator)
    (solid : isBlank separator = false) {pieces : List (List Char)}
    (joined : Joined separator pieces text) (sound : ∀ piece ∈ pieces, IsPiece separator piece) :
    splitTopLevelChars (some separator) text = pieces := by
  obtain ⟨padded, rfl, related⟩ := joined.exists_padded
  have inside : ∀ piece ∈ pieces, Trimmed piece ∧ Balanced separator 0 none piece := by
    intro piece member
    obtain ⟨-, trimmed, balanced, nested⟩ := sound piece member
    exact ⟨trimmed, (balanced_iff separates ..).mpr ⟨balanced, nested⟩⟩
  obtain ⟨trims, balanced⟩ := forall_padded solid related inside
  rw [splitTopLevelChars_intercalate separates balanced, trims, List.filter_eq_self]
  exact fun piece member => decide_eq_true (sound piece member).filled

theorem isPiece_of_mem_splitTopLevelChars (separates : IsSeparator separator)
    (solid : isBlank separator = false) (balanced : BalancedFrom 0 none text) {piece : List Char}
    (member : piece ∈ splitTopLevelChars (some separator) text) : IsPiece separator piece := by
  rw [← Int.ofNat_zero] at balanced
  obtain ⟨first, others, rfl, here, later⟩ := balanced.exists_pieces separates
  have wides : ∀ wide ∈ first :: others, Balanced separator 0 none wide :=
    List.forall_mem_cons.mpr ⟨here, later⟩
  rw [splitTopLevelChars_intercalate separates wides, List.mem_filter, List.mem_map] at member
  obtain ⟨⟨wide, listed, rfl⟩, filled⟩ := member
  have trimmed := (balanced_trim solid wide).mpr (wides wide listed)
  obtain ⟨closed, nested⟩ := (balanced_iff separates 0 none (trim wide)).mp trimmed
  exact ⟨by simpa using filled, trimmed_trim wide, closed, nested⟩

theorem separatorOf_singleton (single : separator.toNat < 0x10000) :
    separatorOf (String.singleton separator) = some separator := by
  simp [separatorOf, single]

/-- Splitting undoes joining, and what it makes of a text with balanced brackets are pieces. -/
theorem splitTopLevel_undoes_joining {separator : Char}
    (ordinary : separator ∉ ['<', '(', '[', '\x7b', '>', ')', ']', '\x7d', '-'])
    (visible : isBlank separator = false) (single : separator.toNat < 0x10000) :
    (∀ (pieces : List String) (text : String),
      Joined separator (pieces.map String.toList) text.toList →
      (∀ piece ∈ pieces, IsPiece separator piece.toList) →
      splitTopLevel text (String.singleton separator) = pieces) ∧
    ∀ text : String, BalancedFrom 0 none text.toList →
      ∀ piece ∈ splitTopLevel text (String.singleton separator),
        IsPiece separator piece.toList := by
  have separates := isSeparator_iff.mpr ordinary
  simp only [splitTopLevel, separatorOf_singleton single]
  constructor
  · intro pieces text joined sound
    rw [splitTopLevelChars_joined separates visible joined (List.forall_mem_map.mpr sound)]
    simp [List.map_map, Function.comp_def]
  · intro text balanced
    refine List.forall_mem_map.mpr fun piece member => ?_
    rw [String.toList_ofList]
    exact isPiece_of_mem_splitTopLevelChars separates visible balanced member

theorem splitTopLevel_undoes_joining_comma :
    splitTopLevel "Vec<(A, B)> ,  fn(C) -> D" (String.singleton ',') =
      ["Vec<(A, B)>", "fn(C) -> D"] ∧
    ∀ piece ∈ splitTopLevel " fn(A, B) -> C,, D " (String.singleton ','),
      IsPiece ',' piece.toList := by
  obtain ⟨joins, splits⟩ :=
    @splitTopLevel_undoes_joining ',' (by decide) (by decide) (by decide)
  constructor
  · refine joins ["Vec<(A, B)>", "fn(C) -> D"] "Vec<(A, B)> ,  fn(C) -> D" ?_ ?_
    · exact .more "Vec<(A, B)>".toList [' '] [' ', ' '] (by simp [isBlank]) (by simp [isBlank])
        (.one _)
    · rintro piece (_ | ⟨_, _ | ⟨_, ⟨⟩⟩⟩)
      · decide +kernel
      · decide +kernel
  · exact splits " fn(A, B) -> C,, D " (by decide +kernel)

theorem splitPieces_none (depth : Int) (previous : Option Char) (piece text : List Char) :
    splitPieces none depth previous piece text = [piece.reverse ++ text] := by
  induction text generalizing depth previous piece with
  | nil => simp [splitPieces]
  | cons character rest ih => simp [splitPieces, ih]

theorem splitTopLevel_wide {separator : Char} (wide : 0x10000 ≤ separator.toNat) (text : String) :
    splitTopLevel text (String.singleton separator) =
      ([trim text.toList].filter (· ≠ [])).map String.ofList := by
  have nothing : separatorOf (String.singleton separator) = none := by
    simp [separatorOf, wide]
  rw [splitTopLevel, nothing, splitTopLevelChars, splitPieces_none]
  rfl

theorem splitTopLevel_wide_separator :
    '𝄞' ∉ ['<', '(', '[', '\x7b', '>', ')', ']', '\x7d', '-'] ∧ isBlank '𝄞' = false ∧
    Joined '𝄞' (["A", "B"].map String.toList) "A𝄞B".toList ∧
    (∀ piece ∈ ["A", "B"], IsPiece '𝄞' piece.toList) ∧
    splitTopLevel "A𝄞B" (String.singleton '𝄞') ≠ ["A", "B"] := by
  refine ⟨by decide, by decide, .more ['A'] [] [] (by simp) (by simp) (.one ['B']), ?_, by decide⟩
  rintro piece (_ | ⟨_, _ | ⟨_, ⟨⟩⟩⟩)
  · decide +kernel
  · decide +kernel

end Pieces

end CrateAtlas.TypeText
