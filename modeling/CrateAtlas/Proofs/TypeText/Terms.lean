import CrateAtlas.Proofs.TypeText.Split
import CrateAtlas.Proofs.TypeText.TypePath

/-!
Types as trees and the texts they are printed as. Main statements: normalizing a printed type leaves
it as it is, taking its qualifiers off leaves the type they stand in front of, and no separator
stands in it outside of brackets.
-/

namespace CrateAtlas.TypeText

open Text

section Printing

/-- Identifiers joined by `::`. -/
structure PlainPath where
  head : Identifier
  tail : List Identifier

def PlainPath.text (path : PlainPath) : List Char :=
  path.head.text ++ path.tail.flatMap fun name => ':' :: ':' :: name.text

def PlainPath.name (path : PlainPath) : String :=
  String.ofList path.text

def PlainPath.last (path : PlainPath) : Identifier :=
  path.tail.getLast?.getD path.head

/-- What stands in front of a type that it marks as a reference or a pointer. -/
inductive Mark where
  | reference
  | outliving (lifetime : Lifetime)
  | mutable
  | constPointer
  | mutPointer

def Mark.text : Mark → List Char
  | .reference => ['&']
  | .outliving lifetime => '&' :: '\'' :: (lifetime.name ++ [' '])
  | .mutable => ['&', 'm', 'u', 't', ' ']
  | .constPointer => ['*', 'c', 'o', 'n', 's', 't', ' ']
  | .mutPointer => ['*', 'm', 'u', 't', ' ']

def Mark.qualifiers : Mark → List Qualifier
  | .reference => [.reference .none]
  | .outliving lifetime => [.reference .none, .lifetime lifetime .single]
  | .mutable => [.reference .none, .word "mut" List.mem_cons_self .single]
  | .constPointer => [.pointer "*const" List.mem_cons_self .single]
  | .mutPointer => [.pointer "*mut" (List.mem_cons_of_mem _ List.mem_cons_self) .single]

structure Decimal where
  digits : List Char
  filled : digits ≠ []
  numeric : ∀ digit ∈ digits, isAsciiDigit digit

inductive TypeTerm where
  | path (path : PlainPath) (arguments : List TypeTerm)
  | marked (mark : Mark) (type : TypeTerm)
  | tuple (members : List TypeTerm)
  | slice (element : TypeTerm)
  | array (element : TypeTerm) (length : Decimal)

def wrapped (opener closer : Char) (inner : List Char) : List Char :=
  opener :: (inner ++ [closer])

def commaList (texts : List (List Char)) : List Char :=
  [',', ' '].intercalate texts

theorem commaList_cons_cons (first second : List Char) (others : List (List Char)) :
    commaList (first :: second :: others) =
      first ++ ([','] ++ ' ' :: commaList (second :: others)) := by
  rw [commaList, List.intercalate_cons_cons, List.append_assoc]
  rfl

theorem commaList_cons (first : List Char) (others : List (List Char)) :
    ∃ left, commaList (first :: others) = first ++ left := by
  cases others with
  | nil => exact ⟨[], by simp [commaList]⟩
  | cons second more => exact ⟨_, commaList_cons_cons first second more⟩

def angled (arguments : List (List Char)) : List Char :=
  if arguments.isEmpty then [] else wrapped '<' '>' (commaList arguments)

mutual

def TypeTerm.text : TypeTerm → List Char
  | .path path arguments => path.text ++ angled (textsOf arguments)
  | .marked mark type => mark.text ++ type.text
  | .tuple members => wrapped '(' ')' (commaList (textsOf members))
  | .slice element => wrapped '[' ']' element.text
  | .array element length => wrapped '[' ']' (element.text ++ ([';'] ++ ' ' :: length.digits))

def textsOf : List TypeTerm → List (List Char)
  | [] => []
  | type :: types => type.text :: textsOf types

end

mutual

/-- The lifetimes of the type have names of word characters only. -/
def TypeTerm.isSpelled : TypeTerm → Bool
  | .path _ arguments => areSpelled arguments
  | .marked mark type => mark.qualifiers.all Qualifier.isSpelled && type.isSpelled
  | .tuple members => areSpelled members
  | .slice element => element.isSpelled
  | .array element _ => element.isSpelled

def areSpelled : List TypeTerm → Bool
  | [] => true
  | type :: types => type.isSpelled && areSpelled types

end

theorem textsOf_eq_map (types : List TypeTerm) : textsOf types = types.map TypeTerm.text := by
  induction types with
  | nil => rfl
  | cons type others ih => rw [textsOf, ih, List.map_cons]

theorem areSpelled_iff {types : List TypeTerm} :
    areSpelled types ↔ ∀ type ∈ types, type.isSpelled := by
  induction types with
  | nil => simp [areSpelled]
  | cons type others ih => rw [areSpelled, Bool.and_eq_true, ih, List.forall_mem_cons]

/-- Induction on types where a list of types gives a hypothesis for each of them. -/
@[induction_eliminator]
theorem TypeTerm.induct {motive : TypeTerm → Prop}
    (path : ∀ path arguments, (∀ type ∈ arguments, motive type) → motive (.path path arguments))
    (marked : ∀ mark type, motive type → motive (.marked mark type))
    (tuple : ∀ members, (∀ type ∈ members, motive type) → motive (.tuple members))
    (slice : ∀ element, motive element → motive (.slice element))
    (array : ∀ element length, motive element → motive (.array element length))
    (type : TypeTerm) : motive type :=
  @TypeTerm.rec motive (fun types => ∀ type ∈ types, motive type) path marked tuple slice array
    (by simp) (fun _ _ first others => List.forall_mem_cons.mpr ⟨first, others⟩) type

def TypeTerm.core : TypeTerm → TypeTerm
  | .marked _ type => type.core
  | type => type

def TypeTerm.qualifiers : TypeTerm → List Qualifier
  | .marked mark type => mark.qualifiers ++ type.qualifiers
  | _ => []

theorem Mark.text_eq (mark : Mark) : mark.text = mark.qualifiers.flatMap Qualifier.text := by
  cases mark <;> simp [text, qualifiers, Qualifier.text, Gap.none, Space.single]

theorem TypeTerm.text_eq_qualified (type : TypeTerm) :
    type.text = qualified type.qualifiers type.core.text := by
  induction type with
  | marked mark type ih =>
      rw [text, ih, mark.text_eq, qualifiers, qualified, qualified, List.flatMap_append,
        List.append_assoc, core]
  | path | tuple | slice | array => rfl

theorem TypeTerm.isSpelled_qualifiers {type : TypeTerm} (spelled : type.isSpelled) :
    ∀ qualifier ∈ type.qualifiers, qualifier.isSpelled := by
  induction type with
  | marked mark type ih =>
      rw [isSpelled, Bool.and_eq_true, List.all_eq_true] at spelled
      exact List.forall_mem_append.mpr ⟨spelled.1, ih spelled.2⟩
  | path | tuple | slice | array => simp [qualifiers]

end Printing

section Cores

variable {opener closer character : Char} {marks : List Char}

theorem not_mem_of_isIdentifierChar (apart : marks.all fun mark => !isIdentifierChar mark)
    (letter : isIdentifierChar character) : character ∉ marks := by
  intro member
  have noLetter := List.all_eq_true.mp apart character member
  simp [letter] at noLetter

theorem PlainPath.letters (path : PlainPath) :
    ∀ character ∈ path.text, isIdentifierChar character ∨ character = ':' := by
  intro character member
  rcases List.mem_append.mp member with inHead | inTail
  · exact .inl (path.head.letters character inHead)
  · obtain ⟨name, _, inside⟩ := List.mem_flatMap.mp inTail
    simp only [List.mem_cons] at inside
    rcases inside with rfl | rfl | inName
    · exact .inr rfl
    · exact .inr rfl
    · exact .inl (name.letters character inName)

theorem PlainPath.visible (path : PlainPath) :
    ∀ character ∈ path.text, isBlank character = false := by
  intro character member
  rcases path.letters character member with letter | rfl
  · exact isBlank_of_isIdentifierChar letter
  · decide

theorem PlainPath.text_ne_nil (path : PlainPath) : path.text ≠ [] := by
  simp [text, path.head.filled]

theorem trimmed_wrapped (visible : isBlank opener = false ∧ isBlank closer = false)
    (inner : List Char) : Trimmed (wrapped opener closer inner) where
  head := by simpa [wrapped] using visible.1
  last := by simpa [wrapped, List.getLast?_cons, List.getLast?_append] using visible.2

theorem unqualified_wrapped (plain : Plain opener) (apart : opener ∉ ['&', '\'', '*'])
    (noWord : opener ∉ ['m', 'd', 'i', 'c']) (visible : isBlank closer = false)
    (inner : List Char) : Unqualified (wrapped opener closer inner) where
  trimmed := trimmed_wrapped ⟨plain.visible, visible⟩ inner
  head := ⟨opener, inner ++ [closer], rfl, plain, apart⟩
  words := noneLeads_plain noWord _

theorem PlainPath.trimmed (path : PlainPath) : Trimmed path.text where
  head character first := path.visible character (List.mem_of_head? first)
  last character final := path.visible character (List.mem_of_getLast? final)

theorem PlainPath.trimmed_angled (path : PlainPath) (arguments : List (List Char)) :
    Trimmed (path.text ++ angled arguments) where
  head := by
    intro character first
    rw [List.head?_append_of_ne_nil _ path.text_ne_nil] at first
    exact path.trimmed.head character first
  last := by
    intro character final
    rw [angled] at final
    split at final
    · rw [List.append_nil] at final
      exact path.trimmed.last character final
    · rw [List.getLast?_append_of_ne_nil _ (by simp [wrapped])] at final
      exact (trimmed_wrapped (by decide) _).last character final

theorem PlainPath.unqualified (path : PlainPath) (arguments : List (List Char)) :
    Unqualified (path.text ++ angled arguments) := by
  have trimmed := path.trimmed_angled arguments
  rw [text, List.append_assoc] at trimmed ⊢
  apply path.head.unqualified trimmed
  cases path.tail with
  | nil =>
      rw [List.flatMap_nil, List.nil_append, angled]
      split
      · simp
      · have noLetter : isIdentifierChar '<' = false := by decide
        simpa [wrapped] using noLetter
  | cons name names =>
      have noLetter : isIdentifierChar ':' = false := by decide
      simpa using noLetter

theorem TypeTerm.core_unqualified (type : TypeTerm) : Unqualified type.core.text := by
  induction type with
  | path path arguments => exact path.unqualified _
  | marked mark type ih => exact ih
  | tuple members =>
      exact unqualified_wrapped ⟨by decide, by decide, by decide⟩ (by decide) (by decide)
        (by decide) _
  | slice element | array element length =>
      exact unqualified_wrapped ⟨by decide, by decide, by decide⟩ (by decide) (by decide)
        (by decide) _

theorem TypeTerm.trimmed (type : TypeTerm) : Trimmed type.text := by
  rw [type.text_eq_qualified]
  exact type.core_unqualified.trimmed_qualified _

theorem TypeTerm.text_cons (type : TypeTerm) :
    ∃ first rest, type.text = first :: rest ∧ isBlank first = false := by
  obtain ⟨first, rest, shape, plain⟩ := type.core_unqualified.qualified_cons type.qualifiers
  exact ⟨first, rest, by rw [type.text_eq_qualified, shape], plain.visible⟩

theorem TypeTerm.dropQualifiers_text {type : TypeTerm} (spelled : type.isSpelled) :
    dropQualifiers type.text = type.core.text := by
  rw [type.text_eq_qualified]
  rcases dropQualifiers_qualified type.core_unqualified type.qualifiers with
    ⟨_, read⟩ | ⟨⟨qualifier, member, unspelled⟩, _⟩
  · exact read
  · rw [isSpelled_qualifiers spelled qualifier member] at unspelled
    simp at unspelled

end Cores

section Spacing

variable {left right text : List Char}

/-- The text stays as it is when blanks collapse, whatever follows. -/
def Settled (text : List Char) : Prop :=
  ∀ rest, collapseRuns false (text ++ rest) = text ++ collapseRuns false rest

theorem Settled.append (leftSettled : Settled left) (rightSettled : Settled right) :
    Settled (left ++ right) := by
  intro rest
  rw [List.append_assoc, leftSettled, rightSettled, List.append_assoc]

theorem settled_of_visible (visible : ∀ character ∈ text, isBlank character = false) :
    Settled text := by
  intro rest
  cases text with
  | nil => rfl
  | cons first others => exact collapseRuns_visible_append (by simp) visible

theorem Settled.spaced (settled : Settled text)
    (begins : ∃ first rest, text = first :: rest ∧ isBlank first = false) :
    Settled (' ' :: text) := by
  obtain ⟨first, others, rfl, visible⟩ := begins
  intro rest
  have head : ∀ character ∈ (first :: others ++ rest).head?, isBlank character = false := by
    simpa using visible
  rw [List.cons_append, collapseRuns, if_pos (by decide), if_neg (by simp),
    collapseRuns_of_head head, settled rest]
  rfl

theorem Settled.wrapped {opener closer : Char} (settled : Settled text)
    (visible : isBlank opener = false ∧ isBlank closer = false) :
    Settled (wrapped opener closer text) :=
  (settled_of_visible (List.forall_mem_singleton.mpr visible.1)).append
    (settled.append (settled_of_visible (List.forall_mem_singleton.mpr visible.2)))

theorem settled_commaList {types : List TypeTerm}
    (settled : ∀ type ∈ types, Settled type.text) : Settled (commaList (textsOf types)) := by
  induction types with
  | nil => exact settled_of_visible (by simp [textsOf, commaList])
  | cons type others ih =>
      obtain ⟨here, later⟩ := List.forall_mem_cons.mp settled
      cases others with
      | nil => simpa [textsOf, commaList] using here
      | cons second more =>
          have begins : ∃ first rest,
              commaList (textsOf (second :: more)) = first :: rest ∧ isBlank first = false := by
            obtain ⟨first, rest, shape, visible⟩ := second.text_cons
            obtain ⟨left, leads⟩ := commaList_cons second.text (textsOf more)
            exact ⟨first, rest ++ left, by rw [textsOf, leads, shape, List.cons_append], visible⟩
          have comma : Settled [','] := settled_of_visible (by simp [isBlank])
          rw [textsOf, textsOf, commaList_cons_cons]
          exact here.append (comma.append ((ih later).spaced begins))

theorem settled_qualified {base : List Char} (unqualified : Unqualified base)
    (settled : Settled base) {qualifiers : List Qualifier}
    (narrow : qualifiers.map Qualifier.narrow = qualifiers) :
    Settled (qualified qualifiers base) := by
  intro rest
  rw [collapse_qualified unqualified, narrow, settled, qualified, qualified, List.append_assoc]

theorem TypeTerm.narrow_qualifiers (type : TypeTerm) :
    type.qualifiers.map Qualifier.narrow = type.qualifiers := by
  induction type with
  | marked mark type ih =>
      rw [qualifiers, List.map_append, ih]
      cases mark <;> rfl
  | path | tuple | slice | array => rfl

theorem TypeTerm.settled_of_core {type : TypeTerm} (settled : Settled type.core.text) :
    Settled type.text := by
  rw [type.text_eq_qualified]
  exact settled_qualified type.core_unqualified settled type.narrow_qualifiers

theorem settled_angled {types : List TypeTerm} (settled : ∀ type ∈ types, Settled type.text) :
    Settled (angled (textsOf types)) := by
  rw [angled]
  split
  · exact settled_of_visible (by simp)
  · exact (settled_commaList settled).wrapped (by decide)

theorem Decimal.letters (number : Decimal) :
    ∀ digit ∈ number.digits, isIdentifierChar digit := by
  intro digit member
  simp [isIdentifierChar, isWordChar, number.numeric digit member]

theorem TypeTerm.settled_core (type : TypeTerm) : Settled type.core.text := by
  -- The marks in front of a core are settled all at once, by what is known of qualifiers.
  induction type with
  | path path arguments ih =>
      exact (settled_of_visible path.visible).append
        (settled_angled fun type member => settled_of_core (ih type member))
  | marked mark type ih => exact ih
  | tuple members ih =>
      have members := settled_commaList fun type member => settled_of_core (ih type member)
      exact members.wrapped (by decide)
  | slice element ih => exact (settled_of_core ih).wrapped (by decide)
  | array element length ih =>
      have digits : Settled (' ' :: length.digits) := by
        obtain ⟨first, rest, shape⟩ := List.exists_cons_of_ne_nil length.filled
        have visible : ∀ digit ∈ length.digits, isBlank digit = false := fun digit member =>
          isBlank_of_isIdentifierChar (length.letters digit member)
        exact (settled_of_visible visible).spaced
          ⟨first, rest, shape, visible first (by simp [shape])⟩
      have semicolon : Settled [';'] := settled_of_visible (by simp [isBlank])
      exact ((settled_of_core ih).append (semicolon.append digits)).wrapped (by decide)

theorem TypeTerm.normalize_text (type : TypeTerm) : normalize type.text = type.text := by
  have settled := settled_of_core type.settled_core []
  rw [List.append_nil, collapseRuns, List.append_nil] at settled
  rw [Text.normalize, collapseBlanks, settled, trim_of_trimmed type.trimmed]

end Spacing

section Nesting

variable {separator : Char} {floor : Nat} {left right text : List Char}

def separators : List Char := [',', ';', '+', '=']

def brackets : List Char := ['<', '(', '[', '\x7b', '>', ')', ']', '\x7d', '-']

/-- Read at some depth from the floor on, the text leaves the counter as it is, and nothing in it
separates. -/
def Passes (separator : Char) (floor : Nat) (text : List Char) : Prop :=
  ∀ depth previous rest, floor ≤ depth → previous ≠ some '-' →
    (∀ last, last ≠ some '-' → Balanced separator depth last rest) →
      Balanced separator depth previous (text ++ rest)

theorem Passes.balanced (passes : Passes separator 0 text) : Balanced separator 0 none text := by
  have whole := passes 0 none [] le_rfl (by simp) fun _ _ => rfl
  rwa [List.append_nil] at whole

theorem Passes.deeper (passes : Passes separator 0 text) : Passes separator floor text :=
  fun depth previous rest _ => passes depth previous rest (Nat.zero_le depth)

theorem Passes.append (leftPasses : Passes separator floor left)
    (rightPasses : Passes separator floor right) : Passes separator floor (left ++ right) := by
  intro depth previous rest below noArrow behind
  rw [List.append_assoc]
  exact leftPasses depth previous _ below noArrow fun last noDash =>
    rightPasses depth last rest below noDash behind

theorem passes_of_plain (plain : ∀ character ∈ text,
      character ∉ brackets ∧ (character = separator → floor ≠ 0)) :
    Passes separator floor text := by
  intro depth previous rest below noArrow behind
  induction text generalizing previous with
  | nil => exact behind previous noArrow
  | cons first others ih =>
      obtain ⟨⟨noBracket, inside⟩, later⟩ := List.forall_mem_cons.mp plain
      simp only [brackets, List.mem_cons, List.not_mem_nil, or_false, not_or] at noBracket
      rw [List.cons_append, Balanced, if_neg (by simp [isOpener, noBracket]),
        if_neg (by simp [isCloser, noBracket])]
      exact ⟨fun same zero => inside same (by omega), ih later (some first) (by simp [noBracket])⟩

theorem Passes.wrapped {opener closer : Char} (passes : Passes separator 1 text)
    (opens : isOpener opener) (closes : isOpener closer = false ∧ isCloser none closer)
    (apart : opener ≠ '-' ∧ closer ≠ '-') : Passes separator floor (wrapped opener closer text) := by
  intro depth previous rest below noArrow behind
  rw [TypeText.wrapped, List.cons_append, Balanced, if_pos opens, List.append_assoc]
  refine passes (depth + 1) (some opener) _ (by omega) (by simpa using apart.1) ?_
  intro last noDash
  have closing : isCloser last closer := by
    simpa [isCloser, noDash] using closes.2
  rw [List.singleton_append, Balanced, if_neg (by simp [closes.1]), if_pos closing]
  exact ⟨depth, rfl, behind _ (by simpa using apart.2)⟩

theorem passes_commaList {texts : List (List Char)}
    (passes : ∀ text ∈ texts, Passes separator 0 text) : Passes separator 1 (commaList texts) := by
  induction texts with
  | nil => exact passes_of_plain (by simp [commaList])
  | cons first others ih =>
      obtain ⟨here, later⟩ := List.forall_mem_cons.mp passes
      cases others with
      | nil => simpa [commaList] using here.deeper
      | cons second more =>
          have comma : Passes separator 1 [',', ' '] := passes_of_plain (by simp [brackets])
          rw [commaList_cons_cons]
          exact here.deeper.append (comma.append (ih later))

def isTypeChar (character : Char) : Bool :=
  isIdentifierChar character || [':', '&', '\'', '*', ' '].contains character

theorem isTypeChar_of_letter {character : Char} (letter : isIdentifierChar character) :
    isTypeChar character := by
  simp [isTypeChar, letter]

theorem passes_of_typeChars (known : separator ∈ separators)
    (letters : ∀ character ∈ text, isTypeChar character) : Passes separator floor text := by
  apply passes_of_plain
  intro character member
  have apart : character ∉ brackets ++ separators := by
    rcases Bool.or_eq_true_iff.mp (letters character member) with letter | mark
    · exact not_mem_of_isIdentifierChar (by decide) letter
    · simp only [List.contains_iff_mem, List.mem_cons, List.not_mem_nil, or_false] at mark
      rcases mark with rfl | rfl | rfl | rfl | rfl <;> decide
  rw [List.mem_append, not_or] at apart
  exact ⟨apart.1, fun same => absurd (same ▸ known) apart.2⟩

theorem Mark.typeChars (mark : Mark) : ∀ character ∈ mark.text, isTypeChar character := by
  cases mark with
  | outliving lifetime =>
      intro character member
      simp only [text, List.mem_cons, List.mem_append, List.not_mem_nil, or_false] at member
      rcases member with rfl | rfl | letter | rfl
      · decide
      · decide
      · exact isTypeChar_of_letter (lifetime.letters character letter)
      · decide
  | reference | mutable | constPointer | mutPointer =>
      exact List.all_eq_true.mp (by decide)

theorem PlainPath.typeChars (path : PlainPath) :
    ∀ character ∈ path.text, isTypeChar character := by
  intro character member
  rcases path.letters character member with letter | rfl
  · exact isTypeChar_of_letter letter
  · decide

theorem TypeTerm.passes (known : separator ∈ separators) (type : TypeTerm) :
    Passes separator 0 type.text := by
  have listed {types : List TypeTerm} (passes : ∀ type ∈ types, Passes separator 0 type.text) :
      Passes separator 1 (commaList (textsOf types)) := by
    rw [textsOf_eq_map]
    exact passes_commaList (List.forall_mem_map.mpr passes)
  induction type with
  | path path arguments ih =>
      refine (passes_of_typeChars known path.typeChars).append ?_
      rw [angled]
      split
      · exact passes_of_plain (by simp)
      · exact (listed ih).wrapped (by decide) (by decide) (by decide)
  | marked mark type ih => exact (passes_of_typeChars known mark.typeChars).append ih
  | tuple members ih => exact (listed ih).wrapped (by decide) (by decide) (by decide)
  | slice element ih => exact ih.deeper.wrapped (by decide) (by decide) (by decide)
  | array element length ih =>
      have semicolon : Passes separator 1 [';'] := passes_of_plain (by simp [brackets])
      have digits : Passes separator 1 (' ' :: length.digits) := by
        apply passes_of_typeChars known
        exact List.forall_mem_cons.mpr ⟨by decide, fun digit member =>
          isTypeChar_of_letter (length.letters digit member)⟩
      exact (ih.deeper.append (semicolon.append digits)).wrapped (by decide) (by decide) (by decide)

theorem TypeTerm.balanced (known : separator ∈ separators) (type : TypeTerm) :
    Balanced separator 0 none type.text :=
  (type.passes known).balanced

theorem TypeTerm.text_ne_nil (type : TypeTerm) : type.text ≠ [] := by
  obtain ⟨first, rest, shape, _⟩ := type.text_cons
  simp [shape]

theorem isSeparator_of_mem (known : separator ∈ separators) : IsSeparator separator := by
  simp only [separators, List.mem_cons, List.not_mem_nil, or_false] at known
  rcases known with rfl | rfl | rfl | rfl <;>
    exact ⟨by decide, fun _ => by simp [isCloser], by decide⟩

theorem TypeTerm.splitTopLevelChars_text (known : separator ∈ separators) (type : TypeTerm) :
    splitTopLevelChars (some separator) type.text = [type.text] := by
  have split := splitTopLevelChars_intercalate (isSeparator_of_mem known)
    (List.forall_mem_singleton.mpr (type.balanced known))
  rw [List.intercalate_singleton] at split
  simpa [trim_of_trimmed type.trimmed, type.text_ne_nil] using split

theorem commaList_eq (first : List Char) (others : List (List Char)) :
    commaList (first :: others) = [','].intercalate (first :: others.map (' ' :: ·)) := by
  induction others generalizing first with
  | nil => simp [commaList]
  | cons second more ih =>
      have blank : ' ' :: [','].intercalate (second :: more.map (' ' :: ·)) =
          [','].intercalate ((second :: more).map (' ' :: ·)) := by
        cases more <;> simp [List.intercalate_cons_cons]
      rw [commaList_cons_cons, ih second, blank, List.map_cons, List.intercalate_cons_cons,
        List.append_assoc]

theorem Balanced.spaced (balanced : Balanced separator 0 none text) (apart : ' ' ≠ separator) :
    Balanced separator 0 none (' ' :: text) := by
  rw [Balanced, if_neg (by decide), if_neg (by decide)]
  exact ⟨fun same => absurd same apart, balanced.restart (by decide)⟩

theorem trim_spaced (text : List Char) : trim (' ' :: text) = trim text :=
  trim_blanks_append (List.forall_mem_singleton.mpr (by decide : isBlank ' ')) text

theorem splitTopLevelChars_commaList (types : List TypeTerm) :
    splitTopLevelChars (some ',') (commaList (textsOf types)) = textsOf types := by
  rw [textsOf_eq_map]
  cases types with
  | nil => rfl
  | cons type others =>
      have pieces : ∀ piece ∈ type.text :: (others.map TypeTerm.text).map (' ' :: ·),
          Balanced ',' 0 none piece := by
        refine List.forall_mem_cons.mpr ⟨type.balanced (by decide), ?_⟩
        rw [List.map_map]
        exact List.forall_mem_map.mpr fun other _ => (other.balanced (by decide)).spaced (by decide)
      have trimmed : (others.map TypeTerm.text).map (trim ∘ (' ' :: ·)) =
          others.map TypeTerm.text := by
        simp [Function.comp_def, trim_spaced, trim_of_trimmed (TypeTerm.trimmed _)]
      rw [List.map_cons, commaList_eq, splitTopLevelChars_intercalate isSeparator_comma pieces,
        List.map_cons, trim_of_trimmed type.trimmed, List.map_map, trimmed]
      simp [TypeTerm.text_ne_nil]

theorem splitTopLevelChars_array (element : TypeTerm) (length : Decimal) :
    ∃ behind, splitTopLevelChars (some ';') (element.text ++ ([';'] ++ ' ' :: length.digits)) =
      element.text :: behind := by
  have digits : Balanced ';' 0 none length.digits :=
    (passes_of_typeChars (by decide) fun digit member =>
      isTypeChar_of_letter (length.letters digit member)).balanced
  have pieces : ∀ piece ∈ [element.text, ' ' :: length.digits], Balanced ';' 0 none piece := by
    simp only [List.forall_mem_cons]
    exact ⟨element.balanced (by decide), digits.spaced (by decide), by simp⟩
  have split := splitTopLevelChars_intercalate (isSeparator_of_mem (by decide)) pieces
  rw [List.intercalate_cons_cons, List.intercalate_singleton, List.append_assoc] at split
  rw [split, List.map_cons, trim_of_trimmed element.trimmed,
    List.filter_cons_of_pos (by simp [element.text_ne_nil])]
  exact ⟨_, rfl⟩

end Nesting

end CrateAtlas.TypeText
