import CrateAtlas.Proofs.TypeText.Paths
import Mathlib.Logic.Function.Iterate

/-!
Qualifiers in front of types. Main statement: taking qualifiers off a text leaves what they stand in
front of, unless the name of some lifetime has other characters than word characters.
-/

namespace CrateAtlas.TypeText

open Text

section Writing

structure Space extends Gap where
  filled : text ≠ []

structure Lifetime where
  name : List Char
  filled : name ≠ []
  letters : ∀ character ∈ name, isIdentifierChar character

def plainWords : List String := ["mut", "dyn", "impl", "const"]

def pointerWords : List String := ["*const", "*mut"]

/-- What can stand in front of a type. -/
inductive Qualifier where
  | reference (gap : Gap)
  | lifetime (named : Lifetime) (space : Space)
  | word (keyword : String) (known : keyword ∈ plainWords) (space : Space)
  | pointer (keyword : String) (known : keyword ∈ pointerWords) (space : Space)

def Qualifier.text : Qualifier → List Char
  | .reference gap => '&' :: gap.text
  | .lifetime named space => '\'' :: (named.name ++ space.text)
  | .word keyword _ space => keyword.toList ++ space.text
  | .pointer keyword _ space => keyword.toList ++ space.text

inductive QualifierKind where
  | reference
  | lifetime
  | word
  | pointer

def Qualifier.kind : Qualifier → QualifierKind
  | .reference _ => .reference
  | .lifetime _ _ => .lifetime
  | .word _ _ _ => .word
  | .pointer _ _ _ => .pointer

/-- The name of the lifetime, where there is one, has word characters only. -/
def Qualifier.isSpelled : Qualifier → Bool
  | .lifetime named _ => named.name.all isWordChar
  | _ => true

def qualified (qualifiers : List Qualifier) (base : List Char) : List Char :=
  qualifiers.flatMap Qualifier.text ++ base

@[simp] theorem qualified_nil (base : List Char) : qualified [] base = base := rfl

theorem qualified_cons (qualifier : Qualifier) (others : List Qualifier) (base : List Char) :
    qualified (qualifier :: others) base = qualifier.text ++ qualified others base := by
  rw [qualified, List.flatMap_cons, List.append_assoc, qualified]

end Writing

section Words

variable {word : String} {words : List String} {text rest : List Char} {blank : Char}

def VisibleWords (words : List String) : Prop :=
  ∀ word ∈ words, ∀ character ∈ word.toList, isBlank character = false

theorem visibleWords_plain : VisibleWords plainWords := by
  simp [VisibleWords, plainWords, isBlank]

theorem visibleWords_pointer : VisibleWords pointerWords := by
  simp [VisibleWords, pointerWords, isBlank]

def NoneLeads (words : List String) (text : List Char) : Prop :=
  ∀ word ∈ words, ∀ blank rest, isBlank blank → text ≠ word.toList ++ blank :: rest

theorem dropWord_cases (word : String) (text : List Char) :
    dropWord word text = text ∨ ∃ blank rest, isBlank blank ∧
      text = word.toList ++ blank :: rest ∧ dropWord word text = trimStart rest := by
  rw [dropWord]
  split
  · rename_i next rest behind
    have shape := afterLead?_eq_some.mp behind
    split
    · rename_i blank
      exact .inr ⟨next, rest, blank, shape, List.dropWhile_cons_of_pos blank⟩
    · exact .inl rfl
  · exact .inl rfl

theorem dropWord_append (separates : isBlank blank) (rest : List Char) :
    dropWord word (word.toList ++ blank :: rest) = trimStart rest := by
  rw [dropWord, afterLead?_eq_some.mpr rfl]
  simp only [separates, if_true, trimStart, List.dropWhile_cons_of_pos]

theorem dropFirstWord_of_none (none : NoneLeads words text) : dropFirstWord words text = text := by
  have same : words.find? (fun word => dropWord word text ≠ text) = Option.none := by
    rw [List.find?_eq_none]
    intro word member
    rcases dropWord_cases word text with same | ⟨blank, rest, separates, shape, _⟩
    · simpa using same
    · exact absurd shape (none word member blank rest separates)
  rw [dropFirstWord, same]

theorem takeWhile_visible {lead : List Char}
    (visible : ∀ character ∈ lead, isBlank character = false) (separates : isBlank blank)
    (rest : List Char) :
    (lead ++ blank :: rest).takeWhile (fun character => !isBlank character) = lead := by
  rw [List.takeWhile_append_of_pos (by simpa using visible),
    List.takeWhile_cons_of_neg (by simp [separates]), List.append_nil]

theorem dropFirstWord_append (visible : VisibleWords words) (member : word ∈ words)
    (separates : isBlank blank) (rest : List Char) :
    dropFirstWord words (word.toList ++ blank :: rest) = trimStart rest := by
  have drops : dropWord word (word.toList ++ blank :: rest) = trimStart rest :=
    dropWord_append separates rest
  have changes : dropWord word (word.toList ++ blank :: rest) ≠ word.toList ++ blank :: rest := by
    intro same
    have shorter := congrArg List.length (drops.symm.trans same)
    have bound : (trimStart rest).length ≤ rest.length := List.length_dropWhile_le isBlank rest
    rw [List.length_append, List.length_cons] at shorter
    omega
  rw [dropFirstWord]
  split
  · rename_i other found
    have applies := List.find?_some found
    rcases dropWord_cases other (word.toList ++ blank :: rest) with
      same | ⟨second, behind, apart, shape, cut⟩
    · simp [same] at applies
    · -- Both words end at the first blank, so they are the same.
      have ends := congrArg (List.takeWhile fun character => !isBlank character) shape
      rw [takeWhile_visible (visible word member) separates,
        takeWhile_visible (visible other (List.mem_of_find?_eq_some found)) apart] at ends
      rw [← ends] at shape
      obtain ⟨rfl, rfl⟩ := List.cons.inj (List.append_cancel_left shape)
      exact cut
  · rename_i nothing
    rw [List.find?_eq_none] at nothing
    exact absurd changes (by simpa using nothing word member)

end Words

section Bases

variable {text base rest : List Char} {first : Char}

structure Unqualified (text : List Char) : Prop where
  trimmed : Trimmed text
  head : ∃ first rest, text = first :: rest ∧ Plain first ∧ first ∉ ['&', '\'', '*']
  words : NoneLeads plainWords text

theorem head_plainWords {keyword : String} (known : keyword ∈ plainWords) :
    ∃ first rest, keyword.toList = first :: rest ∧ first ∈ ['m', 'd', 'i', 'c'] := by
  simp only [plainWords, List.mem_cons, List.not_mem_nil, or_false] at known
  rcases known with rfl | rfl | rfl | rfl <;> exact ⟨_, _, rfl, by decide⟩

theorem head_pointerWords {keyword : String} (known : keyword ∈ pointerWords) :
    ∃ rest, keyword.toList = '*' :: rest := by
  simp only [pointerWords, List.mem_cons, List.not_mem_nil, or_false] at known
  rcases known with rfl | rfl <;> exact ⟨_, rfl⟩

theorem noneLeads_plain (other : first ∉ ['m', 'd', 'i', 'c']) (rest : List Char) :
    NoneLeads plainWords (first :: rest) := by
  intro keyword known blank behind _ shape
  obtain ⟨letter, more, letters, among⟩ := head_plainWords known
  rw [letters, List.cons_append] at shape
  exact other ((List.cons.inj shape).1 ▸ among)

theorem noneLeads_pointer (other : first ≠ '*') (rest : List Char) :
    NoneLeads pointerWords (first :: rest) := by
  intro keyword known blank behind _ shape
  obtain ⟨more, letters⟩ := head_pointerWords known
  rw [letters, List.cons_append] at shape
  exact other (List.cons.inj shape).1

theorem Identifier.unqualified (name : Identifier) (trimmed : Trimmed (name.text ++ rest))
    (ends : ∀ character ∈ rest.head?, isIdentifierChar character = false) :
    Unqualified (name.text ++ rest) where
  trimmed := trimmed
  head := by
    obtain ⟨first, others, shape⟩ := List.exists_cons_of_ne_nil name.filled
    have letter := name.letters first (by simp [shape])
    refine ⟨first, others ++ rest, by rw [shape, List.cons_append],
      plain_of_isIdentifierChar letter, ?_⟩
    intro mark
    simp only [List.mem_cons, List.not_mem_nil, or_false] at mark
    rcases mark with rfl | rfl | rfl <;> exact absurd letter (by decide)
  words := by
    intro word member blank behind separates shape
    have run : (name.text ++ rest).takeWhile isIdentifierChar = name.text := by
      rw [List.takeWhile_append_of_pos name.letters]
      cases rest with
      | nil => simp
      | cons first others =>
          rw [List.takeWhile_cons_of_neg (by simp [ends first rfl]), List.append_nil]
    have letters : ∀ word ∈ plainWords, word ∈ typeKeywords ∧
        ∀ character ∈ word.toList, isIdentifierChar character := by
      simp only [plainWords, typeKeywords, List.forall_mem_cons, ← List.all_eq_true]
      decide
    have stops : isIdentifierChar blank = false := by
      by_contra letter
      rw [isBlank_of_isIdentifierChar (by simpa using letter)] at separates
      simp at separates
    rw [shape, List.takeWhile_append_of_pos (letters word member).2,
      List.takeWhile_cons_of_neg (by simp [stops]), List.append_nil] at run
    exact name.free (by rw [← run, String.ofList_toList]; exact (letters word member).1)

theorem Gap.head_not_letter (gap : Gap)
    (head : ∀ character ∈ rest.head?, isIdentifierChar character = false) :
    ∀ character ∈ (gap.text ++ rest).head?, isIdentifierChar character = false := by
  intro character first
  rw [List.head?_append] at first
  rcases Option.or_eq_some_iff.mp first with inside | ⟨_, outside⟩
  · by_contra letter
    have blank := gap.blank character (List.mem_of_head? inside)
    rw [isBlank_of_isIdentifierChar (by simpa using letter)] at blank
    simp at blank
  · exact head character outside

theorem head_links_not_letter (links : List Link) :
    ∀ character ∈ (links.flatMap Link.text).head?, isIdentifierChar character = false := by
  cases links with
  | nil => simp
  | cons link others =>
      rw [List.flatMap_cons, Link.text, List.append_assoc]
      exact link.before.head_not_letter (by simp; decide)

theorem WrittenPath.unqualified (path : WrittenPath) : Unqualified path.text := by
  have trimmed := path.trimmed
  rw [text, Segment.text, List.append_assoc] at trimmed ⊢
  apply path.head.name.unqualified trimmed
  cases path.head.arguments with
  | none => exact head_links_not_letter path.links
  | angled gap contents =>
      rw [Arguments.text, List.append_assoc]
      exact gap.head_not_letter (by simp; decide)
  | turbofish gap inner contents =>
      rw [Arguments.text, List.append_assoc]
      exact gap.head_not_letter (by simp; decide)

end Bases

section Steps

variable {base text : List Char} {first : Char} {qualifier : Qualifier}
  {qualifiers passed rest : List Qualifier}

theorem dropReference_of_head (other : first ≠ '&') (rest : List Char) :
    dropReference (first :: rest) = first :: rest := by
  rw [dropReference.eq_def]
  split
  · simp_all
  · rfl

theorem dropLifetime_of_head (other : first ≠ '\'') (rest : List Char) :
    dropLifetime (first :: rest) = first :: rest := by
  rw [dropLifetime.eq_def]
  split
  · simp_all
  · rfl

theorem dropLifetime_of_letter {letter : Char} (noWord : isWordChar letter = false)
    (rest : List Char) :
    dropLifetime ('\'' :: letter :: rest) = '\'' :: letter :: rest := by
  simp [dropLifetime, noWord]

/-- A lifetime that could not be taken off as a whole stands in front. -/
structure Stuck (text : List Char) : Prop where
  trimmed : Trimmed text
  shape : ∃ (mark : List Char) (named : Lifetime) (space : Space) (first : Char)
    (rest : List Char), text = mark ++ (named.name ++ (space.text ++ first :: rest)) ∧
      (mark = [] ∨ mark = ['\'']) ∧
      (∀ letter ∈ named.name.head?, isWordChar letter = false) ∧ Plain first

/-- What is left of a qualified text once some of its qualifiers are off. -/
inductive Advanced (base : List Char) : List Qualifier → List Char → Prop
  | ahead {passed left : List Qualifier} (gap : Gap)
      (spelled : ∀ qualifier ∈ passed, qualifier.isSpelled) :
      Advanced base (passed ++ left) (gap.text ++ qualified left base)
  | stuck {qualifiers : List Qualifier} {text : List Char}
      (unspelled : ∃ qualifier ∈ qualifiers, qualifier.isSpelled = false) (stuck : Stuck text) :
      Advanced base qualifiers text

def Past (base : List Char) (qualifier : Qualifier) (rest : List Qualifier) (text : List Char) :
    Prop :=
  (qualifier.isSpelled ∧ Advanced base rest text) ∨ (qualifier.isSpelled = false ∧ Stuck text)

theorem Advanced.append (advanced : Advanced base rest text)
    (spelled : ∀ qualifier ∈ passed, qualifier.isSpelled) :
    Advanced base (passed ++ rest) text := by
  cases advanced with
  | @ahead off left gap others =>
      rw [← List.append_assoc]
      exact .ahead gap (List.forall_mem_append.mpr ⟨spelled, others⟩)
  | stuck unspelled stuck =>
      obtain ⟨qualifier, member, other⟩ := unspelled
      exact .stuck ⟨qualifier, List.mem_append_right _ member, other⟩ stuck

theorem Past.advanced (past : Past base qualifier rest text) :
    Advanced base (qualifier :: rest) text := by
  rcases past with ⟨spelled, advanced⟩ | ⟨unspelled, stuck⟩
  · exact advanced.append (List.forall_mem_singleton.mpr spelled)
  · exact .stuck ⟨qualifier, List.mem_cons_self, unspelled⟩ stuck

/-- A step that takes one kind of qualifier off the front of a text. -/
structure Strips (base : List Char) (kind : QualifierKind) (step : List Char → List Char) :
    Prop where
  blank : ∀ blank rest, isBlank blank → step (blank :: rest) = blank :: rest
  bare : step base = base
  front : ∀ qualifier rest,
    (qualifier.kind ≠ kind ∧
      step (qualified (qualifier :: rest) base) = qualified (qualifier :: rest) base) ∨
    Past base qualifier rest (step (qualified (qualifier :: rest) base))
  stuck : ∀ text, Stuck text → step text = text

variable {kind : QualifierKind} {step : List Char → List Char}

theorem Strips.advanced (strips : Strips base kind step)
    (advanced : Advanced base qualifiers text) : Advanced base qualifiers (step text) := by
  cases advanced with
  | stuck unspelled stuck =>
      rw [strips.stuck text stuck]
      exact .stuck unspelled stuck
  | @ahead passed left gap spelled =>
      obtain ⟨blanks, blank⟩ := gap
      cases blanks with
      | cons first others =>
          rw [List.cons_append, strips.blank first _ (blank first List.mem_cons_self)]
          exact @Advanced.ahead base passed left ⟨first :: others, blank⟩ spelled
      | nil =>
          rw [List.nil_append]
          cases left with
          | nil =>
              rw [qualified_nil, strips.bare]
              exact @Advanced.ahead base passed [] ⟨[], blank⟩ spelled
          | cons qualifier rest =>
              rcases strips.front qualifier rest with ⟨_, same⟩ | past
              · rw [same]
                exact @Advanced.ahead base passed (qualifier :: rest) ⟨[], blank⟩ spelled
              · exact past.advanced.append spelled

theorem Strips.past (strips : Strips base kind step) (past : Past base qualifier rest text) :
    Past base qualifier rest (step text) := by
  rcases past with ⟨spelled, advanced⟩ | ⟨unspelled, stuck⟩
  · exact .inl ⟨spelled, strips.advanced advanced⟩
  · rw [strips.stuck text stuck]
    exact .inr ⟨unspelled, stuck⟩

theorem Stuck.cons (stuck : Stuck text) : ∃ first rest, text = first :: rest ∧
    first ∉ ['m', 'd', 'i', 'c'] ∧ first ≠ '*' ∧ first ≠ '&' ∧ dropLifetime text = text := by
  obtain ⟨_, mark, named, space, first, rest, rfl, marked, noWord, _⟩ := stuck
  obtain ⟨letter, others, shape⟩ := List.exists_cons_of_ne_nil named.filled
  have letters := named.letters letter (by simp [shape])
  have unworded := noWord letter (by simp [shape])
  rw [shape]
  rcases marked with rfl | rfl
  · have apart : letter ∉ ['m', 'd', 'i', 'c'] ∧ letter ≠ '*' ∧ letter ≠ '&' ∧
        letter ≠ '\'' := by
      refine ⟨?_, ?_, ?_, ?_⟩
      · intro word
        simp only [List.mem_cons, List.not_mem_nil, or_false] at word
        rcases word with rfl | rfl | rfl | rfl <;> exact absurd unworded (by decide)
      all_goals
        rintro rfl
        exact absurd letters (by decide)
    exact ⟨letter, _, rfl, apart.1, apart.2.1, apart.2.2.1,
      dropLifetime_of_head apart.2.2.2 _⟩
  · exact ⟨'\'', _, rfl, by decide, by decide, by decide, dropLifetime_of_letter unworded _⟩

theorem Space.exists_cons (space : Space) :
    ∃ first others, space.text = first :: others ∧ isBlank first ∧
      ∀ character ∈ others, isBlank character := by
  obtain ⟨first, others, shape⟩ := List.exists_cons_of_ne_nil space.filled
  have blank := space.blank
  rw [shape, List.forall_mem_cons] at blank
  exact ⟨first, others, shape, blank⟩

theorem Qualifier.exists_cons (qualifier : Qualifier) :
    ∃ first others, qualifier.text = first :: others ∧ Plain first := by
  have plain : ∀ letter ∈ ['m', 'd', 'i', 'c', '*', '&', '\''], Plain letter := by
    intro letter known
    simp only [List.mem_cons, List.not_mem_nil, or_false] at known
    rcases known with rfl | rfl | rfl | rfl | rfl | rfl | rfl <;>
      exact ⟨by decide, by decide, by decide⟩
  cases qualifier with
  | reference gap => exact ⟨'&', _, rfl, plain _ (by decide)⟩
  | lifetime named space => exact ⟨'\'', _, rfl, plain _ (by decide)⟩
  | word keyword known space =>
      obtain ⟨first, others, letters, among⟩ := head_plainWords known
      exact ⟨first, others ++ space.text, by rw [text, letters, List.cons_append],
        plain _ (List.mem_append_left ['*', '&', '\''] among)⟩
  | pointer keyword known space =>
      obtain ⟨others, letters⟩ := head_pointerWords known
      exact ⟨'*', others ++ space.text, by rw [text, letters, List.cons_append],
        plain _ (by decide)⟩

theorem Unqualified.qualified_cons (unqualified : Unqualified base)
    (qualifiers : List Qualifier) :
    ∃ first others, qualified qualifiers base = first :: others ∧ Plain first := by
  cases qualifiers with
  | nil =>
      obtain ⟨first, others, shape, plain, _⟩ := unqualified.head
      exact ⟨first, others, shape, plain⟩
  | cons qualifier rest =>
      obtain ⟨first, others, shape, plain⟩ := qualifier.exists_cons
      exact ⟨first, others ++ qualified rest base,
        by rw [TypeText.qualified_cons, shape, List.cons_append], plain⟩

theorem Unqualified.trimmed_append (unqualified : Unqualified base)
    (qualifiers : List Qualifier) {front : List Char}
    (head : ∀ character ∈ front.head?, isBlank character = false) :
    Trimmed (front ++ qualified qualifiers base) where
  head := by
    obtain ⟨first, others, shape, plain⟩ := unqualified.qualified_cons qualifiers
    intro character leads
    rw [List.head?_append] at leads
    rcases Option.or_eq_some_iff.mp leads with inside | ⟨_, outside⟩
    · exact head character inside
    · rw [shape] at outside
      obtain rfl := Option.some.inj outside
      exact plain.visible
  last := by
    obtain ⟨first, others, shape, _⟩ := unqualified.head
    intro character final
    rw [qualified, ← List.append_assoc,
      List.getLast?_append_of_ne_nil _ (by simp [shape])] at final
    exact unqualified.trimmed.last character final

theorem Unqualified.trimmed_qualified (unqualified : Unqualified base)
    (qualifiers : List Qualifier) : Trimmed (qualified qualifiers base) := by
  have head : ∀ character ∈ ([] : List Char).head?, isBlank character = false := by simp
  exact unqualified.trimmed_append qualifiers head

theorem Advanced.all (gap : Gap) (qualifiers : List Qualifier) :
    Advanced base qualifiers (gap.text ++ qualified qualifiers base) :=
  @Advanced.ahead base [] qualifiers gap (by simp)

theorem Advanced.whole (qualifiers : List Qualifier) :
    Advanced base qualifiers (qualified qualifiers base) :=
  Advanced.all .none qualifiers

theorem strips_dropReference (unqualified : Unqualified base) :
    Strips base .reference dropReference where
  blank first rest blank :=
    dropReference_of_head (ne_of_isBlank blank (by decide)) rest
  bare := by
    obtain ⟨first, rest, rfl, _, other⟩ := unqualified.head
    exact dropReference_of_head (by rintro rfl; simp at other) rest
  front qualifier rest := by
    rw [qualified_cons]
    cases qualifier with
    | reference gap => exact .inr (.inl ⟨rfl, .all gap rest⟩)
    | lifetime named space => exact .inl ⟨nofun, rfl⟩
    | word keyword known space =>
        obtain ⟨first, others, letters, among⟩ := head_plainWords known
        rw [Qualifier.text, letters]
        exact .inl ⟨nofun, dropReference_of_head (by rintro rfl; simp at among) _⟩
    | pointer keyword known space =>
        obtain ⟨others, letters⟩ := head_pointerWords known
        rw [Qualifier.text, letters]
        exact .inl ⟨nofun, rfl⟩
  stuck text stuck := by
    obtain ⟨first, rest, rfl, _, _, other, _⟩ := stuck.cons
    exact dropReference_of_head other rest

theorem trimStart_space (unqualified : Unqualified base) {blanks : List Char}
    (blank : ∀ character ∈ blanks, isBlank character) (rest : List Qualifier) :
    trimStart (blanks ++ qualified rest base) = qualified rest base := by
  rw [trimStart, List.dropWhile_append_of_pos blank]
  exact trimStart_of_head (unqualified.trimmed_qualified rest).head

theorem isWordChar_of_isBlank {character : Char} (blank : isBlank character) :
    isWordChar character = false := by
  have name := isNameChar_of_isBlank blank
  simp only [isNameChar, Bool.or_eq_false_iff] at name
  exact name.1

theorem Lifetime.head_visible (named : Lifetime) (rest : List Char) :
    ∀ character ∈ (named.name ++ rest).head?, isBlank character = false := by
  intro character leads
  rw [List.head?_append_of_ne_nil _ named.filled] at leads
  exact isBlank_of_isIdentifierChar (named.letters character (List.mem_of_head? leads))

theorem stuck_of_lifetime (unqualified : Unqualified base) {mark : List Char}
    (marked : mark = [] ∨ mark = ['\'']) (named : Lifetime)
    (noWord : ∀ letter ∈ named.name.head?, isWordChar letter = false) (space : Space)
    (rest : List Qualifier) :
    Stuck (mark ++ (named.name ++ (space.text ++ qualified rest base))) where
  trimmed := by
    have head : ∀ character ∈ (mark ++ (named.name ++ space.text)).head?,
        isBlank character = false := by
      rcases marked with rfl | rfl
      · exact named.head_visible space.text
      · simp [isBlank]
    have trimmed := unqualified.trimmed_append rest head
    rwa [List.append_assoc, List.append_assoc] at trimmed
  shape := by
    obtain ⟨first, behind, front, plain⟩ := unqualified.qualified_cons rest
    exact ⟨mark, named, space, first, behind, by rw [front], marked, noWord, plain⟩

def Lifetime.behindWord (named : Lifetime) (left : named.name.dropWhile isWordChar ≠ []) :
    Lifetime where
  name := named.name.dropWhile isWordChar
  filled := left
  letters character member :=
    named.letters character ((List.dropWhile_suffix isWordChar).subset member)

theorem Lifetime.head_behindWord (named : Lifetime)
    (left : named.name.dropWhile isWordChar ≠ []) :
    ∀ letter ∈ (named.behindWord left).name.head?, isWordChar letter = false := by
  intro letter leads
  have stopped := List.head?_dropWhile_not isWordChar named.name
  rwa [show (named.name.dropWhile isWordChar).head? = some letter from leads] at stopped

theorem dropLifetime_of_word {letter : Char} (word : isWordChar letter) (rest : List Char) :
    dropLifetime ('\'' :: letter :: rest) =
      trimStart ((letter :: rest).dropWhile isWordChar) := by
  rw [dropLifetime, if_pos word, List.dropWhile_cons_of_pos word]

theorem isSpelled_lifetime (named : Lifetime) (space : Space) :
    (Qualifier.lifetime named space).isSpelled ↔ named.name.dropWhile isWordChar = [] := by
  simp [Qualifier.isSpelled, List.dropWhile_eq_nil_iff]

theorem Space.dropWhile (space : Space) (rest : List Char) :
    (space.text ++ rest).dropWhile isWordChar = space.text ++ rest := by
  obtain ⟨blank, blanks, gap, separates, _⟩ := space.exists_cons
  rw [gap, List.cons_append,
    List.dropWhile_cons_of_neg (by simp [isWordChar_of_isBlank separates])]

theorem past_dropLifetime (unqualified : Unqualified base) (named : Lifetime) (space : Space)
    (rest : List Qualifier) :
    Past base (.lifetime named space) rest
      (dropLifetime (qualified (.lifetime named space :: rest) base)) := by
  have text : qualified (.lifetime named space :: rest) base =
      '\'' :: (named.name ++ (space.text ++ qualified rest base)) := by
    rw [qualified_cons, Qualifier.text, List.cons_append, List.append_assoc]
  obtain ⟨letter, letters, shape⟩ := List.exists_cons_of_ne_nil named.filled
  rw [text]
  cases word : isWordChar letter with
  | false =>
      have still : dropLifetime ('\'' :: (named.name ++ (space.text ++ qualified rest base))) =
          ['\''] ++ (named.name ++ (space.text ++ qualified rest base)) := by
        rw [shape]
        exact dropLifetime_of_letter word _
      have unspelled : (Qualifier.lifetime named space).isSpelled = false := by
        simp [Qualifier.isSpelled, shape, word]
      rw [still]
      exact .inr ⟨unspelled, stuck_of_lifetime unqualified (.inr rfl) named
        (by simp [shape, word]) space rest⟩
  | true =>
      have drops : dropLifetime ('\'' :: (named.name ++ (space.text ++ qualified rest base))) =
          trimStart ((named.name ++ (space.text ++ qualified rest base)).dropWhile
            isWordChar) := by
        rw [shape]
        exact dropLifetime_of_word word _
      rw [drops, List.dropWhile_append, space.dropWhile]
      split
      · rename_i all
        rw [trimStart_space unqualified space.blank]
        exact .inl ⟨(isSpelled_lifetime named space).mpr (List.isEmpty_iff.mp all), .whole rest⟩
      · rename_i left
        rw [List.isEmpty_iff] at left
        have unspelled : (Qualifier.lifetime named space).isSpelled = false := by
          rw [← Bool.not_eq_true, isSpelled_lifetime]
          exact left
        have stuck := stuck_of_lifetime unqualified (.inl rfl) (named.behindWord left)
          (named.head_behindWord left) space rest
        have still : trimStart (named.name.dropWhile isWordChar ++
            (space.text ++ qualified rest base)) = _ := trimStart_of_head stuck.trimmed.head
        rw [still]
        exact .inr ⟨unspelled, stuck⟩

theorem strips_dropLifetime (unqualified : Unqualified base) :
    Strips base .lifetime dropLifetime where
  blank first rest blank :=
    dropLifetime_of_head (ne_of_isBlank blank (by decide)) rest
  bare := by
    obtain ⟨first, rest, rfl, _, other⟩ := unqualified.head
    exact dropLifetime_of_head (by rintro rfl; simp at other) rest
  front qualifier rest := by
    cases qualifier with
    | lifetime named space => exact .inr (past_dropLifetime unqualified named space rest)
    | reference gap => exact .inl ⟨nofun, rfl⟩
    | word keyword known space =>
        obtain ⟨first, others, letters, among⟩ := head_plainWords known
        rw [qualified_cons, Qualifier.text, letters]
        exact .inl ⟨nofun, dropLifetime_of_head (by rintro rfl; simp at among) _⟩
    | pointer keyword known space =>
        obtain ⟨others, letters⟩ := head_pointerWords known
        rw [qualified_cons, Qualifier.text, letters]
        exact .inl ⟨nofun, rfl⟩
  stuck text stuck := by
    obtain ⟨_, _, _, _, _, _, same⟩ := stuck.cons
    exact same

theorem dropFirstWord_qualified (unqualified : Unqualified base) {words : List String}
    (visible : VisibleWords words) {keyword : String} (known : keyword ∈ words) (space : Space)
    (rest : List Qualifier) :
    dropFirstWord words (keyword.toList ++ space.text ++ qualified rest base) =
      qualified rest base := by
  obtain ⟨blank, blanks, gap, separates, others⟩ := space.exists_cons
  rw [gap, List.append_assoc, List.cons_append,
    dropFirstWord_append visible known separates, trimStart_space unqualified others]

theorem noneLeads_blank {words : List String} (visible : VisibleWords words)
    (filled : "" ∉ words) {blank : Char} (separates : isBlank blank) (rest : List Char) :
    NoneLeads words (blank :: rest) := by
  intro keyword known second behind _ shape
  have some : keyword.toList ≠ [] := by
    intro nothing
    exact filled (String.toList_eq_nil_iff.mp nothing ▸ known)
  obtain ⟨first, others, letters⟩ := List.exists_cons_of_ne_nil some
  have seen := visible keyword known first (by simp [letters])
  rw [letters, List.cons_append] at shape
  rw [(List.cons.inj shape).1, seen] at separates
  simp at separates

theorem strips_plainWords (unqualified : Unqualified base) :
    Strips base .word (dropFirstWord plainWords) where
  blank first rest blank := dropFirstWord_of_none
    (noneLeads_blank visibleWords_plain (by simp [plainWords]) blank rest)
  bare := dropFirstWord_of_none unqualified.words
  front qualifier rest := by
    rw [qualified_cons]
    cases qualifier with
    | word keyword known space =>
        rw [Qualifier.text, dropFirstWord_qualified unqualified visibleWords_plain known]
        exact .inr (.inl ⟨rfl, .whole rest⟩)
    | reference gap =>
        exact .inl ⟨nofun, dropFirstWord_of_none (noneLeads_plain (by decide) _)⟩
    | lifetime named space =>
        exact .inl ⟨nofun, dropFirstWord_of_none (noneLeads_plain (by decide) _)⟩
    | pointer keyword known space =>
        obtain ⟨others, letters⟩ := head_pointerWords known
        rw [Qualifier.text, letters]
        exact .inl ⟨nofun, dropFirstWord_of_none (noneLeads_plain (by decide) _)⟩
  stuck text stuck := by
    obtain ⟨first, rest, rfl, other, _⟩ := stuck.cons
    exact dropFirstWord_of_none (noneLeads_plain other rest)

theorem strips_pointerWords (unqualified : Unqualified base) :
    Strips base .pointer (dropFirstWord pointerWords) where
  blank first rest blank := dropFirstWord_of_none
    (noneLeads_blank visibleWords_pointer (by simp [pointerWords]) blank rest)
  bare := by
    obtain ⟨first, rest, rfl, _, other⟩ := unqualified.head
    exact dropFirstWord_of_none (noneLeads_pointer (by rintro rfl; simp at other) rest)
  front qualifier rest := by
    rw [qualified_cons]
    cases qualifier with
    | pointer keyword known space =>
        rw [Qualifier.text, dropFirstWord_qualified unqualified visibleWords_pointer known]
        exact .inr (.inl ⟨rfl, .whole rest⟩)
    | reference gap =>
        exact .inl ⟨nofun, dropFirstWord_of_none (noneLeads_pointer (by decide) _)⟩
    | lifetime named space =>
        exact .inl ⟨nofun, dropFirstWord_of_none (noneLeads_pointer (by decide) _)⟩
    | word keyword known space =>
        obtain ⟨first, others, letters, among⟩ := head_plainWords known
        rw [Qualifier.text, letters]
        exact .inl ⟨nofun, dropFirstWord_of_none
          (noneLeads_pointer (by rintro rfl; simp at among) _)⟩
  stuck text stuck := by
    obtain ⟨first, rest, rfl, _, other, _⟩ := stuck.cons
    exact dropFirstWord_of_none (noneLeads_pointer other rest)

end Steps

section Rounds

variable {base text : List Char} {qualifier : Qualifier} {qualifiers rest : List Qualifier}

theorem dropQualifiersOnce_eq (text : List Char) :
    dropQualifiersOnce text = trim (dropFirstWord pointerWords
      (dropFirstWord plainWords (dropLifetime (dropReference text)))) := rfl

theorem Stuck.dropQualifiersOnce (unqualified : Unqualified base) (stuck : Stuck text) :
    dropQualifiersOnce text = text := by
  rw [dropQualifiersOnce_eq, (strips_dropReference unqualified).stuck text stuck,
    (strips_dropLifetime unqualified).stuck text stuck,
    (strips_plainWords unqualified).stuck text stuck,
    (strips_pointerWords unqualified).stuck text stuck, trim_of_trimmed stuck.trimmed]

theorem Unqualified.dropQualifiersOnce (unqualified : Unqualified base) :
    dropQualifiersOnce base = base := by
  rw [dropQualifiersOnce_eq, (strips_dropReference unqualified).bare,
    (strips_dropLifetime unqualified).bare, (strips_plainWords unqualified).bare,
    (strips_pointerWords unqualified).bare, trim_of_trimmed unqualified.trimmed]

theorem past_steps (unqualified : Unqualified base) (qualifier : Qualifier)
    (rest : List Qualifier) :
    Past base qualifier rest (dropFirstWord pointerWords (dropFirstWord plainWords
      (dropLifetime (dropReference (qualified (qualifier :: rest) base))))) := by
  have references := strips_dropReference unqualified
  have lifetimes := strips_dropLifetime unqualified
  have words := strips_plainWords unqualified
  have pointers := strips_pointerWords unqualified
  rcases references.front qualifier rest with ⟨noReference, same⟩ | past
  · rw [same]
    rcases lifetimes.front qualifier rest with ⟨noLifetime, same⟩ | past
    · rw [same]
      rcases words.front qualifier rest with ⟨noWord, same⟩ | past
      · rw [same]
        rcases pointers.front qualifier rest with ⟨noPointer, _⟩ | past
        · cases qualifier <;> simp [Qualifier.kind] at noReference noLifetime noWord noPointer
        · exact past
      · exact pointers.past past
    · exact pointers.past (words.past past)
  · exact pointers.past (words.past (lifetimes.past past))

theorem dropQualifiersOnce_cases (unqualified : Unqualified base) (qualifier : Qualifier)
    (rest : List Qualifier) :
    (∃ passed left, qualifier :: rest = passed ++ left ∧ passed ≠ [] ∧
      (∀ qualifier ∈ passed, qualifier.isSpelled) ∧
      dropQualifiersOnce (qualified (qualifier :: rest) base) = qualified left base) ∨
    ((∃ other ∈ qualifier :: rest, other.isSpelled = false) ∧
      Stuck (dropQualifiersOnce (qualified (qualifier :: rest) base))) := by
  rw [dropQualifiersOnce_eq]
  rcases past_steps unqualified qualifier rest with ⟨spelled, advanced⟩ | ⟨unspelled, stuck⟩
  · generalize dropFirstWord pointerWords _ = text at advanced
    cases advanced with
    | @ahead passed left gap others =>
        refine .inl ⟨qualifier :: passed, left, rfl, by simp,
          List.forall_mem_cons.mpr ⟨spelled, others⟩, ?_⟩
        rw [trim_blanks_append gap.blank, trim_of_trimmed (unqualified.trimmed_qualified left)]
    | stuck unspelled stuck =>
        obtain ⟨other, member, unspelled⟩ := unspelled
        rw [trim_of_trimmed stuck.trimmed]
        exact .inr ⟨⟨other, List.mem_cons_of_mem _ member, unspelled⟩, stuck⟩
  · rw [trim_of_trimmed stuck.trimmed]
    exact .inr ⟨⟨qualifier, List.mem_cons_self, unspelled⟩, stuck⟩

theorem iterate_dropQualifiersOnce (unqualified : Unqualified base) {rounds : Nat}
    (enough : qualifiers.length ≤ rounds) :
    ((∀ qualifier ∈ qualifiers, qualifier.isSpelled) ∧
      dropQualifiersOnce^[rounds] (qualified qualifiers base) = base) ∨
    ((∃ qualifier ∈ qualifiers, qualifier.isSpelled = false) ∧
      Stuck (dropQualifiersOnce^[rounds] (qualified qualifiers base))) := by
  induction rounds generalizing qualifiers with
  | zero =>
      obtain rfl := List.eq_nil_of_length_eq_zero (Nat.le_zero.mp enough)
      exact .inl ⟨by simp, rfl⟩
  | succ rounds ih =>
      rw [Function.iterate_succ_apply]
      cases qualifiers with
      | nil =>
          rw [qualified_nil, unqualified.dropQualifiersOnce]
          exact .inl ⟨by simp, Function.iterate_fixed unqualified.dropQualifiersOnce rounds⟩
      | cons qualifier rest =>
          rcases dropQualifiersOnce_cases unqualified qualifier rest with
            ⟨passed, left, shape, some, spelled, read⟩ | ⟨unspelled, stuck⟩
          · have shorter : left.length ≤ rounds := by
              have lengths := congrArg List.length shape
              have positive := List.length_pos_iff.mpr some
              simp only [List.length_cons, List.length_append] at lengths enough
              omega
            rw [read, shape]
            rcases ih shorter with ⟨others, whole⟩ | ⟨⟨other, member, unspelled⟩, stuck⟩
            · exact .inl ⟨List.forall_mem_append.mpr ⟨spelled, others⟩, whole⟩
            · exact .inr ⟨⟨other, List.mem_append_right _ member, unspelled⟩, stuck⟩
          · rw [Function.iterate_fixed (stuck.dropQualifiersOnce unqualified)]
            exact .inr ⟨unspelled, stuck⟩

theorem settle_eq_iterate (step : List Char → List Char) (fuel : Nat) (text : List Char) :
    settle step fuel text = step^[fuel] text := by
  induction fuel generalizing text with
  | zero => rfl
  | succ fuel ih =>
      rw [settle, Function.iterate_succ_apply]
      split
      · rename_i fixed
        rw [fixed, Function.iterate_fixed fixed]
      · exact ih (step text)

theorem length_qualified (qualifiers : List Qualifier) (base : List Char) :
    qualifiers.length ≤ (qualified qualifiers base).length := by
  induction qualifiers with
  | nil => exact Nat.zero_le _
  | cons qualifier rest ih =>
      obtain ⟨first, others, shape, _⟩ := qualifier.exists_cons
      rw [qualified_cons, shape, List.length_append, List.length_cons, List.length_cons]
      omega

/-- All qualifiers are taken off, unless some lifetime is in the way. -/
theorem dropQualifiers_qualified (unqualified : Unqualified base) (qualifiers : List Qualifier) :
    ((∀ qualifier ∈ qualifiers, qualifier.isSpelled) ∧
      dropQualifiers (qualified qualifiers base) = base) ∨
    ((∃ qualifier ∈ qualifiers, qualifier.isSpelled = false) ∧
      Stuck (dropQualifiers (qualified qualifiers base))) := by
  have rounds := iterate_dropQualifiersOnce unqualified (length_qualified qualifiers base)
  rwa [dropQualifiers, trim_of_trimmed (unqualified.trimmed_qualified qualifiers),
    settle_eq_iterate]

end Rounds

end CrateAtlas.TypeText
