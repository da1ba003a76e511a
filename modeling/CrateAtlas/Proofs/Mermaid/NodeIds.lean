import CrateAtlas.Proofs.Mermaid.InlineClasses

/-!
The node ids that splitting reads off a line. Main statement: a node that stands outside labels,
with its class right behind it, is among the ids of its line.
-/

namespace CrateAtlas.Mermaid

open Text

section Labels

/-- Every mark that opens in the text is closed in it. -/
inductive Closed (closer : Char → Option Char) : List Char → Prop
  | nil : Closed closer []
  | plain {character : Char} {rest : List Char} (free : closer character = none)
      (closed : Closed closer rest) : Closed closer (character :: rest)
  | group {opening mark : Char} {inner rest : List Char} (opens : closer opening = some mark)
      (inside : mark ∉ inner) (closed : Closed closer rest) :
      Closed closer (opening :: (inner ++ mark :: rest))

variable {closer : Char → Option Char} {left right : List Char}

theorem dropEnclosed_inner {mark : Char} {inner : List Char} (inside : mark ∉ inner)
    (rest : List Char) :
    dropEnclosed closer (some mark) (inner ++ mark :: rest) = dropEnclosed closer none rest := by
  induction inner with
  | nil => simp [dropEnclosed]
  | cons first others ih =>
      simp only [List.mem_cons, not_or] at inside
      rw [List.cons_append, dropEnclosed, if_neg (Ne.symm inside.1), ih inside.2]

theorem dropEnclosed_plain {character : Char} (free : closer character = none)
    (rest : List Char) :
    dropEnclosed closer none (character :: rest) = character :: dropEnclosed closer none rest := by
  simp [dropEnclosed, free]

theorem dropEnclosed_group {opening mark : Char} {inner : List Char}
    (opens : closer opening = some mark) (inside : mark ∉ inner) (rest : List Char) :
    dropEnclosed closer none (opening :: (inner ++ mark :: rest)) =
      dropEnclosed closer none rest := by
  have later : contains mark (inner ++ mark :: rest) = true := by simp [contains]
  rw [dropEnclosed, opens, Option.filter_some, if_pos later]
  exact dropEnclosed_inner inside rest

theorem Closed.dropEnclosed_append (closed : Closed closer left) (right : List Char) :
    dropEnclosed closer none (left ++ right) =
      dropEnclosed closer none left ++ dropEnclosed closer none right := by
  induction closed with
  | nil => rfl
  | plain free _ ih => rw [List.cons_append, dropEnclosed_plain free, dropEnclosed_plain free, ih,
      List.cons_append]
  | group opens inside _ ih =>
      rw [List.cons_append, List.append_assoc, List.cons_append, dropEnclosed_group opens inside,
        dropEnclosed_group opens inside, ih]

theorem Closed.append_plain (free : ∀ character ∈ left, closer character = none)
    (closed : Closed closer right) : Closed closer (left ++ right) := by
  induction left with
  | nil => exact closed
  | cons first others ih =>
      exact .plain (free first List.mem_cons_self)
        (ih fun character member => free character (List.mem_cons_of_mem first member))

theorem dropEnclosed_append_of_plain (free : ∀ character ∈ left, closer character = none)
    (right : List Char) :
    dropEnclosed closer none (left ++ right) = left ++ dropEnclosed closer none right := by
  induction left with
  | nil => rfl
  | cons first others ih =>
      rw [List.cons_append, dropEnclosed_plain (free first List.mem_cons_self),
        ih fun character member => free character (List.mem_cons_of_mem first member),
        List.cons_append]

/-- What is left of a line without quoted texts and labels. -/
def withoutLabels (line : List Char) : List Char :=
  dropEnclosed shapeCloser none (dropEnclosed quoteCloser none line)

/-- All quoted texts and labels that begin in the text end in it. -/
structure LabelsClosed (before : List Char) : Prop where
  quotes : Closed quoteCloser before
  shapes : Closed shapeCloser (dropEnclosed quoteCloser none before)

theorem withoutLabels_append {before : List Char} (closed : LabelsClosed before)
    (free : ∀ character ∈ left, quoteCloser character = none ∧ shapeCloser character = none)
    (after : List Char) :
    withoutLabels (before ++ (left ++ after)) =
      withoutLabels before ++ (left ++ withoutLabels after) := by
  rw [withoutLabels, closed.quotes.dropEnclosed_append,
    dropEnclosed_append_of_plain fun character member => (free character member).1,
    closed.shapes.dropEnclosed_append,
    dropEnclosed_append_of_plain fun character member => (free character member).2]
  rfl

theorem free_of_isNameChar {character : Char} (plain : isNameChar character) :
    quoteCloser character = none ∧ shapeCloser character = none := by
  constructor
  · rw [quoteCloser, if_neg]
    rintro rfl
    exact absurd plain (by decide)
  · unfold shapeCloser
    split
    case h_5 => rfl
    all_goals exact absurd plain (by decide)

end Labels

section InlineClasses

def opensClass (text : List Char) : Bool :=
  startsWith ":::" text && (text.drop 3).head?.any isNameChar

theorem dropInlineClasses_cons (inName : Bool) (character : Char) (rest : List Char) :
    dropInlineClasses 0 inName (character :: rest) =
      if inName && isNameChar character then dropInlineClasses 0 true rest
      else if opensClass (character :: rest) then dropInlineClasses 2 true rest
      else character :: dropInlineClasses 0 false rest := rfl

theorem opensClass_iff {text : List Char} :
    opensClass text ↔
      ∃ first rest, text = ':' :: ':' :: ':' :: first :: rest ∧ isNameChar first := by
  rw [opensClass, Bool.and_eq_true, startsWith_iff]
  constructor
  · rintro ⟨⟨tail, rfl⟩, named⟩
    cases tail with
    | nil => simp at named
    | cons first rest => exact ⟨first, rest, rfl, by simpa using named⟩
  · rintro ⟨first, rest, rfl, named⟩
    exact ⟨⟨first :: rest, rfl⟩, by simpa using named⟩

theorem dropInlineClasses_class (inName : Bool) {first : Char} (named : isNameChar first)
    (rest : List Char) :
    dropInlineClasses 0 inName (':' :: ':' :: ':' :: first :: rest) =
      dropInlineClasses 0 true rest := by
  have opens : opensClass (':' :: ':' :: ':' :: first :: rest) :=
    opensClass_iff.mpr ⟨first, rest, rfl, named⟩
  have colon : isNameChar ':' = false := by decide
  rw [dropInlineClasses_cons, colon, Bool.and_false, if_neg (by decide), if_pos opens,
    dropInlineClasses, dropInlineClasses, dropInlineClasses_cons, named]
  rfl

theorem Bounded.opensClass_append {text : List Char} (bounded : Bounded text) (filled : text ≠ [])
    (right : List Char) : opensClass (text ++ right) = opensClass text := by
  rcases text with _ | ⟨first, _ | ⟨second, _ | ⟨third, _ | ⟨fourth, rest⟩⟩⟩⟩
  · exact absurd rfl filled
  · have other := (bounded first rfl).2
    simp [opensClass, startsWith, Ne.symm other]
  · have other := (bounded second rfl).2
    simp [opensClass, startsWith, Ne.symm other]
  · have other := (bounded third rfl).2
    simp [opensClass, startsWith, Ne.symm other]
  · simp [opensClass, startsWith, List.isPrefixOf]

theorem Bounded.tail {first : Char} {rest : List Char} (bounded : Bounded (first :: rest))
    (filled : rest ≠ []) : Bounded rest := by
  rwa [Bounded, List.getLast?_cons_of_ne_nil filled] at bounded

theorem Bounded.dropInlineClasses_append {text : List Char} (bounded : Bounded text)
    (filled : text ≠ []) (inName : Bool) :
    ∃ kept, kept ≠ [] ∧ (∀ character ∈ kept.getLast?, isNameChar character = false) ∧
      ∀ right, dropInlineClasses 0 inName (text ++ right) =
        kept ++ dropInlineClasses 0 false right := by
  induction length : text.length using Nat.strong_induction_on generalizing text inName with
  | _ size ih =>
    obtain ⟨first, rest, rfl⟩ := List.exists_cons_of_ne_nil filled
    subst length
    -- The last character is neither dropped nor part of a class, so each case leaves a shorter text.
    by_cases inside : (inName && isNameChar first) = true
    · have more : rest ≠ [] := by
        rintro rfl
        have mark := (bounded first rfl).1
        simp [mark] at inside
      obtain ⟨kept, some, last, same⟩ := ih rest.length (by simp) (bounded.tail more) more true rfl
      refine ⟨kept, some, last, fun right => ?_⟩
      rw [List.cons_append, dropInlineClasses_cons, if_pos inside, same]
    · by_cases opens : opensClass (first :: rest) = true
      · obtain ⟨head, others, shape, named⟩ := opensClass_iff.mp opens
        rw [shape] at bounded ih ⊢
        have more : others ≠ [] := by
          rintro rfl
          have mark := (bounded head rfl).1
          rw [named] at mark
          simp at mark
        have shorter : Bounded others :=
          (((bounded.tail (by simp)).tail (by simp)).tail (by simp)).tail more
        obtain ⟨kept, some, last, same⟩ := ih others.length (by simp; omega) shorter more true rfl
        refine ⟨kept, some, last, fun right => ?_⟩
        rw [← same right]
        exact dropInlineClasses_class inName named (others ++ right)
      · have kept (right : List Char) : dropInlineClasses 0 inName (first :: rest ++ right) =
            first :: dropInlineClasses 0 false (rest ++ right) := by
          have closed := bounded.opensClass_append filled right
          rw [List.cons_append] at closed
          rw [List.cons_append, dropInlineClasses_cons, if_neg inside, closed, if_neg opens]
        by_cases last : rest = []
        · subst last
          exact ⟨[first], by simp, by simpa using (bounded first rfl).1, kept⟩
        · obtain ⟨others, some, ends, same⟩ :=
            ih rest.length (by simp) (bounded.tail last) last false rfl
          refine ⟨first :: others, by simp, ?_, fun right => ?_⟩
          · rwa [List.getLast?_cons_of_ne_nil some]
          · rw [kept, same, List.cons_append]

theorem dropInlineClasses_of_plain {name : List Char} (plain : ∀ character ∈ name, character ≠ ':')
    (rest : List Char) :
    dropInlineClasses 0 false (name ++ rest) = name ++ dropInlineClasses 0 false rest := by
  induction name with
  | nil => rfl
  | cons first others ih =>
      have closed : opensClass (first :: (others ++ rest)) = false := by
        simp [opensClass, startsWith, Ne.symm (plain first List.mem_cons_self)]
      rw [List.cons_append, dropInlineClasses_cons, Bool.false_and, if_neg (by decide), closed,
        if_neg (by decide),
        ih fun character member => plain character (List.mem_cons_of_mem first member),
        List.cons_append]

theorem dropInlineClasses_of_name {name : List Char}
    (plain : ∀ character ∈ name, isNameChar character) (rest : List Char) :
    dropInlineClasses 0 true (name ++ rest) = dropInlineClasses 0 true rest := by
  induction name with
  | nil => rfl
  | cons first others ih =>
      rw [List.cons_append, dropInlineClasses_cons, plain first List.mem_cons_self, Bool.and_self,
        if_pos rfl, ih fun character member => plain character (List.mem_cons_of_mem _ member)]

theorem nameEnds_dropInlineClasses (pending : Nat) (text : List Char) :
    NameEnds (dropInlineClasses pending true text) := by
  induction text generalizing pending with
  | nil => simp [dropInlineClasses, NameEnds]
  | cons first rest ih =>
      cases pending with
      | succ remaining => exact ih remaining
      | zero =>
          rw [dropInlineClasses_cons]
          split
          · exact ih 0
          · rename_i mark
            split
            · exact ih 2
            · exact nameEnds_cons (by simpa using mark) _

end InlineClasses

section Words

theorem isNameChar_of_isWordChar {character : Char} (word : isWordChar character) :
    isNameChar character := by
  rw [isNameChar, word, Bool.true_or]

theorem not_isWordChar {character : Char} (mark : isNameChar character = false) :
    isWordChar character = false := by
  rw [isNameChar, Bool.or_eq_false_iff] at mark
  exact mark.1

theorem not_isWordStart {character : Char} (mark : isNameChar character = false) :
    isWordStart character = false := by
  have other := not_isWordChar mark
  rw [isWordChar, Bool.or_eq_false_iff] at other
  exact other.1

theorem mem_wordsOf_append {text right : List Char} {found : String}
    (ends : ∀ character ∈ text.getLast?, isNameChar character = false) (filled : text ≠ [])
    (word : List Char) (member : found ∈ wordsOf [] right) :
    found ∈ wordsOf word (text ++ right) := by
  induction text generalizing word with
  | nil => exact absurd rfl filled
  | cons first rest ih =>
      rw [List.cons_append, wordsOf]
      by_cases last : rest = []
      · subst last
        have mark := ends first rfl
        simp only [not_isWordStart mark, not_isWordChar mark, Bool.and_false, Bool.or_false,
          Bool.false_eq_true, if_false]
        split
        · exact member
        · exact List.mem_cons_of_mem _ member
      · rw [List.getLast?_cons_of_ne_nil last] at ends
        split
        · exact ih ends last _
        · split
          · exact ih ends last _
          · exact List.mem_cons_of_mem _ (ih ends last _)

theorem mem_wordsOf_word {word rest : List Char} (filled : word ≠ []) (ends : NameEnds rest) :
    String.ofList word.reverse ∈ wordsOf word rest := by
  cases rest with
  | nil => simp [wordsOf, filled]
  | cons first others =>
      have mark := ends first rfl
      simp [wordsOf, not_isWordStart mark, not_isWordChar mark, filled]

theorem wordsOf_inside {word name : List Char} (filled : word ≠ [])
    (plain : ∀ character ∈ name, isWordChar character) (rest : List Char) :
    wordsOf word (name ++ rest) = wordsOf (name.reverse ++ word) rest := by
  induction name generalizing word with
  | nil => rfl
  | cons first others ih =>
      have inside : (isWordStart first || (!word.isEmpty && isWordChar first)) = true := by
        simp [plain first List.mem_cons_self, filled]
      rw [List.cons_append, wordsOf, if_pos inside, ih (by simp)
        fun character member => plain character (List.mem_cons_of_mem first member)]
      simp

@[mk_iff isId_iff]
structure IsId (node : List Char) : Prop where
  start : ∀ character ∈ node.head?, isWordStart character
  filled : node ≠ []
  plain : ∀ character ∈ node, isWordChar character

instance (node : List Char) : Decidable (IsId node) :=
  decidable_of_iff (node.head?.all isWordStart ∧ node ≠ [] ∧ node.all isWordChar)
    (by simp [isId_iff, Option.all_eq_true])

theorem IsId.mem_wordsOf {node rest : List Char} (id : IsId node) (ends : NameEnds rest) :
    String.ofList node ∈ wordsOf [] (node ++ rest) := by
  obtain ⟨start, filled, plain⟩ := id
  obtain ⟨first, others, rfl⟩ := List.exists_cons_of_ne_nil filled
  have begins : (isWordStart first || (!([] : List Char).isEmpty && isWordChar first)) = true := by
    simp [start first rfl]
  rw [List.cons_append, wordsOf, if_pos begins, wordsOf_inside (by simp)
    fun character member => plain character (List.mem_cons_of_mem first member)]
  have word := mem_wordsOf_word (show others.reverse ++ [first] ≠ [] by simp) ends
  simpa using word

end Words

section Nodes

def IsNodeLine (line : List Char) : Prop :=
  isSubgraph line = false ∧
    (isEnd line || isComment line || isStyleStatement line || startsWith "direction " line) = false

/-- A line gives a node a class in place where no quoted text and no label is open; nothing stands
between the node, the colons and the class. -/
def AppliesOutsideLabels (line node className : List Char) : Prop :=
  IsId node ∧ IsName className ∧ ∃ before after,
    line = before ++ (node ++ (":::".toList ++ (className ++ after))) ∧
      LabelsClosed before ∧ Bounded before ∧ Bounded (withoutLabels before) ∧ NameEnds after

variable {line raw node className : List Char}

theorem IsId.isName (id : IsId node) : IsName node :=
  ⟨id.filled, fun character member => isNameChar_of_isWordChar (id.plain character member)⟩

theorem IsId.dropWhile (id : IsId node) :
    (node.dropWhile fun character => !isWordStart character) = node := by
  obtain ⟨first, others, rfl⟩ := List.exists_cons_of_ne_nil id.filled
  exact List.dropWhile_cons_of_neg (by simp [id.start first rfl])

theorem AppliesOutsideLabels.bare (applies : AppliesOutsideLabels line node className) :
    AppliesBare line node className := by
  obtain ⟨id, classNamed, before, after, shape, _, bounded, _, ends⟩ := applies
  refine ⟨id.isName, ?_, classNamed, before, after, shape, bounded, ends⟩
  obtain ⟨first, others, rfl⟩ := List.exists_cons_of_ne_nil id.filled
  simp [id.start first rfl]

theorem IsId.mem_wordsOf_dropInlineClasses {before : List Char} (id : IsId node)
    (classNamed : IsName className) (bounded : Bounded before) (after : List Char) :
    String.ofList node ∈ wordsOf [] (dropInlineClasses 0 false
      (before ++ (node ++ (":::".toList ++ (className ++ after))))) := by
  obtain ⟨head, others, rfl⟩ := List.exists_cons_of_ne_nil classNamed.filled
  have dropped : dropInlineClasses 0 false (":::".toList ++ (head :: others ++ after)) =
      dropInlineClasses 0 true after := by
    have rest := dropInlineClasses_of_name
      (fun character member => classNamed.plain character (List.mem_cons_of_mem head member)) after
    rw [← rest]
    exact dropInlineClasses_class false (classNamed.plain head List.mem_cons_self) (others ++ after)
  have noColon : ∀ character ∈ node, character ≠ ':' := by
    rintro _ member rfl
    exact absurd (id.plain ':' member) (by decide)
  have word : String.ofList node ∈ wordsOf [] (node ++ dropInlineClasses 0 true after) :=
    id.mem_wordsOf (nameEnds_dropInlineClasses 0 after)
  by_cases nothing : before = []
  · rw [nothing, List.nil_append, dropInlineClasses_of_plain noColon, dropped]
    exact word
  · obtain ⟨kept, some, ends, same⟩ := bounded.dropInlineClasses_append nothing false
    rw [same, dropInlineClasses_of_plain noColon, dropped]
    exact mem_wordsOf_append ends some [] word

theorem AppliesOutsideLabels.mem_lineNodeIds
    (applies : AppliesOutsideLabels (trim raw) node className) (nodes : IsNodeLine (trim raw)) :
    String.ofList node ∈ lineNodeIds raw := by
  obtain ⟨id, classNamed, before, after, shape, closed, _, bounded, _⟩ := applies
  have free : ∀ character ∈ node ++ (":::".toList ++ className),
      quoteCloser character = none ∧ shapeCloser character = none := by
    intro character member
    simp only [List.mem_append] at member
    rcases member with inNode | colon | inClass
    · exact free_of_isNameChar (id.isName.plain character inNode)
    · obtain rfl : character = ':' := by simpa using colon
      exact ⟨rfl, rfl⟩
    · exact free_of_isNameChar (classNamed.plain character inClass)
  have regroup : before ++ (node ++ (":::".toList ++ (className ++ after))) =
      before ++ ((node ++ (":::".toList ++ className)) ++ after) := by simp
  have left := withoutLabels_append closed free after
  have found := id.mem_wordsOf_dropInlineClasses classNamed bounded (withoutLabels after)
  have read : lineNodeIds raw =
      wordsOf [] (dropInlineClasses 0 false (withoutLabels (trim raw))) := by
    simp only [lineNodeIds, nodes.1, nodes.2, Bool.false_eq_true, if_false]
    rfl
  rw [read, shape, regroup, left]
  simpa using found

theorem parseClassDef?_of_isNodeLine (nodes : IsNodeLine line) : parseClassDef? line = none := by
  rw [Option.eq_none_iff_forall_ne_some]
  intro definition parsed
  have plain := nodes.2
  simp [isStyleStatement_of_definition parsed] at plain

end Nodes

end CrateAtlas.Mermaid
