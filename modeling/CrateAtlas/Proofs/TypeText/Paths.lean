import CrateAtlas.TypeText.Paths
import CrateAtlas.Proofs.Text.Blanks

/-!
Paths of types as they are written, with generic arguments and blanks. Main statement: what is left
of a written path without its generic arguments are its identifiers, joined.
-/

namespace CrateAtlas.TypeText

open Text

section Characters

/-- Characters of identifiers: next to the word characters, the mark of raw identifiers and
everything visible outside of ASCII. -/
def isIdentifierChar (character : Char) : Bool :=
  isWordChar character || character = '#' || (0x80 ≤ character.toNat && !isBlank character)

/-- Characters that no step of reading a path looks at. -/
structure Plain (character : Char) : Prop where
  visible : isBlank character = false
  bracket : character ≠ '<' ∧ character ≠ '>' ∧ character ≠ '-'
  separator : character ≠ ':' ∧ character ≠ '.'

variable {character : Char}

theorem ne_of_isBlank {mark : Char} (blank : isBlank character) (visible : isBlank mark = false) :
    character ≠ mark := by
  rintro rfl
  rw [visible] at blank
  simp at blank

theorem isBlank_of_isIdentifierChar (letter : isIdentifierChar character) :
    isBlank character = false := by
  simp only [isIdentifierChar, Bool.or_eq_true, Bool.and_eq_true, Bool.not_eq_true',
    decide_eq_true_eq] at letter
  rcases letter with (word | rfl) | ⟨_, visible⟩
  · exact isBlank_of_isNameChar (by simp [isNameChar, word])
  · decide
  · exact visible

theorem plain_of_isIdentifierChar (letter : isIdentifierChar character) : Plain character where
  visible := isBlank_of_isIdentifierChar letter
  bracket := by
    refine ⟨?_, ?_, ?_⟩ <;>
    · rintro rfl
      exact absurd letter (by decide)
  separator := by
    refine ⟨?_, ?_⟩ <;>
    · rintro rfl
      exact absurd letter (by decide)

end Characters

section Writing

def typeKeywords : List String := ["mut", "dyn", "impl", "const", "fn"]

structure Identifier where
  text : List Char
  filled : text ≠ []
  letters : ∀ character ∈ text, isIdentifierChar character
  free : String.ofList text ∉ typeKeywords

def Identifier.ofName (name : String) (filled : name.toList ≠ [])
    (letters : name.toList.all isIdentifierChar) (free : name ∉ typeKeywords) : Identifier where
  text := name.toList
  filled := filled
  letters := List.all_eq_true.mp letters
  free := by rwa [String.ofList_toList]

structure Gap where
  text : List Char
  blank : ∀ character ∈ text, isBlank character

def Gap.none : Gap := ⟨[], by simp⟩

@[simp] theorem Gap.text_none : Gap.none.text = [] := rfl

/-- Angle brackets match, where the bracket of an arrow does not count, and a bracket behind the
text is none of an arrow; `depth` brackets are open and `previous` stands in front. -/
def anglesMatch (depth : Nat) (previous : Char) : List Char → Bool
  | [] => depth = 0 && previous ≠ '-'
  | character :: rest =>
      if character = '<' then anglesMatch (depth + 1) character rest
      else if character = '>' && previous ≠ '-' then
        depth ≠ 0 && anglesMatch (depth - 1) character rest
      else anglesMatch depth character rest

/-- What stands between the brackets of a list of generic arguments. -/
structure Contents where
  text : List Char
  closed : anglesMatch 0 '<' text

inductive Arguments where
  | none
  | angled (gap : Gap) (contents : Contents)
  | turbofish (gap inner : Gap) (contents : Contents)

def Arguments.text : Arguments → List Char
  | .none => []
  | .angled gap contents => gap.text ++ '<' :: (contents.text ++ ['>'])
  | .turbofish gap inner contents =>
      gap.text ++ ':' :: ':' :: (inner.text ++ '<' :: (contents.text ++ ['>']))

structure Segment where
  name : Identifier
  arguments : Arguments

def Segment.text (segment : Segment) : List Char :=
  segment.name.text ++ segment.arguments.text

/-- A segment behind the colons that separate it from the one before. -/
structure Link where
  before : Gap
  after : Gap
  segment : Segment

def Link.text (link : Link) : List Char :=
  link.before.text ++ ':' :: ':' :: (link.after.text ++ link.segment.text)

/-- A path as it is written. -/
structure WrittenPath where
  head : Segment
  links : List Link

def WrittenPath.text (path : WrittenPath) : List Char :=
  path.head.text ++ path.links.flatMap Link.text

def WrittenPath.names (path : WrittenPath) : List String :=
  String.ofList path.head.name.text ::
    path.links.map fun link => String.ofList link.segment.name.text

end Writing

section Narrowing

variable {inRun : Bool} {depth : Nat} {previous before : Char} {text rest : List Char}

def Gap.narrow (gap : Gap) : Gap where
  text := if gap.text = [] then [] else [' ']
  blank := by
    split
    · simp
    · simp [isBlank]

theorem Gap.collapse (gap : Gap) (head : ∀ character ∈ rest.head?, isBlank character = false) :
    collapseRuns false (gap.text ++ rest) = gap.narrow.text ++ collapseRuns false rest := by
  rw [collapseRuns_append head, collapseRuns_blanks gap.blank]
  simp [narrow]

theorem Gap.collapse_text (gap : Gap) : collapseRuns false gap.text = gap.narrow.text := by
  rw [collapseRuns_blanks gap.blank]
  simp [narrow]

theorem anglesMatch_collapseRuns (same : previous = '-' ↔ before = '-')
    (apart : inRun → before ≠ '-') (closed : anglesMatch depth previous text) :
    anglesMatch depth before (collapseRuns inRun text) := by
  induction text generalizing depth previous before inRun with
  | nil => simpa [anglesMatch, collapseRuns, same] using closed
  | cons character rest ih =>
      rw [collapseRuns]
      by_cases blank : isBlank character = true
      · have noAngle : character ≠ '<' ∧ character ≠ '>' ∧ character ≠ '-' :=
          ⟨ne_of_isBlank blank (by decide), ne_of_isBlank blank (by decide),
            ne_of_isBlank blank (by decide)⟩
        have later : anglesMatch depth character rest := by
          simpa [anglesMatch, noAngle] using closed
        rw [if_pos blank]
        split
        · rename_i run
          exact ih (by simp [noAngle, apart run]) (fun _ => apart run) later
        · have deeper := @ih true _ _ ' ' (by simp [noAngle]) (by simp) later
          simpa [anglesMatch] using deeper
      · rw [if_neg blank]
        have arrow : decide (previous ≠ '-') = decide (before ≠ '-') := by simp [same]
        rw [anglesMatch, arrow] at closed
        rw [anglesMatch]
        split at closed
        · rw [if_pos ‹_›]
          exact ih .rfl (by simp) closed
        · rw [if_neg ‹_›]
          split at closed
          · rw [if_pos ‹_›]
            rw [Bool.and_eq_true] at closed ⊢
            exact ⟨closed.1, ih .rfl (by simp) closed.2⟩
          · rw [if_neg ‹_›]
            exact ih .rfl (by simp) closed

def Contents.narrow (contents : Contents) : Contents where
  text := collapseRuns false contents.text
  closed := anglesMatch_collapseRuns .rfl (by simp) contents.closed

def Arguments.narrow : Arguments → Arguments
  | .none => .none
  | .angled gap contents => .angled gap.narrow contents.narrow
  | .turbofish gap inner contents => .turbofish gap.narrow inner.narrow contents.narrow

def Segment.narrow (segment : Segment) : Segment where
  name := segment.name
  arguments := segment.arguments.narrow

def Link.narrow (link : Link) : Link where
  before := link.before.narrow
  after := link.after.narrow
  segment := link.segment.narrow

def WrittenPath.narrow (path : WrittenPath) : WrittenPath where
  head := path.head.narrow
  links := path.links.map Link.narrow

theorem WrittenPath.names_narrow (path : WrittenPath) : path.narrow.names = path.names := by
  simp [names, narrow, Segment.narrow, Link.narrow]

theorem Contents.collapse (contents : Contents) (rest : List Char) :
    collapseRuns false ('<' :: (contents.text ++ '>' :: rest)) =
      '<' :: (contents.narrow.text ++ '>' :: collapseRuns false rest) := by
  have visible : isBlank '<' = false ∧ isBlank '>' = false := by decide
  rw [collapseRuns, if_neg (by simp [visible]), collapseRuns_append (by simp [visible])]
  simp [narrow, collapseRuns, visible]

theorem collapse_colons (rest : List Char) :
    collapseRuns false (':' :: ':' :: rest) = ':' :: ':' :: collapseRuns false rest := rfl

theorem Arguments.collapse (arguments : Arguments) (rest : List Char) :
    collapseRuns false (arguments.text ++ rest) =
      arguments.narrow.text ++ collapseRuns false rest := by
  cases arguments with
  | none => rfl
  | angled gap contents =>
      simp only [text, narrow, List.append_assoc, List.cons_append, List.nil_append]
      rw [gap.collapse (by simp [isBlank]), contents.collapse]
  | turbofish gap inner contents =>
      simp only [text, narrow, List.append_assoc, List.cons_append, List.nil_append]
      rw [gap.collapse (by simp [isBlank]), collapse_colons, inner.collapse (by simp [isBlank]),
        contents.collapse]

theorem Identifier.visible (name : Identifier) :
    ∀ character ∈ name.text, isBlank character = false :=
  fun character member => isBlank_of_isIdentifierChar (name.letters character member)

theorem Segment.collapse (segment : Segment) (rest : List Char) :
    collapseRuns inRun (segment.text ++ rest) =
      segment.narrow.text ++ collapseRuns false rest := by
  rw [text, List.append_assoc,
    collapseRuns_visible_append segment.name.filled segment.name.visible,
    segment.arguments.collapse, text, List.append_assoc]
  rfl

theorem Segment.head_visible (segment : Segment) (rest : List Char) :
    ∀ character ∈ (segment.text ++ rest).head?, isBlank character = false := by
  intro character first
  rw [text, List.append_assoc, List.head?_append_of_ne_nil _ segment.name.filled] at first
  exact segment.name.visible character (List.mem_of_head? first)

theorem Link.collapse (link : Link) (rest : List Char) :
    collapseRuns false (link.text ++ rest) = link.narrow.text ++ collapseRuns false rest := by
  simp only [text, narrow, List.append_assoc, List.cons_append]
  rw [link.before.collapse (by simp [isBlank]), collapse_colons,
    link.after.collapse (link.segment.head_visible rest), link.segment.collapse]

theorem collapse_links (links : List Link) (rest : List Char) :
    collapseRuns false (links.flatMap Link.text ++ rest) =
      (links.map Link.narrow).flatMap Link.text ++ collapseRuns false rest := by
  induction links with
  | nil => rfl
  | cons link others ih =>
      rw [List.flatMap_cons, List.append_assoc, link.collapse, ih, List.map_cons,
        List.flatMap_cons, List.append_assoc]

theorem WrittenPath.collapse (path : WrittenPath) (rest : List Char) :
    collapseRuns inRun (path.text ++ rest) = path.narrow.text ++ collapseRuns false rest := by
  rw [text, List.append_assoc, path.head.collapse, collapse_links, text, List.append_assoc]
  rfl

theorem WrittenPath.head_visible (path : WrittenPath) (rest : List Char) :
    ∀ character ∈ (path.text ++ rest).head?, isBlank character = false := by
  rw [text, List.append_assoc]
  exact path.head.head_visible _

theorem Segment.ends_visible (segment : Segment) (front : List Char) :
    ∀ character ∈ (front ++ segment.text).getLast?, isBlank character = false := by
  intro character final
  obtain ⟨name, arguments⟩ := segment
  cases arguments with
  | none =>
      rw [text, Arguments.text, List.append_nil, List.getLast?_append_of_ne_nil _ name.filled]
        at final
      exact name.visible character (List.mem_of_getLast? final)
  | angled gap contents =>
      simp [text, Arguments.text, List.getLast?_append, List.getLast?_cons] at final
      obtain rfl := final
      decide
  | turbofish gap inner contents =>
      simp [text, Arguments.text, List.getLast?_append, List.getLast?_cons] at final
      obtain rfl := final
      decide

theorem WrittenPath.trimmed (path : WrittenPath) : Trimmed path.text where
  head := path.head.head_visible _
  last := by
    obtain ⟨head, links⟩ := path
    rw [text]
    rcases List.eq_nil_or_concat links with rfl | ⟨earlier, last, rfl⟩
    · rw [List.flatMap_nil, List.append_nil]
      exact head.ends_visible []
    · rw [List.concat_eq_append, List.flatMap_append, List.flatMap_singleton, Link.text]
      have regroup : head.text ++ (earlier.flatMap Link.text ++ (last.before.text ++
          ':' :: ':' :: (last.after.text ++ last.segment.text))) =
          (head.text ++ (earlier.flatMap Link.text ++ (last.before.text ++
            ':' :: ':' :: last.after.text))) ++ last.segment.text := by simp
      rw [regroup]
      exact last.segment.ends_visible _

theorem WrittenPath.normalize (path : WrittenPath) (lead trail : Gap) :
    normalize (lead.text ++ (path.text ++ trail.text)) = path.narrow.text := by
  rw [Text.normalize, collapseBlanks, lead.collapse (path.head_visible _), path.collapse,
    trail.collapse_text, trim_blanks_append lead.narrow.blank, trim_append_blanks trail.narrow.blank,
    trim_of_trimmed path.narrow.trimmed]

end Narrowing

section Brackets

variable {depth : Nat} {previous : Char} {left rest : List Char}

theorem dropTraitClause_of_head {text : List Char} (other : text.head? ≠ some '<') :
    dropTraitClause text = text := by
  rw [dropTraitClause.eq_def]
  split
  · exact absurd rfl other
  · rfl

theorem dropAngles_previous (noDash : previous ≠ '-') (text : List Char) :
    dropAngles depth previous text = dropAngles depth ' ' text := by
  cases text with
  | nil => rfl
  | cons character rest => simp [dropAngles, noDash]

theorem dropAngles_plain (plain : ∀ character ∈ left,
      character ≠ '<' ∧ character ≠ '>' ∧ character ≠ '-') (rest : List Char) :
    dropAngles 0 ' ' (left ++ rest) = left ++ dropAngles 0 ' ' rest := by
  induction left with
  | nil => rfl
  | cons first others ih =>
      obtain ⟨⟨opens, closes, dash⟩, later⟩ := List.forall_mem_cons.mp plain
      rw [List.cons_append, dropAngles, if_neg opens, if_neg (by simp [closes]), if_pos rfl,
        dropAngles_previous dash, ih later, List.cons_append]

theorem dropAngles_matched (closed : anglesMatch depth previous left) (outer : Nat) :
    dropAngles (outer + depth + 1) previous (left ++ '>' :: rest) =
      dropAngles outer '>' rest := by
  induction left generalizing depth previous with
  | nil =>
      simp only [anglesMatch, Bool.and_eq_true, decide_eq_true_eq] at closed
      obtain ⟨rfl, noDash⟩ := closed
      simp [dropAngles, noDash]
  | cons first others ih =>
      rw [anglesMatch] at closed
      rw [List.cons_append, dropAngles]
      split at closed
      · rw [if_pos ‹_›]
        exact ih closed
      · rw [if_neg ‹_›]
        split at closed
        · rw [if_pos ‹_›]
          rw [Bool.and_eq_true, decide_eq_true_eq] at closed
          obtain ⟨inner, rfl⟩ := Nat.exists_eq_succ_of_ne_zero closed.1
          exact ih closed.2
        · rw [if_neg ‹_›, if_neg (Nat.succ_ne_zero _)]
          exact ih closed

theorem Contents.dropAngles (contents : Contents) (rest : List Char) :
    dropAngles 0 ' ' ('<' :: (contents.text ++ '>' :: rest)) = dropAngles 0 ' ' rest := by
  rw [TypeText.dropAngles, if_pos rfl, dropAngles_matched contents.closed 0,
    dropAngles_previous (by decide)]

def Arguments.bare : Arguments → List Char
  | .none => []
  | .angled gap _ => gap.text
  | .turbofish gap inner _ => gap.text ++ ':' :: ':' :: inner.text

def Link.bare (link : Link) : List Char :=
  link.before.text ++ ':' :: ':' ::
    (link.after.text ++ (link.segment.name.text ++ link.segment.arguments.bare))

theorem Gap.dropAngles (gap : Gap) (rest : List Char) :
    dropAngles 0 ' ' (gap.text ++ rest) = gap.text ++ dropAngles 0 ' ' rest := by
  refine dropAngles_plain (fun character member => ?_) rest
  have blank := gap.blank character member
  exact ⟨ne_of_isBlank blank (by decide), ne_of_isBlank blank (by decide),
    ne_of_isBlank blank (by decide)⟩

theorem dropAngles_colons (rest : List Char) :
    dropAngles 0 ' ' (':' :: ':' :: rest) = ':' :: ':' :: dropAngles 0 ' ' rest := by
  have plain : ∀ character ∈ [':', ':'],
      character ≠ '<' ∧ character ≠ '>' ∧ character ≠ '-' := by simp
  exact dropAngles_plain plain rest

theorem Identifier.dropAngles (name : Identifier) (rest : List Char) :
    dropAngles 0 ' ' (name.text ++ rest) = name.text ++ dropAngles 0 ' ' rest :=
  dropAngles_plain (fun character member =>
    (plain_of_isIdentifierChar (name.letters character member)).bracket) rest

theorem Arguments.dropAngles (arguments : Arguments) (rest : List Char) :
    dropAngles 0 ' ' (arguments.text ++ rest) = arguments.bare ++ dropAngles 0 ' ' rest := by
  cases arguments with
  | none => rfl
  | angled gap contents =>
      simp only [text, bare, List.append_assoc, List.cons_append, List.nil_append]
      rw [gap.dropAngles, contents.dropAngles]
  | turbofish gap inner contents =>
      simp only [text, bare, List.append_assoc, List.cons_append, List.nil_append]
      rw [gap.dropAngles, dropAngles_colons, inner.dropAngles, contents.dropAngles]

theorem dropAngles_links (links : List Link) :
    dropAngles 0 ' ' (links.flatMap Link.text) = links.flatMap Link.bare := by
  induction links with
  | nil => rfl
  | cons link others ih =>
      simp only [List.flatMap_cons, Link.text, Link.bare, Segment.text, List.append_assoc,
        List.cons_append]
      rw [link.before.dropAngles, dropAngles_colons, link.after.dropAngles,
        link.segment.name.dropAngles, link.segment.arguments.dropAngles, ih]

theorem WrittenPath.dropAngles (path : WrittenPath) :
    dropAngles 0 ' ' path.text =
      path.head.name.text ++ (path.head.arguments.bare ++ path.links.flatMap Link.bare) := by
  rw [text, Segment.text, List.append_assoc, path.head.name.dropAngles,
    path.head.arguments.dropAngles, dropAngles_links]

end Brackets

section Separators

variable {pending : List Char} {skipping : Bool} {left rest : List Char}

theorem tightenSeparators_plain (filled : left ≠ [])
    (plain : ∀ character ∈ left, Plain character) (rest : List Char) :
    tightenSeparators pending false skipping (left ++ rest) =
      pending.reverse ++ (left ++ tightenSeparators [] false false rest) := by
  induction left generalizing pending skipping with
  | nil => exact absurd rfl filled
  | cons first others ih =>
      obtain ⟨⟨visible, _, noColon, noDot⟩, later⟩ := List.forall_mem_cons.mp plain
      rw [List.cons_append, tightenSeparators, if_neg (by simp), if_neg (by simp [noColon]),
        if_neg noDot, if_neg (by simp [visible])]
      cases others with
      | nil => rfl
      | cons second more => rw [ih (by simp) later, List.reverse_nil]; rfl

theorem tightenSeparators_colons (rest : List Char) :
    tightenSeparators pending false skipping (':' :: ':' :: rest) =
      ':' :: ':' :: tightenSeparators [] false true rest := by
  simp [tightenSeparators]

theorem tightenSeparators_blank {character : Char} (blank : isBlank character) :
    tightenSeparators pending false skipping (character :: rest) =
      if skipping then tightenSeparators [] false true rest
      else tightenSeparators (character :: pending) false false rest := by
  have noMark : character ≠ ':' ∧ character ≠ '.' :=
    ⟨ne_of_isBlank blank (by decide), ne_of_isBlank blank (by decide)⟩
  rw [tightenSeparators, if_neg (by simp), if_neg (by simp [noMark]), if_neg noMark.2,
    if_pos blank]

theorem tightenSeparators_gap {gap : List Char} (blank : ∀ character ∈ gap, isBlank character)
    (rest : List Char) :
    tightenSeparators pending false false (gap ++ rest) =
      tightenSeparators (gap.reverse ++ pending) false false rest := by
  induction gap generalizing pending with
  | nil => rfl
  | cons first others ih =>
      obtain ⟨here, later⟩ := List.forall_mem_cons.mp blank
      rw [List.cons_append, tightenSeparators_blank here, if_neg (by simp), ih later]
      simp

theorem tightenSeparators_skip {gap : List Char} (blank : ∀ character ∈ gap, isBlank character)
    (rest : List Char) :
    tightenSeparators [] false true (gap ++ rest) = tightenSeparators [] false true rest := by
  induction gap with
  | nil => rfl
  | cons first others ih =>
      obtain ⟨here, later⟩ := List.forall_mem_cons.mp blank
      rw [List.cons_append, tightenSeparators_blank here, if_pos rfl, ih later]

theorem tightenSeparators_before (gap : Gap) (rest : List Char) :
    tightenSeparators pending false skipping (gap.text ++ ':' :: ':' :: rest) =
      ':' :: ':' :: tightenSeparators [] false true rest := by
  cases skipping with
  | false => rw [tightenSeparators_gap gap.blank, tightenSeparators_colons]
  | true =>
      obtain ⟨gap, blank⟩ := gap
      cases gap with
      | nil => exact tightenSeparators_colons rest
      | cons first others =>
          obtain ⟨here, later⟩ := List.forall_mem_cons.mp blank
          rw [List.cons_append, tightenSeparators_blank here, if_pos rfl,
            tightenSeparators_skip later, tightenSeparators_colons]

theorem dropHangingSeparators_free (free : ∀ character ∈ left, character ≠ ':')
    (rest : List Char) :
    dropHangingSeparators false (left ++ rest) = left ++ dropHangingSeparators false rest := by
  induction left with
  | nil => rfl
  | cons first others ih =>
      obtain ⟨here, later⟩ := List.forall_mem_cons.mp free
      rw [List.cons_append, dropHangingSeparators.eq_def]
      simp [here, ih later]

theorem dropHangingSeparators_colons {first : Char} (noColon : first ≠ ':') (rest : List Char) :
    dropHangingSeparators false (':' :: ':' :: first :: rest) =
      ':' :: ':' :: dropHangingSeparators false (first :: rest) := by
  have apart : startsWith "::" (first :: rest) = false := by
    simp [startsWith, List.isPrefixOf, Ne.symm noColon]
  rw [dropHangingSeparators]
  simp [apart, dropHangingSeparators, noColon]

theorem dropHangingSeparators_twice (rest : List Char) :
    dropHangingSeparators false (':' :: ':' :: ':' :: ':' :: rest) =
      dropHangingSeparators false (':' :: ':' :: rest) := by
  have starts : startsWith "::" (':' :: ':' :: rest) = true := by simp [startsWith]
  rw [dropHangingSeparators]
  simp [starts, dropHangingSeparators]

end Separators

section Names

variable {text joined : List Char}

/-- Reading goes on from the text, behind blanks or behind colons, with what is joined. -/
def ReadsAs (text joined : List Char) : Prop :=
  (∀ pending skipping, (∀ character ∈ pending, isBlank character) →
    ∃ blanks, (∀ character ∈ blanks, isBlank character) ∧
      dropHangingSeparators false (tightenSeparators pending false skipping text) =
        joined ++ blanks) ∧
  ∃ blanks, (∀ character ∈ blanks, isBlank character) ∧
    dropHangingSeparators false (':' :: ':' :: tightenSeparators [] false true text) =
      joined ++ blanks

theorem ReadsAs.nil : ReadsAs [] [] := by
  constructor
  · intro pending skipping blank
    have reversed : ∀ character ∈ pending.reverse, isBlank character :=
      fun character member => blank character (List.mem_reverse.mp member)
    refine ⟨pending.reverse, reversed, ?_⟩
    have noColon : ∀ character ∈ pending.reverse, character ≠ ':' :=
      fun character member => ne_of_isBlank (reversed character member) (by decide)
    have whole := dropHangingSeparators_free noColon []
    rw [List.append_nil] at whole
    exact whole.trans (List.append_nil _)
  · exact ⟨[], by simp, rfl⟩

theorem ReadsAs.arguments (reads : ReadsAs text joined) (arguments : Arguments) :
    ∃ blanks, (∀ character ∈ blanks, isBlank character) ∧
      dropHangingSeparators false
        (tightenSeparators [] false false (arguments.bare ++ text)) = joined ++ blanks := by
  cases arguments with
  | none => exact reads.1 [] false (by simp)
  | angled gap contents =>
      rw [Arguments.bare, tightenSeparators_gap gap.blank]
      apply reads.1
      intro character member
      exact gap.blank character (by simpa using member)
  | turbofish gap inner contents =>
      simp only [Arguments.bare, List.append_assoc, List.cons_append]
      rw [tightenSeparators_before gap, tightenSeparators_skip inner.blank]
      exact reads.2

theorem Identifier.plain (name : Identifier) : ∀ character ∈ name.text, Plain character :=
  fun character member => plain_of_isIdentifierChar (name.letters character member)

theorem Identifier.dropHanging (name : Identifier) (rest : List Char) :
    dropHangingSeparators false (name.text ++ rest) =
      name.text ++ dropHangingSeparators false rest :=
  dropHangingSeparators_free
    (fun character member => (name.plain character member).separator.1) rest

theorem Identifier.behindColons (name : Identifier) (rest : List Char) :
    dropHangingSeparators false (':' :: ':' :: (name.text ++ rest)) =
      ':' :: ':' :: (name.text ++ dropHangingSeparators false rest) := by
  obtain ⟨first, others, shape⟩ := List.exists_cons_of_ne_nil name.filled
  have noColon := (name.plain first (by simp [shape])).separator.1
  rw [← name.dropHanging, shape, List.cons_append, dropHangingSeparators_colons noColon]

theorem ReadsAs.link (reads : ReadsAs text joined) (link : Link) :
    ReadsAs (link.bare ++ text) (':' :: ':' :: (link.segment.name.text ++ joined)) := by
  have here (pending : List Char) (skipping : Bool) :
      tightenSeparators pending false skipping (link.bare ++ text) =
        ':' :: ':' :: (link.segment.name.text ++
          tightenSeparators [] false false (link.segment.arguments.bare ++ text)) := by
    simp only [Link.bare, List.append_assoc, List.cons_append]
    rw [tightenSeparators_before, tightenSeparators_skip link.after.blank,
      tightenSeparators_plain link.segment.name.filled link.segment.name.plain]
    rfl
  obtain ⟨blanks, blank, read⟩ := reads.arguments link.segment.arguments
  have joins : dropHangingSeparators false (':' :: ':' :: (link.segment.name.text ++
      tightenSeparators [] false false (link.segment.arguments.bare ++ text))) =
        ':' :: ':' :: (link.segment.name.text ++ joined) ++ blanks := by
    rw [link.segment.name.behindColons, read]
    simp
  constructor
  · intro pending skipping _
    exact ⟨blanks, blank, by rw [here, joins]⟩
  · exact ⟨blanks, blank, by rw [here, dropHangingSeparators_twice, joins]⟩

def Link.plain (link : Link) : Link where
  before := .none
  after := .none
  segment := ⟨link.segment.name, .none⟩

def WrittenPath.plain (path : WrittenPath) : WrittenPath where
  head := ⟨path.head.name, .none⟩
  links := path.links.map Link.plain

theorem Link.text_plain (link : Link) :
    link.plain.text = ':' :: ':' :: link.segment.name.text := by
  simp [text, plain, Segment.text, Arguments.text]

theorem readsAs_links (links : List Link) :
    ReadsAs (links.flatMap Link.bare) ((links.map Link.plain).flatMap Link.text) := by
  induction links with
  | nil => exact .nil
  | cons link others ih =>
      rw [List.flatMap_cons, List.map_cons, List.flatMap_cons, link.text_plain]
      exact ih.link link

theorem WrittenPath.text_plain (path : WrittenPath) :
    path.plain.text = path.head.name.text ++ (path.links.map Link.plain).flatMap Link.text := by
  simp [text, plain, Segment.text, Arguments.text]

theorem WrittenPath.toList_names (path : WrittenPath) :
    (joinWith "::" path.names).toList = path.plain.text := by
  rw [names, toList_joinWith, text_plain, List.flatMap_map, List.flatMap_map,
    String.toList_ofList]
  simp [Link.text_plain]

theorem WrittenPath.stripped (path : WrittenPath) :
    trim (dropHangingSeparators false (tightenSeparators [] false false
      (TypeText.dropAngles 0 ' ' (dropTraitClause path.text)))) = path.plain.text := by
  have noBracket : path.text.head? ≠ some '<' := by
    intro bracket
    rw [text, Segment.text, List.append_assoc,
      List.head?_append_of_ne_nil _ path.head.name.filled] at bracket
    exact (path.head.name.plain _ (List.mem_of_head? bracket)).bracket.1 rfl
  obtain ⟨blanks, blank, read⟩ := (readsAs_links path.links).arguments path.head.arguments
  rw [dropTraitClause_of_head noBracket, path.dropAngles,
    tightenSeparators_plain path.head.name.filled path.head.name.plain, List.reverse_nil,
    List.nil_append, path.head.name.dropHanging, read, ← List.append_assoc, ← path.text_plain,
    trim_append_blanks blank, trim_of_trimmed path.plain.trimmed]

theorem WrittenPath.stripGenericsChars (path : WrittenPath) (lead trail : Gap) :
    stripGenericsChars (lead.text ++ (path.text ++ trail.text)) = path.plain.text := by
  rw [TypeText.stripGenericsChars, path.normalize, path.narrow.stripped]
  rw [text_plain, text_plain]
  simp [narrow, Segment.narrow, Link.narrow, Link.text_plain, List.flatMap_map]

end Names

end CrateAtlas.TypeText
