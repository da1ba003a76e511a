import CrateAtlas.Proofs.TypeText.TypePath

/-!
The spacing of generic arguments. Main statements: normalizing it gives every gap between two tokens
anew, and two spacings of the same tokens become one exactly when they agree about the gaps that are
kept.
-/

namespace CrateAtlas.TypeText

open Text

section Lexemes

/-- The tokens of generic arguments. Words are all the others, whatever they stand for. -/
inductive Lexeme where
  | mark (character : Char) (known : character ∈ ['<', '>', ','])
  | arrow
  | word (text : List Char) (filled : text ≠ [])
      (visible : ∀ character ∈ text, isBlank character = false ∧ character ∉ ['<', '>', ','])

def Lexeme.text : Lexeme → List Char
  | .mark character _ => [character]
  | .arrow => ['-', '>']
  | .word text _ _ => text

def Lexeme.mark? : Lexeme → Option Char
  | .mark character _ => some character
  | .arrow => none
  | .word _ _ _ => none

/-- A token with the gap in front of it. -/
structure Spaced where
  gap : Gap
  lexeme : Lexeme

def spacedText (tokens : List Spaced) : List Char :=
  tokens.flatMap fun token => token.gap.text ++ token.lexeme.text

theorem spacedText_cons (token : Spaced) (tokens : List Spaced) :
    spacedText (token :: tokens) = token.gap.text ++ (token.lexeme.text ++ spacedText tokens) := by
  rw [spacedText, List.flatMap_cons, List.append_assoc, spacedText]

theorem Lexeme.filled (lexeme : Lexeme) : lexeme.text ≠ [] := by
  cases lexeme with
  | mark => simp [text]
  | arrow => simp [text]
  | word text filled => exact filled

theorem Lexeme.visible (lexeme : Lexeme) :
    ∀ character ∈ lexeme.text, isBlank character = false := by
  cases lexeme with
  | mark character known =>
      simp only [text, List.forall_mem_singleton]
      simp only [List.mem_cons, List.not_mem_nil, or_false] at known
      rcases known with rfl | rfl | rfl <;> decide
  | arrow => simp [text, isBlank]
  | word text _ visible => exact fun character member => (visible character member).1

theorem Lexeme.head_visible (lexeme : Lexeme) (rest : List Char) :
    ∀ character ∈ (lexeme.text ++ rest).head?, isBlank character = false := by
  intro character first
  rw [List.head?_append_of_ne_nil _ lexeme.filled] at first
  exact lexeme.visible character (List.mem_of_head? first)

/-- Gives every gap anew, from the marks at its two sides. -/
def regap (rule : Option Char → Option Char → Gap → Gap) (previous : Option Char) :
    List Spaced → List Spaced
  | [] => []
  | token :: tokens =>
      { token with gap := rule previous token.lexeme.mark? token.gap } ::
        regap rule token.lexeme.mark? tokens

theorem regap_regap (first second : Option Char → Option Char → Gap → Gap)
    (previous : Option Char) (tokens : List Spaced) :
    regap second previous (regap first previous tokens) =
      regap (fun left right gap => second left right (first left right gap)) previous tokens := by
  induction tokens generalizing previous with
  | nil => rfl
  | cons token others ih => simp only [regap, ih]

theorem collapse_spacedText (tokens : List Spaced) (previous : Option Char) (rest : List Char) :
    collapseRuns false (spacedText tokens ++ rest) =
      spacedText (regap (fun _ _ gap => gap.narrow) previous tokens) ++
        collapseRuns false rest := by
  induction tokens generalizing previous with
  | nil => rfl
  | cons token others ih =>
      rw [spacedText_cons, List.append_assoc, List.append_assoc,
        token.gap.collapse (token.lexeme.head_visible _),
        collapseRuns_visible_append token.lexeme.filled token.lexeme.visible,
        ih token.lexeme.mark?, regap, spacedText_cons, List.append_assoc, List.append_assoc]

end Lexemes

section Respacing

variable {mark : Char} {replacement pending left : List Char} {after skipping : Bool}

theorem respace_blank {character : Char} (other : isBlank mark = false)
    (blank : isBlank character) (rest : List Char) :
    respace mark replacement after pending skipping (character :: rest) =
      if skipping then respace mark replacement after [] true rest
      else respace mark replacement after (character :: pending) false rest := by
  rw [respace, if_neg (ne_of_isBlank blank other), if_pos blank]

theorem respace_gap (other : isBlank mark = false)
    (blank : ∀ character ∈ left, isBlank character) (rest : List Char) :
    respace mark replacement after pending false (left ++ rest) =
      respace mark replacement after (left.reverse ++ pending) false rest := by
  induction left generalizing pending with
  | nil => rfl
  | cons first others ih =>
      obtain ⟨here, later⟩ := List.forall_mem_cons.mp blank
      rw [List.cons_append, respace_blank other here, if_neg (by simp), ih later]
      simp

theorem respace_skip (other : isBlank mark = false)
    (blank : ∀ character ∈ left, isBlank character) (rest : List Char) :
    respace mark replacement after [] true (left ++ rest) =
      respace mark replacement after [] true rest := by
  induction left with
  | nil => rfl
  | cons first others ih =>
      obtain ⟨here, later⟩ := List.forall_mem_cons.mp blank
      rw [List.cons_append, respace_blank other here, if_pos rfl, ih later]

theorem respace_mark (rest : List Char) :
    respace mark replacement after pending skipping (mark :: rest) =
      replacement ++ respace mark replacement after [] after rest := by
  rw [respace, if_pos rfl]

theorem respace_visible (filled : left ≠ [])
    (visible : ∀ character ∈ left, isBlank character = false ∧ character ≠ mark)
    (rest : List Char) :
    respace mark replacement after pending skipping (left ++ rest) =
      pending.reverse ++ (left ++ respace mark replacement after [] false rest) := by
  induction left generalizing pending skipping with
  | nil => exact absurd rfl filled
  | cons first others ih =>
      obtain ⟨⟨seen, other⟩, later⟩ := List.forall_mem_cons.mp visible
      rw [List.cons_append, respace, if_neg other, if_neg (by simp [seen])]
      cases others with
      | nil => rfl
      | cons second more => rw [ih (by simp) later, List.reverse_nil]; rfl

/-- What a pass over one mark makes of a gap: `behind` is the gap behind the mark, where the pass
changes it. -/
def around (mark : Char) (behind : Option Gap) (previous next : Option Char) (gap : Gap) : Gap :=
  if previous = some mark ∧ behind.isSome then behind.getD .none
  else if next = some mark then .none
  else gap

def behindText (behind : Option Gap) : List Char :=
  (behind.getD .none).text

/-- A pass goes over every token that is not its mark. -/
def LeavesTokens (mark : Char) (behind : Option Gap) : Prop :=
  ∀ (lexeme : Lexeme) (pending : List Char) (skipping : Bool) (rest : List Char),
    lexeme.mark? ≠ some mark →
      respace mark (mark :: behindText behind) behind.isSome pending skipping
        (lexeme.text ++ rest) =
          pending.reverse ++ (lexeme.text ++
            respace mark (mark :: behindText behind) behind.isSome [] false rest)

def lastMark (previous : Option Char) : List Spaced → Option Char
  | [] => previous
  | token :: tokens => lastMark token.lexeme.mark? tokens

theorem Lexeme.text_of_mark {lexeme : Lexeme} (isMark : lexeme.mark? = some mark) :
    lexeme.text = [mark] := by
  cases lexeme with
  | mark character => rw [text, Option.some.inj isMark]
  | arrow => simp [mark?] at isMark
  | word => simp [mark?] at isMark

theorem LeavesTokens.token {behind : Option Gap} (leaves : LeavesTokens mark behind)
    (lexeme : Lexeme) (pending : List Char) (skipping : Bool) (rest : List Char) :
    respace mark (mark :: behindText behind) behind.isSome pending skipping
        (lexeme.text ++ rest) =
      (if lexeme.mark? = some mark then [] else pending.reverse) ++ (lexeme.text ++
        ((if lexeme.mark? = some mark then behindText behind else []) ++
          respace mark (mark :: behindText behind) behind.isSome []
            (behind.isSome && lexeme.mark? = some mark) rest)) := by
  by_cases isMark : lexeme.mark? = some mark
  · rw [Lexeme.text_of_mark isMark, List.singleton_append, respace_mark]
    simp [isMark]
  · rw [leaves lexeme pending skipping rest isMark]
    simp [isMark]

theorem LeavesTokens.step {behind : Option Gap} (leaves : LeavesTokens mark behind)
    (other : isBlank mark = false) (previous : Option Char) (token : Spaced) (rest : List Char) :
    (if previous = some mark then behindText behind else []) ++
      respace mark (mark :: behindText behind) behind.isSome []
        (behind.isSome && previous = some mark)
        (token.gap.text ++ (token.lexeme.text ++ rest)) =
      (around mark behind previous token.lexeme.mark? token.gap).text ++ (token.lexeme.text ++
        ((if token.lexeme.mark? = some mark then behindText behind else []) ++
          respace mark (mark :: behindText behind) behind.isSome []
            (behind.isSome && token.lexeme.mark? = some mark) rest)) := by
  by_cases behindMark : previous = some mark ∧ behind.isSome
  · obtain ⟨isMark, known⟩ := behindMark
    have fixed : around mark behind previous token.lexeme.mark? token.gap = behind.getD .none := by
      rw [around, if_pos ⟨isMark, known⟩]
    have skips : (behind.isSome && decide (previous = some mark)) = true := by simp [isMark, known]
    rw [skips, respace_skip other token.gap.blank, leaves.token, fixed, if_pos isMark, behindText]
    simp
  · have keeps : (behind.isSome && decide (previous = some mark)) = false := by
      rw [Bool.and_eq_false_iff, decide_eq_false_iff_not]
      by_cases isMark : previous = some mark
      · exact .inl (by simpa [isMark] using behindMark)
      · exact .inr isMark
    have silent : (if previous = some mark then behindText behind else []) = [] := by
      split
      · rename_i isMark
        cases behind with
        | none => rfl
        | some gap => simp [isMark] at behindMark
      · rfl
    have fixed : around mark behind previous token.lexeme.mark? token.gap =
        if token.lexeme.mark? = some mark then .none else token.gap := by
      rw [around, if_neg behindMark]
    rw [keeps, silent, respace_gap other token.gap.blank, leaves.token, fixed]
    by_cases isMark : token.lexeme.mark? = some mark <;> simp [isMark]

theorem LeavesTokens.respace {behind : Option Gap} (leaves : LeavesTokens mark behind)
    (other : isBlank mark = false) (previous : Option Char) (tokens : List Spaced) :
    (if previous = some mark then behindText behind else []) ++
      respace mark (mark :: behindText behind) behind.isSome []
        (behind.isSome && previous = some mark) (spacedText tokens) =
      spacedText (regap (around mark behind) previous tokens) ++
        if lastMark previous tokens = some mark then behindText behind else [] := by
  induction tokens generalizing previous with
  | nil =>
      rw [regap, lastMark, spacedText, List.flatMap_nil, TypeText.respace]
      simp
  | cons token others ih =>
      rw [spacedText_cons, leaves.step other, ih, regap, spacedText_cons, lastMark]
      simp only [List.append_assoc]

theorem LeavesTokens.respace_whole {behind : Option Gap} (leaves : LeavesTokens mark behind)
    (other : isBlank mark = false) {tokens : List Spaced}
    (quiet : lastMark none tokens = some mark → behindText behind = []) :
    TypeText.respace mark (mark :: behindText behind) behind.isSome [] false (spacedText tokens) =
      spacedText (regap (around mark behind) none tokens) := by
  have whole := leaves.respace other none tokens
  have nothing : (if lastMark none tokens = some mark then behindText behind else []) = [] := by
    split
    · exact quiet ‹_›
    · rfl
  rw [nothing, List.append_nil] at whole
  simpa using whole

theorem lastMark_regap (rule : Option Char → Option Char → Gap → Gap)
    (previous : Option Char) (tokens : List Spaced) :
    lastMark previous (regap rule previous tokens) = lastMark previous tokens := by
  induction tokens generalizing previous with
  | nil => rfl
  | cons token others ih => rw [regap, lastMark, lastMark, ih]

theorem lastMark_concat (previous : Option Char) (tokens : List Spaced) (token : Spaced) :
    lastMark previous (tokens ++ [token]) = token.lexeme.mark? := by
  induction tokens generalizing previous with
  | nil => rfl
  | cons first others ih => rw [List.cons_append, lastMark, ih]

theorem Lexeme.not_mem_text {lexeme : Lexeme} (known : mark ∈ ['<', '>', ','])
    (other : lexeme.mark? ≠ some mark) (apart : lexeme = .arrow → mark ≠ '>') :
    mark ∉ lexeme.text := by
  intro member
  cases lexeme with
  | mark _ _ =>
      rw [text, List.mem_singleton] at member
      exact other (congrArg some member.symm)
  | arrow =>
      simp only [text, List.mem_cons, List.not_mem_nil, or_false] at member
      rcases member with rfl | rfl
      · simp at known
      · exact apart rfl rfl
  | word text _ visible => exact (visible mark member).2 known

theorem Lexeme.respace (lexeme : Lexeme) (free : mark ∉ lexeme.text) (rest : List Char) :
    respace mark replacement after pending skipping (lexeme.text ++ rest) =
      pending.reverse ++ (lexeme.text ++ respace mark replacement after [] false rest) := by
  refine respace_visible lexeme.filled (fun character member => ?_) rest
  refine ⟨lexeme.visible character member, ?_⟩
  rintro rfl
  exact free member

theorem leavesTokens_of_free {behind : Option Gap} (known : mark ∈ ['<', '>', ','])
    (noArrow : mark ≠ '>') : LeavesTokens mark behind :=
  fun lexeme _ _ rest other =>
    lexeme.respace (lexeme.not_mem_text known other fun _ => noArrow) rest

theorem leavesTokens_closer : LeavesTokens '>' none := by
  intro lexeme pending skipping rest other
  by_cases arrow : lexeme = .arrow
  · subst arrow
    simp [Lexeme.text, respace, behindText, isBlank]
  · exact lexeme.respace (lexeme.not_mem_text (by simp) other fun same => absurd same arrow) rest

end Respacing

section Settling

def settled (previous next : Option Char) (gap : Gap) : Gap :=
  if previous = some ',' then Space.single.toGap
  else if previous = some '<' ∨ next ∈ [some '<', some '>', some ','] then .none
  else gap.narrow

/-- Whether a gap is left as it is, apart from how many blanks it has. -/
def isKept (previous next : Option Char) : Bool :=
  previous ∉ [some '<', some ','] && next ∉ [some '<', some '>', some ',']

theorem settled_eq (previous next : Option Char) (gap : Gap) :
    around ',' (some Space.single.toGap) previous next
      (around '>' none previous next
        (around '<' (some .none) previous next gap.narrow)) = settled previous next gap := by
  by_cases comma : previous = some ','
  · simp [around, settled, comma]
  · by_cases opens : previous = some '<'
    · simp [around, settled, opens]
    · simp only [around, settled, comma, opens, List.mem_cons, List.not_mem_nil, or_false,
        false_and, and_false, false_or, if_false, Option.isSome_none, Bool.false_eq_true]
      split_ifs <;> simp_all

theorem respace_openers (tokens : List Spaced) :
    respace '<' ['<'] true [] false (spacedText tokens) =
      spacedText (regap (around '<' (some .none)) none tokens) := by
  have leaves : LeavesTokens '<' (some .none) := leavesTokens_of_free (by simp) (by decide)
  exact leaves.respace_whole (by decide) fun _ => rfl

theorem respace_closers (tokens : List Spaced) :
    respace '>' ['>'] false [] false (spacedText tokens) =
      spacedText (regap (around '>' none) none tokens) :=
  leavesTokens_closer.respace_whole (by decide) fun _ => rfl

theorem respace_commas {tokens : List Spaced} (ends : lastMark none tokens ≠ some ',') :
    respace ',' [',', ' '] true [] false (spacedText tokens) =
      spacedText (regap (around ',' (some Space.single.toGap)) none tokens) := by
  have leaves : LeavesTokens ',' (some Space.single.toGap) :=
    leavesTokens_of_free (by simp) (by decide)
  exact leaves.respace_whole (by decide) fun last => absurd last ends

/-- The three passes, one after the other, settle the gaps of tokens that do not end in a comma. -/
theorem respace_settles {tokens : List Spaced} (ends : lastMark none tokens ≠ some ',') :
    respace ',' [',', ' '] true [] false (respace '>' ['>'] false [] false
      (respace '<' ['<'] true [] false
        (spacedText (regap (fun _ _ gap => gap.narrow) none tokens)))) =
      spacedText (regap settled none tokens) := by
  rw [respace_openers, respace_closers, respace_commas (by simpa only [lastMark_regap] using ends)]
  simp only [regap_regap, settled_eq]

def Gap.IsNarrow (gap : Gap) : Prop :=
  gap.text = [] ∨ gap.text = [' ']

theorem isNarrow_settled (previous next : Option Char) (gap : Gap) :
    (settled previous next gap).IsNarrow := by
  simp only [settled, Gap.narrow, Gap.IsNarrow]
  split_ifs <;> simp [Space.single]

theorem settled_of_isKept {previous next : Option Char} (kept : isKept previous next)
    (gap : Gap) : settled previous next gap = gap.narrow := by
  simp only [isKept, Bool.and_eq_true, decide_eq_true_eq, List.mem_cons, List.not_mem_nil,
    or_false, not_or] at kept
  obtain ⟨⟨opens, comma⟩, free⟩ := kept
  rw [settled, if_neg comma, if_neg (by simp [opens, free])]

theorem settled_of_not_isKept {previous next : Option Char} (lost : isKept previous next = false)
    (gap other : Gap) : settled previous next gap = settled previous next other := by
  rw [settled, settled]
  by_cases comma : previous = some ','
  · rw [if_pos comma, if_pos comma]
  · have fixed : previous = some '<' ∨ next ∈ [some '<', some '>', some ','] := by
      by_contra free
      simp only [List.mem_cons, List.not_mem_nil, or_false, not_or] at free
      simp [isKept, comma, free] at lost
    rw [if_neg comma, if_neg comma, if_pos fixed, if_pos fixed]

theorem Gap.narrow_text_eq_iff (gap other : Gap) :
    gap.narrow.text = other.narrow.text ↔ (gap.text = [] ↔ other.text = []) := by
  simp only [narrow]
  by_cases empty : gap.text = [] <;> by_cases otherEmpty : other.text = [] <;>
    simp [empty, otherEmpty]

theorem settled_text_eq_iff (previous next : Option Char) (gap other : Gap) :
    (settled previous next gap).text = (settled previous next other).text ↔
      (isKept previous next → (gap.text = [] ↔ other.text = [])) := by
  cases kept : isKept previous next with
  | true =>
      rw [settled_of_isKept kept, settled_of_isKept kept, Gap.narrow_text_eq_iff]
      simp
  | false =>
      rw [settled_of_not_isKept kept gap other]
      simp

theorem gap_append_inj {gap other : Gap} (narrow : gap.IsNarrow) (otherNarrow : other.IsNarrow)
    (lexeme : Lexeme) (rest more : List Char) :
    gap.text ++ (lexeme.text ++ rest) = other.text ++ (lexeme.text ++ more) ↔
      gap.text = other.text ∧ rest = more := by
  obtain ⟨first, letters, shape⟩ := List.exists_cons_of_ne_nil lexeme.filled
  have visible : first ≠ ' ' := by
    rintro rfl
    exact absurd (lexeme.visible ' ' (by simp [shape])) (by decide)
  rcases narrow with empty | space <;> rcases otherNarrow with otherEmpty | otherSpace
  · simp [empty, otherEmpty]
  · simp [empty, otherSpace, shape, visible]
  · simp [space, otherEmpty, shape, Ne.symm visible]
  · simp [space, otherSpace]

/-- The token lists agree, gap by gap, where gaps are kept: both have blanks there, or
neither has. -/
def SameGaps : Option Char → List Spaced → List Spaced → Prop
  | _, [], [] => True
  | previous, token :: tokens, other :: others =>
      (isKept previous token.lexeme.mark? → (token.gap.text = [] ↔ other.gap.text = [])) ∧
        SameGaps token.lexeme.mark? tokens others
  | _, _, _ => False

instance SameGaps.decidable : (previous : Option Char) → (tokens others : List Spaced) →
    Decidable (SameGaps previous tokens others)
  | _, [], [] => .isTrue trivial
  | _, [], _ :: _ => .isFalse id
  | _, _ :: _, [] => .isFalse id
  | _, token :: tokens, _ :: others =>
      have : Decidable (SameGaps token.lexeme.mark? tokens others) :=
        SameGaps.decidable _ tokens others
      inferInstanceAs (Decidable (_ ∧ _))

theorem settled_eq_iff_sameGaps {tokens others : List Spaced}
    (same : tokens.map Spaced.lexeme = others.map Spaced.lexeme) (previous : Option Char) :
    spacedText (regap settled previous tokens) = spacedText (regap settled previous others) ↔
      SameGaps previous tokens others := by
  induction tokens generalizing others previous with
  | nil =>
      obtain rfl : others = [] := by simpa using same.symm
      simp [SameGaps]
  | cons token tokens ih =>
      cases others with
      | nil => simp at same
      | cons other others =>
          obtain ⟨lexeme, later⟩ := List.cons.inj same
          rw [regap, regap, spacedText_cons, spacedText_cons, ← lexeme,
            gap_append_inj (isNarrow_settled ..) (isNarrow_settled ..), settled_text_eq_iff,
            ih later, SameGaps]

end Settling

end CrateAtlas.TypeText
