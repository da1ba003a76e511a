import CrateAtlas.Rust.Delimiter
import Mathlib.Tactic

/-!
Which syntax trees pass the check of their delimiters, and what is blamed in the others. Main
statement: as long as no node is of a kind that every record inherits, exactly the trees whose
delimiters are a well-bracketed word pass, and the first closer that closes nothing or an opener of
another kind is blamed, or else the last opener left open.
-/

namespace CrateAtlas.Rust

section Words

inductive Delimiter where
  | opener (bracket : Bracket)
  | closer (bracket : Bracket)
  deriving DecidableEq, Repr

def Delimiter.ofKind? (kind : String) : Option Delimiter :=
  match kind with
  | "(" => some (.opener .round)
  | "[" => some (.opener .square)
  | "\x7b" => some (.opener .curly)
  | ")" => some (.closer .round)
  | "]" => some (.closer .square)
  | "\x7d" => some (.closer .curly)
  | _ => none

def Delimiter.text : Delimiter → String
  | .opener bracket => bracket.opening
  | .closer bracket => bracket.closing

theorem Delimiter.eq_text {kind : String} {delimiter : Delimiter}
    (found : Delimiter.ofKind? kind = some delimiter) : kind = delimiter.text := by
  unfold ofKind? at found
  split at found <;> cases found <;> rfl

/-- A delimiter and the row that it stands on. -/
structure Mark where
  delimiter : Delimiter
  row : Nat
  deriving DecidableEq, Repr

def Mark.apply (mark : Mark) (opened : List Opener) : Except DelimiterError (List Opener) :=
  match mark.delimiter, opened with
  | .opener bracket, _ => .ok (⟨bracket, mark.row⟩ :: opened)
  | .closer bracket, [] => .error { row := mark.row, fault := .unexpected bracket.closing }
  | .closer bracket, opener :: outer =>
      if opener.bracket = bracket then .ok outer
      else
        .error
          { row := mark.row
            fault := .mismatched bracket.closing opener.bracket.opening (opener.row + 1) }

inductive WellBracketed : List Delimiter → Prop
  | empty : WellBracketed []
  | nest (bracket : Bracket) {inside rest : List Delimiter} :
      WellBracketed inside → WellBracketed rest →
      WellBracketed (.opener bracket :: inside ++ .closer bracket :: rest)

theorem WellBracketed.append {front back : List Delimiter} (first : WellBracketed front)
    (second : WellBracketed back) : WellBracketed (front ++ back) := by
  induction first with
  | empty => exact second
  | nest bracket inner _ _ ih =>
      have nested := WellBracketed.nest bracket inner ih
      simpa only [List.cons_append, List.append_assoc] using nested

def Closed (marks : List Mark) : Prop :=
  WellBracketed (marks.map Mark.delimiter)

theorem closed_nil : Closed [] := .empty

/-- Behind these marks just these openers are open, innermost first: all that stands between them
and behind the last of them is closed. -/
inductive LeftOpen : List Mark → List Opener → Prop
  | closed {marks : List Mark} : Closed marks → LeftOpen marks []
  | opener {outer inside : List Mark} {opened : List Opener} (bracket : Bracket) (row : Nat) :
      LeftOpen outer opened → Closed inside →
      LeftOpen (outer ++ ⟨.opener bracket, row⟩ :: inside) (⟨bracket, row⟩ :: opened)

variable {before marks : List Mark} {mark : Mark} {opened after : List Opener}
  {error : DelimiterError} {fault : DelimiterFault}

theorem LeftOpen.append (left : LeftOpen before opened) (closed : Closed marks) :
    LeftOpen (before ++ marks) opened := by
  cases left with
  | closed first =>
      refine .closed ?_
      rw [Closed, List.map_append]
      exact first.append closed
  | opener bracket row outer inner =>
      rw [List.append_assoc, List.cons_append]
      refine .opener bracket row outer ?_
      rw [Closed, List.map_append]
      exact inner.append closed

def readMarks (opened : List Opener) (marks : List Mark) :
    Except DelimiterError (List Opener) :=
  marks.foldlM (fun opened mark => mark.apply opened) opened

theorem readMarks_append (opened : List Opener) (before marks : List Mark) :
    readMarks opened (before ++ marks) = readMarks opened before >>= (readMarks · marks) :=
  List.foldlM_append

theorem readMarks_append_ok (read : readMarks opened before = .ok after) (marks : List Mark) :
    readMarks opened (before ++ marks) = readMarks after marks := by
  rw [readMarks_append, read]
  rfl

theorem readMarks_append_eq_ok :
    readMarks opened (before ++ marks) = .ok after ↔
      ∃ middle, readMarks opened before = .ok middle ∧ readMarks middle marks = .ok after := by
  rw [readMarks_append]
  cases readMarks opened before with
  | error error => exact iff_of_false nofun (by simp)
  | ok middle => simp [bind, Except.bind]

theorem readMarks_cons_ok (applied : mark.apply opened = .ok after) (marks : List Mark) :
    readMarks opened (mark :: marks) = readMarks after marks := by
  rw [readMarks, List.foldlM_cons, applied]
  rfl

theorem readMarks_cons_error (applied : mark.apply opened = .error error) (marks : List Mark) :
    readMarks opened (mark :: marks) = .error error := by
  rw [readMarks, List.foldlM_cons, applied]
  rfl

theorem apply_opener (bracket : Bracket) (row : Nat) (opened : List Opener) :
    Mark.apply ⟨.opener bracket, row⟩ opened = .ok (⟨bracket, row⟩ :: opened) := rfl

theorem apply_closer (bracket : Bracket) (row openedOn : Nat) (opened : List Opener) :
    Mark.apply ⟨.closer bracket, row⟩ (⟨bracket, openedOn⟩ :: opened) = .ok opened := by
  simp [Mark.apply]

theorem Closed.read_eq (closed : Closed marks) (opened : List Opener) :
    readMarks opened marks = .ok opened := by
  generalize word : marks.map Mark.delimiter = delimiters at closed
  rw [Closed, word] at closed
  induction closed generalizing marks opened with
  | empty =>
      obtain rfl := List.map_eq_nil_iff.mp word
      rfl
  | nest bracket _ _ inner outer =>
      obtain ⟨_, _, rfl, wordInside, wordBehind⟩ := List.map_eq_append_iff.mp word
      obtain ⟨⟨_, row⟩, inside, rfl, rfl, sameInside⟩ := List.map_eq_cons_iff.mp wordInside
      obtain ⟨⟨_, closedOn⟩, rest, rfl, rfl, sameRest⟩ := List.map_eq_cons_iff.mp wordBehind
      rw [List.cons_append, readMarks_cons_ok (apply_opener bracket row opened),
        readMarks_append_ok (inner _ sameInside), readMarks_cons_ok (apply_closer ..)]
      exact outer opened sameRest

theorem LeftOpen.read_eq (left : LeftOpen marks opened) : readMarks [] marks = .ok opened := by
  induction left with
  | closed closed => exact closed.read_eq []
  | opener bracket row _ inner ih =>
      rw [readMarks_append_ok ih, readMarks_cons_ok (apply_opener ..)]
      exact inner.read_eq _

theorem LeftOpen.apply (left : LeftOpen before opened) (applied : mark.apply opened = .ok after) :
    LeftOpen (before ++ [mark]) after := by
  obtain ⟨opener | closer, row⟩ := mark
  · obtain rfl := Except.ok.inj applied
    exact .opener opener row left .empty
  · cases left with
    | closed => simp [Mark.apply] at applied
    | opener bracket openedOn outer inner =>
        by_cases same : bracket = closer
        · subst same
          rw [apply_closer] at applied
          obtain rfl := Except.ok.inj applied
          rw [List.append_assoc]
          refine outer.append ?_
          rw [Closed, List.map_append, List.map_cons]
          exact .nest bracket inner .empty
        · simp [Mark.apply, same] at applied

theorem LeftOpen.of_readMarks (left : LeftOpen before opened)
    (read : readMarks opened marks = .ok after) : LeftOpen (before ++ marks) after := by
  induction marks generalizing before opened with
  | nil =>
      obtain rfl := Except.ok.inj read
      rwa [List.append_nil]
  | cons mark others ih =>
      cases applied : mark.apply opened with
      | error error => simp [readMarks_cons_error applied] at read
      | ok middle =>
          rw [readMarks_cons_ok applied] at read
          have further := ih (left.apply applied) read
          rwa [List.append_assoc] at further

theorem readMarks_iff : readMarks [] marks = .ok opened ↔ LeftOpen marks opened :=
  ⟨fun read => LeftOpen.of_readMarks (.closed closed_nil) read, LeftOpen.read_eq⟩

theorem LeftOpen.unique {others : List Opener} (left : LeftOpen marks opened)
    (again : LeftOpen marks others) : opened = others :=
  Except.ok.inj (left.read_eq.symm.trans again.read_eq)

theorem LeftOpen.closed_of_nil (left : LeftOpen marks []) : Closed marks := by
  cases left with
  | closed closed => exact closed

end Words

section Blame

/-- A closer that closes nothing behind these marks, or an opener of another kind. -/
inductive Misplaced (before : List Mark) : Mark → DelimiterFault → Prop
  | closesNothing (bracket : Bracket) (row : Nat) : Closed before →
      Misplaced before ⟨.closer bracket, row⟩ (.unexpected bracket.closing)
  | closesOther (bracket other : Bracket) (row openedOn : Nat) (outer inside : List Mark) :
      before = outer ++ ⟨.opener other, openedOn⟩ :: inside → Closed inside → other ≠ bracket →
      Misplaced before ⟨.closer bracket, row⟩
        (.mismatched bracket.closing other.opening (openedOn + 1))

def Matched (marks : List Mark) : Prop :=
  ∀ before mark later fault, marks = before ++ mark :: later → ¬Misplaced before mark fault

/-- The mark to blame: the first closer that is misplaced, or, where every closer matches, the last
opener that is left open. -/
inductive Blamed (marks : List Mark) : Mark → DelimiterFault → Prop
  | closer (before later : List Mark) (mark : Mark) (fault : DelimiterFault) :
      marks = before ++ mark :: later → Matched before → Misplaced before mark fault →
      Blamed marks mark fault
  | opener (before later : List Mark) (bracket : Bracket) (row : Nat) :
      marks = before ++ ⟨.opener bracket, row⟩ :: later → Closed later → Matched marks →
      Blamed marks ⟨.opener bracket, row⟩ (.unclosed bracket.opening)

variable {before marks : List Mark} {mark : Mark} {opened : List Opener}
  {error : DelimiterError} {fault : DelimiterFault}

theorem LeftOpen.innermost {outer inside : List Mark} {bracket : Bracket} {row : Nat}
    (left : LeftOpen (outer ++ ⟨.opener bracket, row⟩ :: inside) opened) (closed : Closed inside) :
    ∃ others, opened = ⟨bracket, row⟩ :: others := by
  obtain ⟨others, front, -⟩ := readMarks_append_eq_ok.mp left.read_eq
  exact ⟨others, left.unique (.opener bracket row (readMarks_iff.mp front) closed)⟩

theorem LeftOpen.misplaced_iff (left : LeftOpen before opened) :
    mark.apply opened = .error error ↔
      ∃ fault, Misplaced before mark fault ∧ error = { row := mark.row, fault := fault } := by
  constructor
  · intro applied
    obtain ⟨opener | closer, row⟩ := mark
    · exact absurd applied nofun
    · cases left with
      | closed closed =>
          exact ⟨_, .closesNothing closer row closed, (Except.error.inj applied).symm⟩
      | opener bracket openedOn outer inner =>
          by_cases same : bracket = closer
          · simp [Mark.apply, same] at applied
          · simp only [Mark.apply, same, if_false, Except.error.injEq] at applied
            exact ⟨_, .closesOther closer bracket row openedOn _ _ rfl inner same, applied.symm⟩
  · rintro ⟨fault, misplaced, rfl⟩
    cases misplaced with
    | closesNothing bracket row closed =>
        obtain rfl := left.unique (.closed closed)
        rfl
    | closesOther bracket other row openedOn outer inside split closed different =>
        subst split
        obtain ⟨others, rfl⟩ := left.innermost closed
        simp [Mark.apply, different]

theorem matched_append_singleton :
    Matched (before ++ [mark]) ↔ Matched before ∧ ∀ fault, ¬Misplaced before mark fault := by
  constructor
  · intro matched
    refine ⟨?_, fun fault => matched before mark [] fault rfl⟩
    rintro front earlier later fault rfl
    exact matched front earlier (later ++ [mark]) fault (by simp)
  · rintro ⟨matched, placed⟩ front earlier later fault split
    rcases List.eq_nil_or_concat later with rfl | ⟨others, last, rfl⟩
    · obtain ⟨rfl, ⟨⟩⟩ := List.append_inj' split rfl
      exact placed fault
    · rw [List.concat_eq_append, ← List.cons_append, ← List.append_assoc] at split
      obtain ⟨rfl, -⟩ := List.append_inj' split rfl
      exact matched front earlier others fault rfl

theorem exists_leftOpen_iff_matched : (∃ opened, LeftOpen marks opened) ↔ Matched marks := by
  induction marks using List.reverseRecOn with
  | nil =>
      refine iff_of_true ⟨[], .closed .empty⟩ ?_
      intro before mark later fault split
      simp at split
  | append_singleton before mark ih =>
      rw [matched_append_singleton, ← ih]
      constructor
      · rintro ⟨after, left⟩
        obtain ⟨opened, front, rest⟩ := readMarks_append_eq_ok.mp left.read_eq
        have leftFront := readMarks_iff.mp front
        refine ⟨⟨opened, leftFront⟩, fun fault misplaced => ?_⟩
        have applied := leftFront.misplaced_iff.mpr ⟨fault, misplaced, rfl⟩
        rw [readMarks_cons_error applied] at rest
        exact absurd rest nofun
      · rintro ⟨⟨opened, left⟩, placed⟩
        cases applied : mark.apply opened with
        | ok after => exact ⟨after, left.apply applied⟩
        | error error =>
            obtain ⟨fault, misplaced, -⟩ := left.misplaced_iff.mp applied
            exact absurd misplaced (placed fault)

theorem readMarks_error_iff :
    readMarks [] marks = .error error ↔
      ∃ before mark later fault, marks = before ++ mark :: later ∧ Matched before ∧
        Misplaced before mark fault ∧ error = { row := mark.row, fault := fault } := by
  constructor
  · intro read
    induction marks using List.reverseRecOn with
    | nil => exact absurd read nofun
    | append_singleton before mark ih =>
        cases front : readMarks [] before with
        | error first =>
            rw [readMarks_append, front] at read
            obtain ⟨earlier, culprit, later, fault, rfl, found⟩ := ih (front.trans read)
            exact ⟨earlier, culprit, later ++ [mark], fault, by simp, found⟩
        | ok opened =>
            have left := readMarks_iff.mp front
            rw [readMarks_append_ok front] at read
            cases applied : mark.apply opened with
            | ok after =>
                rw [readMarks_cons_ok applied] at read
                exact absurd read nofun
            | error last =>
                rw [readMarks_cons_error applied] at read
                obtain ⟨fault, misplaced, rfl⟩ := left.misplaced_iff.mp applied
                exact ⟨before, mark, [], fault, rfl, exists_leftOpen_iff_matched.mp ⟨opened, left⟩,
                  misplaced, (Except.error.inj read).symm⟩
  · rintro ⟨before, mark, later, fault, rfl, matched, misplaced, rfl⟩
    obtain ⟨opened, left⟩ := exists_leftOpen_iff_matched.mpr matched
    have applied := left.misplaced_iff.mpr ⟨fault, misplaced, rfl⟩
    rw [readMarks_append_ok left.read_eq, readMarks_cons_error applied]

end Blame

namespace SyntaxNode

mutual

/-- The tokens of a tree in the order of the document. -/
def leaves : SyntaxNode → List NodeHead
  | ⟨head, children⟩ => if children.isEmpty then [head] else leavesOf children

def leavesOf : List SyntaxNode → List NodeHead
  | [] => []
  | first :: others => leaves first ++ leavesOf others

end

theorem leavesOf_append (front back : List SyntaxNode) :
    leavesOf (front ++ back) = leavesOf front ++ leavesOf back := by
  induction front with
  | nil => rfl
  | cons first others ih => rw [List.cons_append, leavesOf, leavesOf, ih, List.append_assoc]

theorem leavesOf_cons_token (token : NodeHead) (pending : List SyntaxNode) :
    leavesOf (⟨token, []⟩ :: pending) = token :: leavesOf pending := rfl

/-- The delimiters among the tokens that are part of the text. -/
def marks (root : SyntaxNode) : List Mark :=
  (root.leaves.filter fun leaf => leaf.text ≠ "").filterMap fun leaf =>
    (Delimiter.ofKind? leaf.kind).map fun delimiter => { delimiter := delimiter, row := leaf.row }

/-- No token is of a kind that names a member of every record. -/
def Ordinary (leaves : List NodeHead) : Prop :=
  ∀ leaf ∈ leaves, leaf.kind ∉ Record.inheritedNames

def mark? (leaf : NodeHead) : Option Mark :=
  if leaf.text = "" then none
  else
    (Delimiter.ofKind? leaf.kind).map fun delimiter => { delimiter := delimiter, row := leaf.row }

theorem filterMap_mark? (leaves : List NodeHead) :
    leaves.filterMap mark? = (leaves.filter fun leaf => leaf.text ≠ "").filterMap fun leaf =>
      (Delimiter.ofKind? leaf.kind).map fun delimiter =>
        { delimiter := delimiter, row := leaf.row } := by
  rw [List.filterMap_filter]
  congr 1
  funext leaf
  simp [mark?]

theorem meet_of_mark {leaf : NodeHead} {mark : Mark} (marked : mark? leaf = some mark)
    (opened : List Opener) : meet leaf opened = mark.apply opened := by
  simp only [mark?, Option.ite_none_left_eq_some, Option.map_eq_some_iff] at marked
  obtain ⟨filled, delimiter, found, rfl⟩ := marked
  simp only [meet, if_neg filled, Delimiter.eq_text found]
  cases delimiter with
  | opener bracket => cases bracket <;> rfl
  | closer bracket =>
      cases bracket <;> cases opened <;>
        simp [Delimiter.text, Bracket.closing, Bracket.ofOpening?, Expected.ofKind?,
          Bracket.closers, OrderedMap.get?, Mark.apply, eq_comm]

theorem meet_of_no_mark {leaf : NodeHead} (ordinary : leaf.kind ∉ Record.inheritedNames)
    (unmarked : mark? leaf = none) (opened : List Opener) : meet leaf opened = .ok opened := by
  by_cases empty : leaf.text = ""
  · simp only [meet, if_pos empty]
  rw [mark?, if_neg empty, Option.map_eq_none_iff] at unmarked
  have noOpener : Bracket.ofOpening? leaf.kind = none := by
    unfold Bracket.ofOpening?
    split <;> simp_all [Delimiter.ofKind?]
  have absent : OrderedMap.get? leaf.kind Bracket.closers = none := by
    simp only [Bracket.closers, OrderedMap.get?]
    split_ifs with curly round square
    · simp [← curly, Delimiter.ofKind?] at unmarked
    · simp [← round, Delimiter.ofKind?] at unmarked
    · simp [← square, Delimiter.ofKind?] at unmarked
    · rfl
  have noCloser : Expected.ofKind? leaf.kind = none := by
    simp [Expected.ofKind?, absent, Record.answersTo, OrderedMap.has, ordinary]
  simp only [meet, if_neg empty, noOpener, noCloser]

/-- However deep the pending nodes are, their delimiters are met in the order of the document. -/
theorem visit_eq_readMarks (opened : List Opener) (pending : List SyntaxNode)
    (ordinary : Ordinary (leavesOf pending)) :
    visit opened pending = readMarks opened ((leavesOf pending).filterMap mark?) := by
  fun_induction visit opened pending with
  | case1 opened => rfl
  | case2 opened head child children pending ih =>
      have same : leavesOf (⟨head, child :: children⟩ :: pending) =
          leavesOf (child :: children ++ pending) := (leavesOf_append _ _).symm
      rw [same] at ordinary ⊢
      exact ih ordinary
  | case3 opened token pending after met ih =>
      rw [leavesOf_cons_token] at ordinary ⊢
      obtain ⟨here, later⟩ := List.forall_mem_cons.mp ordinary
      cases marked : mark? token with
      | none =>
          rw [meet_of_no_mark here marked] at met
          obtain rfl := Except.ok.inj met
          rw [List.filterMap_cons_none marked]
          exact ih later
      | some mark =>
          rw [meet_of_mark marked] at met
          rw [List.filterMap_cons_some marked, readMarks_cons_ok met]
          exact ih later
  | case4 opened token pending error met =>
      rw [leavesOf_cons_token] at ordinary ⊢
      cases marked : mark? token with
      | none => simp [meet_of_no_mark (List.forall_mem_cons.mp ordinary).1 marked] at met
      | some mark =>
          rw [meet_of_mark marked] at met
          rw [List.filterMap_cons_some marked, readMarks_cons_error met]

variable {root : SyntaxNode}

theorem visit_root (ordinary : Ordinary root.leaves) :
    visit [] [root] = readMarks [] root.marks := by
  have alone : leavesOf [root] = root.leaves := by rw [leavesOf, leavesOf, List.append_nil]
  rw [visit_eq_readMarks _ _ (by rwa [alone]), alone, filterMap_mark?]
  rfl

theorem checkDelimiters_eq_ok (ordinary : Ordinary root.leaves) :
    root.checkDelimiters = .ok () ↔ Closed root.marks := by
  rw [checkDelimiters, visit_root ordinary]
  constructor
  · intro passed
    cases read : readMarks [] root.marks with
    | error error => simp [read] at passed
    | ok opened =>
        cases opened with
        | nil => exact (readMarks_iff.mp read).closed_of_nil
        | cons opener outer => simp [read] at passed
  · intro closed
    rw [closed.read_eq]

theorem checkDelimiters_eq_error (ordinary : Ordinary root.leaves) {error : DelimiterError} :
    root.checkDelimiters = .error error ↔
      ∃ mark fault, Blamed root.marks mark fault ∧ error = { row := mark.row, fault := fault } := by
  rw [checkDelimiters, visit_root ordinary]
  constructor
  · intro failed
    cases read : readMarks [] root.marks with
    | error first =>
        obtain ⟨before, mark, later, fault, split, matched, misplaced, rfl⟩ :=
          readMarks_error_iff.mp read
        simp only [read, Except.error.injEq] at failed
        exact ⟨mark, fault, .closer before later mark fault split matched misplaced, failed.symm⟩
    | ok opened =>
        have left := readMarks_iff.mp read
        have matched := exists_leftOpen_iff_matched.mp ⟨opened, left⟩
        generalize root.marks = marks at read left matched failed ⊢
        cases left with
        | closed closed => simp [read] at failed
        | opener bracket row outer inner =>
            simp only [read, Except.error.injEq] at failed
            exact ⟨_, _, .opener _ _ bracket row rfl inner matched, failed.symm⟩
  · rintro ⟨mark, fault, blamed, rfl⟩
    cases blamed with
    | closer before later _ _ split matched misplaced =>
        have read := readMarks_error_iff.mpr
          ⟨before, mark, later, fault, split, matched, misplaced, rfl⟩
        rw [read]
    | opener before later bracket row split closed matched =>
        obtain ⟨opened, left⟩ := exists_leftOpen_iff_matched.mpr matched
        rw [split] at left ⊢
        obtain ⟨others, rfl⟩ := left.innermost closed
        rw [left.read_eq]

/-- A tree passes exactly if its delimiters are well bracketed, and otherwise just the mark to blame
is reported, with the line that it stands on. No kind of token of the grammar is called like a member
that every record inherits. -/
theorem checkDelimiters_blames (ordinary : Ordinary root.leaves) :
    (root.checkDelimiters = .ok () ↔ WellBracketed (root.marks.map Mark.delimiter)) ∧
    ∀ filePath failure,
      root.checkDelimiters.mapError (DelimiterError.failure filePath) = .error failure ↔
        ∃ mark fault, Blamed root.marks mark fault ∧
          failure = .scan filePath (mark.row + 1) fault.message := by
  refine ⟨checkDelimiters_eq_ok ordinary, fun filePath failure => ?_⟩
  constructor
  · intro failed
    cases checked : root.checkDelimiters with
    | ok done => simp [checked, Except.mapError] at failed
    | error error =>
        obtain ⟨mark, fault, blamed, rfl⟩ := (checkDelimiters_eq_error ordinary).mp checked
        rw [checked] at failed
        exact ⟨mark, fault, blamed, (Except.error.inj failed).symm⟩
  · rintro ⟨mark, fault, blamed, rfl⟩
    rw [(checkDelimiters_eq_error ordinary).mpr ⟨mark, fault, blamed, rfl⟩]
    rfl

def tokenNode (kind text : String) (row : Nat) : SyntaxNode :=
  ⟨{ kind := kind, text := text, row := row, endRow := row, field := none, isNamed := false }, []⟩

-- The last closer was put in where the text lacks one, so it closes nothing.
def openBlock : SyntaxNode :=
  ⟨{ kind := "block", text := "\x7b\n()", row := 0, endRow := 1, field := none, isNamed := true },
    [tokenNode "\x7b" "\x7b" 0, tokenNode "(" "(" 1, tokenNode ")" ")" 1,
      tokenNode "\x7d" "" 1]⟩

theorem checkDelimiters_blames_openBlock :
    Ordinary openBlock.leaves ∧
      openBlock.checkDelimiters.mapError (DelimiterError.failure "src/lib.rs") =
        .error (.scan "src/lib.rs" 1 "unclosed '\x7b'") := by
  have ordinary : Ordinary openBlock.leaves := by
    unfold Ordinary
    decide
  refine ⟨ordinary, ((checkDelimiters_blames ordinary).2 _ _).mpr ?_⟩
  have inside : Closed [⟨.opener .round, 1⟩, ⟨.closer .round, 1⟩] := .nest .round .empty .empty
  have left : LeftOpen openBlock.marks [⟨.curly, 0⟩] :=
    @LeftOpen.opener [] _ _ .curly 0 (.closed .empty) inside
  exact ⟨_, _, .opener [] _ .curly 0 rfl inside (exists_leftOpen_iff_matched.mp ⟨_, left⟩), rfl⟩

-- A kind that every record inherits counts as a closer of nothing.
example :
    (tokenNode "constructor" "constructor" 0).checkDelimiters =
      .error { row := 0, fault := .unexpected "constructor" } := by decide +kernel

end SyntaxNode

end CrateAtlas.Rust
