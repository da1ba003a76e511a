import CrateAtlas.Proofs.Mermaid.Blocks

/-!
Subgraphs that are never closed. Main statement: a diagram is split into one part for each of its
top-level blocks that hold something, unless a subgraph is not closed; then the first such subgraph
is reported with the number of its line.
-/

namespace CrateAtlas.Mermaid

open Text

/-- The line begins a subgraph, and no end behind it is the matching one. -/
def Unclosed (opening : List Char) (behind : List (List Char)) : Prop :=
  isSubgraph (trim opening) ∧
    ∀ inner closing rest, behind = inner ++ closing :: rest → isEnd (trim closing) →
      ¬Balanced inner

def HasUnclosed (lines : List (List Char)) : Prop :=
  ∃ before opening behind, lines = before ++ opening :: behind ∧ Unclosed opening behind

/-- The line between those before and those behind it begins a subgraph that is not closed, and it
is the first one to do so. -/
structure FirstUnclosed (lines before : List (List Char)) (opening : List Char)
    (behind : List (List Char)) : Prop where
  place : lines = before ++ opening :: behind
  unclosed : Unclosed opening behind
  first : ∀ earlier other later, before = earlier ++ other :: later →
    ¬Unclosed other (later ++ opening :: behind)

def unclosedFailure (opening : List Char) (line : Nat) : Failure :=
  .markup ("Subgraph " ++ subgraphName (trim opening) ++ " on line " ++ toString line ++
    " is never closed")

section Matching

variable {lines before behind block left right : List (List Char)} {opening : List Char}
  {blocks : List (List (List Char))}

theorem takeBlock?_eq_none_iff (opens : isSubgraph (trim opening)) :
    takeBlock? 0 (opening :: behind) = none ↔ Unclosed opening behind := by
  constructor
  · intro nothing
    refine ⟨opens, ?_⟩
    rintro inner closing rest rfl closes balanced
    have isBlock : IsBlock (opening :: (inner ++ [closing])) :=
      ⟨opening, inner, closing, rfl, opens, balanced, closes⟩
    have taken := isBlock.takeBlock?_append rest
    rw [List.cons_append, List.append_assoc, List.singleton_append, nothing] at taken
    simp at taken
  · rintro ⟨_, never⟩
    cases found : takeBlock? 0 (opening :: behind) with
    | none => rfl
    | some taking =>
        obtain ⟨block, rest⟩ := taking
        have whole := takeBlock?_append found
        obtain ⟨first, inner, closing, rfl, _, balanced, closes⟩ := isBlock_of_takeBlock? opens found
        simp only [List.cons_append, List.append_assoc, List.cons.injEq] at whole
        exact absurd balanced (never inner closing rest whole.2 closes)

theorem split_at_cases (same : left ++ right = before ++ opening :: behind) :
    (∃ later, left = before ++ opening :: later ∧ behind = later ++ right) ∨
      ∃ earlier, before = left ++ earlier ∧ right = earlier ++ opening :: behind := by
  rcases List.append_eq_append_iff.mp same with ⟨earlier, rfl, rest⟩ | ⟨later, rfl, rest⟩
  · exact .inr ⟨earlier, rfl, rest⟩
  · cases later with
    | nil => exact .inr ⟨[], by simp, by simpa using rest.symm⟩
    | cons first more =>
        obtain ⟨rfl, rfl⟩ := List.cons.inj rest
        exact .inl ⟨more, rfl, rfl⟩

theorem Balanced.not_unclosed (balanced : Balanced lines)
    (place : lines = before ++ opening :: behind) (more : List (List Char)) :
    ¬Unclosed opening (behind ++ more) := by
  induction balanced generalizing before behind more with
  | nil => simp at place
  | line plain _ _ ih =>
      cases before with
      | nil =>
          obtain ⟨rfl, _⟩ := List.cons.inj place
          rintro ⟨opens, _⟩
          simp [plain] at opens
      | cons _ others => exact ih (List.cons.inj place).2 more
  | @block first closing inner rest _ balanced closes _ within after =>
      cases before with
      | nil =>
          obtain ⟨rfl, rfl⟩ := List.cons.inj place
          rintro ⟨_, never⟩
          exact never inner closing (rest ++ more) (by simp) closes balanced
      | cons _ others =>
          rcases split_at_cases (List.cons.inj place).2 with ⟨later, shape, rfl⟩ | ⟨earlier, _, shape⟩
          · rw [List.append_assoc]
            exact within shape _
          · cases earlier with
            | nil =>
                obtain ⟨rfl, _⟩ := List.cons.inj shape
                rintro ⟨opens, _⟩
                simp [not_subgraph_of_isEnd closes] at opens
            | cons _ earlier => exact after (List.cons.inj shape).2 more

theorem IsBlock.balanced (isBlock : IsBlock block) : Balanced block := by
  obtain ⟨first, inner, closing, rfl, opens, balanced, closes⟩ := isBlock
  exact .block opens balanced closes .nil

theorem TopBlocks.not_unclosed (top : TopBlocks lines blocks)
    (place : lines = before ++ opening :: behind) (more : List (List Char)) :
    ¬Unclosed opening (behind ++ more) := by
  induction top generalizing before behind with
  | nil => simp at place
  | line outside _ ih =>
      cases before with
      | nil =>
          obtain ⟨rfl, _⟩ := List.cons.inj place
          rintro ⟨opens, _⟩
          simp [outside] at opens
      | cons _ others => exact ih (List.cons.inj place).2
  | block isBlock _ ih =>
      rcases split_at_cases place with ⟨later, shape, rfl⟩ | ⟨earlier, _, shape⟩
      · rw [List.append_assoc]
        exact isBlock.balanced.not_unclosed shape _
      · exact ih shape

theorem topBlocks_or_unclosed (lines : List (List Char)) :
    (∃ blocks, TopBlocks lines blocks) ∨
      ∃ before blocks opening behind, lines = before ++ opening :: behind ∧
        TopBlocks before blocks ∧ Unclosed opening behind := by
  induction length : lines.length using Nat.strong_induction_on generalizing lines with
  | _ size ih =>
    subst length
    cases lines with
    | nil => exact .inl ⟨[], .nil⟩
    | cons raw rest =>
        by_cases opens : isSubgraph (trim raw) = true
        · cases found : takeBlock? 0 (raw :: rest) with
          | none =>
              exact .inr ⟨[], [], raw, rest, rfl, .nil, (takeBlock?_eq_none_iff opens).mp found⟩
          | some taking =>
              obtain ⟨block, after⟩ := taking
              have whole := takeBlock?_append found
              have isBlock := isBlock_of_takeBlock? opens found
              obtain ⟨first, inner, rfl, _⟩ := isBlock.exists_opening
              have shorter : after.length < (raw :: rest).length := by
                rw [whole, List.length_append, List.length_cons]
                omega
              rw [whole]
              rcases ih after.length shorter after rfl with
                ⟨blocks, top⟩ | ⟨before, blocks, opening, behind, rfl, top, unclosed⟩
              · exact .inl ⟨_, .block isBlock top⟩
              · exact .inr ⟨_, _, opening, behind, (List.append_assoc _ _ _).symm,
                  .block isBlock top, unclosed⟩
        · rw [Bool.not_eq_true] at opens
          rcases ih rest.length (by simp) rest rfl with
            ⟨blocks, top⟩ | ⟨before, blocks, opening, behind, rfl, top, unclosed⟩
          · exact .inl ⟨blocks, .line opens top⟩
          · exact .inr ⟨raw :: before, blocks, opening, behind, rfl, .line opens top, unclosed⟩

theorem FirstUnclosed.topBlocks (first : FirstUnclosed lines before opening behind) :
    ∃ blocks, TopBlocks before blocks := by
  obtain ⟨place, unclosed, early⟩ := first
  rcases topBlocks_or_unclosed lines with
    ⟨blocks, top⟩ | ⟨others, blocks, other, later, shape, top, unclosedToo⟩
  · have closed := top.not_unclosed place []
    rw [List.append_nil] at closed
    exact absurd unclosed closed
  · rw [place] at shape
    rcases split_at_cases shape with ⟨between, rfl, rfl⟩ | ⟨between, rfl, rest⟩
    · exact absurd unclosedToo (early others other between rfl)
    · cases between with
      | nil => exact ⟨blocks, by simpa using top⟩
      | cons same between =>
          obtain ⟨rfl, rfl⟩ := List.cons.inj rest
          exact absurd unclosed (top.not_unclosed rfl _)

theorem TopBlocks.firstUnclosed (top : TopBlocks before blocks) (unclosed : Unclosed opening behind) :
    FirstUnclosed (before ++ opening :: behind) before opening behind where
  place := rfl
  unclosed := unclosed
  first _ _ _ place := top.not_unclosed place _

end Matching

section Splitting

variable {definitions : List (String × String)} {assignments : List ClassAssignment}
  {before behind : List (List Char)} {opening : List Char} {blocks : List (List (List Char))}

theorem splitLines_unclosed (definitions : List (String × String))
    (assignments : List ClassAssignment) (top : TopBlocks before blocks)
    (unclosed : Unclosed opening behind) {fuel : Nat} (enough : (before ++ opening :: behind).length ≤ fuel) (position : Nat)
    (taken : List String) :
    splitLines definitions assignments fuel position taken (before ++ opening :: behind) =
      .error (unclosedFailure opening (position + before.length)) := by
  induction top generalizing fuel position taken with
  | nil =>
      cases fuel with
      | zero => simp at enough
      | succ fuel =>
          simp [splitLines, unclosed.1, (takeBlock?_eq_none_iff unclosed.1).mpr unclosed,
            unclosedFailure]
  | @line raw rest blocks outside _ ih =>
      cases fuel with
      | zero => simp at enough
      | succ fuel =>
          have onward : position + (raw :: rest).length = position + 1 + rest.length := by
            rw [List.length_cons]
            omega
          rw [List.cons_append, splitLines_line outside, onward]
          exact ih (Nat.le_of_succ_le_succ enough) _ _
  | @block block rest blocks isBlock _ ih =>
      obtain ⟨first, inner, rfl, opens⟩ := isBlock.exists_opening
      cases fuel with
      | zero => simp at enough
      | succ fuel =>
          have shorter : (rest ++ opening :: behind).length ≤ fuel := by
            simp at enough ⊢
            omega
          have found := isBlock.takeBlock?_append (rest ++ opening :: behind)
          rw [List.append_assoc]
          rw [List.cons_append] at found ⊢
          rw [splitLines_block opens found, ih shorter, ih shorter, List.length_append,
            ← Nat.add_assoc]
          split <;> rfl

variable {text : String}

theorem split_of_firstUnclosed (first : FirstUnclosed (linesOf text) before opening behind) :
    split text = .error (unclosedFailure opening (before.length + 1)) := by
  obtain ⟨blocks, top⟩ := first.topBlocks
  have stops := splitLines_unclosed (classDefs (linesOf text)) (classAssignments (linesOf text)) top
    first.unclosed le_rfl 1 []
  rw [← first.place, Nat.add_comm] at stops
  exact stops

/-- Splitting fails exactly when a subgraph is not closed, and the failure names the first such
subgraph and its line. Otherwise every top-level block gives one part in its turn, unless nothing but
blank lines stand in it once entities are spaces. -/
theorem split_fails_iff_unclosed (text : String) :
    ((∃ failure, split text = .error failure) ↔ HasUnclosed (linesOf text)) ∧
    (HasUnclosed (linesOf text) →
      ∃ before opening behind, FirstUnclosed (linesOf text) before opening behind) ∧
    (∀ before opening behind, FirstUnclosed (linesOf text) before opening behind →
      split text = .error (unclosedFailure opening (before.length + 1))) ∧
    (¬HasUnclosed (linesOf text) → ∃ blocks parts, TopBlocks (linesOf text) blocks ∧
      split text = .ok parts ∧
      parts.map Part.name = partNames [] ((filledBlocks blocks).map blockName) ∧
      parts.map Part.markup = (filledBlocks blocks).map fun block =>
        partMarkup (classDefs (linesOf text)) (classAssignments (linesOf text))
          (block.map plainSpaces)) := by
  rcases topBlocks_or_unclosed (linesOf text) with
    ⟨blocks, top⟩ | ⟨before, blocks, opening, behind, place, top, unclosed⟩
  · obtain ⟨parts, splits, shape⟩ := split_of_topBlocks top
    have closed : ¬HasUnclosed (linesOf text) := by
      rintro ⟨before, opening, behind, place, unclosed⟩
      have closed := top.not_unclosed place []
      rw [List.append_nil] at closed
      exact closed unclosed
    refine ⟨⟨?_, fun unclosed => absurd unclosed closed⟩,
      fun unclosed => absurd unclosed closed, fun _ _ _ => split_of_firstUnclosed,
      fun _ => ⟨blocks, parts, top, splits, shape⟩⟩
    rintro ⟨failure, fails⟩
    rw [splits] at fails
    simp at fails
  · have unclosedOne : HasUnclosed (linesOf text) := ⟨before, opening, behind, place, unclosed⟩
    have first := top.firstUnclosed unclosed
    rw [← place] at first
    exact ⟨⟨fun _ => unclosedOne, fun _ => ⟨_, split_of_firstUnclosed first⟩⟩,
      fun _ => ⟨before, opening, behind, first⟩, fun _ _ _ => split_of_firstUnclosed, fun closed => absurd unclosedOne closed⟩

-- Line 2 closes nothing, and the shelf in the cellar is closed.
def house : String :=
  "flowchart TB\nend\nsubgraph Attic\nBox\nend\nsubgraph Cellar\nsubgraph Shelf\nend\n"

def upstairs : List (List Char) :=
  ["flowchart TB", "end", "subgraph Attic", "Box", "end"].map String.toList

theorem firstUnclosed_house :
    FirstUnclosed (linesOf house) upstairs "subgraph Cellar".toList
      ["subgraph Shelf".toList, "end".toList, []] := by
  have attic : IsBlock (["subgraph Attic", "Box", "end"].map String.toList) :=
    ⟨_, ["Box".toList], _, rfl, by decide, .line (by decide) (by decide) .nil, by decide⟩
  have top : TopBlocks upstairs [["subgraph Attic", "Box", "end"].map String.toList] :=
    .line (by decide) (.line (by decide) (.block attic .nil))
  have unclosed : Unclosed "subgraph Cellar".toList
      ["subgraph Shelf".toList, "end".toList, []] :=
    (takeBlock?_eq_none_iff (by decide)).mp (by decide +kernel)
  exact top.firstUnclosed unclosed

theorem split_fails_iff_unclosed_of_house :
    split house = .error (.markup "Subgraph Cellar on line 6 is never closed") ∧
      ∃ blocks, TopBlocks (linesOf "subgraph Attic\nBox\nend") blocks ∧
        (filledBlocks blocks).map blockName = ["Attic"] := by
  have fails := (split_fails_iff_unclosed house).2.2.1 _ _ _ firstUnclosed_house
  have splits : split "subgraph Attic\nBox\nend" = .ok
      [⟨"Attic", "flowchart TB\n    subgraph Attic\n        Box\n    end\n"⟩] := by
    decide +kernel
  obtain ⟨unclosed, _, _, parts⟩ := split_fails_iff_unclosed "subgraph Attic\nBox\nend"
  have closed : ¬HasUnclosed (linesOf "subgraph Attic\nBox\nend") := by
    intro open_
    obtain ⟨failure, same⟩ := unclosed.mpr open_
    rw [splits] at same
    simp at same
  obtain ⟨blocks, parts, top, same, names, _⟩ := parts closed
  refine ⟨fails, blocks, top, ?_⟩
  obtain rfl := Except.ok.inj (splits.symm.trans same)
  match bases : (filledBlocks blocks).map blockName with
  | [] => simp [bases, partNames] at names
  | [base] => simpa [bases, partNames, partName] using names.symm
  | _ :: _ :: _ => simp [bases, partNames] at names

def curtains : String := "flowchart TB\nsubgraph Window\n&nbsp;\nend\n"

/-- A block that holds only an entity for a space gives no part. -/
theorem split_skips_block_of_entities :
    let block := ["subgraph Window", "&nbsp;", "end"].map String.toList
    TopBlocks (linesOf curtains) [block] ∧ (∃ line ∈ block.tail.dropLast, trim line ≠ []) ∧
      split curtains = .ok [] := by
  have window : IsBlock (["subgraph Window", "&nbsp;", "end"].map String.toList) :=
    ⟨_, ["&nbsp;".toList], _, rfl, by decide, .line (by decide) (by decide) .nil, by decide⟩
  exact ⟨.line (by decide) (.block window (.line (by decide) .nil)),
    ⟨"&nbsp;".toList, by decide, by decide⟩, by decide +kernel⟩

end Splitting

end CrateAtlas.Mermaid
