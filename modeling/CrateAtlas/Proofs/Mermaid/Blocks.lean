import CrateAtlas.Mermaid.Split
import CrateAtlas.Proofs.Attempts
import CrateAtlas.Proofs.Mermaid.Format

/-!
The blocks of a diagram. Main statements: a diagram can be split exactly when all its subgraphs are
closed, and then its parts are those of its top-level blocks that hold something, in their order.
-/

namespace CrateAtlas.Mermaid

open Text

/-- Lines in which every subgraph that begins is closed again, and nothing else is closed. -/
inductive Balanced : List (List Char) → Prop
  | nil : Balanced []
  | line {raw : List Char} {rest : List (List Char)} (plain : isSubgraph (trim raw) = false)
      (open_ : isEnd (trim raw) = false) (behind : Balanced rest) : Balanced (raw :: rest)
  | block {opening closing : List Char} {inner rest : List (List Char)}
      (opens : isSubgraph (trim opening)) (inside : Balanced inner)
      (closes : isEnd (trim closing)) (behind : Balanced rest) :
      Balanced (opening :: (inner ++ closing :: rest))

def IsBlock (block : List (List Char)) : Prop :=
  ∃ opening inner closing, block = opening :: (inner ++ [closing]) ∧
    isSubgraph (trim opening) ∧ Balanced inner ∧ isEnd (trim closing)

/-- Lines whose subgraphs are all closed, with those that lie in no other one. An end that closes
nothing is a line like any other. -/
inductive TopBlocks : List (List Char) → List (List (List Char)) → Prop
  | nil : TopBlocks [] []
  | line {raw : List Char} {rest : List (List Char)} {blocks : List (List (List Char))}
      (outside : isSubgraph (trim raw) = false) (behind : TopBlocks rest blocks) :
      TopBlocks (raw :: rest) blocks
  | block {block rest : List (List Char)} {blocks : List (List (List Char))}
      (isBlock : IsBlock block) (behind : TopBlocks rest blocks) :
      TopBlocks (block ++ rest) (block :: blocks)

section Taking

variable {depth : Int} {raw : List Char} {lines inner block rest : List (List Char)}

theorem not_subgraph_of_isEnd (closes : isEnd (trim raw)) : isSubgraph (trim raw) = false := by
  rw [isEnd, decide_eq_true_eq] at closes
  rw [closes]
  rfl

theorem takeBlock?_opening (opens : isSubgraph (trim raw)) (inside : 0 ≤ depth)
    (rest : List (List Char)) :
    takeBlock? depth (raw :: rest) =
      (takeBlock? (depth + 1) rest).map fun parts => (raw :: parts.1, parts.2) := by
  simp only [takeBlock?, opens, if_true]
  rw [if_neg (by omega)]

theorem takeBlock?_line (plain : isSubgraph (trim raw) = false) (open_ : isEnd (trim raw) = false)
    (inside : 0 < depth) (rest : List (List Char)) :
    takeBlock? depth (raw :: rest) =
      (takeBlock? depth rest).map fun parts => (raw :: parts.1, parts.2) := by
  simp only [takeBlock?, plain, open_, Bool.false_eq_true, if_false]
  rw [if_neg (by omega)]

theorem takeBlock?_inner (closes : isEnd (trim raw)) (inside : 0 < depth)
    (rest : List (List Char)) :
    takeBlock? (depth + 1) (raw :: rest) =
      (takeBlock? depth rest).map fun parts => (raw :: parts.1, parts.2) := by
  simp only [takeBlock?, not_subgraph_of_isEnd closes, closes, Bool.false_eq_true, if_false,
    if_true, Int.add_sub_cancel]
  rw [if_neg (by omega)]

theorem takeBlock?_last (closes : isEnd (trim raw)) (rest : List (List Char)) :
    takeBlock? 1 (raw :: rest) = some ([raw], rest) := by
  simp [takeBlock?, not_subgraph_of_isEnd closes, closes]

theorem takeBlock?_cons (depth : Int) (raw : List Char) (rest : List (List Char)) :
    ∃ next : Int, takeBlock? depth (raw :: rest) =
      if next = 0 then some ([raw], rest)
      else (takeBlock? next rest).map fun parts => (raw :: parts.1, parts.2) :=
  ⟨_, rfl⟩

theorem takeBlock?_append (taken : takeBlock? depth lines = some (block, rest)) :
    lines = block ++ rest := by
  induction lines generalizing depth block with
  | nil => simp [takeBlock?] at taken
  | cons raw others ih =>
      obtain ⟨next, step⟩ := takeBlock?_cons depth raw others
      rw [step] at taken
      split at taken
      · simp only [Option.some.injEq, Prod.mk.injEq] at taken
        obtain ⟨rfl, rfl⟩ := taken
        rfl
      · obtain ⟨⟨inner, behind⟩, found, same⟩ := Option.map_eq_some_iff.mp taken
        simp only [Prod.mk.injEq] at same
        obtain ⟨rfl, rfl⟩ := same
        rw [List.cons_append, ← ih found]

theorem Balanced.takeBlock?_append (balanced : Balanced inner) (inside : 0 < depth)
    (rest : List (List Char)) :
    takeBlock? depth (inner ++ rest) =
      (takeBlock? depth rest).map fun parts => (inner ++ parts.1, parts.2) := by
  induction balanced generalizing depth rest with
  | nil => simp
  | line plain open_ _ ih =>
      rw [List.cons_append, takeBlock?_line plain open_ inside, ih inside, Option.map_map]
      rfl
  | @block opening closing inner others opens _ closes _ within behind =>
      rw [List.cons_append, List.append_assoc, List.cons_append,
        takeBlock?_opening opens (by omega), within (by omega),
        takeBlock?_inner closes inside, behind inside, Option.map_map, Option.map_map,
        Option.map_map]
      congr 1
      funext parts
      simp

theorem take_of_map {first : List Char} {found : Option (List (List Char) × List (List Char))}
    (taken : (found.map fun parts => (first :: parts.1, parts.2)) = some (block, rest)) :
    ∃ inner, block = first :: inner ∧ found = some (inner, rest) := by
  obtain ⟨⟨inner, behind⟩, rfl, same⟩ := Option.map_eq_some_iff.mp taken
  simp only [Prod.mk.injEq] at same
  obtain ⟨rfl, rfl⟩ := same
  exact ⟨inner, rfl, rfl⟩

theorem exists_balanced {depth : Nat}
    (taken : takeBlock? (depth + 1 : Nat) lines = some (block, rest)) :
    ∃ inner closing more, Balanced inner ∧ isEnd (trim closing) ∧
      block = inner ++ closing :: more ∧ (depth = 0 → more = []) ∧
      (0 < depth → takeBlock? depth (more ++ rest) = some (more, rest)) := by
  induction length : lines.length using Nat.strong_induction_on
    generalizing lines block depth with
  | _ size ih =>
    subst length
    cases lines with
    | nil => simp [takeBlock?] at taken
    | cons raw others =>
        by_cases opens : isSubgraph (trim raw) = true
        · rw [takeBlock?_opening opens (by omega)] at taken
          obtain ⟨deeper, rfl, found⟩ := take_of_map taken
          -- The end of this subgraph comes first, then the one that was asked for.
          have below : takeBlock? (depth + 1 + 1 : Nat) others = some (deeper, rest) := found
          obtain ⟨inner, closing, more, balanced, closes, rfl, -, left⟩ :=
            ih others.length (by simp) below rfl
          have shorter : (more ++ rest).length < (raw :: others).length := by
            rw [takeBlock?_append found]
            simp
            omega
          obtain ⟨later, last, most, balancedLater, ends, rfl, finished, onward⟩ :=
            ih _ shorter (left (by omega)) rfl
          exact ⟨raw :: (inner ++ closing :: later), last, most,
            .block opens balanced closes balancedLater, ends, by simp, finished, onward⟩
        · rw [Bool.not_eq_true] at opens
          by_cases closes : isEnd (trim raw) = true
          · cases depth with
            | zero =>
                rw [show ((0 + 1 : Nat) : Int) = 1 from rfl, takeBlock?_last closes] at taken
                simp only [Option.some.injEq, Prod.mk.injEq] at taken
                obtain ⟨rfl, rfl⟩ := taken
                exact ⟨[], raw, [], .nil, closes, rfl, fun _ => rfl, by simp⟩
            | succ depth =>
                rw [show ((depth + 1 + 1 : Nat) : Int) = (depth + 1 : Nat) + 1 from rfl,
                  takeBlock?_inner closes (by omega)] at taken
                obtain ⟨more, rfl, found⟩ := take_of_map taken
                refine ⟨[], raw, more, .nil, closes, rfl, by simp, fun _ => ?_⟩
                rwa [← takeBlock?_append found]
          · rw [Bool.not_eq_true] at closes
            rw [takeBlock?_line opens closes (by omega)] at taken
            obtain ⟨deeper, rfl, found⟩ := take_of_map taken
            obtain ⟨inner, closing, more, balanced, ends, rfl, left⟩ :=
              ih others.length (by simp) found rfl
            exact ⟨raw :: inner, closing, more, .line opens closes balanced, ends, rfl, left⟩

theorem isBlock_of_takeBlock? (opens : isSubgraph (trim raw))
    (taken : takeBlock? 0 (raw :: lines) = some (block, rest)) : IsBlock block := by
  rw [takeBlock?_opening opens (le_refl 0)] at taken
  obtain ⟨deeper, rfl, found⟩ := take_of_map taken
  have first : takeBlock? (0 + 1 : Nat) lines = some (deeper, rest) := found
  obtain ⟨inner, closing, more, balanced, closes, rfl, finished, -⟩ := exists_balanced first
  exact ⟨raw, inner, closing, by rw [finished rfl], opens, balanced, closes⟩

theorem IsBlock.takeBlock?_append (isBlock : IsBlock block) (rest : List (List Char)) :
    takeBlock? 0 (block ++ rest) = some (block, rest) := by
  obtain ⟨opening, inner, closing, rfl, opens, balanced, closes⟩ := isBlock
  rw [List.cons_append, List.append_assoc, List.singleton_append,
    takeBlock?_opening opens (le_refl 0), Int.zero_add,
    balanced.takeBlock?_append Int.one_pos, takeBlock?_last closes]
  rfl

theorem IsBlock.exists_opening (isBlock : IsBlock block) :
    ∃ opening inner, block = opening :: inner ∧ isSubgraph (trim opening) := by
  obtain ⟨opening, inner, closing, rfl, opens, _⟩ := isBlock
  exact ⟨opening, _, rfl, opens⟩

end Taking

section Splitting

variable {definitions : List (String × String)} {assignments : List ClassAssignment}
  {position fuel : Nat} {taken : List String} {lines : List (List Char)}
  {blocks : List (List (List Char))} {parts : List Part}

/-- Nothing but blank lines, once entities are spaces, between the first line of a block and its
end. -/
def isHollow (block : List (List Char)) : Bool :=
  (block.map plainSpaces).tail.dropLast.all isBlankLine

def filledBlocks (blocks : List (List (List Char))) : List (List (List Char)) :=
  blocks.filter fun block => !isHollow block

def blockName (block : List (List Char)) : String :=
  subgraphName (trim (block.headD []))

def partNames (taken : List String) : List String → List String
  | [] => []
  | base :: rest => partName taken base :: partNames (base :: taken) rest

theorem splitLines_line {raw : List Char} (outside : isSubgraph (trim raw) = false)
    (rest : List (List Char)) :
    splitLines definitions assignments (fuel + 1) position taken (raw :: rest) =
      splitLines definitions assignments fuel (position + 1) taken rest := by
  simp [splitLines, outside]

theorem splitLines_block {raw : List Char} {rest block behind : List (List Char)}
    (opens : isSubgraph (trim raw)) (found : takeBlock? 0 (raw :: rest) = some (block, behind)) :
    splitLines definitions assignments (fuel + 1) position taken (raw :: rest) =
      if isHollow block then
        splitLines definitions assignments fuel (position + block.length) taken behind
      else do
        let parts ← splitLines definitions assignments fuel (position + block.length)
          (subgraphName (trim raw) :: taken) behind
        return ⟨partName taken (subgraphName (trim raw)),
          partMarkup definitions assignments (block.map plainSpaces)⟩ :: parts := by
  simp only [splitLines, opens, found, Bool.not_true, Bool.false_eq_true, if_false, isHollow]
  rfl

theorem not_splitLines_unclosed {raw : List Char} {rest : List (List Char)}
    (opens : isSubgraph (trim raw)) (unclosed : takeBlock? 0 (raw :: rest) = none) :
    splitLines definitions assignments (fuel + 1) position taken (raw :: rest) ≠ .ok parts := by
  simp [splitLines, opens, unclosed]

theorem splitLines_of_topBlocks (top : TopBlocks lines blocks) (enough : lines.length ≤ fuel) :
    ∃ parts, splitLines definitions assignments fuel position taken lines = .ok parts ∧
      parts.map Part.name = partNames taken ((filledBlocks blocks).map blockName) ∧
      parts.map Part.markup = (filledBlocks blocks).map fun block =>
        partMarkup definitions assignments (block.map plainSpaces) := by
  induction top generalizing fuel position taken with
  | nil => exact ⟨[], by cases fuel <;> rfl, rfl, rfl⟩
  | line outside _ ih =>
      cases fuel with
      | zero => simp at enough
      | succ fuel =>
          rw [splitLines_line outside]
          exact ih (Nat.le_of_succ_le_succ enough)
  | @block block rest blocks isBlock _ ih =>
      obtain ⟨opening, inner, rfl, opens⟩ := isBlock.exists_opening
      cases fuel with
      | zero => simp at enough
      | succ fuel =>
          have shorter : rest.length ≤ fuel := by
            simp at enough
            omega
          have found := isBlock.takeBlock?_append rest
          rw [List.cons_append] at found ⊢
          rw [splitLines_block opens found]
          cases hollow : isHollow (opening :: inner) with
          | true =>
              have same : filledBlocks ((opening :: inner) :: blocks) = filledBlocks blocks := by
                simp [filledBlocks, hollow]
              rw [same]
              exact ih shorter
          | false =>
              have same : filledBlocks ((opening :: inner) :: blocks) =
                  (opening :: inner) :: filledBlocks blocks := by
                simp [filledBlocks, hollow]
              obtain ⟨parts, splits, names, markups⟩ := ih shorter
              rw [same]
              refine ⟨_, by rw [if_neg (by simp), splits]; rfl, ?_, ?_⟩
              · rw [List.map_cons, List.map_cons, names]
                rfl
              · rw [List.map_cons, List.map_cons, markups]
                rfl

theorem topBlocks_of_splitLines
    (splits : splitLines definitions assignments fuel position taken lines = .ok parts)
    (enough : lines.length ≤ fuel) : ∃ blocks, TopBlocks lines blocks := by
  induction fuel generalizing position taken lines parts with
  | zero =>
      obtain rfl := List.length_eq_zero_iff.mp (Nat.le_zero.mp enough)
      exact ⟨[], .nil⟩
  | succ fuel ih =>
      cases lines with
      | nil => exact ⟨[], .nil⟩
      | cons raw rest =>
          have shorter : rest.length ≤ fuel := Nat.le_of_succ_le_succ enough
          by_cases opens : isSubgraph (trim raw) = true
          · cases found : takeBlock? 0 (raw :: rest) with
            | none => exact absurd splits (not_splitLines_unclosed opens found)
            | some taking =>
                obtain ⟨block, behind⟩ := taking
                have whole := takeBlock?_append found
                have isBlock := isBlock_of_takeBlock? opens found
                obtain ⟨opening, inner, rfl, _⟩ := isBlock.exists_opening
                have less : behind.length ≤ fuel := by
                  have lengths := congrArg List.length whole
                  simp at lengths
                  omega
                rw [whole]
                rw [splitLines_block opens found] at splits
                split at splits
                · obtain ⟨blocks, top⟩ := ih splits less
                  exact ⟨_, .block isBlock top⟩
                · obtain ⟨others, later, _⟩ := bind_eq_ok.mp splits
                  obtain ⟨blocks, top⟩ := ih later less
                  exact ⟨_, .block isBlock top⟩
          · rw [Bool.not_eq_true] at opens
            rw [splitLines_line opens] at splits
            obtain ⟨blocks, top⟩ := ih splits shorter
            exact ⟨blocks, .line opens top⟩

variable {text : String}

theorem split_of_topBlocks (top : TopBlocks (linesOf text) blocks) :
    ∃ parts, split text = .ok parts ∧
      parts.map Part.name = partNames [] ((filledBlocks blocks).map blockName) ∧
      parts.map Part.markup = (filledBlocks blocks).map fun block =>
        partMarkup (classDefs (linesOf text)) (classAssignments (linesOf text))
          (block.map plainSpaces) :=
  splitLines_of_topBlocks top le_rfl

theorem topBlocks_of_split (splits : split text = .ok parts) :
    ∃ blocks, TopBlocks (linesOf text) blocks :=
  topBlocks_of_splitLines splits le_rfl

theorem parts_of_split (splits : split text = .ok parts) :
    ∃ blocks, TopBlocks (linesOf text) blocks ∧
      parts.map Part.name = partNames [] ((filledBlocks blocks).map blockName) ∧
      parts.map Part.markup = (filledBlocks blocks).map fun block =>
        partMarkup (classDefs (linesOf text)) (classAssignments (linesOf text))
          (block.map plainSpaces) := by
  obtain ⟨blocks, top⟩ := topBlocks_of_split splits
  obtain ⟨others, again, shape⟩ := split_of_topBlocks top
  obtain rfl := Except.ok.inj (again.symm.trans splits)
  exact ⟨blocks, top, shape⟩

theorem TopBlocks.infix (top : TopBlocks lines blocks) {block : List (List Char)}
    (member : block ∈ blocks) : block <:+: lines := by
  induction top with
  | nil => simp at member
  | line _ _ ih => exact (ih member).trans (List.suffix_cons _ _).isInfix
  | block _ _ ih =>
      rcases List.mem_cons.mp member with rfl | later
      · exact (List.prefix_append _ _).isInfix
      · exact (ih later).trans (List.suffix_append _ _).isInfix

theorem exists_block_of_part (splits : split text = .ok parts) {part : Part}
    (member : part ∈ parts) :
    ∃ block, block <:+: linesOf text ∧
      part.markup = partMarkup (classDefs (linesOf text)) (classAssignments (linesOf text))
        (block.map plainSpaces) := by
  obtain ⟨blocks, top, -, markups⟩ := parts_of_split splits
  have written : part.markup ∈ parts.map Part.markup := List.mem_map_of_mem member
  rw [markups] at written
  obtain ⟨block, filled, same⟩ := List.mem_map.mp written
  exact ⟨block, top.infix (List.mem_of_mem_filter filled), same.symm⟩

end Splitting

end CrateAtlas.Mermaid
