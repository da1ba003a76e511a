import CrateAtlas.Proofs.Mermaid.Merge
import CrateAtlas.Proofs.Mermaid.Split

/-!
Splitting a flowchart and merging its parts again. Main statement: of the subgraphs that hold
something no line is lost, added or moved, style statements and flowchart headers apart.
-/

namespace CrateAtlas.Mermaid

open Text

section Rejoining

variable {text : String} {lines block : List (List Char)} {blocks : List (List (List Char))}

theorem carriedOf_flatten (blocks : List (List (List Char))) :
    carriedOf blocks.flatten = blocks.flatMap carriedOf := by
  induction blocks with
  | nil => rfl
  | cons block rest ih => rw [List.flatten_cons, carriedOf_append, ih, List.flatMap_cons]

theorem carriedOf_partMarkup (whole : ∀ line ∈ block, '\n' ∉ line) :
    carriedOf (linesOf (partMarkup (classDefs lines) (classAssignments lines) block)) =
      carriedOf block := by
  -- The part adds a header of its own, which is left behind, and class lines, which are not drawn.
  have header : isFlowchart (trim partHeader) := by decide
  have pieces : ∀ line ∈
      partHeader :: (block ++ partTail (classDefs lines) (classAssignments lines) block),
        '\n' ∉ line := whole_partLines whole
  rw [partMarkup_eq, List.singleton_append, carriedOf_written header pieces, drawnOf_append,
    (prints_partTail lines block).drawnOf, List.append_nil, drawnOf, List.filter_filter, carriedOf]

/-- A diagram without entities whose subgraphs are all closed can be split, and its parts are merged
to a text that holds, under its header and apart from style statements, the lines of those
subgraphs that hold something, in their order. -/
theorem merge_split_keeps_lines (plain : hasPart "&nbsp;" text.toList = false)
    (closed : TopBlocks (linesOf text) blocks) :
    ∃ parts rest, split text = .ok parts ∧
      contentsOf (linesOf (merge (parts.map Part.markup))) = mergeHeader :: rest ∧
      (rest.filter fun line => !isStyleStatement line) =
        (contentsOf (filledBlocks blocks).flatten).filter fun line =>
          !isFlowchart line && !isStyleStatement line := by
  obtain ⟨parts, splits, -, markups⟩ := split_of_topBlocks closed
  have parted : ∀ block ∈ filledBlocks blocks,
      carriedOf (linesOf (partMarkup (classDefs (linesOf text)) (classAssignments (linesOf text))
        (block.map plainSpaces))) = carriedOf block := by
    intro block filled
    have inside := closed.infix (List.mem_of_mem_filter filled)
    rw [map_plainSpaces plain inside]
    exact carriedOf_partMarkup fun line held => break_free_linesOf (inside.subset held)
  have carried : carriedOf ((parts.map Part.markup).flatMap linesOf) =
      carriedOf (filledBlocks blocks).flatten := by
    rw [List.flatMap_def, carriedOf_flatten, carriedOf_flatten, List.flatMap_map, markups,
      List.flatMap_map]
    exact List.flatMap_congr parted
  refine ⟨parts, _, splits, contentsOf_merge _, ?_⟩
  have styles : ∀ (lines : List (List Char)),
      (settled (stylesOf lines)).filter (fun line => !isStyleStatement line) = [] := by
    intro lines
    rw [List.filter_eq_nil_iff]
    intro style member
    simp [(mem_stylesOf.mp (mem_settled.mp member)).2]
  rw [List.filter_append, styles, List.append_nil, carried, carriedOf, List.filter_filter]
  refine List.filter_congr fun line _ => ?_
  cases isStyleStatement line <;> simp

def plant : String :=
  "flowchart TB\nsubgraph Core\nA:::hot --> B\nsubgraph Inner\nend\nclass A hot\nend\nend\n" ++
    "subgraph Void\n\nend\nclassDef hot fill:red\n"

def plantBlocks : List (List (List Char)) :=
  [["subgraph Core".toList, "A:::hot --> B".toList, "subgraph Inner".toList, "end".toList,
      "class A hot".toList, "end".toList],
    ["subgraph Void".toList, [], "end".toList]]

theorem topBlocks_plant : TopBlocks (linesOf plant) plantBlocks := by
  have core : IsBlock ["subgraph Core".toList, "A:::hot --> B".toList, "subgraph Inner".toList,
      "end".toList, "class A hot".toList, "end".toList] := by
    have statement : Balanced ["class A hot".toList] := .line (by decide) (by decide) .nil
    have inner : Balanced ["subgraph Inner".toList, "end".toList, "class A hot".toList] :=
      .block (by decide) .nil (by decide) statement
    exact ⟨_, _, _, rfl, by decide, .line (by decide) (by decide) inner, by decide⟩
  have void : IsBlock ["subgraph Void".toList, [], "end".toList] :=
    ⟨_, [[]], _, rfl, by decide, .line (by decide) (by decide) .nil, by decide⟩
  have lines : linesOf plant = "flowchart TB".toList :: (
      ["subgraph Core".toList, "A:::hot --> B".toList, "subgraph Inner".toList, "end".toList,
        "class A hot".toList, "end".toList] ++
      "end".toList :: (["subgraph Void".toList, [], "end".toList] ++
        ["classDef hot fill:red".toList, []])) := by
    decide +kernel
  rw [lines]
  have behind : TopBlocks ["classDef hot fill:red".toList, []] [] :=
    .line (by decide) (.line (by decide) .nil)
  exact .line (by decide) (.block core (.line (by decide) (.block void behind)))

theorem merge_split_keeps_lines_of_plant :
    hasPart "&nbsp;" plant.toList = false ∧ TopBlocks (linesOf plant) plantBlocks ∧
      ∃ parts rest, split plant = .ok parts ∧
        contentsOf (linesOf (merge (parts.map Part.markup))) = mergeHeader :: rest ∧
        (rest.filter fun line => !isStyleStatement line) =
          ["subgraph Core".toList, "A:::hot --> B".toList, "subgraph Inner".toList, "end".toList,
            "end".toList] := by
  have plain : hasPart "&nbsp;" plant.toList = false := by decide +kernel
  obtain ⟨parts, rest, splits, merged, kept⟩ := merge_split_keeps_lines plain topBlocks_plant
  exact ⟨plain, topBlocks_plant, parts, rest, splits, merged, kept.trans (by decide +kernel)⟩

end Rejoining

end CrateAtlas.Mermaid
