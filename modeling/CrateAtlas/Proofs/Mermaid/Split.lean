import CrateAtlas.Proofs.Mermaid.Blocks
import CrateAtlas.Proofs.Mermaid.NodeIds

/-!
Which class definitions the parts of a split carry. Main statement: a part defines the classes that
its block defines, and those classes of the diagram that the block is seen to use.
-/

namespace CrateAtlas.Mermaid

open Text OrderedMap

section Entities

theorem plainSpaces_within {text : String} (plain : hasPart "&nbsp;" text.toList = false)
    {line : List Char} (inside : line <:+: text.toList) : plainSpaces line = line := by
  apply (spacesFor_plainSpaces line).eq_of_no_entity
  intro entity
  have held := hasPart_iff.mpr (entity.trans inside)
  rw [plain] at held
  simp at held

theorem plainSpaces_of_mem_linesOf {text : String} (plain : hasPart "&nbsp;" text.toList = false)
    {line : List Char} (member : line ∈ linesOf text) : plainSpaces line = line :=
  plainSpaces_within plain (infix_of_mem_splitOn member)

theorem map_plainSpaces {text : String} (plain : hasPart "&nbsp;" text.toList = false)
    {block : List (List Char)} (inside : block <:+: linesOf text) :
    block.map plainSpaces = block := by
  refine (List.map_congr_left fun line held => ?_).trans (List.map_id block)
  exact plainSpaces_of_mem_linesOf plain (inside.subset held)

end Entities

section Parts

/-- The class is used in place by a node of the block, or by a class statement of the diagram that
names a node of the block. -/
def UsedIn (block : List (List Char)) (assignments : List ClassAssignment) (name : String) : Prop :=
  (∃ line ∈ block, ∃ node ∈ blockNodeIds block, (node, name) ∈ inlineClasses line) ∨
    ∃ assignment ∈ assignments, assignment.className = name ∧
      ∃ element ∈ assignment.elements, element ∈ blockNodeIds block

def partHeader : List Char := "flowchart TB".toList

variable {definitions : List (String × String)} {assignments : List ClassAssignment}
  {block : List (List Char)} {line : List Char} {name : String}

theorem mem_partAssignments {nodes : List String} {own : ClassAssignment} :
    own ∈ partAssignments nodes assignments ↔
      ∃ assignment ∈ assignments, assignment.elements.filter nodes.contains ≠ [] ∧
        own = { assignment with elements := assignment.elements.filter nodes.contains } := by
  simp only [partAssignments, List.mem_filterMap]
  refine exists_congr fun assignment => and_congr_right fun _ => ?_
  split
  · rename_i nothing
    simp [List.isEmpty_iff.mp nothing]
  · rename_i some
    rw [List.isEmpty_iff] at some
    rw [Option.some.injEq, eq_comm]
    exact (and_iff_right some).symm

theorem named_partAssignments (named : ∀ assignment ∈ assignments, assignment.Named)
    {nodes : List String} : ∀ own ∈ partAssignments nodes assignments, own.Named := by
  intro own member
  obtain ⟨assignment, stored, filled, rfl⟩ := mem_partAssignments.mp member
  have whole := named assignment stored
  exact ⟨filled, fun element kept => whole.elements element (List.mem_of_mem_filter kept),
    whole.className⟩

def usesOf (block : List (List Char)) (assignments : List ClassAssignment) : List String :=
  ((block.flatMap inlineClasses).filter fun use => (blockNodeIds block).contains use.1).map
      Prod.snd ++
    (partAssignments (blockNodeIds block) assignments).map ClassAssignment.className

theorem mem_usesOf : name ∈ usesOf block assignments ↔ UsedIn block assignments name := by
  rw [usesOf, List.mem_append, List.mem_map, List.mem_map]
  refine or_congr ?_ ?_
  · simp only [List.mem_filter, List.mem_flatMap, List.contains_iff_mem]
    constructor
    · rintro ⟨⟨node, _⟩, ⟨⟨line, member, found⟩, inside⟩, rfl⟩
      exact ⟨line, member, node, inside, found⟩
    · rintro ⟨line, member, node, inside, found⟩
      exact ⟨_, ⟨⟨line, member, found⟩, inside⟩, rfl⟩
  · constructor
    · rintro ⟨own, member, same⟩
      obtain ⟨assignment, stored, filled, rfl⟩ := mem_partAssignments.mp member
      obtain ⟨element, kept⟩ := List.exists_mem_of_ne_nil _ filled
      rw [List.mem_filter, List.contains_iff_mem] at kept
      exact ⟨assignment, stored, same, element, kept⟩
    · rintro ⟨assignment, stored, same, element, inside, known⟩
      have filled : assignment.elements.filter (blockNodeIds block).contains ≠ [] := by
        apply List.ne_nil_of_mem (a := element)
        rw [List.mem_filter, List.contains_iff_mem]
        exact ⟨inside, known⟩
      exact ⟨_, mem_partAssignments.mpr ⟨assignment, stored, filled, rfl⟩, same⟩

def partTail (definitions : List (String × String)) (assignments : List ClassAssignment)
    (block : List (List Char)) : List (List Char) :=
  ((definitions.filter fun entry => (usesOf block assignments).contains entry.1).map
      formatClassDef ++
    (partAssignments (blockNodeIds block) assignments).map formatAssignment).map String.toList

theorem partMarkup_eq (definitions : List (String × String)) (assignments : List ClassAssignment)
    (block : List (List Char)) :
    partMarkup definitions assignments block =
      unlines (formatLines ([partHeader] ++ (block ++ partTail definitions assignments block))) :=
  rfl

variable {lines : List (List Char)}

theorem prints_partTail (lines block : List (List Char)) :
    Prints (partTail (classDefs lines) (classAssignments lines) block)
      ((classDefs lines).filter fun entry =>
        (usesOf block (classAssignments lines)).contains entry.1)
      (partAssignments (blockNodeIds block) (classAssignments lines)) where
  mem_iff line := by
    simp only [partTail, List.map_append, List.map_map, List.mem_append, List.mem_map,
      Function.comp_apply, eq_comm]
  shape _ member := classDefs_shape (List.mem_of_mem_filter member)
  named := named_partAssignments classAssignments_named

theorem whole_partLines (whole : ∀ line ∈ block, '\n' ∉ line) : ∀ line ∈
    [partHeader] ++ (block ++ partTail (classDefs lines) (classAssignments lines) block),
      '\n' ∉ line := by
  intro line member
  rcases List.mem_append.mp member with first | later
  · rw [List.mem_singleton.mp first]
    decide
  · rcases List.mem_append.mp later with inside | behind
    · exact whole line inside
    · exact (prints_partTail lines block).whole behind

theorem mem_contentsOf_partMarkup (whole : ∀ line ∈ block, '\n' ∉ line) :
    line ∈ contentsOf (linesOf (partMarkup (classDefs lines) (classAssignments lines) block)) ↔
      line ∈ contentsOf
        ([partHeader] ++ (block ++ partTail (classDefs lines) (classAssignments lines) block)) := by
  rw [partMarkup_eq, contentsOf_unlines (whole_formatLines (whole_partLines whole)),
    mem_contentsOf_formatLines]

theorem not_defines_partHeader : ¬Defines [partHeader] name := by
  rintro ⟨line, member, properties, parsed⟩
  have none : parseClassDef? (trim partHeader) = none := by rfl
  rw [List.mem_singleton.mp member, none] at parsed
  simp at parsed

theorem defines_partMarkup (whole : ∀ line ∈ block, '\n' ∉ line) :
    Defines (linesOf (partMarkup (classDefs lines) (classAssignments lines) block)) name ↔
      Defines block name ∨ Defines lines name ∧ UsedIn block (classAssignments lines) name := by
  rw [defines_iff_contents]
  simp only [mem_contentsOf_partMarkup whole]
  rw [← defines_iff_contents, defines_append, defines_append,
    (prints_partTail lines block).defines_iff, mem_keys_filter_contains, mem_usesOf,
    mem_keys_classDefs, or_iff_right not_defines_partHeader]

theorem source_of_partMarkup (whole : ∀ line ∈ block, '\n' ∉ line)
    (member : line ∈ linesOf (partMarkup (classDefs lines) (classAssignments lines) block))
    (filled : trim line ≠ []) :
    ∃ raw, trim raw = trim line ∧ (raw = partHeader ∨ raw ∈ block ∨
      raw ∈ partTail (classDefs lines) (classAssignments lines) block) := by
  have content := mem_contentsOf.mpr ⟨filled, line, member, rfl⟩
  obtain ⟨_, raw, source, same⟩ := mem_contentsOf.mp ((mem_contentsOf_partMarkup whole).mp content)
  rw [List.mem_append, List.mem_append, List.mem_singleton] at source
  exact ⟨raw, same, source⟩

theorem usedIn_of_node (whole : ∀ line ∈ block, '\n' ∉ line)
    (member : line ∈ linesOf (partMarkup (classDefs lines) (classAssignments lines) block))
    (nodes : IsNodeLine (trim line)) {node : List Char}
    (applies : AppliesOutsideLabels (trim line) node name.toList) :
    UsedIn block (classAssignments lines) name := by
  have filled : trim line ≠ [] := by
    intro nothing
    have bare := applies.bare
    rw [nothing] at bare
    exact not_appliesBare_nil bare
  obtain ⟨raw, same, source⟩ := source_of_partMarkup whole member filled
  rw [← same] at nodes applies
  have bare := appliesBare_trim.mp applies.bare
  rcases source with rfl | inside | behind
  · exact absurd bare.mem_colon (by decide)
  · have id := applies.mem_lineNodeIds nodes
    have use := bare.mem_inlineClasses
    rw [applies.1.dropWhile, String.ofList_toList] at use
    exact .inl ⟨raw, inside, _, List.mem_flatMap.mpr ⟨raw, inside, id⟩, use⟩
  · exact absurd bare ((prints_partTail lines block).not_appliesBare behind
      (parseClassDef?_of_isNodeLine nodes) _ _)

theorem usedIn_of_statement (whole : ∀ line ∈ block, '\n' ∉ line) (inside : block ⊆ lines)
    (member : line ∈ linesOf (partMarkup (classDefs lines) (classAssignments lines) block))
    {assignment : ClassAssignment}
    (parsed : parseClassStatement? (trim line) = some assignment) {element : String}
    (held : element ∈ assignment.elements) (known : element ∈ blockNodeIds block) :
    UsedIn block (classAssignments lines) assignment.className := by
  have filled := ne_nil_of_style (isStyleStatement_of_statement parsed)
  obtain ⟨raw, same, source⟩ := source_of_partMarkup whole member filled
  rw [← same] at parsed
  rcases source with rfl | present | behind
  · have none : parseClassStatement? (trim partHeader) = none := rfl
    rw [none] at parsed
    simp at parsed
  · have stored : assignment ∈ classAssignments lines :=
      List.mem_filterMap.mpr ⟨raw, inside present, parsed⟩
    exact .inr ⟨assignment, stored, rfl, element, held, known⟩
  · have prints := prints_partTail lines block
    obtain ⟨own, stored, rfl⟩ := prints.assignment behind (parseClassDef?_of_statement parsed)
    rw [parseClassStatement?_formatAssignment (prints.named own stored)] at parsed
    obtain rfl := Option.some.inj parsed
    obtain ⟨source, given, _, rfl⟩ := mem_partAssignments.mp stored
    exact .inr ⟨source, given, rfl, element, List.mem_of_mem_filter held, known⟩

end Parts

section Splitting

/-- A part of a diagram without entities defines the classes that its block defines, and those
classes of the diagram that the block is seen to use. A class that a node has in place outside
labels is among these, and so is one that a class statement of the part gives to a node of the
block. -/
theorem split_keeps_definitions {text : String} {parts : List Part}
    (splits : split text = .ok parts) (plain : hasPart "&nbsp;" text.toList = false)
    {part : Part} (member : part ∈ parts) :
    ∃ block, block <:+: linesOf text ∧
      part.markup = partMarkup (classDefs (linesOf text)) (classAssignments (linesOf text)) block ∧
      ∀ name,
        (Defines (linesOf part.markup) name ↔
          Defines block name ∨
            Defines (linesOf text) name ∧ UsedIn block (classAssignments (linesOf text)) name) ∧
        (Defines (linesOf text) name →
          (∃ line ∈ linesOf part.markup,
            (IsNodeLine (trim line) ∧
              ∃ node, AppliesOutsideLabels (trim line) node name.toList) ∨
            ∃ assignment, parseClassStatement? (trim line) = some assignment ∧
              assignment.className = name ∧
              ∃ element ∈ assignment.elements, element ∈ blockNodeIds block) →
          Defines (linesOf part.markup) name) := by
  obtain ⟨block, inside, same⟩ := exists_block_of_part splits member
  rw [map_plainSpaces plain inside] at same
  have whole : ∀ line ∈ block, '\n' ∉ line := fun line held =>
    break_free_linesOf (inside.subset held)
  refine ⟨block, inside, same, fun name => ⟨?_, fun defined applied => ?_⟩⟩
  · rw [same]
    exact defines_partMarkup whole
  · rw [same] at applied ⊢
    refine (defines_partMarkup whole).mpr (.inr ⟨defined, ?_⟩)
    obtain ⟨line, present, node | statement⟩ := applied
    · obtain ⟨nodes, _, applies⟩ := node
      exact usedIn_of_node whole present nodes applies
    · obtain ⟨assignment, parsed, rfl, element, held, known⟩ := statement
      exact usedIn_of_statement whole inside.subset present parsed held known

def rooms : String :=
  "flowchart LR\nsubgraph Hall\nWall[Brick] --> Lamp:::warm\nend\nclassDef warm fill:#fc9\n"

def hall : Part where
  name := "Hall"
  markup := "flowchart TB\n    subgraph Hall\n        Wall[Brick] --> Lamp:::warm\n    end\n" ++
    "\n    classDef warm fill:#fc9\n"

theorem split_keeps_definitions_of_rooms :
    split rooms = .ok [hall] ∧ Defines (linesOf hall.markup) "warm" := by
  have splits : split rooms = .ok [hall] := by decide +kernel
  obtain ⟨block, _, _, all⟩ := split_keeps_definitions splits (by decide +kernel)
    List.mem_cons_self
  have line : "        Wall[Brick] --> Lamp:::warm".toList ∈ linesOf hall.markup := by
    decide +kernel
  have closed : LabelsClosed "Wall[Brick] --> ".toList := by
    have quotes : Closed quoteCloser ("Wall[Brick] --> ".toList ++ []) :=
      .append_plain (by simp [quoteCloser]) .nil
    have arrow : Closed shapeCloser (" --> ".toList ++ []) :=
      .append_plain (by simp [shapeCloser]) .nil
    have label : Closed shapeCloser ('[' :: ("Brick".toList ++ ']' :: (" --> ".toList ++ []))) :=
      .group rfl (by decide) arrow
    have shapes : Closed shapeCloser ("Wall".toList ++
        '[' :: ("Brick".toList ++ ']' :: (" --> ".toList ++ []))) :=
      .append_plain (by simp [shapeCloser]) label
    exact ⟨quotes, shapes⟩
  have applies : AppliesOutsideLabels (trim "        Wall[Brick] --> Lamp:::warm".toList)
      "Lamp".toList "warm".toList :=
    ⟨by decide, by decide, "Wall[Brick] --> ".toList, [], by decide, closed, by decide, by decide,
      by decide⟩
  have nodes : IsNodeLine (trim "        Wall[Brick] --> Lamp:::warm".toList) :=
    ⟨by decide, by decide⟩
  exact ⟨splits, (all "warm").2 (by decide +kernel) ⟨_, line, .inl ⟨nodes, _, applies⟩⟩⟩

/-- A class is not seen behind a label, and a node whose id has a hyphen is not known by that id;
neither is a class of a statement that only names nodes of other blocks. -/
theorem split_strands_classes :
    ∃ part, split ("flowchart TB\nsubgraph S\nA[Text]:::hot\nmy-node:::cold\n" ++
          "class Other mild\nend\nOther\nclassDef hot fill:#f96\n" ++
          "classDef cold fill:#9cf\nclassDef mild fill:#eee\n") = .ok [part] ∧
      "        A[Text]:::hot".toList ∈ linesOf part.markup ∧ ¬Defines (linesOf part.markup) "hot" ∧
      "        my-node:::cold".toList ∈ linesOf part.markup ∧
        ¬Defines (linesOf part.markup) "cold" ∧
      "    class Other mild".toList ∈ linesOf part.markup ∧
        ¬Defines (linesOf part.markup) "mild" :=
  ⟨⟨"S", "flowchart TB\n    subgraph S\n        A[Text]:::hot\n        my-node:::cold\n" ++
      "    end\n\n    class Other mild\n"⟩,
    by decide +kernel⟩

end Splitting

end CrateAtlas.Mermaid
