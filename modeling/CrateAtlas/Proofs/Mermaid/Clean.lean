import CrateAtlas.Mermaid.Clean
import CrateAtlas.Proofs.Mermaid.InlineClasses

/-!
Which class definitions cleaning keeps. Main statement: a class keeps its definition exactly when
a line that is kept is seen to use it, as a node with nothing between it and the class does.
-/

namespace CrateAtlas.Mermaid

open Text OrderedMap

section Reading

/-- The lines outside directive blocks; `inside` is set while a block is open. -/
def outsideDirectives (inside : Bool) : List (List Char) → List (List Char)
  | [] => []
  | raw :: rest =>
      if inside || startsWith "%%\x7b" (trim raw) then
        outsideDirectives (!closesDirective (trim raw)) rest
      else raw :: outsideDirectives false rest

def isDropped (raw : List Char) : Bool :=
  (trim raw).isEmpty || isDeadComment (trim raw)

/-- The lines that cleaning reads and that define no class. -/
def bodyOf (lines : List (List Char)) : List (List Char) :=
  lines.filter fun raw => !isDropped raw && (parseClassDef? (trim raw)).isNone

def opensFlowchart (body : List (List Char)) : Bool :=
  body.head?.any fun raw => isFlowchart (trim raw)

def statementIn (flowchart : Bool) (raw : List Char) : Option ClassAssignment :=
  if flowchart then parseClassStatement? (trim raw) else none

def classesIn (flowchart : Bool) (raw : List Char) : List String :=
  match statementIn flowchart raw with
  | some assignment => [assignment.className]
  | none => (inlineClasses (trim raw)).map Prod.snd

def keptOf (flowchart : Bool) (body : List (List Char)) : List (List Char) :=
  body.filter fun raw => (statementIn flowchart raw).isNone

theorem parseClassDef?_of_isDropped {raw : List Char} (dropped : isDropped raw) :
    parseClassDef? (trim raw) = none := by
  rw [Option.eq_none_iff_forall_ne_some]
  intro definition parsed
  obtain ⟨blank, tail, shape, _⟩ := parseClassDef?_lead parsed
  rw [isDropped, shape, isDeadComment, isComment] at dropped
  have plain : startsWith "%%" ("classDef".toList ++ blank :: tail) = false := rfl
  rw [plain] at dropped
  simp at dropped

end Reading

section Steps

/-- What is known of a state after the lines of a body and the definitions around them. -/
structure CleanState.Reached (state : CleanState) (body : List (List Char))
    (definitions : List (String × String)) : Prop where
  flowchart : state.flowchart = opensFlowchart body
  opened : state.lines = [] → body = []
  lines : state.lines.reverse =
    (keptOf (opensFlowchart body) body).map fun raw => trimEnd (plainSpaces raw)
  statements : state.statements =
    (body.filterMap (statementIn (opensFlowchart body))).map formatAssignment
  used : state.used = body.flatMap (classesIn (opensFlowchart body))
  definitions : state.definitions = definitions

variable {state : CleanState} {body : List (List Char)} {definitions : List (String × String)}
  {raw : List Char}

theorem reached_start : CleanState.Reached {} [] [] where
  flowchart := rfl
  opened := fun _ => rfl
  lines := rfl
  statements := rfl
  used := rfl
  definitions := rfl

theorem opensFlowchart_append (filled : body ≠ []) (later : List (List Char)) :
    opensFlowchart (body ++ later) = opensFlowchart body := by
  rw [opensFlowchart, List.head?_append_of_ne_nil _ filled, opensFlowchart]

theorem opensFlowchart_single : opensFlowchart [raw] = isFlowchart (trim raw) := by
  simp [opensFlowchart]

theorem statementIn_eq_some {kind : Bool} {assignment : ClassAssignment} :
    statementIn kind raw = some assignment ↔
      kind ∧ parseClassStatement? (trim raw) = some assignment := by
  cases kind <;> simp [statementIn]

theorem CleanState.Reached.kind (reached : state.Reached body definitions) :
    (if state.lines.isEmpty && isHeader (trim raw) then isFlowchart (trim raw)
      else state.flowchart) = opensFlowchart (body ++ [raw]) := by
  rw [reached.flowchart]
  by_cases nothing : state.lines = []
  · rw [reached.opened nothing, nothing, List.nil_append, opensFlowchart_single]
    cases header : isHeader (trim raw) with
    | true => simp
    | false =>
        have plain : isFlowchart (trim raw) = false := by
          by_contra flowchart
          rw [isHeader_of_isFlowchart (by simpa using flowchart)] at header
          simp at header
        simp [plain, opensFlowchart]
  · have filled : body ≠ [] := by
      rintro rfl
      have none := reached.lines
      simp [keptOf] at none
      exact nothing none
    simp [nothing, opensFlowchart_append filled]

theorem read_earlier {β : Type} (body : List (List Char)) (raw : List Char)
    (read : Bool → List (List Char) → β)
    (nothing : ∀ kind other, read kind [] = read other []) :
    read (opensFlowchart (body ++ [raw])) body = read (opensFlowchart body) body := by
  by_cases filled : body = []
  · subst filled
    exact nothing _ _
  · rw [opensFlowchart_append filled]

theorem keptOf_append :
    keptOf (opensFlowchart (body ++ [raw])) (body ++ [raw]) =
      keptOf (opensFlowchart body) body ++ keptOf (opensFlowchart (body ++ [raw])) [raw] := by
  rw [← read_earlier body raw keptOf fun _ _ => rfl, keptOf, List.filter_append]
  rfl

theorem statements_append :
    ((body ++ [raw]).filterMap (statementIn (opensFlowchart (body ++ [raw])))).map
        formatAssignment =
      (body.filterMap (statementIn (opensFlowchart body))).map formatAssignment ++
        ((statementIn (opensFlowchart (body ++ [raw])) raw).map formatAssignment).toList := by
  rw [← read_earlier body raw (fun kind body => body.filterMap (statementIn kind)) fun _ _ => rfl,
    List.filterMap_append, List.map_append]
  cases read : statementIn (opensFlowchart (body ++ [raw])) raw <;> simp [read]

theorem classesIn_append :
    (body ++ [raw]).flatMap (classesIn (opensFlowchart (body ++ [raw]))) =
      body.flatMap (classesIn (opensFlowchart body)) ++
        classesIn (opensFlowchart (body ++ [raw])) raw := by
  rw [← read_earlier body raw (fun kind body => body.flatMap (classesIn kind)) fun _ _ => rfl,
    List.flatMap_append]
  simp

theorem cleanContent_of_body (none : parseClassDef? (trim raw) = none) {kind : Bool}
    (settles : (if state.lines.isEmpty && isHeader (trim raw) then isFlowchart (trim raw)
      else state.flowchart) = kind) :
    cleanContent state raw (trim raw) =
      { state with
        flowchart := kind
        lines := if (statementIn kind raw).isSome then state.lines
          else trimEnd (plainSpaces raw) :: state.lines
        statements := state.statements ++
          ((statementIn kind raw).map formatAssignment).toList
        used := state.used ++ classesIn kind raw } := by
  have same : (if kind then parseClassStatement? (trim raw) else Option.none) =
    statementIn kind raw := rfl
  simp only [cleanContent, none, settles, same, classesIn]
  cases statementIn kind raw <;> simp

theorem CleanState.Reached.content (reached : state.Reached body definitions)
    (none : parseClassDef? (trim raw) = none) :
    (cleanContent state raw (trim raw)).Reached (body ++ [raw]) definitions := by
  rw [cleanContent_of_body none reached.kind]
  refine ⟨rfl, ?_, ?_, ?_, ?_, reached.definitions⟩
  · intro nothing
    -- A statement is taken for one only behind the header, and the header is kept.
    cases read : statementIn (opensFlowchart (body ++ [raw])) raw with
    | none => simp [read] at nothing
    | some assignment =>
        obtain ⟨kind, parsed⟩ := statementIn_eq_some.mp read
        have first : body = [] := reached.opened (by simpa [read] using nothing)
        rw [first, List.nil_append, opensFlowchart_single,
          not_flowchart_of_style (isStyleStatement_of_statement parsed)] at kind
        exact absurd kind (by decide)
  · rw [keptOf_append, List.map_append, ← reached.lines]
    cases read : statementIn (opensFlowchart (body ++ [raw])) raw <;> simp [keptOf, read]
  · rw [statements_append, reached.statements]
  · rw [classesIn_append, reached.used]

theorem CleanState.Reached.definition (reached : state.Reached body definitions)
    {definition : String × String} (parsed : parseClassDef? (trim raw) = some definition) :
    (cleanContent state raw (trim raw)).Reached body
      (put definition.1 definition.2 definitions) := by
  have plain := not_header_of_definition parsed
  simp only [cleanContent, plain, parsed, Bool.and_false]
  obtain ⟨flowchart, opened, lines, statements, used, rfl⟩ := reached
  exact ⟨flowchart, opened, lines, statements, used, rfl⟩

theorem cleanLine_inside (inside : (state.inDirective || startsWith "%%\x7b" (trim raw)) = true) :
    cleanLine state raw = { state with inDirective := !closesDirective (trim raw) } := by
  rw [Bool.or_eq_true] at inside
  simp only [cleanLine]
  rcases inside with open_ | opens
  · rw [if_pos open_]
  · rw [if_pos opens, ite_self]

theorem cleanLine_outside
    (outside : ¬(state.inDirective || startsWith "%%\x7b" (trim raw)) = true) :
    cleanLine state raw =
      if isDropped raw then state else cleanContent state raw (trim raw) := by
  rw [Bool.or_eq_true, not_or] at outside
  simp only [cleanLine]
  rw [if_neg outside.1, if_neg outside.2]
  rfl

theorem inDirective_cleanContent (line : List Char) :
    (cleanContent state raw line).inDirective = state.inDirective := by
  simp only [cleanContent]
  repeat' split
  all_goals rfl

def CleanState.Follows (state : CleanState) (seen : List (List Char)) : Prop :=
  state.Reached (bodyOf seen) (classDefs seen)

theorem CleanState.Follows.step {seen : List (List Char)} (follows : state.Follows seen)
    (raw : List Char) :
    (if isDropped raw then state else cleanContent state raw (trim raw)).Follows
      (seen ++ [raw]) := by
  have body : bodyOf (seen ++ [raw]) = bodyOf seen ++ bodyOf [raw] := by simp [bodyOf]
  split
  · rename_i dropped
    have none := parseClassDef?_of_isDropped dropped
    have nothing : bodyOf [raw] = [] := by simp [bodyOf, dropped]
    rw [CleanState.Follows, classDefs_append_none none, body, nothing, List.append_nil]
    exact follows
  · rename_i read
    cases parsed : parseClassDef? (trim raw) with
    | none =>
        have single : bodyOf [raw] = [raw] := by simp [bodyOf, read, parsed]
        rw [CleanState.Follows, classDefs_append_none parsed, body, single]
        exact follows.content parsed
    | some definition =>
        have nothing : bodyOf [raw] = [] := by simp [bodyOf, parsed]
        rw [CleanState.Follows, classDefs_append_some parsed, body, nothing, List.append_nil]
        exact follows.definition parsed

theorem CleanState.Follows.foldl {seen : List (List Char)} (follows : state.Follows seen)
    (lines : List (List Char)) :
    (lines.foldl cleanLine state).Follows (seen ++ outsideDirectives state.inDirective lines) := by
  induction lines generalizing state seen with
  | nil => rwa [outsideDirectives, List.append_nil]
  | cons raw rest ih =>
      rw [List.foldl_cons, outsideDirectives]
      split
      · rename_i inside
        obtain ⟨flowchart, opened, kept, statements, used, definitions⟩ := follows
        rw [cleanLine_inside inside]
        exact ih ⟨flowchart, opened, kept, statements, used, definitions⟩
      · rename_i outside
        have closed : state.inDirective = false := by simp_all
        have still : (if isDropped raw then state
            else cleanContent state raw (trim raw)).inDirective = false := by
          split
          · exact closed
          · exact (inDirective_cleanContent _).trans closed
        have onward := ih (follows.step raw)
        rw [still, List.append_assoc] at onward
        rwa [cleanLine_outside outside]

theorem follows_clean (text : String) :
    ((linesOf text).foldl cleanLine {}).Follows (outsideDirectives false (linesOf text)) := by
  have start : CleanState.Follows {} [] := reached_start
  exact start.foldl (linesOf text)

end Steps

section Tails

variable {state : CleanState} {seen : List (List Char)} {line : List Char} {name : String}

theorem named_of_statementIn {kind : Bool} {raw : List Char} {assignment : ClassAssignment}
    (read : statementIn kind raw = some assignment) : assignment.Named :=
  parseClassStatement?_shape (statementIn_eq_some.mp read).2

theorem CleanState.Follows.prints (follows : state.Follows seen) :
    Prints (cleanTail state)
      ((classDefs seen).filter fun definition => state.used.contains definition.1)
      ((bodyOf seen).filterMap (statementIn (opensFlowchart (bodyOf seen)))) where
  mem_iff line := by
    simp only [cleanTail, follows.definitions, follows.statements, List.map_append, List.map_map,
      List.mem_append, List.mem_map, mem_sortBy, Function.comp_apply, sortTexts, mem_distinct]
    constructor
    · rintro (⟨definition, member, rfl⟩ | ⟨_, ⟨assignment, member, rfl⟩, rfl⟩)
      · exact .inl ⟨definition, member, rfl⟩
      · exact .inr ⟨assignment, member, rfl⟩
    · rintro (⟨definition, member, rfl⟩ | ⟨assignment, member, rfl⟩)
      · exact .inl ⟨definition, member, rfl⟩
      · exact .inr ⟨_, ⟨assignment, member, rfl⟩, rfl⟩
  shape _ member := classDefs_shape (List.mem_of_mem_filter member)
  named assignment member := by
    obtain ⟨raw, _, read⟩ := List.mem_filterMap.mp member
    exact named_of_statementIn read

theorem CleanState.Follows.defines_cleanTail (follows : state.Follows seen) :
    Defines (cleanTail state) name ↔ Defines seen name ∧ name ∈ state.used := by
  rw [follows.prints.defines_iff, mem_keys_filter_contains, mem_keys_classDefs]

end Tails

section Cleaning

def readLines (text : String) : List (List Char) :=
  outsideDirectives false (linesOf text)

def readsFlowchart (text : String) : Bool :=
  opensFlowchart (bodyOf (readLines text))

/-- Some line that cleaning reads is seen to use the class. -/
def SeenUsed (text name : String) : Prop :=
  ∃ raw ∈ bodyOf (readLines text), name ∈ classesIn (readsFlowchart text) raw

/-- The lines that keep their place in the cleaned text. -/
def keptLines (text : String) : List (List Char) :=
  keptOf (readsFlowchart text) (bodyOf (readLines text))

variable {text name : String}

theorem mem_outsideDirectives {raw : List Char} {inside : Bool} {lines : List (List Char)}
    (member : raw ∈ outsideDirectives inside lines) : raw ∈ lines := by
  induction lines generalizing inside with
  | nil => exact member
  | cons first rest ih =>
      rw [outsideDirectives] at member
      split at member
      · exact List.mem_cons_of_mem first (ih member)
      · rcases List.mem_cons.mp member with rfl | later
        · exact List.mem_cons_self
        · exact List.mem_cons_of_mem first (ih later)

theorem mem_bodyOf {raw : List Char} {lines : List (List Char)} :
    raw ∈ bodyOf lines ↔
      raw ∈ lines ∧ isDropped raw = false ∧ parseClassDef? (trim raw) = none := by
  simp [bodyOf]

theorem mem_keptLines {raw : List Char} :
    raw ∈ keptLines text ↔
      raw ∈ bodyOf (readLines text) ∧ statementIn (readsFlowchart text) raw = none := by
  simp [keptLines, keptOf]

theorem whole_keptLines {raw : List Char} (member : raw ∈ keptLines text) :
    '\n' ∉ trimEnd (plainSpaces raw) := by
  intro broken
  have held : '\n' ∈ plainSpaces raw := (List.rdropWhile_prefix isBlank _).subset broken
  rcases (spacesFor_plainSpaces raw).mem held with source | space
  · have read := (mem_bodyOf.mp (mem_keptLines.mp member).1).1
    exact break_free_linesOf (mem_outsideDirectives read) source
  · exact absurd space (by decide)

theorem clean_lines (text : String) :
    ∃ tail, clean text = unlines ((keptLines text).map (fun raw => trimEnd (plainSpaces raw)) ++
        behindBlank tail) ∧
      (∀ line ∈ (keptLines text).map (fun raw => trimEnd (plainSpaces raw)) ++ behindBlank tail,
        '\n' ∉ line) ∧
      (∀ name, Defines tail name ↔ Defines (readLines text) name ∧ SeenUsed text name) ∧
      ∀ line ∈ tail, parseClassDef? (trim line) = none →
        ∀ node className, ¬AppliesBare line node className := by
  have follows := follows_clean text
  refine ⟨cleanTail ((linesOf text).foldl cleanLine {}), ?_, fun line member => ?_,
    fun name => ?_, fun _ => follows.prints.not_appliesBare⟩
  · have kept : keptLines text = keptOf (opensFlowchart (bodyOf (readLines text)))
        (bodyOf (readLines text)) := rfl
    rw [kept, readLines, ← follows.lines, append_behindBlank]
    rfl
  · rcases List.mem_append.mp member with kept | behind
    · obtain ⟨raw, present, rfl⟩ := List.mem_map.mp kept
      exact whole_keptLines present
    · rcases mem_behindBlank behind with rfl | tail
      · exact List.not_mem_nil
      · exact follows.prints.whole tail
  · rw [follows.defines_cleanTail, follows.used]
    simp only [SeenUsed, readsFlowchart, readLines, List.mem_flatMap]

theorem defines_map_trimEnd {lines : List (List Char)} :
    Defines (lines.map fun raw => trimEnd (plainSpaces raw)) name ↔
      Defines (lines.map plainSpaces) name := by
  simp only [Defines, List.mem_map]
  constructor
  · rintro ⟨_, ⟨raw, member, rfl⟩, parsed⟩
    exact ⟨_, ⟨raw, member, rfl⟩, by rwa [trim_trimEnd] at parsed⟩
  · rintro ⟨_, ⟨raw, member, rfl⟩, parsed⟩
    exact ⟨_, ⟨raw, member, rfl⟩, by rwa [trim_trimEnd]⟩

/-- Exactly the classes that are seen used keep their definitions, next to the lines that only
become definitions when entities turn into spaces. -/
theorem defines_clean_iff (text name : String) :
    Defines (linesOf (clean text)) name ↔
      (Defines (readLines text) name ∧ SeenUsed text name) ∨
        Defines ((keptLines text).map plainSpaces) name := by
  obtain ⟨tail, same, whole, defines, _⟩ := clean_lines text
  rw [same, defines_unlines whole, defines_append, defines_behindBlank, defines_map_trimEnd,
    defines, or_comm]

theorem seenUsed_of_kept {raw : List Char} (kept : raw ∈ keptLines text) {node : List Char}
    (applies : AppliesBare (trimEnd (plainSpaces raw)) node name.toList) : SeenUsed text name := by
  obtain ⟨body, plain⟩ := mem_keptLines.mp kept
  have bare : AppliesBare (trim raw) node name.toList := by
    rw [← appliesBare_trim, trim_trimEnd, appliesBare_trim] at applies
    exact appliesBare_trim.mpr (appliesBare_of_plainSpaces applies)
  have use := List.mem_map_of_mem (f := Prod.snd) bare.mem_inlineClasses
  rw [String.ofList_toList] at use
  exact ⟨raw, body, by simpa [classesIn, plain] using use⟩

theorem seenUsed_of_bare {line : List Char} (member : line ∈ linesOf (clean text))
    (none : parseClassDef? (trim line) = none) {node : List Char}
    (applies : AppliesBare line node name.toList) : SeenUsed text name := by
  obtain ⟨tail, same, whole, _, notBare⟩ := clean_lines text
  rw [same] at member
  rcases mem_linesOf_unlines whole member with rfl | present
  · exact absurd applies not_appliesBare_nil
  · rcases List.mem_append.mp present with kept | behind
    · obtain ⟨raw, source, rfl⟩ := List.mem_map.mp kept
      exact seenUsed_of_kept source applies
    · rcases mem_behindBlank behind with rfl | last
      · exact absurd applies not_appliesBare_nil
      · exact absurd applies (notBare line last none node name.toList)

theorem seenUsed_of_statement (flowchart : readsFlowchart text) {raw : List Char}
    (member : raw ∈ bodyOf (readLines text)) {assignment : ClassAssignment}
    (parsed : parseClassStatement? (trim raw) = some assignment) :
    SeenUsed text assignment.className := by
  have read := statementIn_eq_some.mpr ⟨flowchart, parsed⟩
  exact ⟨raw, member, by simp [classesIn, read]⟩

/-- Cleaning keeps the definitions of exactly the classes that it sees used. A class that a node
has in place, with nothing between them, is among these, and so is one that a class statement
gives in a flowchart. -/
theorem clean_keeps_definitions (text name : String) :
    (Defines (linesOf (clean text)) name ↔
      (Defines (readLines text) name ∧ SeenUsed text name) ∨
        Defines ((keptLines text).map plainSpaces) name) ∧
    (Defines (readLines text) name →
      ((∃ line ∈ linesOf (clean text), parseClassDef? (trim line) = none ∧
          ∃ node, AppliesBare line node name.toList) ∨
        readsFlowchart text ∧ ∃ raw ∈ bodyOf (readLines text), ∃ assignment,
          parseClassStatement? (trim raw) = some assignment ∧ assignment.className = name) →
      Defines (linesOf (clean text)) name) := by
  refine ⟨defines_clean_iff text name, fun defined applied => ?_⟩
  refine (defines_clean_iff text name).mpr (.inl ⟨defined, ?_⟩)
  rcases applied with ⟨line, member, none, node, applies⟩ | ⟨flowchart, raw, member, statement⟩
  · exact seenUsed_of_bare member none applies
  · obtain ⟨assignment, parsed, rfl⟩ := statement
    exact seenUsed_of_statement flowchart member parsed

def lamps : String :=
  "flowchart TB\nLamp:::warm --> Wall\nclassDef warm fill:#fc9\nclassDef cold fill:#9cf\n"

theorem clean_keeps_definitions_of_lamps : Defines (linesOf (clean lamps)) "warm" := by
  have applies : AppliesBare "Lamp:::warm --> Wall".toList "Lamp".toList "warm".toList :=
    ⟨by decide, by decide, by decide, [], " --> Wall".toList, by decide, by decide, by decide⟩
  exact (clean_keeps_definitions lamps "warm").2 (by decide +kernel)
    (.inl ⟨_, by decide +kernel, by decide +kernel, _, applies⟩)

/-- Behind a label, a class is not seen, and its definition goes. -/
theorem clean_strands_class_of_label :
    let text := "flowchart TB\nA[Text]:::warm\nclassDef warm fill:#fc9\n"
    "A[Text]:::warm".toList ∈ linesOf (clean text) ∧ Defines (readLines text) "warm" ∧
      ¬Defines (linesOf (clean text)) "warm" := by
  decide +kernel

end Cleaning

end CrateAtlas.Mermaid
