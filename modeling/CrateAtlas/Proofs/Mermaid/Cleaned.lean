import CrateAtlas.Proofs.Mermaid.Clean
import CrateAtlas.Proofs.Mermaid.Merge
import CrateAtlas.Proofs.Mermaid.Split

/-!
Cleaned texts, and cleaning them again. Main statement: a cleaned text has the lines that keep
their place, then the last definitions of the classes in use and then the class statements, both
sorted and without repetition, and cleaning it once more changes nothing.
-/

namespace CrateAtlas.Mermaid

open Text OrderedMap

section Ends

/-- The line ends in a semicolon behind a blank or behind another semicolon. -/
def endsLoosely (line : List Char) : Bool :=
  line.getLast? = some ';' &&
    line.dropLast.getLast?.any fun character => isBlank character || character = ';'

/-- No class definition among the lines ends loosely. -/
def TightEnds (lines : List (List Char)) : Prop :=
  ∀ line ∈ lines, (parseClassDef? (trim line)).isSome → endsLoosely (trim line) = false

instance (lines : List (List Char)) : Decidable (TightEnds lines) :=
  inferInstanceAs (Decidable (∀ line ∈ lines, _ → _))

/-- Properties that are read again as they are printed. -/
def Tight (properties : List Char) : Prop :=
  ∀ character ∈ properties.getLast?, isBlank character = false ∧ character ≠ ';'

variable {line : List Char} {name properties : String}

theorem tight_of_parse (tight : endsLoosely (trim line) = false)
    (parsed : parseClassDef? (trim line) = some (name, properties)) : Tight properties.toList := by
  obtain ⟨front, text, whole, ⟨blank, behind, separates⟩, given, rfl⟩ :=
    parseClassDef?_behind parsed
  have last : (trim line).getLast? = text.getLast? := by
    rw [← whole, List.getLast?_append_of_ne_nil _ given.filled]
  have dropped : (trim line).dropLast = front ++ text.dropLast := by
    rw [← whole, List.dropLast_append_of_ne_nil given.filled]
  rw [String.toList_ofList]
  by_cases semicolon : text.getLast? = some ';'
  · rw [endsLoosely, last, semicolon, dropped] at tight
    simp only [decide_true, Bool.true_and, Option.any_eq_false, Bool.or_eq_false_iff,
      decide_eq_false_iff_not] at tight
    -- A semicolon alone would stand right behind the blank.
    have more : text.dropLast ≠ [] := by
      intro nothing
      rw [nothing, List.append_nil] at tight
      rw [(tight blank behind).1] at separates
      simp at separates
    have long : text.length > 1 := by
      by_contra short
      exact more (List.eq_nil_of_length_eq_zero (by rw [List.length_dropLast]; omega))
    rw [dropSemicolon, if_pos (by simp [long, semicolon])]
    intro character final
    rw [List.getLast?_append_of_ne_nil _ more] at tight
    exact tight character final
  · rw [dropSemicolon_of_single (.inr semicolon)]
    intro character final
    refine ⟨(trimmed_trim line).last character (last.trans final), ?_⟩
    rintro rfl
    exact semicolon final

theorem parseClassDef?_of_tight (named : IsName name.toList)
    (given : IsProperties properties.toList) (tight : Tight properties.toList) :
    parseClassDef? (trim (formatClassDef (name, properties)).toList) = some (name, properties) := by
  have ends : trimEnd properties.toList = properties.toList :=
    trimEnd_of_last fun character final => (tight character final).1
  have kept : dropSemicolon properties.toList = properties.toList :=
    dropSemicolon_of_single (.inr fun final => (tight ';' final).2 rfl)
  rw [parseClassDef?_trim_formatClassDef named given, ends, kept, String.ofList_toList]

end Ends

section Reading

variable {lines left right : List (List Char)} {name properties : String} {raw : List Char}

def definitionsOf (lines : List (List Char)) : List (String × String) :=
  lines.filterMap fun line => parseClassDef? (trim line)

theorem definitionsOf_append (left right : List (List Char)) :
    definitionsOf (left ++ right) = definitionsOf left ++ definitionsOf right :=
  List.filterMap_append

theorem bodyOf_append (left right : List (List Char)) :
    bodyOf (left ++ right) = bodyOf left ++ bodyOf right :=
  List.filter_append _ _

theorem classDefs_eq_fill (lines : List (List Char)) :
    classDefs lines = fill (definitionsOf lines) [] := rfl

theorem lastDefinition_iff :
    LastDefinition lines name properties ↔ get? name (classDefs lines) = some properties := by
  refine ⟨get?_classDefs_of_last, fun found => ?_⟩
  induction lines using List.reverseRecOn with
  | nil => simp [classDefs] at found
  | append_singleton earlier raw ih =>
      have longer (last : LastDefinition earlier name properties)
          (other : ¬Defines [raw] name) : LastDefinition (earlier ++ [raw]) name properties := by
        obtain ⟨front, line, back, rfl, parsed, none⟩ := last
        refine ⟨front, line, back ++ [raw], by simp, parsed, ?_⟩
        rw [defines_append, not_or]
        exact ⟨none, other⟩
      cases parsed : parseClassDef? (trim raw) with
      | none =>
          rw [classDefs_append_none parsed] at found
          exact longer (ih found) (by simp [Defines, parsed])
      | some definition =>
          obtain ⟨other, value⟩ := definition
          rw [classDefs_append_some parsed, get?_put] at found
          split at found
          · rename_i same
            obtain rfl := Option.some.inj found
            obtain rfl : other = name := same
            exact ⟨earlier, raw, [], rfl, parsed, by simp [Defines]⟩
          · rename_i different
            exact longer (ih found) (by simp_all [Defines])

theorem outsideDirectives_of_free
    (free : ∀ line ∈ lines, startsWith "%%\x7b" (trim line) = false) :
    outsideDirectives false lines = lines := by
  induction lines with
  | nil => rfl
  | cons first rest ih =>
      obtain ⟨here, others⟩ := List.forall_mem_cons.mp free
      rw [outsideDirectives, here, ih others]
      rfl

theorem readLines_unlines (whole : ∀ line ∈ lines, '\n' ∉ line)
    (free : ∀ line ∈ lines, startsWith "%%\x7b" (trim line) = false) :
    readLines (unlines lines) = linesOf (unlines lines) := by
  apply outsideDirectives_of_free
  intro line member
  rcases mem_linesOf_unlines whole member with rfl | held
  · rfl
  · exact free line held

theorem bodyOf_unlines (whole : ∀ line ∈ lines, '\n' ∉ line) :
    bodyOf (linesOf (unlines lines)) = bodyOf lines := by
  have nothing : bodyOf [[]] = [] := rfl
  rw [linesOf_unlines whole, bodyOf_append, nothing, List.append_nil]
  split
  · rename_i empty
    rw [empty, nothing]
    rfl
  · rfl

theorem definitionsOf_unlines (whole : ∀ line ∈ lines, '\n' ∉ line) :
    definitionsOf (linesOf (unlines lines)) = definitionsOf lines := by
  have nothing : definitionsOf [[]] = [] := rfl
  rw [linesOf_unlines whole, definitionsOf_append, nothing, List.append_nil]
  split
  · rename_i empty
    rw [empty, nothing]
    rfl
  · rfl

theorem isDropped_of_statement {assignment : ClassAssignment}
    (parsed : parseClassStatement? (trim raw) = some assignment) : isDropped raw = false := by
  obtain ⟨blank, tail, shape, _⟩ := parseClassStatement?_lead parsed
  rw [isDropped, shape, isDeadComment]
  rfl

end Reading

section Gathering

variable {text : String} {kept : List (List Char)} {definitions : List (String × String)}
  {statements : List String}

def gathered (kept : List (List Char)) (definitions : List (String × String))
    (statements : List String) : String :=
  unlines (kept ++
    behindBlank ((definitions.map formatClassDef ++ statements).map String.toList))

def seenClasses (text : String) : List String :=
  (bodyOf (readLines text)).flatMap (classesIn (readsFlowchart text))

theorem mem_seenClasses {name : String} : name ∈ seenClasses text ↔ SeenUsed text name := by
  simp only [seenClasses, SeenUsed, List.mem_flatMap]

def keptDefinitions (text : String) : List (String × String) :=
  sortBy byClassName ((classDefs (readLines text)).filter fun definition =>
    (seenClasses text).contains definition.1)

def keptStatements (text : String) : List String :=
  sortTexts (distinct (((bodyOf (readLines text)).filterMap
    (statementIn (readsFlowchart text))).map formatAssignment))

theorem clean_eq (text : String) :
    clean text = gathered ((keptLines text).map fun raw => trimEnd (plainSpaces raw))
      (keptDefinitions text) (keptStatements text) := by
  have follows := follows_clean text
  have tail : cleanTail ((linesOf text).foldl cleanLine {}) =
      ((keptDefinitions text).map formatClassDef ++ keptStatements text).map String.toList := by
    rw [cleanTail, follows.definitions, follows.used, follows.statements]
    rfl
  have kept : keptLines text = keptOf (opensFlowchart (bodyOf (readLines text)))
      (bodyOf (readLines text)) := rfl
  rw [gathered, ← tail, kept, readLines, ← follows.lines, append_behindBlank]
  rfl

theorem mem_keptDefinitions {name properties : String} :
    (name, properties) ∈ keptDefinitions text ↔
      LastDefinition (readLines text) name properties ∧ SeenUsed text name := by
  rw [keptDefinitions, mem_sortBy, List.mem_filter, List.contains_iff_mem, mem_seenClasses,
    lastDefinition_iff, classDefs_eq_fill, get?_eq_some_iff_mem (nodup_keys_filled _)]

theorem mem_keptStatements {statement : String} :
    statement ∈ keptStatements text ↔ readsFlowchart text ∧ ∃ line ∈ readLines text,
      ∃ assignment, parseClassStatement? (trim line) = some assignment ∧
        formatAssignment assignment = statement := by
  simp only [keptStatements, mem_sortTexts, mem_distinct, List.mem_map, List.mem_filterMap,
    statementIn_eq_some]
  constructor
  · rintro ⟨assignment, ⟨line, member, flowchart, parsed⟩, same⟩
    exact ⟨flowchart, line, (mem_bodyOf.mp member).1, assignment, parsed, same⟩
  · rintro ⟨flowchart, line, member, assignment, parsed, same⟩
    have body := mem_bodyOf.mpr
      ⟨member, isDropped_of_statement parsed, parseClassDef?_of_statement parsed⟩
    exact ⟨assignment, ⟨line, body, flowchart, parsed⟩, same⟩

theorem ascending_keptDefinitions (text : String) : Ascending (keys (keptDefinitions text)) := by
  have names : (keys ((classDefs (readLines text)).filter fun definition =>
      (seenClasses text).contains definition.1)).Nodup :=
    (List.filter_sublist.map Prod.fst).nodup (nodup_keys_filled _)
  have sorted : keys (keptDefinitions text) = sortTexts (keys ((classDefs (readLines text)).filter
      fun definition => (seenClasses text).contains definition.1)) :=
    (sortBy_map compareText Prod.fst _).symm
  rw [sorted]
  exact ascending_sortTexts names

end Gathering

section Again

variable {kept : List (List Char)} {definitions : List (String × String)}
  {statements : List String}

/-- Lines, definitions and statements in the form in which cleaning leaves them. -/
structure Tidy (kept : List (List Char)) (definitions : List (String × String))
    (statements : List String) : Prop where
  whole : ∀ line ∈ kept, '\n' ∉ line
  plain : ∀ line ∈ kept, trimEnd (plainSpaces line) = line
  outside : ∀ line ∈ kept, startsWith "%%\x7b" (trim line) = false
  read : ∀ line ∈ kept, isDropped line = false
  undefined : ∀ line ∈ kept, parseClassDef? (trim line) = none
  stays : ∀ line ∈ kept, statementIn (opensFlowchart kept) line = none
  ascending : Ascending (keys definitions)
  shape : ∀ definition ∈ definitions, IsName definition.1.toList ∧
    IsProperties definition.2.toList ∧ Tight definition.2.toList
  used : ∀ definition ∈ definitions,
    (∃ line ∈ kept, definition.1 ∈ (inlineClasses (trim line)).map Prod.snd) ∨
      ∃ assignment, assignment.Named ∧ formatAssignment assignment ∈ statements ∧
        assignment.className = definition.1
  ordered : Ascending statements
  printed : ∀ statement ∈ statements, ∃ assignment, assignment.Named ∧
    formatAssignment assignment = statement
  headed : statements ≠ [] → opensFlowchart kept

theorem Tidy.definition (tidy : Tidy kept definitions statements) {definition : String × String}
    (member : definition ∈ definitions) :
    parseClassDef? (trim (formatClassDef definition).toList) = some definition := by
  obtain ⟨named, given, tight⟩ := tidy.shape definition member
  exact parseClassDef?_of_tight named given tight

theorem Tidy.statement (tidy : Tidy kept definitions statements) {statement : String}
    (member : statement ∈ statements) : ∃ assignment, assignment.Named ∧
      formatAssignment assignment = statement ∧
      parseClassStatement? (trim statement.toList) = some assignment := by
  obtain ⟨assignment, named, rfl⟩ := tidy.printed statement member
  exact ⟨assignment, named, rfl, parseClassStatement?_formatAssignment named⟩

theorem Tidy.whole_gathered (tidy : Tidy kept definitions statements) : ∀ line ∈ kept ++
    behindBlank ((definitions.map formatClassDef ++ statements).map String.toList),
      '\n' ∉ line := by
  intro line member
  rcases List.mem_append.mp member with held | behind
  · exact tidy.whole line held
  rcases mem_behindBlank behind with rfl | tail
  · exact List.not_mem_nil
  obtain ⟨printed, source, rfl⟩ := List.mem_map.mp tail
  rcases List.mem_append.mp source with defined | statement
  · obtain ⟨definition, stored, rfl⟩ := List.mem_map.mp defined
    obtain ⟨named, given, _⟩ := tidy.shape definition stored
    exact whole_formatClassDef ⟨named, given⟩
  · obtain ⟨assignment, named, rfl, _⟩ := tidy.statement statement
    exact whole_formatAssignment named

theorem Tidy.readLines_eq (tidy : Tidy kept definitions statements) :
    readLines (gathered kept definitions statements) =
      linesOf (gathered kept definitions statements) := by
  apply readLines_unlines tidy.whole_gathered
  intro line member
  rcases List.mem_append.mp member with held | behind
  · exact tidy.outside line held
  rcases mem_behindBlank behind with rfl | tail
  · rfl
  obtain ⟨printed, source, rfl⟩ := List.mem_map.mp tail
  rcases List.mem_append.mp source with defined | statement
  · obtain ⟨definition, stored, rfl⟩ := List.mem_map.mp defined
    obtain ⟨blank, rest, shape, _⟩ := parseClassDef?_lead (tidy.definition stored)
    rw [shape]
    rfl
  · obtain ⟨assignment, _, rfl, parsed⟩ := tidy.statement statement
    obtain ⟨blank, rest, shape, _⟩ := parseClassStatement?_lead parsed
    rw [shape]
    rfl

theorem bodyOf_behindBlank (tail : List (List Char)) : bodyOf (behindBlank tail) = bodyOf tail := by
  cases tail <;> rfl

theorem definitionsOf_behindBlank (tail : List (List Char)) :
    definitionsOf (behindBlank tail) = definitionsOf tail := by
  cases tail <;> rfl

theorem Tidy.bodyOf_linesOf (tidy : Tidy kept definitions statements) :
    bodyOf (linesOf (gathered kept definitions statements)) =
      kept ++ statements.map String.toList := by
  have lines : bodyOf kept = kept := List.filter_eq_self.mpr fun line member => by
    simp [tidy.read line member, tidy.undefined line member]
  have gone : bodyOf ((definitions.map formatClassDef).map String.toList) = [] := by
    rw [bodyOf, List.filter_eq_nil_iff]
    intro line member
    obtain ⟨printed, source, rfl⟩ := List.mem_map.mp member
    obtain ⟨definition, stored, rfl⟩ := List.mem_map.mp source
    simp [tidy.definition stored]
  have stays : bodyOf (statements.map String.toList) = statements.map String.toList :=
    List.filter_eq_self.mpr fun line member => by
      obtain ⟨statement, stored, rfl⟩ := List.mem_map.mp member
      obtain ⟨assignment, _, _, parsed⟩ := tidy.statement stored
      simp [isDropped_of_statement parsed, parseClassDef?_of_statement parsed]
  rw [gathered, bodyOf_unlines tidy.whole_gathered, bodyOf_append, bodyOf_behindBlank,
    List.map_append, bodyOf_append, lines, gone, stays, List.nil_append]

theorem Tidy.definitionsOf_linesOf (tidy : Tidy kept definitions statements) :
    definitionsOf (linesOf (gathered kept definitions statements)) = definitions := by
  have lines : definitionsOf kept = [] :=
    List.filterMap_eq_nil_iff.mpr tidy.undefined
  have again :
      definitionsOf ((definitions.map formatClassDef).map String.toList) = definitions := by
    rw [definitionsOf, List.filterMap_map, List.filterMap_map]
    refine (List.filterMap_congr fun definition member => ?_).trans List.filterMap_some
    exact tidy.definition member
  have others : definitionsOf (statements.map String.toList) = [] := by
    rw [definitionsOf, List.filterMap_eq_nil_iff]
    intro line member
    obtain ⟨statement, stored, rfl⟩ := List.mem_map.mp member
    obtain ⟨assignment, _, _, parsed⟩ := tidy.statement stored
    exact parseClassDef?_of_statement parsed
  rw [gathered, definitionsOf_unlines tidy.whole_gathered, definitionsOf_append,
    definitionsOf_behindBlank, List.map_append, definitionsOf_append, lines, again, others,
    List.nil_append, List.append_nil]

theorem Tidy.readsFlowchart (tidy : Tidy kept definitions statements) :
    readsFlowchart (gathered kept definitions statements) = opensFlowchart kept := by
  rw [Mermaid.readsFlowchart, tidy.readLines_eq, tidy.bodyOf_linesOf]
  by_cases filled : kept = []
  · have nothing : statements = [] := by
      by_contra some
      have headed := tidy.headed some
      rw [filled] at headed
      exact absurd headed (by decide)
    rw [nothing, List.map_nil, List.append_nil]
  · exact opensFlowchart_append filled _

theorem Tidy.statementIn (tidy : Tidy kept definitions statements) {statement : String}
    (member : statement ∈ statements) : ∃ assignment, assignment.Named ∧
      formatAssignment assignment = statement ∧
      statementIn (opensFlowchart kept) statement.toList = some assignment := by
  obtain ⟨assignment, named, same, parsed⟩ := tidy.statement member
  have headed := tidy.headed (List.ne_nil_of_mem member)
  exact ⟨assignment, named, same, statementIn_eq_some.mpr ⟨headed, parsed⟩⟩

theorem Tidy.keptLines (tidy : Tidy kept definitions statements) :
    keptLines (gathered kept definitions statements) = kept := by
  rw [Mermaid.keptLines, tidy.readsFlowchart, tidy.readLines_eq, tidy.bodyOf_linesOf, keptOf,
    List.filter_append, List.filter_eq_self.mpr, List.filter_eq_nil_iff.mpr, List.append_nil]
  · intro line member
    obtain ⟨statement, stored, rfl⟩ := List.mem_map.mp member
    obtain ⟨assignment, _, _, read⟩ := tidy.statementIn stored
    simp [read]
  · intro line member
    simp [tidy.stays line member]

theorem Tidy.keptStatements (tidy : Tidy kept definitions statements) :
    keptStatements (gathered kept definitions statements) = statements := by
  have none : kept.filterMap (Mermaid.statementIn (opensFlowchart kept)) = [] :=
    List.filterMap_eq_nil_iff.mpr tidy.stays
  have again : ((statements.map String.toList).filterMap
      (Mermaid.statementIn (opensFlowchart kept))).map formatAssignment = statements := by
    rw [List.filterMap_map, List.map_filterMap]
    refine (List.filterMap_congr fun statement member => ?_).trans List.filterMap_some
    obtain ⟨assignment, _, same, read⟩ := tidy.statementIn member
    rw [Function.comp_apply, read, Option.map_some, same]
  have sorted : Sorted compareText statements := tidy.ordered.imp fun below => by rw [below]; rfl
  rw [Mermaid.keptStatements, tidy.readsFlowchart, tidy.readLines_eq, tidy.bodyOf_linesOf,
    List.filterMap_append, none, List.nil_append, again, distinct_of_nodup tidy.ordered.nodup]
  exact sortBy_of_sorted compareText sorted

theorem Tidy.seenUsed (tidy : Tidy kept definitions statements) {definition : String × String}
    (member : definition ∈ definitions) :
    SeenUsed (gathered kept definitions statements) definition.1 := by
  rw [SeenUsed, tidy.readsFlowchart, tidy.readLines_eq, tidy.bodyOf_linesOf]
  rcases tidy.used definition member with
    ⟨line, held, found⟩ | ⟨assignment, named, stored, same⟩
  · refine ⟨line, List.mem_append_left _ held, ?_⟩
    rw [classesIn, tidy.stays line held]
    exact found
  · have inside := List.mem_map_of_mem (f := String.toList) stored
    have headed := tidy.headed (List.ne_nil_of_mem stored)
    have parsed := parseClassStatement?_formatAssignment named
    refine ⟨_, List.mem_append_right _ inside, ?_⟩
    rw [classesIn, statementIn_eq_some.mpr ⟨headed, parsed⟩]
    exact List.mem_singleton.mpr same.symm

theorem Tidy.keptDefinitions (tidy : Tidy kept definitions statements) :
    keptDefinitions (gathered kept definitions statements) = definitions := by
  have filled : classDefs (readLines (gathered kept definitions statements)) = definitions := by
    rw [classDefs_eq_fill, tidy.readLines_eq, tidy.definitionsOf_linesOf]
    exact fill_of_nodup tidy.ascending.nodup
  have sorted : Sorted byClassName definitions :=
    (List.pairwise_map.mp tidy.ascending).imp fun below => by rw [byClassName, below]; rfl
  rw [Mermaid.keptDefinitions, filled, List.filter_eq_self.mpr]
  · exact sortBy_of_sorted byClassName sorted
  · intro definition member
    rw [List.contains_iff_mem, mem_seenClasses]
    exact tidy.seenUsed member

/-- Cleaning leaves a text alone that is in the form of a cleaned one. -/
theorem Tidy.clean (tidy : Tidy kept definitions statements) :
    clean (gathered kept definitions statements) = gathered kept definitions statements := by
  rw [clean_eq, tidy.keptLines, tidy.keptDefinitions, tidy.keptStatements]
  refine congrArg (gathered · definitions statements) ?_
  exact (List.map_congr_left tidy.plain).trans (List.map_id kept)

end Again

section Cleaned

variable {text : String} {raw : List Char}

theorem opensFlowchart_keptOf (body : List (List Char)) :
    opensFlowchart (keptOf (opensFlowchart body) body) = opensFlowchart body := by
  cases body with
  | nil => rfl
  | cons first rest =>
      have kind : opensFlowchart (first :: rest) = isFlowchart (trim first) := by
        simp [opensFlowchart]
      rw [kind]
      cases flowchart : isFlowchart (trim first) with
      | false =>
          have all : keptOf false (first :: rest) = first :: rest := by simp [keptOf, statementIn]
          rw [all, kind, flowchart]
      | true =>
          -- The header itself is no class statement, so it stays in front.
          have header : statementIn true first = none := by
            rw [Option.eq_none_iff_forall_ne_some]
            intro assignment read
            have style := isStyleStatement_of_statement (statementIn_eq_some.mp read).2
            simp [not_flowchart_of_style style] at flowchart
          simp [keptOf, header, opensFlowchart, flowchart]

theorem opensFlowchart_map_trimEnd (lines : List (List Char)) :
    opensFlowchart (lines.map trimEnd) = opensFlowchart lines := by
  cases lines <;> simp [opensFlowchart, trim_trimEnd]

theorem opensFlowchart_keptLines (text : String) :
    opensFlowchart ((keptLines text).map trimEnd) = readsFlowchart text := by
  rw [opensFlowchart_map_trimEnd]
  exact opensFlowchart_keptOf _

theorem not_directive_of_mem {inside : Bool} {lines : List (List Char)}
    (member : raw ∈ outsideDirectives inside lines) : startsWith "%%\x7b" (trim raw) = false := by
  induction lines generalizing inside with
  | nil => simp [outsideDirectives] at member
  | cons first rest ih =>
      rw [outsideDirectives] at member
      split at member
      · exact ih member
      · rename_i outside
        rcases List.mem_cons.mp member with rfl | later
        · simp_all
        · exact ih later

theorem map_keptLines (plain : hasPart "&nbsp;" text.toList = false) :
    ((keptLines text).map fun raw => trimEnd (plainSpaces raw)) =
      (keptLines text).map trimEnd := by
  refine List.map_congr_left fun raw member => ?_
  have read := (mem_bodyOf.mp (mem_keptLines.mp member).1).1
  rw [plainSpaces_of_mem_linesOf plain (mem_outsideDirectives read)]

theorem seenUsed_iff {name : String} :
    SeenUsed text name ↔
      (∃ line ∈ (keptLines text).map trimEnd,
        name ∈ (inlineClasses (trim line)).map Prod.snd) ∨
      ∃ assignment, assignment.Named ∧ formatAssignment assignment ∈ keptStatements text ∧
        assignment.className = name := by
  constructor
  · rintro ⟨raw, member, found⟩
    rw [classesIn] at found
    cases read : statementIn (readsFlowchart text) raw with
    | none =>
        rw [read] at found
        have kept := List.mem_map_of_mem (f := trimEnd) (mem_keptLines.mpr ⟨member, read⟩)
        exact .inl ⟨_, kept, by rwa [trim_trimEnd]⟩
    | some assignment =>
        rw [read] at found
        obtain ⟨flowchart, parsed⟩ := statementIn_eq_some.mp read
        have gathered := mem_keptStatements.mpr
          ⟨flowchart, raw, (mem_bodyOf.mp member).1, assignment, parsed, rfl⟩
        exact .inr ⟨assignment, parseClassStatement?_shape parsed, gathered,
          (List.mem_singleton.mp found).symm⟩
  · rintro (⟨line, member, found⟩ | ⟨assignment, named, stored, rfl⟩)
    · obtain ⟨raw, held, rfl⟩ := List.mem_map.mp member
      obtain ⟨body, read⟩ := mem_keptLines.mp held
      rw [trim_trimEnd] at found
      exact ⟨raw, body, by simpa [classesIn, read] using found⟩
    · obtain ⟨flowchart, raw, member, other, parsed, same⟩ := mem_keptStatements.mp stored
      -- Printed alike, the two statements are read alike.
      have again := parseClassStatement?_formatAssignment (parseClassStatement?_shape parsed)
      rw [same, parseClassStatement?_formatAssignment named] at again
      obtain rfl := Option.some.inj again
      exact seenUsed_of_statement flowchart (mem_bodyOf.mpr ⟨member, isDropped_of_statement parsed,
        parseClassDef?_of_statement parsed⟩) parsed

theorem tidy_clean (plain : hasPart "&nbsp;" text.toList = false)
    (tight : TightEnds (linesOf text)) :
    Tidy ((keptLines text).map trimEnd) (keptDefinitions text) (keptStatements text) where
  whole line member := by
    rw [← map_keptLines plain] at member
    obtain ⟨raw, held, rfl⟩ := List.mem_map.mp member
    exact whole_keptLines held
  plain line member := by
    obtain ⟨raw, held, rfl⟩ := List.mem_map.mp member
    have read := mem_outsideDirectives (mem_bodyOf.mp (mem_keptLines.mp held).1).1
    have inside : trimEnd raw <:+: text.toList :=
      (List.rdropWhile_prefix isBlank raw).isInfix.trans (infix_of_mem_splitOn read)
    rw [plainSpaces_within plain inside]
    exact List.rdropWhile_idempotent isBlank raw
  outside line member := by
    obtain ⟨raw, held, rfl⟩ := List.mem_map.mp member
    rw [trim_trimEnd]
    exact not_directive_of_mem (mem_bodyOf.mp (mem_keptLines.mp held).1).1
  read line member := by
    obtain ⟨raw, held, rfl⟩ := List.mem_map.mp member
    rw [isDropped, trim_trimEnd]
    exact (mem_bodyOf.mp (mem_keptLines.mp held).1).2.1
  undefined line member := by
    obtain ⟨raw, held, rfl⟩ := List.mem_map.mp member
    rw [trim_trimEnd]
    exact (mem_bodyOf.mp (mem_keptLines.mp held).1).2.2
  stays line member := by
    obtain ⟨raw, held, rfl⟩ := List.mem_map.mp member
    rw [opensFlowchart_keptLines, statementIn, trim_trimEnd]
    exact (mem_keptLines.mp held).2
  ascending := ascending_keptDefinitions text
  shape definition member := by
    obtain ⟨name, properties⟩ := definition
    obtain ⟨front, line, back, lines, parsed, _⟩ := (mem_keptDefinitions.mp member).1
    have source : line ∈ readLines text := by simp [lines]
    obtain ⟨named, given⟩ := parseClassDef?_shape parsed
    have ends := tight line (mem_outsideDirectives source) (by rw [parsed]; rfl)
    exact ⟨named, given, tight_of_parse ends parsed⟩
  used definition member := seenUsed_iff.mp (mem_keptDefinitions.mp member).2
  ordered := ascending_sortTexts (nodup_distinct _)
  printed statement member := by
    obtain ⟨_, _, _, assignment, parsed, same⟩ := mem_keptStatements.mp member
    exact ⟨assignment, parseClassStatement?_shape parsed, same⟩
  headed some := by
    obtain ⟨statement, member⟩ := List.exists_mem_of_ne_nil _ some
    rw [opensFlowchart_keptLines]
    exact (mem_keptStatements.mp member).1

/-- The lines, definitions and statements that cleaning leaves of a text. -/
structure CleansTo (text : String) (kept : List (List Char))
    (definitions : List (String × String)) (statements : List String) : Prop where
  shape : clean text = gathered kept definitions statements
  reread : definitionsOf (linesOf (clean text)) = definitions
  names : Ascending (keys definitions)
  last : ∀ name properties, (name, properties) ∈ definitions ↔
    LastDefinition (readLines text) name properties ∧ SeenUsed text name
  used : ∀ name ∈ keys definitions,
    (∃ line ∈ kept, ShowsClass (trim line) name.toList) ∨
      ∃ assignment, formatAssignment assignment ∈ statements ∧ assignment.className = name
  moved : readsFlowchart text → ∀ line ∈ kept, parseClassStatement? (trim line) = none
  ascending : Ascending statements
  stated : ∀ statement, statement ∈ statements ↔ readsFlowchart text ∧
    ∃ line ∈ readLines text, ∃ assignment,
      parseClassStatement? (trim line) = some assignment ∧ formatAssignment assignment = statement

theorem cleansTo (plain : hasPart "&nbsp;" text.toList = false)
    (tight : TightEnds (linesOf text)) :
    CleansTo text ((keptLines text).map trimEnd) (keptDefinitions text) (keptStatements text) where
  shape := by rw [clean_eq, map_keptLines plain]
  reread := by
    rw [clean_eq, map_keptLines plain]
    exact (tidy_clean plain tight).definitionsOf_linesOf
  names := ascending_keptDefinitions text
  last _ _ := mem_keptDefinitions
  used name stored := by
    obtain ⟨definition, member, rfl⟩ := List.mem_map.mp stored
    rcases (tidy_clean plain tight).used definition member with
      ⟨line, held, found⟩ | ⟨assignment, _, gathered⟩
    · obtain ⟨use, present, same⟩ := List.mem_map.mp found
      exact .inl ⟨line, held, same ▸ showsClass_of_mem present⟩
    · exact .inr ⟨assignment, gathered⟩
  moved flowchart line member := by
    have stays := (tidy_clean plain tight).stays line member
    rwa [opensFlowchart_keptLines, flowchart] at stays
  ascending := ascending_sortTexts (nodup_distinct _)
  stated _ := mem_keptStatements

/-- Cleaning a text twice is cleaning it once. The cleaned text has the lines that keep their
place, the last definition of each class in use, in the order of the names, and the class statements
of a flowchart, sorted and without repetition. -/
theorem clean_clean (plain : hasPart "&nbsp;" text.toList = false)
    (tight : TightEnds (linesOf text)) :
    clean (clean text) = clean text ∧
      ∃ kept definitions statements, CleansTo text kept definitions statements := by
  have cleaned := cleansTo plain tight
  refine ⟨?_, _, _, _, cleaned⟩
  rw [cleaned.shape]
  exact (tidy_clean plain tight).clean

def stoves : String :=
  "%%\x7binit: \x7b\x7d\x7d%%\nflowchart TB\nclass Pot,Pan cold;\n" ++
    "classDef warm fill:#fc9;\nStove:::warm --> Pot  \nclass Oven cold\n" ++
    "classDef warm fill:#f96;\nclassDef idle fill:#eee\nclass Oven cold\n" ++
    "classDef cold fill:#9cf\n"

theorem clean_clean_of_stoves :
    clean stoves = "flowchart TB\nStove:::warm --> Pot\n\nclassDef cold fill:#9cf\n" ++
        "classDef warm fill:#f96\nclass Oven cold\nclass Pot,Pan cold\n" ∧
      clean (clean stoves) = clean stoves ∧ TightEnds (linesOf stoves) := by
  have tight : TightEnds (linesOf stoves) := by decide +kernel
  exact ⟨by decide +kernel, (clean_clean (by decide +kernel) tight).1, tight⟩

/-- Behind a comment, the header of a flowchart is not seen, and the class statements stay in
place, unsorted and repeated. -/
theorem clean_leaves_statements_behind_comment :
    let text := "%% shop floor\nflowchart TB\nclass B hot\nclass A hot\nclass B hot\nA --> B\n"
    clean text = text ∧ isFlowchart "flowchart TB".toList ∧ readsFlowchart text = false ∧
      hasPart "&nbsp;" text.toList = false ∧ TightEnds (linesOf text) := by
  decide +kernel

end Cleaned

end CrateAtlas.Mermaid
