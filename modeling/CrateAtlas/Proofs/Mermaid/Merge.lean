import CrateAtlas.Proofs.Mermaid.Flowchart

/-!
Merging of flowcharts. Main statement: what was merged already can be merged with further texts as
if its parts were, in any grouping, and of several definitions of a class the last one is kept.
-/

namespace CrateAtlas.Mermaid

open Text OrderedMap

section Semicolons

/-- The last two characters of a line, blanks between them apart, are semicolons. -/
def endsInTwoSemicolons (line : List Char) : Bool :=
  line.getLast? = some ';' && (trimEnd line.dropLast).getLast? = some ';'

def SingleEnds (lines : List (List Char)) : Prop :=
  ∀ line ∈ lines, endsInTwoSemicolons (trim line) = false

instance (lines : List (List Char)) : Decidable (SingleEnds lines) :=
  inferInstanceAs (Decidable (∀ line ∈ lines, endsInTwoSemicolons (trim line) = false))

variable {line : List Char} {name properties : String} {lines : List (List Char)}

theorem parseClassDef?_behind (parsed : parseClassDef? line = some (name, properties)) :
    ∃ front text, front ++ text = line ∧ (∃ blank ∈ front.getLast?, isBlank blank) ∧
      IsProperties text ∧ properties = String.ofList (dropSemicolon text) := by
  simp only [parseClassDef?, Option.bind_eq_bind, Option.bind_eq_some_iff] at parsed
  obtain ⟨rest, keyword, ⟨read, behind⟩, named, parsed⟩ := parsed
  obtain ⟨start, tail, rfl, _, rfl⟩ := afterKeyword?_eq_some.mp keyword
  split at parsed
  · rename_i accepted
    simp only [Bool.and_eq_true, Bool.not_eq_true', List.any_eq_false, Bool.not_eq_true,
      List.isEmpty_eq_false_iff, decide_eq_true_eq] at accepted
    simp only [Option.pure_def, Option.some.injEq, Prod.mk.injEq] at parsed
    obtain ⟨⟨shorter, filled⟩, whole⟩ := accepted
    obtain ⟨_, cut, _⟩ := readName?_eq_some.mp named
    have lead : behind.takeWhile isBlank ++ trimStart behind = behind :=
      List.takeWhile_append_dropWhile
    have blanks : behind.takeWhile isBlank ≠ [] := by
      intro nothing
      rw [nothing, List.nil_append] at lead
      rw [lead] at shorter
      exact absurd shorter (lt_irrefl _)
    have last := List.getLast?_eq_some_getLast blanks
    refine ⟨("classDef".toList ++ start :: (tail.takeWhile isBlank ++ read)) ++
      behind.takeWhile isBlank, trimStart behind, ?_, ⟨_, ?_,
      List.mem_takeWhile_imp (List.mem_of_getLast? last)⟩,
      ⟨filled, head_trimStart behind, whole⟩, parsed.2.symm⟩
    · rw [List.append_assoc, lead, List.append_assoc, List.cons_append, List.append_assoc, ← cut,
        trimStart, List.takeWhile_append_dropWhile]
    · rwa [List.getLast?_append_of_ne_nil _ blanks]
  · simp at parsed

theorem dropSemicolon_of_single {text : List Char}
    (single : text.length ≤ 1 ∨ text.getLast? ≠ some ';') : dropSemicolon text = text := by
  rw [dropSemicolon, if_neg]
  simp only [Bool.and_eq_true, decide_eq_true_eq, not_and]
  intro long
  exact single.resolve_left (by omega)

theorem dropSemicolon_trimEnd (single : endsInTwoSemicolons (trim line) = false)
    (parsed : parseClassDef? (trim line) = some (name, properties)) :
    dropSemicolon (trimEnd properties.toList) = trimEnd properties.toList := by
  obtain ⟨front, text, whole, _, given, rfl⟩ := parseClassDef?_behind parsed
  have last : (trim line).getLast? = text.getLast? := by
    rw [← whole, List.getLast?_append_of_ne_nil _ given.filled]
  rw [String.toList_ofList]
  by_cases semicolon : text.length > 1 ∧ text.getLast? = some ';'
  · have cut : dropSemicolon text = text.dropLast := by
      rw [dropSemicolon, if_pos (by simpa using semicolon)]
    have dropped : (trim line).dropLast = front ++ text.dropLast := by
      rw [← whole, List.dropLast_append_of_ne_nil given.filled]
    have filled := (isProperties_dropSemicolon given).trimEnd.filled
    rw [cut] at filled ⊢
    apply dropSemicolon_of_single
    right
    intro again
    have two : (trimEnd (trim line).dropLast).getLast? = some ';' := by
      rw [dropped, trimEnd_append filled, List.getLast?_append_of_ne_nil _ filled, again]
    rw [endsInTwoSemicolons, last, semicolon.2, two] at single
    simp at single
  · have kept : dropSemicolon text = text := dropSemicolon_of_single (by
      rw [not_and_or, not_lt] at semicolon
      exact semicolon)
    have ends : trimEnd text = text := by
      apply trimEnd_of_last
      rw [← last]
      exact (trimmed_trim line).last
    rw [kept, ends, kept]

end Semicolons

section Reading

variable {lines left right : List (List Char)} {line raw : List Char} {name : String}

/-- The lines that a merge carries over: neither flowchart headers nor style statements. -/
def carriedOf (lines : List (List Char)) : List (List Char) :=
  (contentsOf lines).filter fun line => !isFlowchart line && !isStyleStatement line

def isUnread (line : List Char) : Bool :=
  !isFlowchart line && (parseClassDef? line).isNone && (parseClassStatement? line).isNone

theorem isUnread_iff :
    isUnread line ↔ isFlowchart line = false ∧ parseClassDef? line = none ∧
      parseClassStatement? line = none := by
  simp [isUnread, and_assoc]

theorem carriedOf_append (left right : List (List Char)) :
    carriedOf (left ++ right) = carriedOf left ++ carriedOf right := by
  rw [carriedOf, contentsOf_append, List.filter_append, carriedOf, carriedOf]

theorem classAssignments_append (left right : List (List Char)) :
    classAssignments (left ++ right) = classAssignments left ++ classAssignments right :=
  List.filterMap_append

theorem get?_classDefs_append (name : String) (left right : List (List Char)) :
    get? name (classDefs (left ++ right)) =
      (get? name (classDefs right)).or (get? name (classDefs left)) := by
  have filled (lines : List (List Char)) : classDefs lines =
      fill (lines.filterMap fun line => parseClassDef? (trim line)) [] := rfl
  rw [filled, filled, filled, get?_fill, get?_fill, get?_fill, List.filterMap_append,
    List.reverse_append, get?_append, get?_nil, Option.or_none, Option.or_none, Option.or_none]

theorem unread_append (lines : List (List Char)) (raw : List Char) :
    (contentsOf (lines ++ [raw])).filter isUnread =
      (contentsOf lines).filter isUnread ++
        if trim raw ≠ [] ∧ isUnread (trim raw) then [trim raw] else [] := by
  rw [contentsOf_append, List.filter_append, contentsOf_cons]
  by_cases blank : trim raw = []
  · simp [blank, contentsOf]
  · by_cases unread : isUnread (trim raw) = true <;> simp [blank, unread, contentsOf]

theorem parseClassStatement?_of_definition {definition : String × String}
    (parsed : parseClassDef? line = some definition) : parseClassStatement? line = none := by
  rw [Option.eq_none_iff_forall_ne_some]
  intro assignment statement
  rw [parseClassDef?_of_statement statement] at parsed
  simp at parsed

theorem mergeState_eq (lines : List (List Char)) :
    lines.foldl mergeLine {} =
      { body := ((contentsOf lines).filter isUnread).reverse
        definitions := classDefs lines
        statements := (classAssignments lines).map formatAssignment } := by
  induction lines using List.reverseRecOn with
  | nil => rfl
  | append_singleton earlier raw ih =>
      rw [List.foldl_append, ih, List.foldl_cons, List.foldl_nil, unread_append,
        classAssignments_append]
      cases definition : parseClassDef? (trim raw) with
      | some found =>
          have style := isStyleStatement_of_definition definition
          have plain := not_flowchart_of_style style
          have filled := ne_nil_of_style style
          have noStatement := parseClassStatement?_of_definition definition
          rw [classDefs_append_some definition]
          simp [mergeLine, classAssignments, isUnread, filled, plain, definition, noStatement]
      | none =>
          rw [classDefs_append_none definition]
          cases statement : parseClassStatement? (trim raw) with
          | some found =>
              have style := isStyleStatement_of_statement statement
              have plain := not_flowchart_of_style style
              have filled := ne_nil_of_style style
              simp [mergeLine, classAssignments, isUnread, filled, plain, definition, statement]
          | none =>
              by_cases blank : trim raw = []
              · simp [mergeLine, classAssignments, blank, show parseClassStatement? [] = none from rfl]
              · cases flowchart : isFlowchart (trim raw) <;>
                  simp [mergeLine, classAssignments, isUnread, blank, flowchart, definition, statement]

end Reading

section Merging

variable {lines left right : List (List Char)} {line : List Char} {name : String}
  {texts : List String}

def mergeHeader : List Char := "flowchart LR".toList

def mergedTail (lines : List (List Char)) : List (List Char) :=
  ((classDefs lines).map formatClassDef ++
    distinct ((classAssignments lines).map formatAssignment)).map String.toList

def writtenOf (lines : List (List Char)) : List (List Char) :=
  (contentsOf lines).filter isUnread ++ mergedTail lines

theorem merge_eq (texts : List String) :
    merge texts = unlines (formatLines (mergeHeader :: writtenOf (texts.flatMap linesOf))) := by
  have state := mergeState_eq (texts.flatMap linesOf)
  have lines : (texts.flatMap fun text => splitOn '\n' text.toList) = texts.flatMap linesOf := rfl
  simp only [merge, lines, state, List.reverse_reverse]
  rfl

theorem prints_mergedTail (lines : List (List Char)) :
    Prints (mergedTail lines) (classDefs lines) (classAssignments lines) where
  mem_iff line := by
    simp only [mergedTail, List.map_append, List.map_map, List.mem_append, List.mem_map,
      mem_distinct, Function.comp_apply]
    constructor
    · rintro (⟨definition, member, rfl⟩ | ⟨_, ⟨assignment, member, rfl⟩, rfl⟩)
      · exact .inl ⟨definition, member, rfl⟩
      · exact .inr ⟨assignment, member, rfl⟩
    · rintro (⟨definition, member, rfl⟩ | ⟨assignment, member, rfl⟩)
      · exact .inl ⟨definition, member, rfl⟩
      · exact .inr ⟨_, ⟨assignment, member, rfl⟩, rfl⟩
  shape _ member := classDefs_shape member
  named := classAssignments_named

def UnreadStyle (lines : List (List Char)) (line : List Char) : Prop :=
  line ∈ contentsOf lines ∧ isStyleStatement line ∧ parseClassDef? line = none ∧
    parseClassStatement? line = none

theorem drawnOf_writtenOf (lines : List (List Char)) : drawnOf (writtenOf lines) = carriedOf lines := by
  rw [writtenOf, drawnOf_append, (prints_mergedTail lines).drawnOf, List.append_nil, drawnOf,
    contentsOf_filter_contentsOf, List.filter_filter, carriedOf]
  refine List.filter_congr fun line _ => ?_
  cases style : isStyleStatement line with
  | true => simp
  | false =>
      have noDefinition : parseClassDef? line = none := by
        rw [Option.eq_none_iff_forall_ne_some]
        intro definition parsed
        simp [isStyleStatement_of_definition parsed] at style
      have noStatement : parseClassStatement? line = none := by
        rw [Option.eq_none_iff_forall_ne_some]
        intro assignment parsed
        simp [isStyleStatement_of_statement parsed] at style
      simp [isUnread, noDefinition, noStatement]

theorem mem_stylesOf_writtenOf :
    line ∈ stylesOf (writtenOf lines) ↔ UnreadStyle lines line ∨
      (∃ definition ∈ classDefs lines, line = trim (formatClassDef definition).toList) ∨
        ∃ assignment ∈ classAssignments lines, line = (formatAssignment assignment).toList := by
  have prints := prints_mergedTail lines
  have carried : line ∈ stylesOf ((contentsOf lines).filter isUnread) ↔ UnreadStyle lines line := by
    rw [mem_stylesOf, contentsOf_filter_contentsOf, List.mem_filter, isUnread_iff, UnreadStyle]
    constructor
    · rintro ⟨⟨content, _, unread⟩, style⟩
      exact ⟨content, style, unread⟩
    · rintro ⟨content, style, unread⟩
      exact ⟨⟨content, not_flowchart_of_style style, unread⟩, style⟩
  have printed : line ∈ stylesOf (mergedTail lines) ↔ ∃ raw ∈ mergedTail lines, line = trim raw := by
    rw [mem_stylesOf, mem_contentsOf]
    constructor
    · rintro ⟨⟨_, raw, source, rfl⟩, _⟩
      exact ⟨raw, source, rfl⟩
    · rintro ⟨raw, source, rfl⟩
      have style := prints.style source
      exact ⟨⟨ne_nil_of_style style, raw, source, rfl⟩, style⟩
  rw [writtenOf, stylesOf_append, List.mem_append, carried, printed]
  refine or_congr_right ?_
  constructor
  · rintro ⟨raw, source, rfl⟩
    rcases (prints.mem_iff raw).mp source with ⟨definition, stored, rfl⟩ | ⟨assignment, stored, rfl⟩
    · exact .inl ⟨definition, stored, rfl⟩
    · exact .inr ⟨assignment, stored, trim_formatAssignment (prints.named assignment stored)⟩
  · rintro (⟨definition, stored, rfl⟩ | ⟨assignment, stored, rfl⟩)
    · exact ⟨_, (prints.mem_iff _).mpr (.inl ⟨definition, stored, rfl⟩), rfl⟩
    · exact ⟨_, (prints.mem_iff _).mpr (.inr ⟨assignment, stored, rfl⟩),
        (trim_formatAssignment (prints.named assignment stored)).symm⟩

theorem whole_linesOf {line : List Char} (member : line ∈ texts.flatMap linesOf) : '\n' ∉ line := by
  obtain ⟨text, _, inside⟩ := List.mem_flatMap.mp member
  exact break_free_linesOf inside

theorem whole_of_mem_contentsOf (whole : ∀ line ∈ lines, '\n' ∉ line)
    (member : line ∈ contentsOf lines) : '\n' ∉ line := by
  obtain ⟨_, raw, source, rfl⟩ := mem_contentsOf.mp member
  exact fun broken => whole raw source (mem_of_mem_trim broken)

theorem whole_merged : ∀ line ∈ mergeHeader :: writtenOf (texts.flatMap linesOf), '\n' ∉ line := by
  intro line member
  rcases List.mem_cons.mp member with rfl | written
  · decide
  · rcases List.mem_append.mp written with unread | tail
    · exact whole_of_mem_contentsOf (fun _ => whole_linesOf) (List.mem_of_mem_filter unread)
    · exact (prints_mergedTail _).whole tail

theorem isFlowchart_mergeHeader : isFlowchart (trim mergeHeader) := by
  decide

theorem contentsOf_merge (texts : List String) :
    contentsOf (linesOf (merge texts)) = mergeHeader :: (carriedOf (texts.flatMap linesOf) ++
      settled (stylesOf (writtenOf (texts.flatMap linesOf)))) := by
  rw [merge_eq, contentsOf_unlines (whole_formatLines whole_merged),
    contentsOf_flowchart isFlowchart_mergeHeader, drawnOf_writtenOf]
  rfl

theorem carriedOf_written {header : List Char} (flowchart : isFlowchart (trim header))
    (whole : ∀ line ∈ header :: lines, '\n' ∉ line) :
    carriedOf (linesOf (unlines (formatLines (header :: lines)))) =
      (drawnOf lines).filter fun line => !isFlowchart line := by
  have styles : (settled (stylesOf lines)).filter
      (fun line => !isFlowchart line && !isStyleStatement line) = [] := by
    rw [List.filter_eq_nil_iff]
    intro style member
    simp [(mem_stylesOf.mp (mem_settled.mp member)).2]
  rw [carriedOf, contentsOf_unlines (whole_formatLines whole), contentsOf_flowchart flowchart,
    List.filter_cons_of_neg (by simp [flowchart]), List.filter_append, styles, List.append_nil]
  refine List.filter_congr fun line member => ?_
  simp [(mem_drawnOf.mp member).2]

end Merging

section Agreement

variable {lines left right others more : List (List Char)} {line : List Char} {name : String}
  {texts : List String}

def printed? (name : String) (lines : List (List Char)) : Option (List Char) :=
  (get? name (classDefs lines)).map fun properties => trim (formatClassDef (name, properties)).toList

/-- Lines that a merge cannot tell apart. -/
structure Alike (left right : List (List Char)) : Prop where
  carried : carriedOf left = carriedOf right
  unread : ∀ line, UnreadStyle left line ↔ UnreadStyle right line
  definitions : ∀ name, printed? name left = printed? name right
  assignments : ∀ assignment,
    assignment ∈ classAssignments left ↔ assignment ∈ classAssignments right

theorem Alike.refl (lines : List (List Char)) : Alike lines lines :=
  ⟨rfl, fun _ => Iff.rfl, fun _ => rfl, fun _ => Iff.rfl⟩

theorem Alike.trans (first : Alike left right) (second : Alike right others) : Alike left others :=
  ⟨first.carried.trans second.carried, fun line => (first.unread line).trans (second.unread line),
    fun name => (first.definitions name).trans (second.definitions name),
    fun assignment => (first.assignments assignment).trans (second.assignments assignment)⟩

theorem unreadStyle_append :
    UnreadStyle (left ++ right) line ↔ UnreadStyle left line ∨ UnreadStyle right line := by
  simp only [UnreadStyle, contentsOf_append, List.mem_append, or_and_right]

theorem printed?_append (name : String) (left right : List (List Char)) :
    printed? name (left ++ right) = (printed? name right).or (printed? name left) := by
  rw [printed?, get?_classDefs_append, Option.map_or, printed?, printed?]

theorem Alike.append (first : Alike left right) (second : Alike others more) :
    Alike (left ++ others) (right ++ more) where
  carried := by rw [carriedOf_append, carriedOf_append, first.carried, second.carried]
  unread line := by
    rw [unreadStyle_append, unreadStyle_append, first.unread, second.unread]
  definitions name := by
    rw [printed?_append, printed?_append, first.definitions, second.definitions]
  assignments assignment := by
    rw [classAssignments_append, classAssignments_append, List.mem_append, List.mem_append,
      first.assignments, second.assignments]

theorem printed?_eq_some : (∃ name, printed? name lines = some line) ↔
    ∃ definition ∈ classDefs lines, line = trim (formatClassDef definition).toList := by
  have distinct : (keys (classDefs lines)).Nodup := nodup_keys_filled _
  constructor
  · rintro ⟨name, found⟩
    obtain ⟨properties, stored, rfl⟩ := Option.map_eq_some_iff.mp found
    exact ⟨(name, properties), mem_of_get? stored, rfl⟩
  · rintro ⟨⟨name, properties⟩, stored, rfl⟩
    exact ⟨name, by rw [printed?, get?_of_mem distinct stored]; rfl⟩

theorem merge_congr {left right : List String}
    (alike : Alike (left.flatMap linesOf) (right.flatMap linesOf)) : merge left = merge right := by
  rw [merge_eq, merge_eq]
  congr 1
  refine formatLines_congr (by decide) ?_ fun style => ?_
  · rw [drawnOf_writtenOf, drawnOf_writtenOf, alike.carried]
  · rw [mem_stylesOf_writtenOf, mem_stylesOf_writtenOf, alike.unread, ← printed?_eq_some,
      ← printed?_eq_some]
    simp only [alike.definitions, alike.assignments]

theorem mem_classAssignments {assignment : ClassAssignment} :
    assignment ∈ classAssignments lines ↔
      ∃ line ∈ contentsOf lines, parseClassStatement? line = some assignment := by
  simp only [classAssignments, List.mem_filterMap, mem_contentsOf]
  constructor
  · rintro ⟨line, member, parsed⟩
    have filled := ne_nil_of_style (isStyleStatement_of_statement parsed)
    exact ⟨trim line, ⟨filled, line, member, rfl⟩, parsed⟩
  · rintro ⟨_, ⟨_, line, member, rfl⟩, parsed⟩
    exact ⟨line, member, parsed⟩

theorem mem_contentsOf_merge (style : isStyleStatement line) :
    line ∈ contentsOf (linesOf (merge texts)) ↔
      line ∈ stylesOf (writtenOf (texts.flatMap linesOf)) := by
  rw [contentsOf_merge, List.mem_cons, List.mem_append, mem_settled]
  constructor
  · rintro (rfl | carried | settled)
    · exact absurd style (by decide)
    · have plain := (List.mem_filter.mp carried).2
      simp [style] at plain
    · exact settled
  · exact fun settled => .inr (.inr settled)

theorem carriedOf_merge (texts : List String) :
    carriedOf (linesOf (merge texts)) = carriedOf (texts.flatMap linesOf) := by
  rw [merge_eq, carriedOf_written isFlowchart_mergeHeader whole_merged, drawnOf_writtenOf, carriedOf,
    List.filter_filter]
  simp

theorem unreadStyle_merge :
    UnreadStyle (linesOf (merge texts)) line ↔ UnreadStyle (texts.flatMap linesOf) line := by
  constructor
  · rintro ⟨content, style, noDefinition, noStatement⟩
    rw [mem_contentsOf_merge style, mem_stylesOf_writtenOf] at content
    rcases content with unread | ⟨⟨name, properties⟩, stored, rfl⟩ | ⟨assignment, stored, rfl⟩
    · exact unread
    · obtain ⟨named, given⟩ := classDefs_shape stored
      rw [parseClassDef?_trim_formatClassDef named given] at noDefinition
      simp at noDefinition
    · have named := classAssignments_named assignment stored
      rw [← trim_formatAssignment named, parseClassStatement?_formatAssignment named] at noStatement
      simp at noStatement
  · rintro unread
    refine ⟨?_, unread.2⟩
    rw [mem_contentsOf_merge unread.2.1, mem_stylesOf_writtenOf]
    exact .inl unread

theorem mem_classAssignments_merge {assignment : ClassAssignment} :
    assignment ∈ classAssignments (linesOf (merge texts)) ↔
      assignment ∈ classAssignments (texts.flatMap linesOf) := by
  constructor
  · intro member
    obtain ⟨line, content, parsed⟩ := mem_classAssignments.mp member
    rw [mem_contentsOf_merge (isStyleStatement_of_statement parsed), mem_stylesOf_writtenOf]
      at content
    rcases content with unread | ⟨⟨name, properties⟩, stored, rfl⟩ | ⟨other, stored, rfl⟩
    · rw [unread.2.2.2] at parsed
      simp at parsed
    · obtain ⟨named, given⟩ := classDefs_shape stored
      have none := parseClassDef?_of_statement parsed
      rw [parseClassDef?_trim_formatClassDef named given] at none
      simp at none
    · have named := classAssignments_named other stored
      rw [← trim_formatAssignment named, parseClassStatement?_formatAssignment named] at parsed
      rwa [← Option.some.inj parsed]
  · intro member
    have named := classAssignments_named assignment member
    have parsed := parseClassStatement?_formatAssignment named
    rw [trim_formatAssignment named] at parsed
    refine mem_classAssignments.mpr ⟨_, ?_, parsed⟩
    rw [mem_contentsOf_merge (isStyleStatement_of_statement parsed), mem_stylesOf_writtenOf]
    exact .inr (.inr ⟨assignment, member, rfl⟩)

theorem reread_definition (single : SingleEnds lines) {definition : String × String}
    (stored : definition ∈ classDefs lines) :
    parseClassDef? (trim (formatClassDef definition).toList) =
      some (definition.1, String.ofList (trimEnd definition.2.toList)) := by
  obtain ⟨name, properties⟩ := definition
  obtain ⟨named, shape⟩ := classDefs_shape stored
  obtain ⟨line, member, parsed⟩ := List.mem_filterMap.mp (mem_of_mem_fill stored)
  rw [parseClassDef?_trim_formatClassDef named shape,
    dropSemicolon_trimEnd (single line member) parsed]

theorem definition_in_merge (single : SingleEnds (texts.flatMap linesOf)) {properties : String} :
    (∃ line ∈ linesOf (merge texts), parseClassDef? (trim line) = some (name, properties)) ↔
      ∃ given, get? name (classDefs (texts.flatMap linesOf)) = some given ∧
        properties = String.ofList (trimEnd given.toList) := by
  rw [definition_iff_contents]
  constructor
  · rintro ⟨line, content, parsed⟩
    rw [mem_contentsOf_merge (isStyleStatement_of_definition parsed), mem_stylesOf_writtenOf]
      at content
    rcases content with unread | ⟨⟨other, given⟩, stored, rfl⟩ | ⟨assignment, stored, rfl⟩
    · rw [unread.2.2.1] at parsed
      simp at parsed
    · rw [reread_definition single stored, Option.some.injEq, Prod.mk.injEq] at parsed
      obtain ⟨rfl, rfl⟩ := parsed
      exact ⟨given, get?_of_mem (nodup_keys_filled _) stored, rfl⟩
    · have named := classAssignments_named assignment stored
      rw [← trim_formatAssignment named, parseClassDef?_formatAssignment named] at parsed
      simp at parsed
  · rintro ⟨given, found, rfl⟩
    have stored := mem_of_get? found
    have parsed := reread_definition single stored
    refine ⟨_, ?_, parsed⟩
    rw [mem_contentsOf_merge (isStyleStatement_of_definition parsed), mem_stylesOf_writtenOf]
    exact .inr (.inl ⟨_, stored, rfl⟩)

theorem get?_classDefs_merge (single : SingleEnds (texts.flatMap linesOf)) (name : String) :
    get? name (classDefs (linesOf (merge texts))) =
      (get? name (classDefs (texts.flatMap linesOf))).map fun given =>
        String.ofList (trimEnd given.toList) := by
  cases found : get? name (classDefs (linesOf (merge texts))) with
  | none =>
      rw [get?_eq_none_iff, mem_keys_classDefs] at found
      cases stored : get? name (classDefs (texts.flatMap linesOf)) with
      | none => rfl
      | some given =>
          obtain ⟨line, member, parsed⟩ := (definition_in_merge single).mpr ⟨given, stored, rfl⟩
          exact absurd ⟨line, member, _, parsed⟩ found
  | some properties =>
      have pair := mem_of_mem_fill (mem_of_get? found)
      obtain ⟨line, member, parsed⟩ := List.mem_filterMap.mp pair
      obtain ⟨given, stored, rfl⟩ := (definition_in_merge single).mp ⟨line, member, parsed⟩
      rw [stored]
      rfl

theorem printed?_merge (single : SingleEnds (texts.flatMap linesOf)) (name : String) :
    printed? name (linesOf (merge texts)) = printed? name (texts.flatMap linesOf) := by
  rw [printed?, get?_classDefs_merge single, printed?]
  cases found : get? name (classDefs (texts.flatMap linesOf)) with
  | none => rfl
  | some given =>
      have shape := (classDefs_shape (mem_of_get? found)).2
      have trimmed : IsProperties (String.ofList (trimEnd given.toList)).toList := by
        rw [String.toList_ofList]
        exact shape.trimEnd
      have twice : trimEnd (trimEnd given.toList) = trimEnd given.toList :=
        List.rdropWhile_idempotent isBlank given.toList
      rw [Option.map_some, Option.map_some, Option.map_some, trim_formatClassDef trimmed,
        trim_formatClassDef shape]
      simp only [String.toList_ofList, twice]

theorem alike_merge (single : SingleEnds (texts.flatMap linesOf)) :
    Alike (linesOf (merge texts)) (texts.flatMap linesOf) where
  carried := carriedOf_merge texts
  unread _ := unreadStyle_merge
  definitions := printed?_merge single
  assignments _ := mem_classAssignments_merge

end Agreement

section Grouping

variable {lines : List (List Char)} {line : List Char} {texts grouped : List String}

theorem singleEnds_iff :
    SingleEnds lines ↔ ∀ line ∈ contentsOf lines, endsInTwoSemicolons line = false := by
  constructor
  · intro single line content
    obtain ⟨_, raw, source, rfl⟩ := mem_contentsOf.mp content
    exact single raw source
  · intro single raw source
    by_cases blank : trim raw = []
    · rw [blank]
      rfl
    · exact single _ (mem_contentsOf.mpr ⟨blank, raw, source, rfl⟩)

theorem singleEnds_append {left right : List (List Char)} :
    SingleEnds (left ++ right) ↔ SingleEnds left ∧ SingleEnds right :=
  List.forall_mem_append

theorem endsInTwoSemicolons_name {name : List Char} (named : IsName name) (front : List Char) :
    endsInTwoSemicolons (front ++ name) = false := by
  have other : (front ++ name).getLast? ≠ some ';' := by
    intro last
    exact absurd (named.last_append front ';' last) (by decide)
  rw [endsInTwoSemicolons, decide_eq_false other, Bool.false_and]

theorem endsInTwoSemicolons_definition {name properties : List Char} (named : IsName name)
    (given : IsProperties properties) (single : dropSemicolon properties = properties) :
    endsInTwoSemicolons ("classDef".toList ++ ' ' :: (name ++ ' ' :: properties)) = false := by
  have shape : "classDef".toList ++ ' ' :: (name ++ ' ' :: properties) =
      (("classDef".toList ++ ' ' :: name) ++ [' ']) ++ properties := by
    rw [← List.append_cons, List.append_assoc, List.cons_append]
  by_contra ends
  rw [Bool.not_eq_false, endsInTwoSemicolons, Bool.and_eq_true, decide_eq_true_eq,
    decide_eq_true_eq, shape, List.getLast?_append_of_ne_nil _ given.filled,
    List.dropLast_append_of_ne_nil given.filled] at ends
  obtain ⟨last, before⟩ := ends
  -- A semicolon that printing left there is all that the properties are.
  have short : properties = [';'] := by
    by_cases long : properties.length > 1
    · rw [dropSemicolon, if_pos (by simp [long, last])] at single
      have lengths := congrArg List.length single
      rw [List.length_dropLast] at lengths
      omega
    · obtain ⟨first, rest, rfl⟩ := List.exists_cons_of_ne_nil given.filled
      obtain rfl : rest = [] := by simpa using long
      simpa using last
  have blank : ∀ character ∈ [' '], isBlank character := List.forall_mem_singleton.mpr (by decide)
  rw [short, List.dropLast_singleton, List.append_nil, trimEnd_append_blanks blank,
    List.append_cons, trimEnd_of_last (named.append_last _)] at before
  exact absurd (named.last_append _ ';' before) (by decide)

theorem singleEnds_merge (single : SingleEnds (texts.flatMap linesOf)) :
    SingleEnds (linesOf (merge texts)) := by
  have contents := singleEnds_iff.mp single
  rw [singleEnds_iff]
  intro line content
  cases style : isStyleStatement line with
  | false =>
      rw [contentsOf_merge, List.mem_cons, List.mem_append] at content
      rcases content with rfl | carried | settled
      · decide
      · exact contents line (List.mem_of_mem_filter carried)
      · simp [(mem_stylesOf.mp (mem_settled.mp settled)).2] at style
  | true =>
      rw [mem_contentsOf_merge style, mem_stylesOf_writtenOf] at content
      rcases content with unread | ⟨⟨name, given⟩, stored, rfl⟩ | ⟨assignment, stored, rfl⟩
      · exact contents line unread.1
      · obtain ⟨named, shape⟩ := classDefs_shape stored
        obtain ⟨raw, member, parsed⟩ := List.mem_filterMap.mp (mem_of_mem_fill stored)
        rw [trim_formatClassDef shape]
        exact endsInTwoSemicolons_definition named shape.trimEnd
          (dropSemicolon_trimEnd (single raw member) parsed)
      · rw [formatAssignment, String.toList_append]
        exact endsInTwoSemicolons_name (classAssignments_named assignment stored).className _

/-- Texts of which some neighbours may have been merged already, once or several times. -/
inductive Grouped (texts : List String) : List String → Prop
  | apart : Grouped texts texts
  | merged {before group after : List String} (earlier : Grouped texts (before ++ group ++ after)) :
      Grouped texts (before ++ merge group :: after)

theorem Grouped.alike (grouping : Grouped texts grouped) (single : SingleEnds (texts.flatMap linesOf)) :
    SingleEnds (grouped.flatMap linesOf) ∧
      Alike (grouped.flatMap linesOf) (texts.flatMap linesOf) := by
  induction grouping with
  | apart => exact ⟨single, .refl _⟩
  | @merged before group after _ ih =>
      obtain ⟨whole, alike⟩ := ih
      rw [List.flatMap_append, List.flatMap_append] at whole alike
      obtain ⟨⟨left, middle⟩, right⟩ : (_ ∧ _) ∧ _ := by
        rwa [singleEnds_append, singleEnds_append] at whole
      rw [List.flatMap_append, List.flatMap_cons]
      constructor
      · rw [singleEnds_append, singleEnds_append]
        exact ⟨left, singleEnds_merge middle, right⟩
      · have here := (Alike.refl (before.flatMap linesOf)).append
          ((alike_merge middle).append (.refl (after.flatMap linesOf)))
        rw [List.append_assoc] at alike
        exact here.trans alike

/-- The line with the properties is the last one that defines the class. -/
def LastDefinition (lines : List (List Char)) (name properties : String) : Prop :=
  ∃ front line back, lines = front ++ line :: back ∧
    parseClassDef? (trim line) = some (name, properties) ∧ ¬Defines back name

theorem get?_classDefs_of_last {name properties : String}
    (last : LastDefinition lines name properties) :
    get? name (classDefs lines) = some properties := by
  obtain ⟨front, line, back, rfl, parsed, none⟩ := last
  have later : get? name (classDefs back) = Option.none := by
    rwa [get?_eq_none_iff, mem_keys_classDefs]
  have here : classDefs [line] = [(name, properties)] := by
    simp [classDefs, parsed, put]
  rw [← List.singleton_append, get?_classDefs_append, get?_classDefs_append, later, here]
  simp [get?]

/-- Merging absorbs merging: texts of which some were merged before are merged as if they were
still apart, and of several definitions of a class the last one is in the result, however they were
grouped. -/
theorem merge_absorbs {texts others : List String}
    (single : SingleEnds ((texts ++ others).flatMap linesOf)) :
    merge (merge texts :: others) = merge (texts ++ others) ∧ merge [merge texts] = merge texts ∧
      ∀ grouped, Grouped (texts ++ others) grouped → merge grouped = merge (texts ++ others) ∧
        ∀ name properties,
          LastDefinition ((texts ++ others).flatMap linesOf) name properties →
            ∀ given, (∃ line ∈ linesOf (merge grouped),
                parseClassDef? (trim line) = some (name, given)) ↔
              given = String.ofList (trimEnd properties.toList) := by
  have regroup {texts grouped : List String} (single : SingleEnds (texts.flatMap linesOf))
      (grouping : Grouped texts grouped) : merge grouped = merge texts :=
    merge_congr (grouping.alike single).2
  have nested (texts others : List String) : Grouped (texts ++ others) (merge texts :: others) :=
    @Grouped.merged _ [] texts others .apart
  refine ⟨regroup single (nested texts others), ?_, fun grouped grouping => ?_⟩
  · have alone : SingleEnds ((texts ++ []).flatMap linesOf) := by
      rw [List.flatMap_append, singleEnds_append] at single
      rw [List.append_nil]
      exact single.1
    simpa using regroup alone (nested texts [])
  · have same := regroup single grouping
    refine ⟨same, fun name properties last given => ?_⟩
    rw [same, definition_in_merge single, get?_classDefs_of_last last]
    simp

theorem merge_absorbs_of_redefined :
    SingleEnds ((["A --> B\nclassDef core fill:red;", "classDef core fill:red ;\nB --> C"] ++
        ["classDef core fill:blue\nclass A,C core\n"]).flatMap linesOf) ∧
      merge (merge ["A --> B\nclassDef core fill:red;", "classDef core fill:red ;\nB --> C"] ::
          ["classDef core fill:blue\nclass A,C core\n"]) =
        merge (["A --> B\nclassDef core fill:red;", "classDef core fill:red ;\nB --> C"] ++
          ["classDef core fill:blue\nclass A,C core\n"]) := by
  have single : SingleEnds ((["A --> B\nclassDef core fill:red;",
      "classDef core fill:red ;\nB --> C"] ++
        ["classDef core fill:blue\nclass A,C core\n"]).flatMap linesOf) := by
    decide +kernel
  exact ⟨single, (merge_absorbs single).1⟩

end Grouping

end CrateAtlas.Mermaid
