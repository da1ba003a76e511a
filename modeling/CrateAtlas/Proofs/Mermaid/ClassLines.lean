import CrateAtlas.Mermaid.Split
import CrateAtlas.Proofs.Mermaid.Format
import CrateAtlas.Proofs.Text.Blanks

/-!
Class lines of diagrams. Main statements: a definition or a statement that was read and printed is
read again, and lines define what their contents define.
-/

namespace CrateAtlas.Mermaid

open Text OrderedMap

section Words

variable {word : String} {text rest : List Char} {character : Char}

theorem afterKeyword?_eq_some :
    afterKeyword? word text = some rest ↔
      ∃ blank tail, text = word.toList ++ blank :: tail ∧ isBlank blank ∧ rest = trimStart tail := by
  rw [afterKeyword?]
  constructor
  · intro found
    split at found
    · rename_i blank tail behind
      split at found
      · rename_i separated
        refine ⟨blank, tail, afterLead?_eq_some.mp behind, separated, ?_⟩
        rw [← Option.some.inj found, trimStart, List.dropWhile_cons_of_pos separated]
        rfl
      · simp at found
    · simp at found
  · rintro ⟨blank, tail, rfl, separated, rfl⟩
    rw [afterLead?_eq_some.mpr rfl]
    simp only [separated, if_true, trimStart, List.dropWhile_cons_of_pos]

theorem keyword_of_bind {β : Type} {read : List Char → Option β} {result : β}
    (found : (afterKeyword? word text).bind read = some result) :
    ∃ blank tail, text = word.toList ++ blank :: tail ∧ isBlank blank := by
  obtain ⟨_, behind, _⟩ := Option.bind_eq_some_iff.mp found
  obtain ⟨blank, tail, shape, separated, _⟩ := afterKeyword?_eq_some.mp behind
  exact ⟨blank, tail, shape, separated⟩

end Words

section Names

/-- A name as nodes and classes have it. -/
@[mk_iff isName_iff]
structure IsName (name : List Char) : Prop where
  filled : name ≠ []
  plain : ∀ character ∈ name, isNameChar character

instance (name : List Char) : Decidable (IsName name) :=
  decidable_of_iff (name ≠ [] ∧ name.all isNameChar) (by simp [isName_iff])

def NameEnds (rest : List Char) : Prop :=
  ∀ character ∈ rest.head?, isNameChar character = false

instance (rest : List Char) : Decidable (NameEnds rest) :=
  decidable_of_iff (rest.head?.all fun character => !isNameChar character)
    (by simp [NameEnds, Option.all_eq_true])

variable {name text rest : List Char}

theorem readName?_eq_some :
    readName? text = some (name, rest) ↔ IsName name ∧ text = name ++ rest ∧ NameEnds rest := by
  simp only [readName?]
  constructor
  · intro found
    split at found
    · simp at found
    · rename_i filled
      simp only [Option.some.injEq, Prod.mk.injEq] at found
      obtain ⟨rfl, rfl⟩ := found
      refine ⟨⟨by simpa using filled, ?_⟩, List.takeWhile_append_dropWhile.symm, ?_⟩
      · exact fun _ member => List.mem_takeWhile_imp member
      · intro character first
        have stopped := List.head?_dropWhile_not isNameChar text
        rw [Option.mem_def.mp first] at stopped
        exact stopped
  · rintro ⟨named, rfl, ends⟩
    have taken : (name ++ rest).takeWhile isNameChar = name := by
      rw [List.takeWhile_append_of_pos named.plain]
      cases rest with
      | nil => simp
      | cons first others =>
          rw [List.takeWhile_cons_of_neg (by simp [ends first rfl]), List.append_nil]
    have left : (name ++ rest).dropWhile isNameChar = rest := by
      rw [List.dropWhile_append_of_pos named.plain]
      cases rest with
      | nil => rfl
      | cons first others => exact List.dropWhile_cons_of_neg (by simp [ends first rfl])
    rw [taken, left, if_neg (by simpa using named.filled)]

theorem nameEnds_cons {first : Char} (mark : isNameChar first = false) (others : List Char) :
    NameEnds (first :: others) := by
  intro character same
  rwa [← Option.some.inj same]

theorem IsName.head_append (named : IsName name) (rest : List Char) :
    ∀ character ∈ (name ++ rest).head?, isBlank character = false := by
  intro character first
  rw [List.head?_append_of_ne_nil _ named.filled] at first
  exact isBlank_of_isNameChar (named.plain character (List.mem_of_head? first))

theorem IsName.last_append (named : IsName name) (front : List Char) :
    ∀ character ∈ (front ++ name).getLast?, isNameChar character := by
  intro character final
  rw [List.getLast?_append_of_ne_nil _ named.filled] at final
  exact named.plain character (List.mem_of_getLast? final)

theorem IsName.append_last (named : IsName name) (front : List Char) :
    ∀ character ∈ (front ++ name).getLast?, isBlank character = false :=
  fun character final => isBlank_of_isNameChar (named.last_append front character final)

theorem IsName.trimStart_append (named : IsName name) (rest : List Char) :
    trimStart (name ++ rest) = name ++ rest :=
  trimStart_of_head (named.head_append rest)

theorem IsName.trimStart_cons (named : IsName name) : trimStart (' ' :: name) = name := by
  have same := named.trimStart_append []
  rw [List.append_nil] at same
  exact (List.dropWhile_cons_of_pos rfl).trans same

theorem IsName.readName?_append (named : IsName name) (ends : NameEnds rest) :
    readName? (name ++ rest) = some (name, rest) :=
  readName?_eq_some.mpr ⟨named, rfl, ends⟩

theorem IsName.not_mem {character : Char} (named : IsName name)
    (other : isNameChar character = false) : character ∉ name := by
  intro member
  rw [named.plain character member] at other
  simp at other

end Names

section Definitions

/-- Properties as class definitions have them. -/
structure IsProperties (properties : List Char) : Prop where
  filled : properties ≠ []
  head : ∀ character ∈ properties.head?, isBlank character = false
  whole : ∀ character ∈ properties, isLineBreak character = false

variable {line : List Char} {name properties : String}

theorem isProperties_dropSemicolon {text : List Char} (given : IsProperties text) :
    IsProperties (dropSemicolon text) := by
  rw [dropSemicolon]
  split
  · rename_i long
    cases text with
    | nil => exact given
    | cons first rest =>
        have more : rest ≠ [] := by
          rintro rfl
          simp at long
        rw [List.dropLast_cons_of_ne_nil more]
        refine ⟨by simp, given.head, ?_⟩
        intro character member
        apply given.whole
        rcases List.mem_cons.mp member with rfl | later
        · exact List.mem_cons_self
        · exact List.mem_cons_of_mem first (List.dropLast_subset rest later)
  · exact given

theorem parseClassDef?_shape (parsed : parseClassDef? line = some (name, properties)) :
    IsName name.toList ∧ IsProperties properties.toList := by
  simp only [parseClassDef?, Option.bind_eq_bind, Option.bind_eq_some_iff] at parsed
  obtain ⟨rest, _, ⟨read, behind⟩, named, parsed⟩ := parsed
  split at parsed
  · rename_i accepted
    simp only [Bool.and_eq_true, Bool.not_eq_true', List.any_eq_false, Bool.not_eq_true,
      List.isEmpty_eq_false_iff] at accepted
    simp only [Option.pure_def, Option.some.injEq, Prod.mk.injEq] at parsed
    obtain ⟨rfl, rfl⟩ := parsed
    rw [String.toList_ofList, String.toList_ofList]
    obtain ⟨⟨_, filled⟩, whole⟩ := accepted
    exact ⟨(readName?_eq_some.mp named).1,
      isProperties_dropSemicolon ⟨filled, head_trimStart behind, whole⟩⟩
  · simp at parsed

theorem IsProperties.trimEnd {text : List Char} (given : IsProperties text) :
    IsProperties (trimEnd text) := by
  obtain ⟨rest, whole⟩ := List.rdropWhile_prefix isBlank (l := text)
  obtain ⟨first, others, shape⟩ := List.exists_cons_of_ne_nil given.filled
  have head : text.head? = some first := by rw [shape, List.head?_cons]
  have filled := trimEnd_ne_nil head (given.head first head)
  refine ⟨filled, ?_, ?_⟩
  · intro character leads
    apply given.head
    rw [← whole, ← trimEnd_eq_rdropWhile, List.head?_append_of_ne_nil _ filled]
    exact leads
  · intro character member
    apply given.whole
    rw [← whole]
    exact List.mem_append_left rest member

theorem parseClassDef?_of_parts {name properties : List Char} (named : IsName name)
    (given : IsProperties properties) :
    parseClassDef? ("classDef".toList ++ ' ' :: (name ++ ' ' :: properties)) =
      some (String.ofList name, String.ofList (dropSemicolon properties)) := by
  have behind : afterKeyword? "classDef" ("classDef".toList ++ ' ' :: (name ++ ' ' :: properties)) =
      some (name ++ ' ' :: properties) :=
    afterKeyword?_eq_some.mpr ⟨' ', _, rfl, rfl, (named.trimStart_append _).symm⟩
  have read : readName? (name ++ ' ' :: properties) = some (name, ' ' :: properties) :=
    named.readName?_append (nameEnds_cons (by decide) properties)
  have cut : trimStart (' ' :: properties) = properties :=
    (List.dropWhile_cons_of_pos rfl).trans (trimStart_of_head given.head)
  have accepted : properties.any isLineBreak = false := by
    simpa using given.whole
  rw [parseClassDef?, behind, Option.bind_eq_bind, Option.bind_some, read, Option.bind_eq_bind,
    Option.bind_some]
  simp [cut, given.filled, accepted]

theorem trim_formatClassDef (given : IsProperties properties.toList) (name : String) :
    trim (formatClassDef (name, properties)).toList =
      "classDef".toList ++ ' ' :: (name.toList ++ ' ' :: trimEnd properties.toList) := by
  have shape : (formatClassDef (name, properties)).toList =
      ("classDef".toList ++ ' ' :: (name.toList ++ [' '])) ++ properties.toList := by
    simp [formatClassDef]
  have start : trimStart (formatClassDef (name, properties)).toList =
      (formatClassDef (name, properties)).toList := by
    apply trimStart_of_head
    rw [shape]
    simp [isBlank]
  rw [trim, start, shape, trimEnd_append given.trimEnd.filled]
  simp

theorem parseClassDef?_trim_formatClassDef (named : IsName name.toList)
    (given : IsProperties properties.toList) :
    parseClassDef? (trim (formatClassDef (name, properties)).toList) =
      some (name, String.ofList (dropSemicolon (trimEnd properties.toList))) := by
  rw [trim_formatClassDef given, parseClassDef?_of_parts named given.trimEnd, String.ofList_toList]

theorem parseClassDef?_lead {definition : String × String}
    (parsed : parseClassDef? line = some definition) :
    ∃ blank tail, line = "classDef".toList ++ blank :: tail ∧ isBlank blank :=
  keyword_of_bind parsed

theorem whole_formatClassDef {definition : String × String}
    (shape : IsName definition.1.toList ∧ IsProperties definition.2.toList) :
    '\n' ∉ (formatClassDef definition).toList := by
  obtain ⟨named, given⟩ := shape
  have name := named.not_mem (show isNameChar '\n' = false by decide)
  have properties : '\n' ∉ definition.2.toList := by
    intro member
    exact absurd (given.whole '\n' member) (by decide)
  simp [formatClassDef, name, properties]

end Definitions

section Statements

structure ClassAssignment.Named (assignment : ClassAssignment) : Prop where
  filled : assignment.elements ≠ []
  elements : ∀ element ∈ assignment.elements, IsName element.toList
  className : IsName assignment.className.toList

variable {line : List Char} {assignment : ClassAssignment}

theorem readNames_names (fuel : Nat) (rest : List Char) {names : List (List Char)}
    (named : ∀ name ∈ names, IsName name) :
    names <+: (readNames fuel rest names).1 ∧
      ∀ name ∈ (readNames fuel rest names).1, IsName name := by
  induction fuel generalizing rest names with
  | zero => exact ⟨List.prefix_refl names, named⟩
  | succ fuel ih =>
      rw [readNames]
      split
      · split
        · rename_i name rest read
          have longer : ∀ other ∈ names ++ [name], IsName other := by
            intro other member
            rcases List.mem_append.mp member with earlier | last
            · exact named other earlier
            · exact List.mem_singleton.mp last ▸ (readName?_eq_some.mp read).1
          obtain ⟨lead, all⟩ := ih rest longer
          exact ⟨(List.prefix_append names [name]).trans lead, all⟩
        · exact ⟨List.prefix_refl names, named⟩
      · exact ⟨List.prefix_refl names, named⟩

theorem parseClassStatement?_shape (parsed : parseClassStatement? line = some assignment) :
    assignment.Named := by
  simp only [parseClassStatement?, Option.bind_eq_bind, Option.bind_eq_some_iff] at parsed
  obtain ⟨text, _, ⟨first, rest⟩, read, ⟨className, tail⟩, last, parsed⟩ := parsed
  split at parsed
  · simp only [Option.pure_def, Option.some.injEq] at parsed
    obtain rfl := parsed
    have single : ∀ name ∈ [first], IsName name := by
      simpa using (readName?_eq_some.mp read).1
    obtain ⟨lead, named⟩ := readNames_names rest.length rest single
    refine ⟨?_, ?_, ?_⟩
    · simpa using (List.IsPrefix.ne_nil lead (by simp))
    · simpa using named
    · rw [String.toList_ofList]
      exact (readName?_eq_some.mp last).1
  · simp at parsed

theorem parseClassStatement?_lead
    (parsed : parseClassStatement? line = some assignment) :
    ∃ blank tail, line = "class".toList ++ blank :: tail ∧ isBlank blank :=
  keyword_of_bind parsed

theorem parseClassDef?_of_statement
    (parsed : parseClassStatement? line = some assignment) : parseClassDef? line = none := by
  rw [Option.eq_none_iff_forall_ne_some]
  intro definition again
  obtain ⟨blank, tail, shape, separates⟩ := parseClassStatement?_lead parsed
  obtain ⟨_, _, same, _⟩ := parseClassDef?_lead again
  rw [shape] at same
  obtain rfl : blank = 'D' := by
    simp at same
    exact same.1
  exact absurd separates (by decide)

theorem toList_formatAssignment (first : String) (rest : List String) (className : String) :
    (formatAssignment ⟨first :: rest, className⟩).toList =
      "class".toList ++ ' ' :: (first.toList ++
        ((rest.flatMap fun element => ',' :: element.toList) ++ ' ' :: className.toList)) := by
  simp [formatAssignment, toList_joinWith]

theorem nameEnds_elements (elements : List String) (className : List Char) :
    NameEnds ((elements.flatMap fun element => ',' :: element.toList) ++ ' ' :: className) := by
  cases elements with
  | nil => exact nameEnds_cons (by decide) className
  | cons element rest => exact nameEnds_cons (by decide) _

theorem length_le_elements (elements : List String) (behind : List Char) :
    elements.length ≤
      ((elements.flatMap fun element => ',' :: element.toList) ++ behind).length := by
  induction elements with
  | nil => exact Nat.zero_le _
  | cons element rest ih =>
      simp only [List.flatMap_cons, List.cons_append, List.append_assoc, List.length_cons,
        List.length_append] at ih ⊢
      omega

theorem readNames_elements {elements : List String} {className : List Char}
    (named : ∀ element ∈ elements, IsName element.toList) (last : IsName className) {fuel : Nat}
    (enough : elements.length ≤ fuel) (names : List (List Char)) :
    readNames fuel ((elements.flatMap fun element => ',' :: element.toList) ++ ' ' :: className)
      names = (names ++ elements.map String.toList, ' ' :: className) := by
  induction elements generalizing fuel names with
  | nil =>
      cases fuel with
      | zero => simp [readNames]
      | succ fuel =>
          obtain ⟨first, rest, shape⟩ := List.exists_cons_of_ne_nil last.filled
          have plain := last.plain first (by simp [shape])
          have noComma : first ≠ ',' := by
            rintro rfl
            exact absurd plain (by decide)
          simp only [List.flatMap_nil, List.nil_append, List.map_nil, List.append_nil]
          rw [readNames, last.trimStart_cons, shape]
          split
          · rename_i same
            exact absurd (List.cons.inj same).1 noComma
          · rfl
  | cons element rest ih =>
      cases fuel with
      | zero => simp at enough
      | succ fuel =>
          have first := named element List.mem_cons_self
          have others := ih (fun other member => named other (List.mem_cons_of_mem _ member))
            (Nat.le_of_succ_le_succ enough) (names ++ [element.toList])
          have comma (text : List Char) : trimStart (',' :: text) = ',' :: text := rfl
          rw [List.flatMap_cons, List.cons_append, List.cons_append, List.append_assoc, readNames,
            comma]
          simp only [first.trimStart_append, first.readName?_append (nameEnds_elements rest className),
            others]
          simp

theorem trim_formatAssignment (named : assignment.Named) :
    trim (formatAssignment assignment).toList = (formatAssignment assignment).toList := by
  refine trim_of_trimmed ⟨?_, ?_⟩
  · simp [formatAssignment, isBlank]
  · rw [formatAssignment, String.toList_append]
    exact named.className.append_last _

theorem parseClassStatement?_formatAssignment (named : assignment.Named) :
    parseClassStatement? (trim (formatAssignment assignment).toList) = some assignment := by
  obtain ⟨elements, className⟩ := assignment
  obtain ⟨first, rest, rfl⟩ := List.exists_cons_of_ne_nil named.filled
  have last : IsName className.toList := named.className
  have head := named.elements first List.mem_cons_self
  have others : ∀ element ∈ rest, IsName element.toList := fun element member =>
    named.elements element (List.mem_cons_of_mem first member)
  have shape := toList_formatAssignment first rest className
  have read : readName? className.toList = some (className.toList, []) := by
    have whole := last.readName?_append (show NameEnds [] by decide)
    rwa [List.append_nil] at whole
  have enough := length_le_elements rest (' ' :: className.toList)
  have passed := readNames_elements others last enough [first.toList]
  rw [trim_formatAssignment named, shape, parseClassStatement?,
    afterKeyword?_eq_some.mpr ⟨' ', _, rfl, rfl, (head.trimStart_append _).symm⟩,
    Option.bind_eq_bind, Option.bind_some,
    head.readName?_append (nameEnds_elements rest className.toList), Option.bind_eq_bind,
    Option.bind_some]
  simp only [passed, last.trimStart_cons, read]
  simp [Function.comp_def]

theorem parseClassDef?_formatAssignment (named : assignment.Named) :
    parseClassDef? (trim (formatAssignment assignment).toList) = none :=
  parseClassDef?_of_statement (parseClassStatement?_formatAssignment named)

theorem not_mem_formatAssignment {character : Char} (named : assignment.Named)
    (other : isNameChar character = false) (space : character ≠ ' ') (comma : character ≠ ',') :
    character ∉ (formatAssignment assignment).toList := by
  obtain ⟨elements, className⟩ := assignment
  obtain ⟨first, rest, rfl⟩ := List.exists_cons_of_ne_nil named.filled
  have elements : ∀ element ∈ first :: rest, character ∉ element.toList := fun element member =>
    (named.elements element member).not_mem other
  have last := named.className.not_mem other
  have word : IsName "class".toList := by decide
  rw [toList_formatAssignment]
  simp only [List.mem_append, List.mem_cons, List.mem_flatMap, not_or, not_exists, not_and]
  exact ⟨word.not_mem other, space, elements first List.mem_cons_self,
    fun element member => ⟨comma, elements element (List.mem_cons_of_mem first member)⟩,
    space, last⟩

theorem whole_formatAssignment (named : assignment.Named) :
    '\n' ∉ (formatAssignment assignment).toList :=
  not_mem_formatAssignment named (by decide) (by decide) (by decide)

theorem classAssignments_named {lines : List (List Char)} :
    ∀ assignment ∈ classAssignments lines, assignment.Named := by
  intro assignment member
  obtain ⟨line, _, parsed⟩ := List.mem_filterMap.mp member
  exact parseClassStatement?_shape parsed

end Statements

section Kinds

variable {line rest : List Char} {word : String}

theorem isHeader_of_isFlowchart (flowchart : isFlowchart line) : isHeader line := by
  simp only [isFlowchart, isHeader, startsWithAnyWord, List.any_cons, List.any_nil,
    Bool.or_eq_true] at flowchart ⊢
  tauto

theorem isHeader_classDef (rest : List Char) : isHeader ("classDef".toList ++ rest) = false :=
  rfl

theorem not_header_of_definition {definition : String × String}
    (parsed : parseClassDef? line = some definition) : isHeader line = false := by
  obtain ⟨_, _, rfl, _⟩ := parseClassDef?_lead parsed
  exact isHeader_classDef _

theorem isStyleStatement_of_keyword (known : word ∈ styleWords)
    (behind : afterKeyword? word line = some rest) : isStyleStatement line := by
  rw [isStyleStatement, List.any_eq_true]
  exact ⟨word, known, by rw [behind]; rfl⟩

theorem isStyleStatement_of_definition {definition : String × String}
    (parsed : parseClassDef? line = some definition) : isStyleStatement line := by
  simp only [parseClassDef?, Option.bind_eq_bind, Option.bind_eq_some_iff] at parsed
  obtain ⟨rest, behind, _⟩ := parsed
  exact isStyleStatement_of_keyword (by simp [styleWords]) behind

theorem isStyleStatement_of_statement {assignment : ClassAssignment}
    (parsed : parseClassStatement? line = some assignment) : isStyleStatement line := by
  simp only [parseClassStatement?, Option.bind_eq_bind, Option.bind_eq_some_iff] at parsed
  obtain ⟨rest, behind, _⟩ := parsed
  exact isStyleStatement_of_keyword (by simp [styleWords]) behind

theorem not_flowchart_of_style (style : isStyleStatement line) : isFlowchart line = false := by
  obtain ⟨word, known, found⟩ := List.any_eq_true.mp style
  obtain ⟨rest, behind⟩ := Option.isSome_iff_exists.mp found
  obtain ⟨blank, tail, rfl, _, _⟩ := afterKeyword?_eq_some.mp behind
  simp only [styleWords, List.mem_cons, List.not_mem_nil, or_false] at known
  rcases known with rfl | rfl | rfl | rfl <;> rfl

theorem ne_nil_of_flowchart (flowchart : isFlowchart line) : line ≠ [] := by
  rintro rfl
  exact absurd flowchart (by decide)

theorem ne_nil_of_style (style : isStyleStatement line) : line ≠ [] := by
  rintro rfl
  exact absurd style (by decide)

end Kinds

section Defines

/-- Some line is a class definition of that name. -/
def Defines (lines : List (List Char)) (name : String) : Prop :=
  ∃ line ∈ lines, ∃ properties, parseClassDef? (trim line) = some (name, properties)

variable {lines left right : List (List Char)} {name : String}

theorem definition_iff_contents {definition : String × String} :
    (∃ line ∈ lines, parseClassDef? (trim line) = some definition) ↔
      ∃ line ∈ contentsOf lines, parseClassDef? line = some definition := by
  simp only [mem_contentsOf]
  constructor
  · rintro ⟨line, member, parsed⟩
    have filled := ne_nil_of_style (isStyleStatement_of_definition parsed)
    exact ⟨trim line, ⟨filled, line, member, rfl⟩, parsed⟩
  · rintro ⟨_, ⟨_, line, member, rfl⟩, parsed⟩
    exact ⟨line, member, parsed⟩

theorem defines_iff_contents :
    Defines lines name ↔
      ∃ line ∈ contentsOf lines, ∃ properties, parseClassDef? line = some (name, properties) := by
  constructor
  · rintro ⟨line, member, properties, parsed⟩
    obtain ⟨content, held, read⟩ := definition_iff_contents.mp ⟨line, member, parsed⟩
    exact ⟨content, held, properties, read⟩
  · rintro ⟨content, held, properties, read⟩
    obtain ⟨line, member, parsed⟩ := definition_iff_contents.mpr ⟨content, held, read⟩
    exact ⟨line, member, properties, parsed⟩

theorem defines_append : Defines (left ++ right) name ↔ Defines left name ∨ Defines right name := by
  simp only [Defines, List.mem_append, or_and_right, exists_or]

theorem defines_unlines (whole : ∀ line ∈ lines, '\n' ∉ line) :
    Defines (linesOf (unlines lines)) name ↔ Defines lines name := by
  rw [defines_iff_contents, contentsOf_unlines whole, ← defines_iff_contents]

theorem defines_behindBlank : Defines (behindBlank lines) name ↔ Defines lines name := by
  rw [defines_iff_contents, contentsOf_behindBlank, ← defines_iff_contents]

theorem classDefs_append_none {raw : List Char} (none : parseClassDef? (trim raw) = none) :
    classDefs (lines ++ [raw]) = classDefs lines := by
  simp [classDefs, none]

theorem classDefs_append_some {raw : List Char} {definition : String × String}
    (parsed : parseClassDef? (trim raw) = some definition) :
    classDefs (lines ++ [raw]) = put definition.1 definition.2 (classDefs lines) := by
  simp [classDefs, parsed]

theorem mem_keys_classDefs : name ∈ keys (classDefs lines) ↔ Defines lines name := by
  have filled : classDefs lines =
      fill (lines.filterMap fun line => parseClassDef? (trim line)) [] := rfl
  rw [filled, mem_keys_fill]
  simp only [keys, List.mem_map, List.mem_filterMap, Defines]
  constructor
  · rintro ⟨⟨_, properties⟩, ⟨line, member, parsed⟩, rfl⟩
    exact ⟨line, member, properties, parsed⟩
  · rintro ⟨line, member, properties, parsed⟩
    exact ⟨(name, properties), ⟨line, member, parsed⟩, rfl⟩

instance : Decidable (Defines lines name) :=
  decidable_of_iff _ mem_keys_classDefs

theorem classDefs_shape {definition : String × String} (member : definition ∈ classDefs lines) :
    IsName definition.1.toList ∧ IsProperties definition.2.toList := by
  have pair : definition ∈ lines.filterMap fun line => parseClassDef? (trim line) :=
    mem_of_mem_fill member
  obtain ⟨line, _, parsed⟩ := List.mem_filterMap.mp pair
  exact parseClassDef?_shape parsed

end Defines

section Printed

/-- The lines are printed class definitions and class statements. -/
structure Prints (tail : List (List Char)) (definitions : List (String × String))
    (assignments : List ClassAssignment) : Prop where
  mem_iff : ∀ line, line ∈ tail ↔
    (∃ definition ∈ definitions, line = (formatClassDef definition).toList) ∨
      ∃ assignment ∈ assignments, line = (formatAssignment assignment).toList
  shape : ∀ definition ∈ definitions,
    IsName definition.1.toList ∧ IsProperties definition.2.toList
  named : ∀ assignment ∈ assignments, assignment.Named

variable {tail : List (List Char)} {definitions : List (String × String)}
  {assignments : List ClassAssignment} {line : List Char} {name : String}

theorem Prints.defines_iff (prints : Prints tail definitions assignments) :
    Defines tail name ↔ name ∈ keys definitions := by
  constructor
  · rintro ⟨line, member, properties, parsed⟩
    rcases (prints.mem_iff line).mp member with
      ⟨definition, stored, rfl⟩ | ⟨assignment, stored, rfl⟩
    · obtain ⟨named, given⟩ := prints.shape definition stored
      rw [parseClassDef?_trim_formatClassDef named given] at parsed
      obtain rfl : definition.1 = name := (Prod.ext_iff.mp (Option.some.inj parsed)).1
      exact List.mem_map_of_mem stored
    · rw [parseClassDef?_formatAssignment (prints.named assignment stored)] at parsed
      simp at parsed
  · intro stored
    obtain ⟨definition, member, rfl⟩ := List.mem_map.mp stored
    obtain ⟨named, given⟩ := prints.shape definition member
    exact ⟨_, (prints.mem_iff _).mpr (.inl ⟨definition, member, rfl⟩), _,
      parseClassDef?_trim_formatClassDef named given⟩

theorem Prints.whole (prints : Prints tail definitions assignments) (member : line ∈ tail) :
    '\n' ∉ line := by
  rcases (prints.mem_iff line).mp member with
    ⟨definition, stored, rfl⟩ | ⟨assignment, stored, rfl⟩
  · exact whole_formatClassDef (prints.shape definition stored)
  · exact whole_formatAssignment (prints.named assignment stored)

theorem Prints.style (prints : Prints tail definitions assignments) (member : line ∈ tail) :
    isStyleStatement (trim line) := by
  rcases (prints.mem_iff line).mp member with
    ⟨definition, stored, rfl⟩ | ⟨assignment, stored, rfl⟩
  · obtain ⟨named, given⟩ := prints.shape definition stored
    exact isStyleStatement_of_definition (parseClassDef?_trim_formatClassDef named given)
  · exact isStyleStatement_of_statement
      (parseClassStatement?_formatAssignment (prints.named assignment stored))

theorem Prints.assignment (prints : Prints tail definitions assignments) (member : line ∈ tail)
    (none : parseClassDef? (trim line) = none) :
    ∃ assignment ∈ assignments, line = (formatAssignment assignment).toList := by
  rcases (prints.mem_iff line).mp member with ⟨definition, stored, rfl⟩ | printed
  · obtain ⟨named, given⟩ := prints.shape definition stored
    rw [parseClassDef?_trim_formatClassDef named given] at none
    simp at none
  · exact printed

end Printed

end CrateAtlas.Mermaid
