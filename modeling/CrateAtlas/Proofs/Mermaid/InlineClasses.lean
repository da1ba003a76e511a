import CrateAtlas.Proofs.Mermaid.ClassLines

/-!
Classes that nodes are given in place. Main statements: a class behind a node with nothing between
them is found, wherever in the line the node stands, and every class that is found stands there.
-/

namespace CrateAtlas.Mermaid

open Text

section Lexemes

variable {name before rest : List Char}

theorem lexemes_not_name (ends : NameEnds rest) (text : List Char) (more : List Lexeme) :
    lexemes rest ≠ .name text :: more := by
  cases rest with
  | nil => simp [lexemes]
  | cons first others =>
      have mark := ends first rfl
      simp [lexemes, mark]

theorem lexemes_cons_name {character : Char} (plain : isNameChar character)
    (ends : NameEnds rest) :
    lexemes (character :: rest) = .name [character] :: lexemes rest := by
  rw [lexemes, if_pos plain]
  split
  · rename_i read
    exact absurd read (lexemes_not_name ends _ _)
  · rfl

theorem lexemes_name_append (named : IsName name) (ends : NameEnds rest) :
    lexemes (name ++ rest) = .name name :: lexemes rest := by
  obtain ⟨filled, plain⟩ := named
  induction name with
  | nil => exact absurd rfl filled
  | cons first others ih =>
      have start := plain first List.mem_cons_self
      by_cases single : others = []
      · subst single
        exact lexemes_cons_name start ends
      · have later := ih single fun character member =>
          plain character (List.mem_cons_of_mem first member)
        rw [List.cons_append, lexemes, if_pos start, later]

theorem lexemes_ne_nil (filled : before ≠ []) : lexemes before ≠ [] := by
  cases before with
  | nil => exact absurd rfl filled
  | cons first others =>
      rw [lexemes]
      split
      · split <;> simp
      · simp

theorem lexemes_append (ends : ∀ character ∈ before.getLast?, isNameChar character = false)
    (rest : List Char) : lexemes (before ++ rest) = lexemes before ++ lexemes rest := by
  induction before with
  | nil => rfl
  | cons first others ih =>
      by_cases last : others = []
      · subst last
        have mark := ends first rfl
        simp [lexemes, mark]
      · have later : lexemes (others ++ rest) = lexemes others ++ lexemes rest := by
          apply ih
          rwa [List.getLast?_cons_of_ne_nil last] at ends
        obtain ⟨lexeme, more, shape⟩ := List.exists_cons_of_ne_nil (lexemes_ne_nil last)
        rw [List.cons_append, lexemes, lexemes, later, shape]
        cases lexeme <;> split <;> rfl

end Lexemes

section Uses

theorem classBehind?_eq_some {tail : List Lexeme} {className : List Char} :
    classBehind? tail = some className ↔
      ∃ more, tail = .mark ':' :: .mark ':' :: .mark ':' :: .name className :: more := by
  constructor
  · intro found
    unfold classBehind? at found
    split at found
    · simp only [Option.some.injEq] at found
      exact ⟨_, by rw [found]⟩
    · simp at found
  · rintro ⟨more, rfl⟩
    rfl

theorem inlineClassesOf_behind (className : List Char) (more : List Lexeme) :
    inlineClassesOf true (.mark ':' :: .mark ':' :: .mark ':' :: .name className :: more) =
      inlineClassesOf false more := by
  simp only [inlineClassesOf, Bool.true_or, if_true]
  split <;> rfl

def Passed (earlier : List Lexeme) : Prop :=
  ∀ last ∈ earlier.getLast?, ∃ character, last = .mark character ∧ character ≠ ':'

theorem Passed.tail {lexeme : Lexeme} {more : List Lexeme} (passed : Passed (lexeme :: more)) :
    Passed more := by
  intro last final
  apply passed last
  cases more with
  | nil => simp at final
  | cons first others => rwa [List.getLast?_cons_cons]

theorem Passed.classBehind? {more rest : List Lexeme} (passed : Passed more) (filled : more ≠ [])
    {className : List Char} (behind : classBehind? (more ++ rest) = some className) :
    ∃ others, more = .mark ':' :: .mark ':' :: .mark ':' :: .name className :: others := by
  obtain ⟨tail, shape⟩ := classBehind?_eq_some.mp behind
  rcases more with _ | ⟨first, _ | ⟨second, _ | ⟨third, _ | ⟨fourth, others⟩⟩⟩⟩
  · exact absurd rfl filled
  · obtain ⟨_, rfl, colon⟩ := passed _ rfl
    simp_all
  · obtain ⟨_, rfl, colon⟩ := passed _ rfl
    simp_all
  · obtain ⟨_, rfl, colon⟩ := passed _ rfl
    simp_all
  · simp only [List.cons_append, List.cons.injEq] at shape
    obtain ⟨rfl, rfl, rfl, rfl, _⟩ := shape
    exact ⟨others, rfl⟩

theorem mem_inlineClassesOf_append {use : String × String} {rest : List Lexeme}
    (found : use ∈ inlineClassesOf false rest) :
    ∀ earlier : List Lexeme, Passed earlier → use ∈ inlineClassesOf false (earlier ++ rest)
  | [], _ => found
  | .mark character :: more, passed => mem_inlineClassesOf_append found more passed.tail
  | .name run :: more, passed => by
      have filled : more ≠ [] := by
        rintro rfl
        obtain ⟨_, same, _⟩ := passed _ rfl
        simp at same
      have onward := mem_inlineClassesOf_append found more passed.tail
      rw [List.cons_append, inlineClassesOf]
      cases behind : classBehind? (more ++ rest) with
      | none => exact onward
      | some className =>
          dsimp only
          split
          · exact onward
          · -- The class stands before the end as a whole, so the walk is past it there.
            obtain ⟨others, rfl⟩ := passed.tail.classBehind? filled behind
            apply List.mem_cons_of_mem
            simp only [List.cons_append, inlineClassesOf_behind]
            exact mem_inlineClassesOf_append found others passed.tail.tail.tail.tail.tail
termination_by earlier => earlier.length

/-- A name that stands behind the text is a run of its own, and no class behind colons. -/
def Bounded (before : List Char) : Prop :=
  ∀ character ∈ before.getLast?, isNameChar character = false ∧ character ≠ ':'

instance (before : List Char) : Decidable (Bounded before) :=
  decidable_of_iff
    (before.getLast?.all fun character => !isNameChar character && character ≠ ':')
    (by simp [Bounded, Option.all_eq_true])

/-- A line gives a node a class in place, with nothing between the node, the colons and the
class. -/
def AppliesBare (line node className : List Char) : Prop :=
  IsName node ∧ node.any isWordStart ∧ IsName className ∧
    ∃ before after, line = before ++ (node ++ (":::".toList ++ (className ++ after))) ∧
      Bounded before ∧ NameEnds after

theorem AppliesBare.mem_colon {line node className : List Char}
    (applies : AppliesBare line node className) : ':' ∈ line := by
  obtain ⟨_, _, _, before, after, rfl, _⟩ := applies
  simp

theorem not_appliesBare_nil {node className : List Char} : ¬AppliesBare [] node className :=
  fun applies => List.not_mem_nil applies.mem_colon

theorem Prints.not_appliesBare {tail : List (List Char)} {definitions : List (String × String)}
    {assignments : List ClassAssignment} (prints : Prints tail definitions assignments)
    {line : List Char} (member : line ∈ tail) (none : parseClassDef? (trim line) = none)
    (node className : List Char) : ¬AppliesBare line node className := by
  obtain ⟨assignment, stored, rfl⟩ := prints.assignment member none
  have colon : isNameChar ':' = false := by decide
  have free := not_mem_formatAssignment (prints.named assignment stored) colon (by decide)
    (by decide)
  exact fun applies => free applies.mem_colon

theorem lexemes_use {node className after : List Char} (nodeNamed : IsName node)
    (classNamed : IsName className) (ends : NameEnds after) :
    lexemes (node ++ (":::".toList ++ (className ++ after))) =
      .name node :: .mark ':' :: .mark ':' :: .mark ':' :: .name className :: lexemes after := by
  have colon : isNameChar ':' = false := by decide
  have marks (rest : List Char) : lexemes (":::".toList ++ rest) =
      .mark ':' :: .mark ':' :: .mark ':' :: lexemes rest := by
    simp [lexemes, colon]
  have apart : NameEnds (":::".toList ++ (className ++ after)) := nameEnds_cons colon _
  rw [lexemes_name_append nodeNamed apart, marks, lexemes_name_append classNamed ends]

theorem getLast?_lexemes {before : List Char} {last : Char} (final : before.getLast? = some last)
    (mark : isNameChar last = false) : (lexemes before).getLast? = some (.mark last) := by
  induction before with
  | nil => simp at final
  | cons first others ih =>
      by_cases single : others = []
      · subst single
        obtain rfl : first = last := by simpa using final
        simp [lexemes, mark]
      · rw [List.getLast?_cons_of_ne_nil single] at final
        have later := ih final
        have some := lexemes_ne_nil single
        rw [lexemes]
        split
        · split
          · rename_i text more shape
            rw [shape] at later
            -- A name is not what the line ends with, so something follows it.
            cases more with
            | nil => simp at later
            | cons second rest => exact later
          · rwa [List.getLast?_cons_of_ne_nil some]
        · rwa [List.getLast?_cons_of_ne_nil some]

theorem passed_lexemes {before : List Char} (ends : Bounded before) :
    Passed (lexemes before) := by
  intro last final
  cases end_ : before.getLast? with
  | none =>
      rw [List.getLast?_eq_none_iff.mp end_] at final
      simp [lexemes] at final
  | some character =>
      obtain ⟨mark, other⟩ := ends character end_
      rw [getLast?_lexemes end_ mark] at final
      exact ⟨character, (Option.some.inj final).symm, other⟩

theorem AppliesBare.mem_inlineClasses {line node className : List Char}
    (applies : AppliesBare line node className) :
    (String.ofList (node.dropWhile fun character => !isWordStart character),
      String.ofList className) ∈ inlineClasses line := by
  obtain ⟨nodeNamed, starts, classNamed, before, after, rfl, left, right⟩ := applies
  have use := lexemes_use nodeNamed classNamed right
  rw [inlineClasses, lexemes_append fun character final => (left character final).1]
  apply mem_inlineClassesOf_append _ _ (passed_lexemes left)
  rw [use, inlineClassesOf]
  have kept : (node.dropWhile fun character => !isWordStart character).isEmpty = false := by
    rw [List.isEmpty_eq_false_iff, ne_eq, List.dropWhile_eq_nil_iff]
    simpa using starts
  simp [classBehind?, kept]

end Uses

section Found

variable {text : List Char} {after : List Lexeme}

theorem lexemes_eq_mark {character : Char} (read : lexemes text = .mark character :: after) :
    ∃ rest, text = character :: rest ∧ lexemes rest = after := by
  cases text with
  | nil => simp [lexemes] at read
  | cons first rest =>
      rw [lexemes] at read
      split at read
      · split at read <;> simp at read
      · simp only [List.cons.injEq, Lexeme.mark.injEq] at read
        exact ⟨rest, by rw [read.1], read.2⟩

theorem nameEnds_of_lexemes (none : ∀ run more, lexemes text ≠ .name run :: more) :
    NameEnds text := by
  cases text with
  | nil => exact fun _ first => by simp at first
  | cons first rest =>
      refine nameEnds_cons ?_ rest
      by_contra plain
      rw [Bool.not_eq_false] at plain
      simp only [lexemes, if_pos plain] at none
      split at none
      · exact none _ _ rfl
      · exact none _ _ rfl

theorem exists_run {before : List Lexeme} {run : List Char}
    (read : lexemes text = before ++ .name run :: after) :
    ∃ front rest, text = front ++ (run ++ rest) ∧ (before = [] → front = []) ∧ IsName run ∧
      NameEnds rest ∧ lexemes rest = after := by
  induction text generalizing before run with
  | nil => simp [lexemes] at read
  | cons first others ih =>
      by_cases plain : isNameChar first
      · simp only [lexemes, if_pos plain] at read
        split at read
        · rename_i tail more later
          cases before with
          | nil =>
              simp only [List.nil_append, List.cons.injEq, Lexeme.name.injEq] at read
              obtain ⟨rfl, rfl⟩ := read
              obtain ⟨front, rest, rfl, nothing, named, ends, behind⟩ := @ih [] tail later
              refine ⟨[], rest, by simp [nothing rfl], fun _ => rfl, ⟨by simp, ?_⟩, ends, behind⟩
              exact List.forall_mem_cons.mpr ⟨plain, named.plain⟩
          | cons lexeme before =>
              obtain ⟨_, rfl⟩ := List.cons.inj read
              obtain ⟨front, rest, rfl, _, found⟩ := @ih (.name tail :: before) run later
              exact ⟨first :: front, rest, rfl, by simp, found⟩
        · rename_i apart
          cases before with
          | nil =>
              simp only [List.nil_append, List.cons.injEq, Lexeme.name.injEq] at read
              obtain ⟨rfl, rfl⟩ := read
              exact ⟨[], others, rfl, fun _ => rfl, ⟨by simp, by simpa using plain⟩,
                nameEnds_of_lexemes apart, rfl⟩
          | cons lexeme before =>
              obtain ⟨_, later⟩ := List.cons.inj read
              obtain ⟨front, rest, rfl, _, found⟩ := ih later
              exact ⟨first :: front, rest, rfl, by simp, found⟩
      · simp only [lexemes, if_neg plain] at read
        cases before with
        | nil => simp at read
        | cons lexeme before =>
            obtain ⟨_, later⟩ := List.cons.inj read
            obtain ⟨front, rest, rfl, _, found⟩ := ih later
            exact ⟨first :: front, rest, rfl, by simp, found⟩

theorem exists_use {inClass : Bool} {lexed : List Lexeme} {node className : String}
    (found : (node, className) ∈ inlineClassesOf inClass lexed) :
    ∃ before run after, lexed = before ++ .name run :: after ∧
      classBehind? after = some className.toList ∧
      node.toList = run.dropWhile (fun character => !isWordStart character) ∧
      node.toList ≠ [] := by
  induction lexed generalizing inClass with
  | nil => simp [inlineClassesOf] at found
  | cons lexeme tail ih =>
      have later {inClass : Bool} (deeper : (node, className) ∈ inlineClassesOf inClass tail) :
          ∃ before run after, lexeme :: tail = before ++ .name run :: after ∧
            classBehind? after = some className.toList ∧
            node.toList = run.dropWhile (fun character => !isWordStart character) ∧
            node.toList ≠ [] := by
        obtain ⟨before, run, after, rfl, held⟩ := ih deeper
        exact ⟨lexeme :: before, run, after, rfl, held⟩
      cases lexeme with
      | mark character => exact later found
      | name run =>
          rw [inlineClassesOf] at found
          split at found
          · rename_i behind
            split at found
            · exact later found
            · rename_i starts
              rcases List.mem_cons.mp found with same | deeper
              · obtain ⟨rfl, rfl⟩ := Prod.mk.inj same
                simp only [Bool.or_eq_true, List.isEmpty_iff, not_or] at starts
                exact ⟨[], run, tail, rfl, by rw [String.toList_ofList, behind],
                  String.toList_ofList, by rw [String.toList_ofList]; exact starts.2⟩
              · exact later deeper
          · exact later found

/-- The line has a node's identifier, three colons and the class, with nothing between them. -/
def ShowsClass (line className : List Char) : Prop :=
  ∃ before node after, line = before ++ (node ++ (":::".toList ++ (className ++ after))) ∧
    IsName node ∧ node.head?.any isWordStart ∧ IsName className ∧ NameEnds after

theorem showsClass_of_mem {node className : String}
    (found : (node, className) ∈ inlineClasses text) : ShowsClass text className.toList := by
  obtain ⟨before, run, tail, lexed, behind, cut, filled⟩ := exists_use found
  obtain ⟨front, rest, rfl, _, named, _, marks⟩ := exists_run lexed
  obtain ⟨more, rfl⟩ := classBehind?_eq_some.mp behind
  obtain ⟨second, rfl, two⟩ := lexemes_eq_mark marks
  obtain ⟨third, rfl, one⟩ := lexemes_eq_mark two
  obtain ⟨last, rfl, colons⟩ := lexemes_eq_mark one
  obtain ⟨lead, after, rfl, nothing, classNamed, ends, _⟩ := @exists_run _ _ [] _ colons
  have whole : run.takeWhile (fun character => !isWordStart character) ++ node.toList = run := by
    rw [cut, List.takeWhile_append_dropWhile]
  have inside : node.toList ⊆ run := by
    rw [cut]
    exact (List.dropWhile_suffix _).subset
  have starts : node.toList.head?.any isWordStart := by
    have stopped := List.head?_dropWhile_not (fun character => !isWordStart character) run
    rw [← cut] at stopped
    obtain ⟨first, others, shape⟩ := List.exists_cons_of_ne_nil filled
    simpa [shape] using stopped
  refine ⟨front ++ run.takeWhile (fun character => !isWordStart character), node.toList, after, ?_,
    ⟨filled, fun character member => named.plain character (inside member)⟩, starts, classNamed,
    ends⟩
  rw [nothing rfl, List.append_assoc, ← List.append_assoc (run.takeWhile _), whole]
  rfl

end Found

section Blanks

theorem appliesBare_trim {line node className : List Char} :
    AppliesBare (trim line) node className ↔ AppliesBare line node className := by
  constructor
  · rintro ⟨nodeNamed, starts, classNamed, before, after, shape, left, right⟩
    obtain ⟨lead, tail, whole, leadBlank, tailBlank⟩ := exists_blanks_trim line
    refine ⟨nodeNamed, starts, classNamed, lead ++ before, after ++ tail, ?_, ?_, ?_⟩
    · rw [whole, shape]
      simp
    · intro character final
      rw [List.getLast?_append] at final
      rcases Option.or_eq_some_iff.mp final with inside | ⟨_, outside⟩
      · exact left character inside
      · have blank := leadBlank character (List.mem_of_getLast? outside)
        refine ⟨isNameChar_of_isBlank blank, ?_⟩
        rintro rfl
        exact absurd blank (by decide)
    · intro character first
      rw [List.head?_append] at first
      rcases Option.or_eq_some_iff.mp first with inside | ⟨_, outside⟩
      · exact right character inside
      · exact isNameChar_of_isBlank (tailBlank character (List.mem_of_head? outside))
  · rintro ⟨nodeNamed, starts, classNamed, before, after, rfl, left, right⟩
    refine ⟨nodeNamed, starts, classNamed, trimStart before, trimEnd after, ?_, ?_, ?_⟩
    · have head : ∀ character ∈ (node ++ (":::".toList ++ (className ++ after))).head?,
          isBlank character = false := nodeNamed.head_append _
      have whole : trimStart before ++ (node ++ (":::".toList ++ (className ++ after))) =
          (trimStart before ++ (node ++ ":::".toList)) ++ className ++ after := by simp
      rw [trim, trimStart_append head, whole, trimEnd_append_of_last (classNamed.append_last _)]
      simp
    · exact fun character final => left character (mem_getLast?_of_trimStart final)
    · exact fun character first => right character (mem_head?_of_trimEnd first)

end Blanks

section Spaces

/-- A line and what becomes of it when some entities turn into spaces. -/
inductive SpacesFor : List Char → List Char → Prop
  | nil : SpacesFor [] []
  | entity {line plain : List Char} (rest : SpacesFor line plain) :
      SpacesFor ("&nbsp;".toList ++ line) (' ' :: plain)
  | char (character : Char) {line plain : List Char} (rest : SpacesFor line plain) :
      SpacesFor (character :: line) (character :: plain)

variable {line plain left right : List Char} {character : Char}

theorem spacesFor_plainSpaces (line : List Char) : SpacesFor line (plainSpaces line) := by
  induction length : line.length using Nat.strong_induction_on generalizing line with
  | _ size ih =>
    cases line with
    | nil => exact .nil
    | cons first rest =>
        subst length
        rw [plainSpaces, replaceAll, replaceFrom]
        split
        · rename_i entity
          simp only [Bool.and_eq_true] at entity
          obtain ⟨tail, shape⟩ := List.isPrefixOf_iff_prefix.mp entity.2
          obtain ⟨rfl, rfl⟩ := List.cons.inj shape
          have rest := ih tail.length (by simp; omega) tail rfl
          exact .entity rest
        · exact .char first (ih rest.length (by simp) rest rfl)

theorem SpacesFor.append_inv (spaces : SpacesFor line (left ++ right)) :
    ∃ front back, line = front ++ back ∧ SpacesFor front left ∧ SpacesFor back right := by
  induction left generalizing line with
  | nil => exact ⟨[], line, rfl, .nil, spaces⟩
  | cons first others ih =>
      cases spaces with
      | entity rest =>
          obtain ⟨front, back, rfl, leftSpaces, rightSpaces⟩ := ih rest
          exact ⟨_, back, (List.append_assoc _ _ _).symm, .entity leftSpaces, rightSpaces⟩
      | char _ rest =>
          obtain ⟨front, back, rfl, leftSpaces, rightSpaces⟩ := ih rest
          exact ⟨first :: front, back, rfl, .char first leftSpaces, rightSpaces⟩

theorem SpacesFor.eq_of_free (spaces : SpacesFor line plain) (free : ' ' ∉ plain) :
    line = plain := by
  induction spaces with
  | nil => rfl
  | entity rest ih => simp at free
  | char first rest ih => rw [ih fun member => free (List.mem_cons_of_mem first member)]

theorem SpacesFor.mem (spaces : SpacesFor line plain) (member : character ∈ plain) :
    character ∈ line ∨ character = ' ' := by
  induction spaces with
  | nil => simp at member
  | entity rest ih =>
      rcases List.mem_cons.mp member with rfl | later
      · exact .inr rfl
      · exact (ih later).imp_left (List.mem_append_right _)
  | char first rest ih =>
      rcases List.mem_cons.mp member with rfl | later
      · exact .inl List.mem_cons_self
      · exact (ih later).imp_left (List.mem_cons_of_mem first)

theorem SpacesFor.head? (spaces : SpacesFor line plain) (first : character ∈ line.head?) :
    character ∈ plain.head? ∨ character = '&' := by
  cases spaces with
  | nil => simp at first
  | entity rest => exact .inr (Option.some.inj first).symm
  | char _ rest => exact .inl first

theorem SpacesFor.eq_nil (spaces : SpacesFor [] plain) : plain = [] := by
  cases spaces
  rfl

theorem SpacesFor.getLast? (spaces : SpacesFor line plain) (final : character ∈ line.getLast?) :
    character ∈ plain.getLast? ∨ character = ';' := by
  induction spaces with
  | nil => simp at final
  | @entity line plain rest ih =>
      rw [List.getLast?_append] at final
      rcases Option.or_eq_some_iff.mp final with inside | ⟨_, outside⟩
      · refine (ih inside).imp_left fun last => ?_
        rw [List.getLast?_cons, Option.mem_def.mp last]
        rfl
      · exact .inr (Option.some.inj outside).symm
  | @char first line plain rest ih =>
      rw [List.getLast?_cons] at final
      cases inside : line.getLast? with
      | none =>
          rw [List.getLast?_eq_none_iff] at inside
          subst inside
          rw [rest.eq_nil]
          exact .inl final
      | some last =>
          rw [inside] at final
          refine (ih (inside.trans final)).imp_left fun last => ?_
          rw [List.getLast?_cons, Option.mem_def.mp last]
          rfl

theorem SpacesFor.eq_of_no_entity {line plain : List Char} (spaces : SpacesFor line plain)
    (none : ¬"&nbsp;".toList <:+: line) : plain = line := by
  induction spaces with
  | nil => rfl
  | entity rest ih => exact absurd (List.prefix_append _ _).isInfix none
  | char first rest ih =>
      rw [ih fun inside => none (inside.trans (List.suffix_cons first _).isInfix)]

theorem appliesBare_of_plainSpaces {line node className : List Char}
    (applies : AppliesBare (plainSpaces line) node className) :
    AppliesBare line node className := by
  obtain ⟨nodeNamed, starts, classNamed, before, after, shape, left, right⟩ := applies
  have spaces := spacesFor_plainSpaces line
  have regroup : before ++ (node ++ (":::".toList ++ (className ++ after))) =
      before ++ ((node ++ (":::".toList ++ className)) ++ after) := by simp
  rw [shape, regroup] at spaces
  obtain ⟨front, back, rfl, frontSpaces, backSpaces⟩ := spaces.append_inv
  obtain ⟨middle, behind, rfl, middleSpaces, behindSpaces⟩ := backSpaces.append_inv
  have free : ' ' ∉ node ++ (":::".toList ++ className) := by
    have plain : isNameChar ' ' = false := by decide
    simp only [List.mem_append, not_or]
    refine ⟨fun member => ?_, by decide, fun member => ?_⟩
    · exact absurd (nodeNamed.plain _ member) (by simp [plain])
    · exact absurd (classNamed.plain _ member) (by simp [plain])
  rw [middleSpaces.eq_of_free free]
  refine ⟨nodeNamed, starts, classNamed, front, behind, by simp, ?_, ?_⟩
  · intro character final
    rcases frontSpaces.getLast? final with same | rfl
    · exact left character same
    · decide
  · intro character first
    rcases behindSpaces.head? first with same | rfl
    · exact right character same
    · decide

end Spaces

end CrateAtlas.Mermaid
