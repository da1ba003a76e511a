import CrateAtlas.Proofs.Maps
import CrateAtlas.Proofs.ModulePath
import CrateAtlas.Proofs.TypeText.Terms
import CrateAtlas.TypeText.References

/-!
The types that a type refers to. Main statement: the references of a printed type are the paths that
occur in it, each once and in the order of their first occurrence, without primitives, without
standard wrappers and collections that have arguments, and without names that have other characters
than word characters.
-/

namespace CrateAtlas.TypeText

open Text

section Occurrences

/-- A path at one place in a type. -/
structure Occurrence where
  path : PlainPath
  applied : Bool
  many : Bool

def Occurrence.name (occurrence : Occurrence) : String :=
  occurrence.path.name

def PlainPath.lastName (path : PlainPath) : String :=
  String.ofList path.last.text

/-- Neither a primitive nor a standard wrapper or collection that has arguments. -/
def Occurrence.isListed (occurrence : Occurrence) : Bool :=
  let name := occurrence.path.lastName
  !primitiveNames.contains name &&
    !(occurrence.applied && (wrapperNames.contains name || collectionNames.contains name))

/-- Listed, and named with word characters. -/
def Occurrence.isShown (occurrence : Occurrence) : Bool :=
  occurrence.isListed && isIdentifier occurrence.path.last.text

mutual

/-- The paths in the type from front to back, where `many` says whether the type lies in a slice,
an array or a collection. -/
def TypeTerm.occurrences (many : Bool) : TypeTerm → List Occurrence
  | .path path arguments =>
      { path, applied := !arguments.isEmpty, many } ::
        occurrencesOf (many || collectionNames.contains path.lastName) arguments
  | .marked _ type => type.occurrences many
  | .tuple members => occurrencesOf many members
  | .slice element => element.occurrences true
  | .array element _ => element.occurrences true

def occurrencesOf (many : Bool) : List TypeTerm → List Occurrence
  | [] => []
  | type :: types => type.occurrences many ++ occurrencesOf many types

end

theorem occurrencesOf_eq_flatMap (many : Bool) (types : List TypeTerm) :
    occurrencesOf many types = types.flatMap (TypeTerm.occurrences many) := by
  induction types with
  | nil => rfl
  | cons type others ih => rw [occurrencesOf, ih, List.flatMap_cons]

/-- What the shown ones among the occurrences are listed as. -/
def mentionsOf (occurrences : List Occurrence) : List (String × Bool) :=
  (occurrences.filter Occurrence.isShown).map fun occurrence => (occurrence.name, occurrence.many)

theorem mentionsOf_single (occurrence : Occurrence) :
    mentionsOf [occurrence] =
      if occurrence.isShown then [(occurrence.name, occurrence.many)] else [] := by
  cases shown : occurrence.isShown <;> simp [mentionsOf, shown]

theorem mentionsOf_append (left right : List Occurrence) :
    mentionsOf (left ++ right) = mentionsOf left ++ mentionsOf right := by
  simp [mentionsOf]

end Occurrences

section Paths

theorem PlainPath.lastSegment_name (path : PlainPath) :
    ModulePath.lastSegment path.name = path.lastName := by
  have free (name : Identifier) : ∀ character ∈ name.text, character ≠ ':' :=
    fun character member => (name.plain character member).separator.1
  obtain ⟨head, tail⟩ := path
  rw [ModulePath.lastSegment, name, String.toList_ofList, text]
  rcases List.eq_nil_or_concat tail with rfl | ⟨earlier, final, rfl⟩
  · simp [ModulePath.cutLast?_of_free (free head), lastName, last]
  · have shape : head.text ++ (earlier.concat final).flatMap (fun name => ':' :: ':' :: name.text) =
        (head.text ++ earlier.flatMap fun name => ':' :: ':' :: name.text) ++
          ':' :: ':' :: final.text := by simp
    rw [shape, ModulePath.cutLast?_append (free final)]
    simp [lastName, last]

end Paths

section Mentions

variable {fuel : Nat} {many : Bool} {type : TypeTerm} {opener closer : Char} {inner : List Char}

theorem mentions_congr {left right : List Char}
    (same : dropQualifiers left = dropQualifiers right) :
    mentions fuel many left = mentions fuel many right := by
  cases fuel with
  | zero => rfl
  | succ fuel => simp only [mentions, same]

theorem unwrapped_wrapped : unwrapped (wrapped opener closer inner) = inner := by
  simp [unwrapped, wrapped]

theorem TypeTerm.bare (bare : type.core = type) (spelled : type.isSpelled) :
    dropQualifiers type.text = type.text ∧
      (type.text.isEmpty || startsWith "'" type.text) = false ∧
      splitTopLevelChars (some '+') type.text = [type.text] := by
  refine ⟨?_, ?_, type.splitTopLevelChars_text (by decide)⟩
  · rw [dropQualifiers_text spelled, bare]
  · have unqualified := type.core_unqualified
    rw [bare] at unqualified
    obtain ⟨first, rest, shape, _, other⟩ := unqualified.head
    have apart : first ≠ '\'' := by
      rintro rfl
      simp at other
    simp [shape, startsWith, List.isPrefixOf, Ne.symm apart]

theorem endsWith_wrapped {tail : String} (ending : tail.toList = [closer]) :
    endsWith tail (wrapped opener closer inner) := by
  rw [endsWith, List.isSuffixOf_iff_suffix, ending]
  exact (List.suffix_append inner [closer]).trans (List.suffix_cons opener _)

theorem mentions_tuple (members : List TypeTerm) (spelled : areSpelled members) :
    mentions (fuel + 1) many (TypeTerm.tuple members).text =
      (textsOf members).flatMap (mentions fuel many) := by
  obtain ⟨bare, front, single⟩ := @TypeTerm.bare (.tuple members) rfl spelled
  rw [TypeTerm.text] at bare front single ⊢
  have opens : startsWith "(" (wrapped '(' ')' (commaList (textsOf members))) = true := by
    simp [wrapped, startsWith]
  have closes : endsWith ")" (wrapped '(' ')' (commaList (textsOf members))) = true :=
    endsWith_wrapped rfl
  simp [mentions, bare, front, single, opens, closes, unwrapped_wrapped,
    splitTopLevelChars_commaList]

theorem mentions_sequence (spelled : type.isSpelled) (bare : type.core = type)
    (shape : type.text = wrapped '[' ']' inner) {element : List Char} {behind : List (List Char)}
    (parts : splitTopLevelChars (some ';') inner = element :: behind) :
    mentions (fuel + 1) many type.text = mentions fuel true element := by
  obtain ⟨bare, front, single⟩ := type.bare bare spelled
  rw [shape] at bare front single ⊢
  have noTuple : startsWith "(" (wrapped '[' ']' inner) = false := by
    simp [wrapped, startsWith, List.isPrefixOf]
  have noPayload : startsWith "\x7b" (wrapped '[' ']' inner) = false := by
    simp [wrapped, startsWith, List.isPrefixOf]
  have opens : startsWith "[" (wrapped '[' ']' inner) = true := by
    simp [wrapped, startsWith]
  have closes : endsWith "]" (wrapped '[' ']' inner) = true := endsWith_wrapped rfl
  simp [mentions, bare, front, single, noTuple, noPayload, opens, closes, unwrapped_wrapped, parts]

theorem PlainPath.not_mem (path : PlainPath) {mark : Char} (noColon : mark ≠ ':')
    (noLetter : isIdentifierChar mark = false) : mark ∉ path.text := by
  intro member
  rcases path.letters mark member with letter | rfl
  · simp [letter] at noLetter
  · exact noColon rfl

theorem PlainPath.ne_keyword (path : PlainPath) : path.text ≠ ['f', 'n'] := by
  intro keyword
  obtain ⟨head, tail⟩ := path
  cases tail with
  | nil =>
      have same : head.text = ['f', 'n'] := by simpa [text] using keyword
      exact head.free (by rw [same]; decide)
  | cons name names =>
      have colon : ':' ∈ text ⟨head, name :: names⟩ := by simp [text]
      rw [keyword] at colon
      simp at colon

theorem arguments_angled (path : PlainPath) (arguments : List TypeTerm) :
    (arguments = [] ∧ cutAt? '<' (path.text ++ angled (textsOf arguments)) = none) ∨
      ∃ behind,
        cutAt? '<' (path.text ++ angled (textsOf arguments)) = some (path.text, behind) ∧
        splitTopLevelChars (some ',') (argumentText path.text behind) = textsOf arguments := by
  have free : '<' ∉ path.text := path.not_mem (by decide) (by decide)
  cases arguments with
  | nil =>
      refine .inl ⟨rfl, cutAt?_of_not_mem ?_⟩
      simpa [angled, textsOf] using free
  | cons first others =>
      have shape : angled (textsOf (first :: others)) =
          '<' :: (commaList (textsOf (first :: others)) ++ ['>']) := rfl
      have inner : argumentText path.text (commaList (textsOf (first :: others)) ++ ['>']) =
          commaList (textsOf (first :: others)) := by
        simp [argumentText, cutAtLast?, cutAt?]
      refine .inr ⟨_, by rw [shape, cutAt?_append free], ?_⟩
      rw [inner, splitTopLevelChars_commaList]

theorem takeWhile_path (path : PlainPath) (arguments : List (List Char)) :
    (path.text ++ angled arguments).takeWhile (· ≠ '<') = path.text := by
  have free : '<' ∉ path.text := path.not_mem (by decide) (by decide)
  have passed : ∀ character ∈ path.text, decide (character ≠ '<') := by
    intro character member
    rw [decide_eq_true_eq]
    rintro rfl
    exact free member
  rw [List.takeWhile_append_of_pos passed, angled]
  split
  · simp
  · simp [wrapped]

theorem map_associatedValue (types : List TypeTerm) :
    (textsOf types).map associatedValue = textsOf types := by
  rw [textsOf_eq_map, List.map_map]
  apply List.map_congr_left
  intro type _
  have single : splitTopLevelChars (some '=') type.text = [type.text] :=
    type.splitTopLevelChars_text (by decide)
  simp [associatedValue, single]

theorem isEmpty_textsOf (types : List TypeTerm) : (textsOf types).isEmpty = types.isEmpty := by
  cases types <;> rfl

theorem startsWith_path (path : PlainPath) (rest : List Char) {mark : Char}
    (noColon : mark ≠ ':') (noLetter : isIdentifierChar mark = false) :
    startsWith (String.ofList [mark]) (path.text ++ rest) = false := by
  obtain ⟨first, others, shape⟩ := List.exists_cons_of_ne_nil path.text_ne_nil
  have free := path.not_mem noColon noLetter
  rw [shape, List.mem_cons, not_or] at free
  simp [shape, startsWith, List.isPrefixOf, free.1]

theorem mentions_opened (path : PlainPath) (arguments : List TypeTerm)
    (spelled : areSpelled arguments) :
    mentions (fuel + 1) many (TypeTerm.path path arguments).text =
      if !arguments.isEmpty &&
          (wrapperNames.contains path.lastName || collectionNames.contains path.lastName) then
        (textsOf arguments).flatMap
          (mentions fuel (many || collectionNames.contains path.lastName))
      else
        (if isIdentifier path.lastName.toList && !primitiveNames.contains path.lastName then
          [(path.name, many)] else []) ++ (textsOf arguments).flatMap (mentions fuel many) := by
  obtain ⟨bare, front, single⟩ := @TypeTerm.bare (.path path arguments) rfl spelled
  rw [TypeTerm.text] at bare front single ⊢
  have noTuple : startsWith "(" (path.text ++ angled (textsOf arguments)) = false :=
    startsWith_path path _ (by decide : '(' ≠ ':') (by decide)
  have noPayload : startsWith "\x7b" (path.text ++ angled (textsOf arguments)) = false :=
    startsWith_path path _ (by decide : '\x7b' ≠ ':') (by decide)
  have noSequence : startsWith "[" (path.text ++ angled (textsOf arguments)) = false :=
    startsWith_path path _ (by decide : '[' ≠ ':') (by decide)
  have base : trim ((path.text ++ angled (textsOf arguments)).takeWhile (· ≠ '<')) =
      path.text := by
    rw [takeWhile_path, trim_of_trimmed path.trimmed]
  have noCall : contains '(' path.text = false := by
    have free : '(' ∉ path.text := path.not_mem (by decide) (by decide)
    simp only [contains, List.any_eq_false, beq_iff_eq]
    exact fun character member same => free (same ▸ member)
  have last : ModulePath.lastSegment (String.ofList path.text) = path.lastName :=
    path.lastSegment_name
  rcases arguments_angled path arguments with ⟨rfl, none⟩ | ⟨behind, cut, parts⟩
  · simp only [mentions, bare, front, single, noTuple, noPayload, noSequence, base, noCall, last,
      path.ne_keyword, none, List.length_singleton, gt_iff_lt, Nat.lt_irrefl, Bool.false_and,
      Bool.or_self, Bool.false_eq_true, decide_false, if_false]
    rfl
  · simp only [mentions, bare, front, single, noTuple, noPayload, noSequence, base, noCall, last,
      path.ne_keyword, cut, parts, map_associatedValue, isEmpty_textsOf, List.length_singleton,
      gt_iff_lt, Nat.lt_irrefl, Bool.false_and, Bool.or_self, Bool.false_eq_true, decide_false,
      if_false]
    rfl

theorem mentions_path (path : PlainPath) (arguments : List TypeTerm)
    (spelled : areSpelled arguments) :
    mentions (fuel + 1) many (TypeTerm.path path arguments).text =
      mentionsOf [{ path, applied := !arguments.isEmpty, many }] ++
        (textsOf arguments).flatMap
          (mentions fuel (many || collectionNames.contains path.lastName)) := by
  rw [mentions_opened path arguments spelled, mentionsOf_single, Occurrence.isShown,
    Occurrence.isListed]
  split
  · rename_i standard
    simp only [standard, Bool.not_true, Bool.and_false, Bool.false_and, Bool.false_eq_true,
      if_false, List.nil_append]
  · rename_i listed
    rw [Bool.not_eq_true] at listed
    have inner : (textsOf arguments).flatMap (mentions fuel many) =
        (textsOf arguments).flatMap
          (mentions fuel (many || collectionNames.contains path.lastName)) := by
      cases arguments with
      | nil => rfl
      | cons first others =>
          simp only [List.isEmpty_cons, Bool.not_false, Bool.true_and, Bool.or_eq_false_iff]
            at listed
          rw [listed.2, Bool.or_false]
    have text : path.lastName.toList = path.last.text := String.toList_ofList
    rw [inner, text, Bool.and_comm (isIdentifier path.last.text)]
    simp only [listed, Bool.not_false, Bool.and_true]
    rfl

theorem length_le_commaList {text : List Char} {texts : List (List Char)} (member : text ∈ texts) :
    text.length ≤ (commaList texts).length := by
  induction texts with
  | nil => simp at member
  | cons first others ih =>
      rcases List.mem_cons.mp member with rfl | later
      · obtain ⟨left, leads⟩ := commaList_cons text others
        simp [leads]
      · cases others with
        | nil => simp at later
        | cons second more =>
            have deeper := ih later
            rw [commaList_cons_cons]
            simp only [List.length_append, List.length_cons]
            omega

theorem length_wrapped (opener closer : Char) (inner : List Char) :
    (wrapped opener closer inner).length = inner.length + 2 := by
  simp [wrapped]

theorem mentions_types {types : List TypeTerm}
    (each : ∀ type ∈ types, type.isSpelled → type.text.length < fuel →
      mentions fuel many type.text = mentionsOf (type.occurrences many))
    (spelled : areSpelled types) (enough : (commaList (textsOf types)).length < fuel) :
    (textsOf types).flatMap (mentions fuel many) = mentionsOf (occurrencesOf many types) := by
  have shorter : ∀ type ∈ types, type.text.length < fuel := by
    intro type member
    have bound : type.text.length ≤ (commaList (textsOf types)).length := by
      apply length_le_commaList
      rw [textsOf_eq_map]
      exact List.mem_map_of_mem member
    omega
  have read : types.flatMap (fun type => mentions fuel many type.text) =
      types.flatMap fun type => mentionsOf (type.occurrences many) :=
    List.flatMap_congr fun type member =>
      each type member (areSpelled_iff.mp spelled type member) (shorter type member)
  rw [textsOf_eq_map, occurrencesOf_eq_flatMap, List.flatMap_map, read]
  simp only [mentionsOf, List.filter_flatMap, List.map_flatMap]

/-- What a type mentions are the shown ones among its occurrences. -/
theorem mentions_text (spelled : type.isSpelled) (enough : type.text.length < fuel) :
    mentions fuel many type.text = mentionsOf (type.occurrences many) := by
  induction type generalizing fuel many with
  | marked mark type ih =>
      rw [TypeTerm.text, List.length_append] at enough
      have inner : type.isSpelled := (Bool.and_eq_true_iff.mp spelled).2
      -- Behind their qualifiers both texts are the same, so no fuel is used up for the mark.
      have same : dropQualifiers (TypeTerm.marked mark type).text = dropQualifiers type.text := by
        rw [TypeTerm.dropQualifiers_text spelled, type.dropQualifiers_text inner, TypeTerm.core]
      rw [mentions_congr same, ih inner (by omega), TypeTerm.occurrences]
  | path path arguments ih =>
      obtain ⟨fuel, rfl⟩ := Nat.exists_eq_succ_of_ne_zero (Nat.ne_zero_of_lt enough)
      have arguments : (textsOf arguments).flatMap
          (mentions fuel (many || collectionNames.contains path.lastName)) = mentionsOf
            (occurrencesOf (many || collectionNames.contains path.lastName) arguments) := by
        cases arguments with
        | nil => rfl
        | cons first others =>
            refine mentions_types (fun type member => ih type member) spelled ?_
            rw [TypeTerm.text, List.length_append] at enough
            have inner : (angled (textsOf (first :: others))).length =
                (commaList (textsOf (first :: others))).length + 2 := length_wrapped _ _ _
            omega
      rw [mentions_path path _ spelled, arguments, ← mentionsOf_append, TypeTerm.occurrences,
        List.singleton_append]
  | tuple members ih =>
      obtain ⟨fuel, rfl⟩ := Nat.exists_eq_succ_of_ne_zero (Nat.ne_zero_of_lt enough)
      rw [TypeTerm.text, length_wrapped] at enough
      rw [mentions_tuple members spelled, TypeTerm.occurrences]
      exact mentions_types (fun type member => ih type member) spelled (by omega)
  | slice element ih =>
      obtain ⟨fuel, rfl⟩ := Nat.exists_eq_succ_of_ne_zero (Nat.ne_zero_of_lt enough)
      rw [TypeTerm.text, length_wrapped] at enough
      have parts := element.splitTopLevelChars_text (by decide : ';' ∈ separators)
      rw [mentions_sequence spelled rfl rfl parts, ih spelled (by omega), TypeTerm.occurrences]
  | array element length ih =>
      obtain ⟨fuel, rfl⟩ := Nat.exists_eq_succ_of_ne_zero (Nat.ne_zero_of_lt enough)
      rw [TypeTerm.text, length_wrapped, List.length_append] at enough
      obtain ⟨behind, parts⟩ := splitTopLevelChars_array element length
      rw [mentions_sequence spelled rfl rfl parts, ih spelled (by omega), TypeTerm.occurrences]

end Mentions

section Merging

variable {found : List (String × Bool)}

theorem mergeMentions_concat (found : List (String × Bool)) (mention : String × Bool) :
    mergeMentions (found ++ [mention]) =
      OrderedMap.update mention.1 false (· || mention.2) (mergeMentions found) := by
  rw [mergeMentions, List.foldl_append]
  rfl

theorem keys_mergeMentions (found : List (String × Bool)) :
    OrderedMap.keys (mergeMentions found) = OrderedMap.distinct (OrderedMap.keys found) :=
  OrderedMap.keys_foldl_update false (fun many => (· || many)) found

theorem get?_mergeMentions (found : List (String × Bool)) (name : String) :
    (OrderedMap.get? name (mergeMentions found)).getD false =
      found.any fun mention => mention.1 = name && mention.2 := by
  induction found using List.reverseRecOn with
  | nil => rfl
  | append_singleton earlier mention ih =>
      rw [mergeMentions_concat, OrderedMap.update, OrderedMap.get?_put, List.any_append, ← ih]
      split
      · rename_i same
        simp [same]
      · rename_i other
        simp [other]

theorem many_of_mem_mergeMentions {entry : String × Bool}
    (member : entry ∈ mergeMentions found) :
    entry.2 = true ↔ (entry.1, true) ∈ found := by
  have distinct : (OrderedMap.keys (mergeMentions found)).Nodup := by
    rw [keys_mergeMentions]
    exact OrderedMap.nodup_distinct _
  have read := get?_mergeMentions found entry.1
  rw [OrderedMap.get?_of_mem distinct member, Option.getD_some] at read
  rw [read]
  simp

end Merging

section References

/-- The references of a printed type are the shown paths that occur in it, each once, in the order
of their first occurrence, and one is marked as many exactly when it occurs so somewhere. -/
theorem innerTypeRefs_paths (type : TypeTerm) (spelled : type.isSpelled) :
    (innerTypeRefs (String.ofList type.text)).map TypeRef.path =
        OrderedMap.distinct
          (((type.occurrences false).filter Occurrence.isShown).map Occurrence.name) ∧
      ∀ reference ∈ innerTypeRefs (String.ofList type.text),
        (reference.many ↔ ∃ occurrence ∈ type.occurrences false,
          occurrence.isShown ∧ occurrence.name = reference.path ∧ occurrence.many) := by
  have read : innerTypeRefs (String.ofList type.text) =
      (mergeMentions (mentionsOf (type.occurrences false))).map fun mention =>
        { path := mention.1, many := mention.2 } := by
    rw [innerTypeRefs, String.toList_ofList, type.normalize_text,
      mentions_text spelled (Nat.lt_succ_self _)]
  rw [read]
  constructor
  · have paths : (mergeMentions (mentionsOf (type.occurrences false))).map
        (TypeRef.path ∘ fun mention => { path := mention.1, many := mention.2 }) =
          OrderedMap.keys (mergeMentions (mentionsOf (type.occurrences false))) := rfl
    rw [List.map_map, paths, keys_mergeMentions, OrderedMap.keys, mentionsOf, List.map_map]
    rfl
  · intro reference member
    obtain ⟨mention, held, rfl⟩ := List.mem_map.mp member
    rw [many_of_mem_mergeMentions held]
    simp only [mentionsOf, List.mem_map, List.mem_filter, Prod.mk.injEq, and_assoc]

def plainType (name : Identifier) (arguments : List TypeTerm) : TypeTerm :=
  .path ⟨name, []⟩ arguments

def wheelType : TypeTerm :=
  let wheel := plainType (.ofName "Wheel" (by decide) (by decide) (by decide)) []
  let gear := plainType (.ofName "Gear" (by decide) (by decide) (by decide)) []
  let option := plainType (.ofName "Option" (by decide) (by decide) (by decide)) [wheel]
  let vector := plainType (.ofName "Vec" (by decide) (by decide) (by decide))
    [.array option ⟨['4'], by decide, List.forall_mem_singleton.mpr (by decide)⟩]
  .marked (.outliving outerLifetime) (.tuple [wheel, gear, vector])

theorem innerTypeRefs_paths_of_wheels :
    wheelType.text = "&'a (Wheel, Gear, Vec<[Option<Wheel>; 4]>)".toList ∧ wheelType.isSpelled ∧
      (innerTypeRefs (String.ofList wheelType.text)).map TypeRef.path = ["Wheel", "Gear"] := by
  have shown : OrderedMap.distinct
      (((wheelType.occurrences false).filter Occurrence.isShown).map Occurrence.name) =
        ["Wheel", "Gear"] := by
    decide +kernel
  exact ⟨by decide, by decide, (innerTypeRefs_paths wheelType (by decide)).1.trans shown⟩

def accentedType : TypeTerm :=
  plainType (.ofName "Größe" (by decide) (by decide) (by decide)) []

/-- A name with other letters is left out, and so is a type behind a lifetime with other letters. -/
theorem innerTypeRefs_omits_size :
    accentedType.text = "Größe".toList ∧
      (accentedType.occurrences false).map Occurrence.isListed = [true] ∧
      innerTypeRefs "Größe" = [] ∧ innerTypeRefs "&'é Foo" = [] := by
  decide +kernel

end References

end CrateAtlas.TypeText
