import CrateAtlas.Proofs.TypeText.Spacing

/-!
References to traits as they are written. Main statement: a reference is the names of the path,
joined, and the tokens of its arguments with their spacing normalized.
-/

namespace CrateAtlas.TypeText

open Text

section Writing

structure WrittenPath.IsBare (path : WrittenPath) : Prop where
  head : path.head.arguments = .none
  links : ∀ link ∈ path.links, link.segment.arguments = .none

/-- What stands between a path and the bracket that opens its arguments. -/
inductive Opening where
  | angled (gap : Gap)
  | turbofish (gap inner : Gap)

def Opening.text : Opening → List Char
  | .angled gap => gap.text
  | .turbofish gap inner => gap.text ++ ':' :: ':' :: inner.text

def Opening.arguments (contents : Contents) : Opening → Arguments
  | .angled gap => .angled gap contents
  | .turbofish gap inner => .turbofish gap inner contents

def rootText : Option Gap → List Char
  | none => []
  | some gap => ':' :: ':' :: gap.text

/-- A trait as it is written: a path, which may begin at the root, with generic arguments. -/
structure WrittenTrait where
  lead : Gap
  root : Option Gap
  path : WrittenPath
  bare : path.IsBare
  opening : Opening
  inner : List Spaced
  last : Gap
  closed : anglesMatch 0 '<' (spacedText inner ++ last.text)
  trail : Gap

namespace WrittenTrait

def tokens (trait : WrittenTrait) : List Spaced :=
  ⟨.none, .mark '<' (by simp)⟩ :: (trait.inner ++ [⟨trait.last, .mark '>' (by simp)⟩])

def chars (trait : WrittenTrait) : List Char :=
  trait.lead.text ++ (rootText trait.root ++ (trait.path.text ++ (trait.opening.text ++
    (spacedText trait.tokens ++ trait.trail.text))))

def text (trait : WrittenTrait) : String :=
  String.ofList trait.chars

/-- The traits are written with the same tokens. -/
structure SameTokens (trait other : WrittenTrait) : Prop where
  root : trait.root.isSome = other.root.isSome
  names : trait.path.names = other.path.names
  arguments : trait.inner.map Spaced.lexeme = other.inner.map Spaced.lexeme

end WrittenTrait

end Writing

section Reading

variable {path : WrittenPath} {arguments : Arguments}

def WrittenPath.withArguments (path : WrittenPath) (arguments : Arguments) : WrittenPath :=
  match path.links.getLast? with
  | none => { path with head := ⟨path.head.name, arguments⟩ }
  | some last =>
      { path with
        links := path.links.dropLast ++ [{ last with segment := ⟨last.segment.name, arguments⟩ }] }

theorem WrittenPath.withArguments_cases (path : WrittenPath) (arguments : Arguments) :
    (path.links = [] ∧ path.withArguments arguments = ⟨⟨path.head.name, arguments⟩, []⟩) ∨
      ∃ earlier last, path.links = earlier ++ [last] ∧
        path.withArguments arguments = ⟨path.head, earlier ++
          [⟨last.before, last.after, ⟨last.segment.name, arguments⟩⟩]⟩ := by
  rcases List.eq_nil_or_concat path.links with none | ⟨earlier, last, some⟩
  · refine .inl ⟨none, ?_⟩
    simp [withArguments, none]
  · rw [List.concat_eq_append] at some
    refine .inr ⟨earlier, last, some, ?_⟩
    simp [withArguments, some]

theorem WrittenPath.IsBare.text_withArguments (bare : path.IsBare) (arguments : Arguments) :
    (path.withArguments arguments).text = path.text ++ arguments.text := by
  rcases path.withArguments_cases arguments with ⟨none, shape⟩ | ⟨earlier, last, some, shape⟩
  · simp [shape, WrittenPath.text, Segment.text, bare.head, none, Arguments.text]
  · have lastBare := bare.links last (by simp [some])
    simp [shape, WrittenPath.text, some, Link.text, Segment.text, lastBare, Arguments.text]

theorem WrittenPath.names_withArguments (path : WrittenPath) (arguments : Arguments) :
    (path.withArguments arguments).names = path.names := by
  rcases path.withArguments_cases arguments with ⟨none, shape⟩ | ⟨earlier, last, some, shape⟩
  · simp [shape, names, none]
  · simp [shape, names, some]

theorem WrittenPath.IsBare.narrow_withArguments (bare : path.IsBare) (arguments : Arguments) :
    (path.withArguments arguments).narrow.text = path.narrow.text ++ arguments.narrow.text := by
  have whole : collapseRuns false ((path.withArguments arguments).text ++ []) = _ :=
    (path.withArguments arguments).collapse []
  have parts : collapseRuns false (path.text ++ (arguments.text ++ [])) = _ :=
    path.collapse (arguments.text ++ [])
  rw [arguments.collapse, ← List.append_assoc, ← bare.text_withArguments arguments] at parts
  rw [parts] at whole
  simpa [collapseRuns] using whole.symm

theorem Opening.text_arguments (opening : Opening) (contents : Contents) :
    (opening.arguments contents).text = opening.text ++ '<' :: (contents.text ++ ['>']) := by
  cases opening <;> simp [arguments, text, Arguments.text]

def Opening.narrow : Opening → Opening
  | .angled gap => .angled gap.narrow
  | .turbofish gap inner => .turbofish gap.narrow inner.narrow

theorem Opening.narrow_arguments (opening : Opening) (contents : Contents) :
    (opening.arguments contents).narrow = opening.narrow.arguments contents.narrow := by
  cases opening <;> rfl

variable (trait : WrittenTrait)

namespace WrittenTrait

def contents : Contents where
  text := spacedText trait.inner ++ trait.last.text
  closed := trait.closed

def whole : WrittenPath :=
  trait.path.withArguments (trait.opening.arguments trait.contents)

theorem text_tokens :
    spacedText trait.tokens = '<' :: (trait.contents.text ++ ['>']) := by
  simp [tokens, spacedText, contents, Lexeme.text]

theorem chars_eq :
    trait.chars = trait.lead.text ++ (rootText trait.root ++
      (trait.whole.text ++ trait.trail.text)) := by
  rw [chars, whole, trait.bare.text_withArguments, Opening.text_arguments, text_tokens]
  simp

theorem narrow_contents :
    '<' :: (trait.contents.narrow.text ++ ['>']) =
      spacedText (regap (fun _ _ gap => gap.narrow) none trait.tokens) := by
  have spaced := collapse_spacedText trait.tokens none []
  rw [text_tokens, List.append_nil, trait.contents.collapse []] at spaced
  simpa [collapseRuns] using spaced

theorem whole_narrow :
    trait.whole.narrow.text = trait.path.narrow.text ++ (trait.opening.narrow.text ++
      spacedText (regap (fun _ _ gap => gap.narrow) none trait.tokens)) := by
  rw [whole, trait.bare.narrow_withArguments, Opening.narrow_arguments, Opening.text_arguments,
    narrow_contents]

end WrittenTrait

end Reading

section Roots

variable {root : Option Gap}

theorem rootText_collapse (root : Option Gap) {rest : List Char}
    (head : ∀ character ∈ rest.head?, isBlank character = false) :
    collapseRuns false (rootText root ++ rest) =
      rootText (root.map Gap.narrow) ++ collapseRuns false rest := by
  cases root with
  | none => rfl
  | some gap =>
      simp only [rootText, Option.map_some, List.cons_append]
      rw [collapse_colons, gap.collapse head]

theorem head_rootText (root : Option Gap) {rest : List Char}
    (head : ∀ character ∈ rest.head?, isBlank character = false) :
    ∀ character ∈ (rootText root ++ rest).head?, isBlank character = false := by
  cases root with
  | none => exact head
  | some gap => simp [rootText, isBlank]

theorem trimmed_rooted (path : WrittenPath) (root : Option Gap) :
    Trimmed (rootText root ++ path.text) where
  head := by
    have head := head_rootText root (path.head_visible [])
    rwa [List.append_nil] at head
  last := by
    obtain ⟨first, rest, shape, _⟩ := path.unqualified.head
    rw [List.getLast?_append_of_ne_nil _ (by simp [shape])]
    exact path.trimmed.last

theorem normalize_rooted (path : WrittenPath) (root : Option Gap) (lead trail : Gap) :
    normalize (lead.text ++ (rootText root ++ (path.text ++ trail.text))) =
      rootText (root.map Gap.narrow) ++ path.narrow.text := by
  rw [Text.normalize, collapseBlanks, lead.collapse (head_rootText root (path.head_visible _)),
    rootText_collapse root (path.head_visible _), path.collapse, trail.collapse_text,
    ← List.append_assoc (rootText _), trim_blanks_append lead.narrow.blank,
    trim_append_blanks trail.narrow.blank, trim_of_trimmed (trimmed_rooted path.narrow _)]

theorem dropQualifiers_rooted (path : WrittenPath) (root : Option Gap) :
    dropQualifiers (rootText root ++ path.text) = rootText root ++ path.text := by
  have trimmed := trimmed_rooted path root
  have once : dropQualifiersOnce (rootText root ++ path.text) = rootText root ++ path.text := by
    cases root with
    | none => exact path.unqualified.dropQualifiersOnce
    | some gap =>
        rw [rootText, List.cons_append] at trimmed ⊢
        rw [dropQualifiersOnce_eq, dropReference_of_head (by decide),
          dropLifetime_of_head (by decide), dropFirstWord_of_none (noneLeads_plain (by decide) _),
          dropFirstWord_of_none (noneLeads_pointer (by decide) _), trim_of_trimmed trimmed]
  rw [dropQualifiers, trim_of_trimmed trimmed, settle_eq_iterate, Function.iterate_fixed once]

theorem WrittenPath.plain_narrow (path : WrittenPath) :
    path.narrow.plain.text = path.plain.text := by
  rw [← path.narrow.toList_names, path.names_narrow, path.toList_names]

theorem WrittenPath.stripped_rooted (path : WrittenPath) (gap : Gap) :
    trim (dropHangingSeparators false (tightenSeparators [] false false
      (TypeText.dropAngles 0 ' ' (dropTraitClause (rootText (some gap) ++ path.text))))) =
        rootText (some .none) ++ path.plain.text := by
  obtain ⟨blanks, blank, read⟩ := (readsAs_links path.links).arguments path.head.arguments
  have whole : rootText (some .none) ++ path.plain.text =
      ':' :: ':' :: (path.head.name.text ++ (path.links.map Link.plain).flatMap Link.text) := by
    rw [path.text_plain]
    rfl
  have trimmed := trimmed_rooted path.plain (some .none)
  rw [whole] at trimmed ⊢
  rw [rootText, List.cons_append, List.cons_append,
    dropTraitClause_of_head (by simp), dropAngles_colons, gap.dropAngles, path.dropAngles,
    tightenSeparators_colons, tightenSeparators_skip gap.blank,
    tightenSeparators_plain path.head.name.filled path.head.name.plain, List.reverse_nil,
    List.nil_append, path.head.name.behindColons, read, ← List.append_assoc, ← List.cons_append,
    ← List.cons_append, trim_append_blanks blank, trim_of_trimmed trimmed]

theorem stripGenericsChars_rooted (path : WrittenPath) (root : Option Gap) :
    stripGenericsChars (rootText root ++ path.text) =
      rootText (root.map fun _ => .none) ++ path.plain.text := by
  have normal := normalize_rooted path root .none .none
  rw [Gap.text_none, List.nil_append, List.append_nil] at normal
  rw [TypeText.stripGenericsChars, normal, ← path.plain_narrow]
  cases root with
  | none => exact path.narrow.stripped
  | some gap => exact path.narrow.stripped_rooted gap.narrow

end Roots

section Characters

def IsPathChar (character : Char) : Prop :=
  isIdentifierChar character ∨ isBlank character ∨ character = ':'

theorem IsPathChar.ne {character mark : Char} (ofPath : IsPathChar character)
    (other : isIdentifierChar mark = false ∧ isBlank mark = false ∧ mark ≠ ':') :
    character ≠ mark := by
  rintro rfl
  rcases ofPath with letter | blank | colon
  · simp [other.1] at letter
  · simp [other.2.1] at blank
  · exact other.2.2 colon

theorem isPathChar_colon : IsPathChar ':' := .inr (.inr rfl)

theorem Gap.isPathChar (gap : Gap) : ∀ character ∈ gap.text, IsPathChar character :=
  fun character member => .inr (.inl (gap.blank character member))

theorem Identifier.isPathChar (name : Identifier) : ∀ character ∈ name.text, IsPathChar character :=
  fun character member => .inl (name.letters character member)

theorem isPathChar_rootText (root : Option Gap) :
    ∀ character ∈ rootText root, IsPathChar character := by
  cases root with
  | none => simp [rootText]
  | some gap =>
      simp only [rootText, List.forall_mem_cons]
      exact ⟨isPathChar_colon, isPathChar_colon, gap.isPathChar⟩

theorem Opening.isPathChar (opening : Opening) :
    ∀ character ∈ opening.text, IsPathChar character := by
  cases opening with
  | angled gap => exact gap.isPathChar
  | turbofish gap inner =>
      simp only [text, List.forall_mem_append, List.forall_mem_cons]
      exact ⟨gap.isPathChar, isPathChar_colon, isPathChar_colon, inner.isPathChar⟩

theorem WrittenPath.IsBare.isPathChar {path : WrittenPath} (bare : path.IsBare) :
    ∀ character ∈ path.text, IsPathChar character := by
  intro character member
  rw [text, Segment.text, bare.head, Arguments.text, List.append_nil, List.mem_append,
    List.mem_flatMap] at member
  rcases member with head | ⟨link, found, member⟩
  · exact path.head.name.isPathChar character head
  · rw [Link.text, Segment.text, bare.links link found, Arguments.text, List.append_nil] at member
    simp only [List.mem_append, List.mem_cons] at member
    rcases member with before | rfl | rfl | after | name
    · exact link.before.isPathChar character before
    · exact isPathChar_colon
    · exact isPathChar_colon
    · exact link.after.isPathChar character after
    · exact link.segment.name.isPathChar character name

theorem WrittenPath.IsBare.narrow {path : WrittenPath} (bare : path.IsBare) :
    path.narrow.IsBare where
  head := by rw [WrittenPath.narrow, Segment.narrow, bare.head]; rfl
  links := by
    intro link member
    obtain ⟨original, found, rfl⟩ := List.mem_map.mp member
    rw [Link.narrow, Segment.narrow, bare.links original found]
    rfl

end Characters

section References

variable (trait : WrittenTrait)

namespace WrittenTrait

theorem normalize_chars :
    normalize trait.chars = rootText (trait.root.map Gap.narrow) ++ trait.whole.narrow.text := by
  rw [chars_eq, normalize_rooted]

theorem typePathChars_chars :
    typePathChars trait.chars =
      rootText (trait.root.map fun _ => .none) ++ trait.path.plain.text := by
  have plain : trait.whole.narrow.plain.text = trait.path.plain.text := by
    rw [WrittenPath.plain_narrow, ← trait.whole.toList_names, whole,
      WrittenPath.names_withArguments, trait.path.toList_names]
  rw [typePathChars, normalize_chars, dropQualifiers_rooted, stripGenericsChars_rooted, plain,
    Option.map_map]
  rfl

def front : List Char :=
  rootText (trait.root.map Gap.narrow) ++ (trait.path.narrow.text ++ trait.opening.narrow.text)

theorem front_isPathChar : ∀ character ∈ trait.front, IsPathChar character := by
  simp only [front, List.forall_mem_append]
  exact ⟨isPathChar_rootText _, trait.bare.narrow.isPathChar, trait.opening.narrow.isPathChar⟩

theorem front_filled : trait.front ≠ [] := by
  obtain ⟨first, rest, shape, _⟩ := trait.path.narrow.unqualified.head
  simp [front, shape]

def narrowText : List Char :=
  spacedText (regap (fun _ _ gap => gap.narrow) none trait.tokens)

theorem narrowText_eq : trait.narrowText = '<' :: (trait.contents.narrow.text ++ ['>']) :=
  trait.narrow_contents.symm

theorem dropQualifiers_chars :
    dropQualifiers (normalize trait.chars) = trait.front ++ trait.narrowText := by
  rw [normalize_chars, dropQualifiers_rooted, whole_narrow, front, narrowText, List.append_assoc,
    List.append_assoc]

theorem takeWhile_chars :
    (trait.front ++ trait.narrowText).takeWhile (· ≠ '<') = trait.front ∧
      (trait.front ++ trait.narrowText).dropWhile (· ≠ '<') = trait.narrowText := by
  have free : ∀ character ∈ trait.front, decide (character ≠ '<') = true := by
    intro character member
    exact decide_eq_true ((trait.front_isPathChar character member).ne (by decide))
  rw [List.takeWhile_append_of_pos free, List.dropWhile_append_of_pos free, narrowText_eq]
  simp

theorem genericArgsChars_chars :
    genericArgsChars trait.chars = spacedText (regap settled none trait.tokens) := by
  have noParen : contains '(' trait.front = false := by
    rw [contains, List.any_eq_false]
    intro character member
    simpa using (trait.front_isPathChar character member).ne (by decide)
  have ends : endsWith ">" (trait.front ++ trait.narrowText) = true := by
    rw [endsWith, List.isSuffixOf_iff_suffix, narrowText_eq]
    exact ⟨trait.front ++ '<' :: trait.contents.narrow.text, by simp⟩
  have arguments : trait.narrowText.isEmpty = false := by
    rw [narrowText_eq]
    rfl
  have path : trait.front.isEmpty = false := by simpa using trait.front_filled
  rw [genericArgsChars, dropQualifiers_chars]
  simp only [trait.takeWhile_chars, noParen, ends, arguments, path, Bool.or_self, Bool.not_true,
    Bool.false_eq_true, if_false]
  refine respace_settles ?_
  rw [tokens, lastMark, lastMark_concat, Lexeme.mark?]
  decide

theorem traitRefOf_text :
    traitRefOf trait.text = String.ofList
      (rootText (trait.root.map fun _ => .none) ++ trait.path.plain.text ++
        spacedText (regap settled none trait.tokens)) := by
  rw [traitRefOf, typePathOf, genericArgsOf, text, String.toList_ofList, typePathChars_chars,
    genericArgsChars_chars, ← String.ofList_append]

variable {trait} {other : WrittenTrait}

/-- Traits with the same tokens are one reference exactly when the gaps that are kept agree. -/
theorem SameTokens.traitRefOf_eq_iff (same : trait.SameTokens other) :
    traitRefOf trait.text = traitRefOf other.text ↔ SameGaps none trait.tokens other.tokens := by
  have roots : rootText (trait.root.map fun _ => .none) =
      rootText (other.root.map fun _ => .none) := by
    have present := same.root
    cases first : trait.root <;> cases second : other.root <;> simp_all
  have paths : trait.path.plain.text = other.path.plain.text := by
    rw [← trait.path.toList_names, same.names, other.path.toList_names]
  have tokens : trait.tokens.map Spaced.lexeme = other.tokens.map Spaced.lexeme := by
    simp [WrittenTrait.tokens, same.arguments]
  rw [traitRefOf_text, traitRefOf_text, String.ofList_inj, roots, paths, List.append_cancel_left_eq,
    settled_eq_iff_sameGaps tokens]

end WrittenTrait

end References

end CrateAtlas.TypeText
