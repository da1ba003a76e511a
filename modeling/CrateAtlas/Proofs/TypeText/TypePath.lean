import CrateAtlas.Proofs.TypeText.Qualifiers

/-!
The path of a type as it is written. Main statement: the path of a qualified type is its
identifiers, joined, exactly when all lifetimes in front of it are spelled with word characters.
-/

namespace CrateAtlas.TypeText

open Text

section Narrowing

variable {rest : List Char}

def Space.single : Space where
  text := [' ']
  blank := by simp [isBlank]
  filled := by simp

theorem Space.collapse (space : Space)
    (head : ∀ character ∈ rest.head?, isBlank character = false) :
    collapseRuns false (space.text ++ rest) = ' ' :: collapseRuns false rest := by
  rw [collapseRuns_append head, collapseRuns_blanks space.blank]
  simp [space.filled]

def Qualifier.narrow : Qualifier → Qualifier
  | .reference gap => .reference gap.narrow
  | .lifetime named _ => .lifetime named .single
  | .word keyword known _ => .word keyword known .single
  | .pointer keyword known _ => .pointer keyword known .single

theorem Qualifier.isSpelled_narrow (qualifier : Qualifier) :
    qualifier.narrow.isSpelled = qualifier.isSpelled := by
  cases qualifier <;> rfl

theorem collapse_keyword {words : List String} (visible : VisibleWords words)
    (filled : "" ∉ words) {keyword : String} (known : keyword ∈ words) (space : Space)
    (head : ∀ character ∈ rest.head?, isBlank character = false) :
    collapseRuns false (keyword.toList ++ (space.text ++ rest)) =
      keyword.toList ++ ' ' :: collapseRuns false rest := by
  have some : keyword.toList ≠ [] := fun nothing =>
    filled (String.toList_eq_nil_iff.mp nothing ▸ known)
  rw [collapseRuns_visible_append some (visible keyword known), space.collapse head]

theorem Qualifier.collapse (qualifier : Qualifier)
    (head : ∀ character ∈ rest.head?, isBlank character = false) :
    collapseRuns false (qualifier.text ++ rest) =
      qualifier.narrow.text ++ collapseRuns false rest := by
  cases qualifier with
  | reference gap =>
      rw [text, List.cons_append, collapseRuns, if_neg (by decide), gap.collapse head]
      rfl
  | lifetime named space =>
      have visible : ∀ character ∈ '\'' :: named.name, isBlank character = false :=
        List.forall_mem_cons.mpr ⟨by decide, fun character member =>
          isBlank_of_isIdentifierChar (named.letters character member)⟩
      rw [text, ← List.cons_append, List.append_assoc,
        collapseRuns_visible_append (by simp) visible, space.collapse head]
      simp [narrow, text, Space.single]
  | word keyword known space =>
      rw [text, List.append_assoc,
        collapse_keyword visibleWords_plain (by simp [plainWords]) known space head]
      simp [narrow, text, Space.single]
  | pointer keyword known space =>
      rw [text, List.append_assoc,
        collapse_keyword visibleWords_pointer (by simp [pointerWords]) known space head]
      simp [narrow, text, Space.single]

theorem collapse_qualified {base : List Char} (unqualified : Unqualified base)
    (qualifiers : List Qualifier) (trail : List Char) :
    collapseRuns false (qualified qualifiers base ++ trail) =
      qualified (qualifiers.map Qualifier.narrow) (collapseRuns false (base ++ trail)) := by
  induction qualifiers with
  | nil => rfl
  | cons qualifier others ih =>
      obtain ⟨first, letters, shape, plain⟩ := unqualified.qualified_cons others
      have head : ∀ character ∈ (qualified others base ++ trail).head?,
          isBlank character = false := by
        rw [shape]
        simpa using plain.visible
      rw [qualified_cons, List.append_assoc, qualifier.collapse head, ih, List.map_cons,
        qualified_cons]

theorem normalize_qualified (qualifiers : List Qualifier) (path : WrittenPath)
    (lead trail : Gap) :
    normalize (lead.text ++ (qualified qualifiers path.text ++ trail.text)) =
      qualified (qualifiers.map Qualifier.narrow) path.narrow.text := by
  obtain ⟨first, letters, shape, plain⟩ := path.unqualified.qualified_cons qualifiers
  have head : ∀ character ∈ (qualified qualifiers path.text ++ trail.text).head?,
      isBlank character = false := by
    rw [shape]
    simpa using plain.visible
  have regroup (base : List Char) : qualified (qualifiers.map Qualifier.narrow)
      (base ++ trail.narrow.text) =
        qualified (qualifiers.map Qualifier.narrow) base ++ trail.narrow.text := by
    rw [qualified, qualified, List.append_assoc]
  rw [Text.normalize, collapseBlanks, lead.collapse head,
    collapse_qualified path.unqualified, path.collapse, trail.collapse_text, regroup,
    trim_blanks_append lead.narrow.blank, trim_append_blanks trail.narrow.blank,
    trim_of_trimmed (path.narrow.unqualified.trimmed_qualified _)]

end Narrowing

section Stopping

variable {stub text : List Char} {first : Char}

theorem trimEnd_cons (visible : isBlank first = false) (rest : List Char) :
    ∃ left, trimEnd (first :: rest) = first :: left := by
  obtain ⟨tail, whole⟩ := List.rdropWhile_prefix isBlank (l := first :: rest)
  have filled : trimEnd (first :: rest) ≠ [] := trimEnd_ne_nil rfl visible
  obtain ⟨head, left, shape⟩ := List.exists_cons_of_ne_nil filled
  rw [← trimEnd_eq_rdropWhile, shape, List.cons_append] at whole
  exact ⟨left, by rw [shape, (List.cons.inj whole).1]⟩

/-- A text with a single blank behind characters that no step of reading a path looks at. -/
structure Interrupted (text : List Char) : Prop where
  shape : ∃ (stub : List Char) (first : Char) (rest : List Char),
    text = stub ++ ' ' :: first :: rest ∧ stub ≠ [] ∧
      (∀ character ∈ stub, Plain character) ∧ Plain first

theorem interrupted_append (filled : stub ≠ []) (plain : ∀ character ∈ stub, Plain character)
    (visible : Plain first) (rest : List Char) :
    Interrupted (stub ++ ' ' :: first :: rest) :=
  ⟨stub, first, rest, rfl, filled, plain, visible⟩

theorem Interrupted.head (interrupted : Interrupted text) :
    ∀ character ∈ text.head?, Plain character := by
  obtain ⟨stub, first, rest, rfl, filled, plain, _⟩ := interrupted
  intro character leads
  rw [List.head?_append_of_ne_nil _ filled] at leads
  exact plain character (List.mem_of_head? leads)

theorem Interrupted.mem (interrupted : Interrupted text) : ' ' ∈ text := by
  obtain ⟨stub, first, rest, rfl, _⟩ := interrupted
  simp

theorem Interrupted.trim (interrupted : Interrupted text) : Interrupted (trim text) := by
  have head : ∀ character ∈ text.head?, isBlank character = false :=
    fun character leads => (interrupted.head character leads).visible
  obtain ⟨stub, first, rest, rfl, filled, plain, visible⟩ := interrupted
  obtain ⟨left, shape⟩ := trimEnd_cons visible.visible rest
  rw [Text.trim, trimStart_of_head head, List.append_cons, trimEnd_append (by rw [shape]; simp),
    shape, ← List.append_cons]
  exact interrupted_append filled plain visible left

theorem Interrupted.dropAngles (interrupted : Interrupted text) :
    Interrupted (dropAngles 0 ' ' text) := by
  obtain ⟨stub, first, rest, rfl, filled, plain, visible⟩ := interrupted
  have angles : ∀ character ∈ stub ++ [' ', first],
      character ≠ '<' ∧ character ≠ '>' ∧ character ≠ '-' := by
    simp only [List.forall_mem_append, List.forall_mem_cons]
    exact ⟨fun character member => (plain character member).bracket, by decide,
      visible.bracket, by simp⟩
  have kept := dropAngles_plain angles rest
  simp only [List.append_assoc, List.cons_append, List.nil_append] at kept
  rw [kept]
  exact interrupted_append filled plain visible _

theorem Interrupted.tightenSeparators (interrupted : Interrupted text) :
    Interrupted (tightenSeparators [] false false text) := by
  obtain ⟨stub, first, rest, rfl, filled, plain, visible⟩ := interrupted
  have single : ∀ character ∈ [first], Plain character := List.forall_mem_singleton.mpr visible
  have behind : TypeText.tightenSeparators [' '] false false (first :: rest) =
      ' ' :: first :: TypeText.tightenSeparators [] false false rest :=
    tightenSeparators_plain (by simp) single rest
  rw [tightenSeparators_plain filled plain, tightenSeparators_blank (by decide),
    if_neg (by simp), behind]
  exact interrupted_append filled plain visible _

theorem Interrupted.dropHangingSeparators (interrupted : Interrupted text) :
    Interrupted (dropHangingSeparators false text) := by
  obtain ⟨stub, first, rest, rfl, filled, plain, visible⟩ := interrupted
  have colons : ∀ character ∈ stub ++ [' ', first], character ≠ ':' := by
    simp only [List.forall_mem_append, List.forall_mem_cons]
    exact ⟨fun character member => (plain character member).separator.1, by decide,
      visible.separator.1, by simp⟩
  have kept := dropHangingSeparators_free colons rest
  simp only [List.append_assoc, List.cons_append, List.nil_append] at kept
  rw [kept]
  exact interrupted_append filled plain visible _

theorem interrupted_normalize (filled : stub ≠ []) (plain : ∀ character ∈ stub, Plain character)
    (space : Space) (visible : Plain first) (rest : List Char) :
    Interrupted (normalize (stub ++ (space.text ++ first :: rest))) := by
  have letters : ∀ character ∈ stub, isBlank character = false :=
    fun character member => (plain character member).visible
  rw [Text.normalize, collapseBlanks, collapseRuns_visible_append filled letters,
    space.collapse (by simpa using visible.visible), collapseRuns,
    if_neg (by simp [visible.visible])]
  exact (interrupted_append filled plain visible _).trim

theorem mem_stripGenericsChars (filled : stub ≠ [])
    (plain : ∀ character ∈ stub, Plain character) (space : Space) (visible : Plain first)
    (rest : List Char) :
    ' ' ∈ stripGenericsChars (stub ++ (space.text ++ first :: rest)) := by
  have normal := interrupted_normalize filled plain space visible rest
  have noBracket : (normalize (stub ++ (space.text ++ first :: rest))).head? ≠ some '<' :=
    fun bracket => (normal.head '<' bracket).bracket.1 rfl
  rw [stripGenericsChars, dropTraitClause_of_head noBracket]
  exact normal.dropAngles.tightenSeparators.dropHangingSeparators.trim.mem

theorem Stuck.mem_stripGenericsChars {text : List Char} (stuck : Stuck text) :
    ' ' ∈ stripGenericsChars text := by
  obtain ⟨_, mark, named, space, first, rest, rfl, marked, _, visible⟩ := stuck
  have plain : ∀ character ∈ mark ++ named.name, Plain character := by
    refine List.forall_mem_append.mpr ⟨?_, fun character member =>
      plain_of_isIdentifierChar (named.letters character member)⟩
    rcases marked with rfl | rfl
    · simp
    · exact List.forall_mem_singleton.mpr ⟨by decide, by decide, by decide⟩
  have filled : mark ++ named.name ≠ [] := by simp [named.filled]
  have whole := TypeText.mem_stripGenericsChars filled plain space visible rest
  rwa [List.append_assoc] at whole

theorem WrittenPath.not_mem_plain (path : WrittenPath) : ' ' ∉ path.plain.text := by
  have name (name : Identifier) : ' ' ∉ name.text := by
    intro member
    exact absurd (name.letters ' ' member) (by decide)
  rw [text_plain]
  simp [name, List.flatMap_map, Link.text_plain]

end Stopping

section Paths

def writtenType (lead trail : Gap) (qualifiers : List Qualifier) (path : WrittenPath) : String :=
  String.ofList (lead.text ++ (qualified qualifiers path.text ++ trail.text))

theorem WrittenPath.stripGenericsChars_narrow (path : WrittenPath) :
    TypeText.stripGenericsChars path.narrow.text = path.plain.text := by
  have stripped := path.narrow.stripGenericsChars .none .none
  rw [Gap.text_none, List.nil_append, List.append_nil] at stripped
  rw [stripped, ← path.narrow.toList_names, path.names_narrow, path.toList_names]

theorem typePathChars_names (path : WrittenPath) (qualifiers : List Qualifier)
    (lead trail : Gap) :
    typePathChars (writtenType lead trail qualifiers path).toList = path.plain.text ↔
      ∀ qualifier ∈ qualifiers, qualifier.isSpelled := by
  have narrowed : (∀ qualifier ∈ qualifiers.map Qualifier.narrow, qualifier.isSpelled) ↔
      ∀ qualifier ∈ qualifiers, qualifier.isSpelled := by
    simp [Qualifier.isSpelled_narrow]
  rw [typePathChars, writtenType, String.toList_ofList, normalize_qualified, ← narrowed]
  rcases dropQualifiers_qualified path.narrow.unqualified (qualifiers.map Qualifier.narrow) with
    ⟨spelled, read⟩ | ⟨⟨qualifier, member, unspelled⟩, stuck⟩
  · rw [read, path.stripGenericsChars_narrow]
    exact iff_of_true rfl spelled
  · refine iff_of_false (fun same => ?_) fun spelled => ?_
    · exact path.not_mem_plain (same ▸ stuck.mem_stripGenericsChars)
    · rw [spelled qualifier member] at unspelled
      simp at unspelled

/-- Without its generic arguments a path is its identifiers, joined, and so is the path of a type
behind qualifiers, unless some lifetime has other characters than word characters. Hence types that
differ only in their arguments, blanks and qualifiers have the same path. -/
theorem typePathOf_names (path : WrittenPath) (qualifiers : List Qualifier) (lead trail : Gap) :
    stripGenerics (writtenType lead trail [] path) = joinWith "::" path.names ∧
      (typePathOf (writtenType lead trail qualifiers path) = joinWith "::" path.names ↔
        ∀ qualifier ∈ qualifiers, qualifier.isSpelled) ∧
      ∀ (other : WrittenPath) (before after : Gap) (others : List Qualifier),
        other.names = path.names →
        (∀ qualifier ∈ qualifiers ++ others, qualifier.isSpelled) →
          typePathOf (writtenType lead trail qualifiers path) =
            typePathOf (writtenType before after others other) := by
  have names (path : WrittenPath) (qualifiers : List Qualifier) (lead trail : Gap) :
      typePathOf (writtenType lead trail qualifiers path) = joinWith "::" path.names ↔
        ∀ qualifier ∈ qualifiers, qualifier.isSpelled := by
    rw [← String.toList_inj, path.toList_names, typePathOf, String.toList_ofList]
    exact typePathChars_names path qualifiers lead trail
  refine ⟨?_, names path qualifiers lead trail, ?_⟩
  · apply String.toList_injective
    rw [path.toList_names, ← path.stripGenericsChars lead trail, stripGenerics, writtenType,
      String.toList_ofList, String.toList_ofList]
    rfl
  · intro other before after others same spelled
    obtain ⟨mine, theirs⟩ := List.forall_mem_append.mp spelled
    rw [(names path qualifiers lead trail).mpr mine,
      (names other others before after).mpr theirs, same]

def single : Gap := Space.single.toGap

def rows : WrittenPath where
  head :=
    { name := .ofName "Repo" (by decide) (by decide) (by decide)
      arguments := .angled single ⟨"T, fn() -> u8".toList, by decide⟩ }
  links := [{
    before := .none
    after := single
    segment := ⟨.ofName "Row" (by decide) (by decide) (by decide), .none⟩ }]

def plainRows : WrittenPath where
  head :=
    { name := .ofName "Repo" (by decide) (by decide) (by decide)
      arguments := .turbofish .none .none ⟨"u8".toList, by decide⟩ }
  links := [{
    before := .none
    after := .none
    segment := ⟨.ofName "Row" (by decide) (by decide) (by decide), .none⟩ }]

def outerLifetime : Lifetime := ⟨['a'], by decide, List.forall_mem_singleton.mpr (by decide)⟩

def borrowed : List Qualifier :=
  [.reference .none, .lifetime outerLifetime .single, .word "mut" (by decide) .single]

theorem typePathOf_names_of_rows :
    writtenType single single borrowed rows = " &'a mut Repo <T, fn() -> u8>:: Row " ∧
      writtenType single single [] plainRows = " Repo::<u8>::Row " ∧
      typePathOf " &'a mut Repo <T, fn() -> u8>:: Row " = typePathOf " Repo::<u8>::Row " := by
  have left : writtenType single single borrowed rows =
      " &'a mut Repo <T, fn() -> u8>:: Row " := by decide +kernel
  have right : writtenType single single [] plainRows = " Repo::<u8>::Row " := by
    decide +kernel
  have same := (typePathOf_names rows borrowed single single).2.2 plainRows single single []
    rfl (by decide)
  exact ⟨left, right, by rwa [left, right] at same⟩

/-- A lifetime with other letters stays in front of the path, as a whole or in part. -/
theorem typePathOf_keeps_lifetime :
    typePathOf "&'é Foo" = "'é Foo" ∧ typePathOf "&'aé Foo" = "é Foo" := by
  decide +kernel

end Paths

end CrateAtlas.TypeText
