import CrateAtlas.Proofs.ModulePath
import CrateAtlas.Proofs.Rust.ParsedUses
import CrateAtlas.Rust.Reader

/-!
Use declarations with groups. Main statement: a group is imported like its members behind the path
of the group, one by one, unless that path is `self` alone, which a group loses.
-/

namespace CrateAtlas.Rust

open CrateAtlas.Text

section Prefixes

variable {names lead : List String} {path : List Char}

/-- A path without the root in front of it and without `self` at its end. -/
def cleanedPath (path : List Char) : String :=
  let unrooted := (afterLead? "::" path).getD path
  let unselfed :=
    if endsWith "::self" unrooted then unrooted.take (unrooted.length - 6) else unrooted
  if unselfed = "self".toList then "" else String.ofList unselfed

theorem importPath_eq (base written : String) :
    importPath base written = cleanedPath
      (ModulePath.join [base, String.ofList (dropBlanks written.toList)]).toList := rfl

theorem afterLead?_colons (head : path.head? ≠ some ':') : afterLead? "::" path = none := by
  rw [← Option.not_isSome_iff_eq_none, Option.isSome_iff_exists]
  rintro ⟨rest, starts⟩
  rw [afterLead?_eq_some.mp starts] at head
  exact head rfl

theorem cleaned_rooted (head : path.head? ≠ some ':') :
    cleanedPath (':' :: ':' :: path) = cleanedPath path := by
  have rooted : afterLead? "::" (':' :: ':' :: path) = some path := afterLead?_eq_some.mpr rfl
  simp only [cleanedPath, rooted, afterLead?_colons head, Option.getD_some, Option.getD_none]

theorem cleaned_of_last (head : path.head? ≠ some ':')
    (last : ModulePath.lastSegment (String.ofList path) ≠ "self") :
    cleanedPath path = String.ofList path := by
  have noTail : endsWith "::self" path = false := by
    rw [endsWith, ← Bool.not_eq_true, List.isSuffixOf_iff_suffix]
    rintro ⟨front, rfl⟩
    apply last
    have free : ∀ character ∈ "self".toList, character ≠ ':' := by simp
    have cut : ModulePath.cutLast? (front ++ "::self".toList) = some (front, "self".toList) :=
      ModulePath.cutLast?_append free
    rw [ModulePath.lastSegment, String.toList_ofList, cut]
    rfl
  have noSelf : path ≠ "self".toList := by
    rintro rfl
    exact last (by decide)
  simp only [cleanedPath, afterLead?_colons head, Option.getD_none, noTail, if_false, noSelf,
    Bool.false_eq_true]

theorem cleaned_self (filled : path ≠ []) (head : path.head? ≠ some ':')
    (other : path ≠ "self".toList) :
    cleanedPath (path ++ "::self".toList) = String.ofList path := by
  have wholeHead : (path ++ "::self".toList).head? ≠ some ':' := by
    rwa [List.head?_append_of_ne_nil _ filled]
  have tail : endsWith "::self" (path ++ "::self".toList) = true := by
    rw [endsWith, List.isSuffixOf_iff_suffix]
    exact List.suffix_append _ _
  have front : (path ++ "::self".toList).take ((path ++ "::self".toList).length - 6) = path := by
    have length : (path ++ "::self".toList).length - 6 = path.length := by
      rw [List.length_append]
      rfl
    rw [length, List.take_left]
  simp only [cleanedPath, afterLead?_colons wholeHead, Option.getD_none, tail, if_true, front,
    other, if_false]

theorem Segments.head (segments : Segments names) (rest : List Char) :
    (pathText names).toList ++ rest ≠ [] ∧
      ((pathText names).toList ++ rest).head? ≠ some ':' := by
  obtain ⟨first, others, rfl⟩ := List.exists_cons_of_ne_nil segments.ne_nil
  have segment := segments.segment first (by simp)
  obtain ⟨character, more, shape⟩ := List.exists_cons_of_ne_nil
    (fun empty => segment.filled (String.toList_eq_nil_iff.mp empty))
  have noColon := segment.free
  rw [pathText, toList_joinWith, shape]
  rw [shape] at noColon
  simp only [List.mem_cons, not_or] at noColon
  simp [Ne.symm noColon.1]

theorem Segments.lastSegment (segments : Segments names) :
    some (ModulePath.lastSegment (pathText names)) = names.getLast? := by
  rcases List.eq_nil_or_concat names with rfl | ⟨earlier, last, rfl⟩
  · exact absurd rfl segments.ne_nil
  · rw [List.concat_eq_append] at segments ⊢
    have free : ∀ character ∈ last.toList, character ≠ ':' := by
      rintro _ member rfl
      exact (segments.segment last (by simp)).free member
    rw [List.getLast?_concat]
    by_cases more : earlier = []
    · subst more
      rw [List.nil_append, pathText, joinWith, ModulePath.lastSegment,
        ModulePath.cutLast?_of_free free]
    · have parts : (joinWith "::" (earlier ++ [last])).toList =
          (joinWith "::" earlier).toList ++ ':' :: ':' :: last.toList := by
        rw [joinWith_append more (by simp)]
        simp [joinWith]
      rw [pathText, ModulePath.lastSegment, parts, ModulePath.cutLast?_append free]
      simp

theorem join_pair {left right : String} (leftFilled : left ≠ "") (rightFilled : right ≠ "") :
    ModulePath.join [left, right] = left ++ "::" ++ right := by
  simp [ModulePath.join, leftFilled, rightFilled, joinWith]

theorem join_behind_nothing (right : String) : ModulePath.join ["", right] = right := by
  by_cases filled : right = ""
  · subst filled
    rfl
  · simp [ModulePath.join, filled, joinWith]

theorem IsPath.importPath_root (isPath : IsPath names) :
    importPath "" (pathText names) = cleanedPath (pathText names).toList := by
  rw [importPath_eq, join_behind_nothing, isPath.visible, String.ofList_toList]

theorem pathText_append (leadFilled : lead ≠ []) (filled : names ≠ []) :
    pathText (lead ++ names) = pathText lead ++ "::" ++ pathText names :=
  joinWith_append leadFilled filled "::"

theorem IsPath.ne_nil (isPath : IsPath names) : names ≠ [] := by
  cases isPath with
  | plain segments => exact segments.ne_nil
  | rooted => simp

theorem IsPath.text_ne_empty (isPath : IsPath names) : pathText names ≠ "" := by
  intro empty
  cases isPath with
  | plain segments =>
      have filled := (segments.head []).1
      simp [empty] at filled
  | rooted segments =>
      rw [pathText, joinWith_cons segments.ne_nil] at empty
      simp at empty

theorem IsPath.cleaned (isPath : IsPath names) :
    ∃ inner, Segments inner ∧ inner.getLast? = names.getLast? ∧
      ∀ rest, cleanedPath ((pathText names).toList ++ rest) =
        cleanedPath ((pathText inner).toList ++ rest) := by
  cases isPath with
  | plain segments => exact ⟨_, segments, rfl, fun _ => rfl⟩
  | @rooted inner segments =>
      refine ⟨inner, segments, ?_, fun rest => ?_⟩
      · rw [List.getLast?_cons, List.getLast?_eq_getLast_of_ne_nil segments.ne_nil,
          Option.getD_some]
      · have root : (pathText ("" :: inner)).toList ++ rest =
            ':' :: ':' :: ((pathText inner).toList ++ rest) := by
          rw [pathText, joinWith_cons segments.ne_nil]
          simp [pathText]
        rw [root, cleaned_rooted (segments.head rest).2]

theorem IsPath.importPath_lead (isLead : IsPath lead) (other : lead.getLast? ≠ some "self") :
    ∃ inner, Segments inner ∧ inner.getLast? ≠ some "self" ∧
      importPath "" (pathText lead) = pathText inner ∧
      ∀ rest, cleanedPath ((pathText lead).toList ++ rest) =
        cleanedPath ((pathText inner).toList ++ rest) := by
  obtain ⟨inner, segments, sameLast, rootless⟩ := isLead.cleaned
  rw [← sameLast] at other
  refine ⟨inner, segments, other, ?_, rootless⟩
  have head := segments.head []
  have last : ModulePath.lastSegment (String.ofList (pathText inner).toList) ≠ "self" := by
    intro isSelf
    rw [String.ofList_toList] at isSelf
    rw [← segments.lastSegment, isSelf] at other
    exact other rfl
  have whole := rootless []
  rw [List.append_nil] at head
  rw [List.append_nil, List.append_nil] at whole
  rw [isLead.importPath_root, whole, cleaned_of_last head.2 last, String.ofList_toList]

theorem IsPath.importPath_within (isLead : IsPath lead) (other : lead.getLast? ≠ some "self")
    (isPath : IsPath names) :
    importPath "" (pathText (lead ++ names)) =
      importPath (importPath "" (pathText lead)) (pathText names) := by
  obtain ⟨inner, segments, _, base, rootless⟩ := isLead.importPath_lead other
  have innerFilled : pathText inner ≠ "" := (IsPath.plain segments).text_ne_empty
  have parts := pathText_append isLead.ne_nil isPath.ne_nil
  have visible : dropBlanks (pathText (lead ++ names)).toList =
      (pathText (lead ++ names)).toList := by
    have colons : dropBlanks "::".toList = "::".toList := by decide
    rw [parts, String.toList_append, String.toList_append, dropBlanks_append, dropBlanks_append,
      isLead.visible, colons, isPath.visible]
  rw [base, importPath_eq, importPath_eq, join_behind_nothing, visible, isPath.visible,
    String.ofList_toList, String.ofList_toList, join_pair innerFilled isPath.text_ne_empty, parts]
  simp only [String.toList_append, List.append_assoc]
  exact rootless _

theorem IsPath.importPath_self (isLead : IsPath lead) (other : lead.getLast? ≠ some "self") :
    importPath (importPath "" (pathText lead)) (pathText ["self"]) =
      importPath "" (pathText lead) := by
  obtain ⟨inner, segments, innerOther, base, _⟩ := isLead.importPath_lead other
  have innerFilled : pathText inner ≠ "" := (IsPath.plain segments).text_ne_empty
  have head := segments.head []
  rw [List.append_nil] at head
  have notSelf : (pathText inner).toList ≠ "self".toList := by
    intro isSelf
    rw [← segments.lastSegment, String.toList_injective isSelf] at innerOther
    exact innerOther (by decide)
  have joined : (ModulePath.join [pathText inner, String.ofList
      (dropBlanks (pathText ["self"]).toList)]).toList =
        (pathText inner).toList ++ "::self".toList := by
    have self : String.ofList (dropBlanks (pathText ["self"]).toList) = "self" := by decide
    rw [self, join_pair innerFilled (by decide), String.toList_append, String.toList_append,
      List.append_assoc]
    rfl
  rw [base, importPath_eq, joined, cleaned_self head.1 head.2 notSelf, String.ofList_toList]

end Prefixes

section Groups

/-- The branch with a path in front of its own. -/
def UseBranch.within (lead : List String) : UseBranch → UseBranch
  | .path names => .path (lead ++ names)
  | .renamed names localName => .renamed (lead ++ names) localName
  | .list members => .scopedList lead members
  | .scopedList names members => .scopedList (lead ++ names) members

/-- What a member of a group stands for outside of the group: itself behind the path of the group,
where `self` may as well be left out. -/
inductive UseBranch.Ungroups (lead : List String) : UseBranch → UseBranch → Prop
  | within (member : UseBranch) : Ungroups lead member (member.within lead)
  | self : Ungroups lead (.path ["self"]) (.path lead)
  | renamedSelf (localName : String) :
      Ungroups lead (.renamed ["self"] localName) (.renamed lead localName)

variable {lead : List String} {members : List UseBranch}

theorem UseBranch.Writes.imports_within (isLead : IsPath lead)
    (other : lead.getLast? ≠ some "self") {member : UseBranch} {node : SyntaxNode}
    (writes : member.Writes node) :
    (member.within lead).imports "" = member.imports (importPath "" (pathText lead)) := by
  cases member with
  | path names =>
      obtain ⟨-, written⟩ := writes
      rw [within, UseBranch.imports, UseBranch.imports, isLead.importPath_within other written.path]
  | renamed names localName =>
      obtain ⟨-, path, name, -, written, -⟩ := writes
      rw [within, UseBranch.imports, UseBranch.imports, isLead.importPath_within other written.path]
  | list members => rw [within, UseBranch.imports, UseBranch.imports]
  | scopedList names members =>
      obtain ⟨-, path, list, -, written, -⟩ := writes
      rw [within, UseBranch.imports, UseBranch.imports, isLead.importPath_within other written.path]

theorem UseBranch.Ungroups.imports (isLead : IsPath lead) (other : lead.getLast? ≠ some "self")
    {member branch : UseBranch} {node : SyntaxNode}
    (ungroups : UseBranch.Ungroups lead member branch) (writes : member.Writes node) :
    branch.imports "" = member.imports (importPath "" (pathText lead)) := by
  cases ungroups with
  | within => exact writes.imports_within isLead other
  | self => rw [UseBranch.imports, UseBranch.imports, isLead.importPath_self other]
  | renamedSelf localName =>
      rw [UseBranch.imports, UseBranch.imports, isLead.importPath_self other]

/-- The imports of a group behind a path are those of its members without the group. -/
theorem imports_ungrouped {node : SyntaxNode} {branches : List UseBranch}
    (writes : (UseBranch.scopedList lead members).Writes node)
    (other : lead.getLast? ≠ some "self")
    (apart : List.Forall₂ (UseBranch.Ungroups lead) members branches) :
    (UseBranch.scopedList lead members).imports "" =
      branches.flatMap (UseBranch.imports "") := by
  obtain ⟨-, path, list, -, written, -, -, listed⟩ := writes
  rw [UseBranch.imports, importsOfAll_eq]
  generalize list.members = nodes at listed
  induction apart generalizing nodes with
  | nil => rw [List.flatMap_nil, List.flatMap_nil]
  | cons ungroups _ ih =>
      obtain ⟨first, others, here, later, -⟩ := listed
      rw [List.flatMap_cons, List.flatMap_cons, ungroups.imports written.path other here,
        ih others later]

theorem imports_behind_self (members : List UseBranch) :
    (UseBranch.scopedList ["self"] members).imports "" =
      members.flatMap (UseBranch.imports "") := by
  have lost : importPath "" (pathText ["self"]) = "" := by decide
  rw [UseBranch.imports, importsOfAll_eq, lost]

end Groups

section Declarations

variable {filePath modulePath : String} {root apartRoot : SyntaxNode} {unit apartUnit : SourceUnit}

/-- The use declarations of a syntax tree are these branches, in this order. -/
def Declares (root : SyntaxNode) (branches : List UseBranch) : Prop :=
  List.Forall₂ UseBranch.Writes branches root.useTrees

theorem Declares.flatMap_imports {branches : List UseBranch} (declares : Declares root branches) :
    root.useTrees.flatMap (SyntaxNode.imports "") = branches.flatMap (UseBranch.imports "") := by
  unfold Declares at declares
  generalize root.useTrees = nodes at declares ⊢
  induction declares with
  | nil => rfl
  | cons here _ ih => rw [List.flatMap_cons, List.flatMap_cons, here.imports, ih]

theorem Declares.exists_node {branches : List UseBranch} (declares : Declares root branches) :
    ∀ branch ∈ branches, ∃ node, branch.Writes node := by
  unfold Declares at declares
  generalize root.useTrees = nodes at declares
  induction declares with
  | nil => simp
  | cons here _ ih => exact List.forall_mem_cons.mpr ⟨⟨_, here⟩, ih⟩

theorem Declares.imports {branches : List UseBranch} (declares : Declares root branches)
    (read : sourceUnitOf filePath modulePath root = .ok unit) :
    unit.imports = distinctImports (branches.flatMap (UseBranch.imports "")) := by
  rw [sourceUnitOf_imports read, declares.flatMap_imports]

/-- A group is imported like its members one by one, each behind the path of the group, among
whatever else a file declares. Only behind `self` alone the members are imported as if nothing stood
before them. -/
theorem imports_of_grouped (read : sourceUnitOf filePath modulePath root = .ok unit)
    (apartRead : sourceUnitOf filePath modulePath apartRoot = .ok apartUnit)
    {lead : List String} (before : List UseBranch) {members after : List UseBranch}
    (declares : Declares root (before ++ .scopedList lead members :: after)) :
    (lead.getLast? ≠ some "self" →
      ∀ branches, List.Forall₂ (UseBranch.Ungroups lead) members branches →
        Declares apartRoot (before ++ branches ++ after) → unit.imports = apartUnit.imports) ∧
      (lead = ["self"] →
        Declares apartRoot (before ++ members ++ after) → unit.imports = apartUnit.imports) := by
  rw [declares.imports read]
  constructor
  · intro other branches apart apartDeclares
    obtain ⟨node, written⟩ := declares.exists_node (.scopedList lead members) (by simp)
    rw [apartDeclares.imports apartRead]
    simp only [List.flatMap_append, List.flatMap_cons, List.append_assoc,
      imports_ungrouped written other apart]
  · rintro rfl apartDeclares
    rw [apartDeclares.imports apartRead]
    simp only [List.flatMap_append, List.flatMap_cons, imports_behind_self, List.append_assoc]

end Declarations

section Texts

open CrateAtlas.Rust.Tree

def importsRead (source : String) : Option (List Import) :=
  (sourceUnit "src/lib.rs" "crate" source).toOption.map SourceUnit.imports

theorem exists_unit {source : String} {imports : List Import}
    (read : importsRead source = some imports) :
    ∃ unit, sourceUnit "src/lib.rs" "crate" source = .ok unit ∧ unit.imports = imports := by
  cases result : sourceUnit "src/lib.rs" "crate" source with
  | error failure => simp [importsRead, result, Except.toOption] at read
  | ok unit =>
      rw [importsRead, result] at read
      exact ⟨unit, rfl, Option.some.inj read⟩

def wordToken (gap : List Char) (text : String) : Token :=
  { kind := .word, text := text, gap := gap, row := 0, endRow := 0 }

def markToken (text : String) : Token :=
  { kind := .mark, text := text, gap := [], row := 0, endRow := 0 }

def scopedBraces (tokens : List Token) (inside : List Tree) : List Tree :=
  tokens.map .leaf ++ [.leaf (markToken ":"), .leaf (markToken ":"),
    .group (markToken "\x7b") inside (markToken "\x7d")]

theorem isName_wordToken (gap : List Char) (text : String) (filled : text ≠ "")
    (letters : text.toList.all TypeText.isIdentifierChar) (apart : text ≠ "as") :
    (wordToken gap text).IsName where
  word := rfl
  filled := filled
  letters := List.all_eq_true.mp letters
  apart := apart

theorem spelledPath_word {token : Token} (isName : token.IsName) :
    SpelledPath [token.text] [token] :=
  ⟨.plain (.name isName), by simp⟩

theorem spelledPath_pair {first last : Token} (firstName : first.IsName) (lastName : last.IsName)
    (joined : last.gap = []) :
    SpelledPath [first.text, last.text] [first, markToken ":", markToken ":", last] :=
  ⟨.plain (.cons firstName ⟨rfl, rfl, rfl⟩ (.name lastName)), by simp [joined, markToken]⟩

theorem spells_scopedBraces {names : List String} {tokens : List Token}
    {members : List UseBranch} {inside : List Tree} (path : SpelledPath names tokens)
    (listed : SpellsAll members inside) :
    (UseBranch.scopedList names members).Spells (scopedBraces tokens inside) :=
  ⟨tokens, _, _, _, inside, _, path, ⟨rfl, rfl, rfl⟩, rfl, rfl, listed, rfl⟩

def useItemTrees (gap : List Char) (head : List Tree) : List Tree :=
  .leaf (wordToken gap "use") :: head ++ [.leaf (markToken ";")]

def shapesText : String := "use geo::\x7bself, shape::\x7bPoint as P\x7d\x7d;"

def shapesApartText : String := "use geo; use geo::shape::\x7bPoint as P\x7d;"

def pointTrees : List Tree :=
  [.leaf (wordToken [] "Point"), .leaf (wordToken [' '] "as"), .leaf (wordToken [' '] "P")]

theorem spellsAll_point : SpellsAll [.renamed ["Point"] "P"] pointTrees := by
  have point := isName_wordToken [] "Point" (by decide) (by decide) (by decide)
  have renamed := isName_wordToken [' '] "P" (by decide) (by decide) (by decide)
  exact .inl ⟨rfl, [_], _, _, spelledPath_word point, rfl, renamed, rfl, rfl⟩

theorem declares_shapes : Declares (Grammar.parse shapesText)
    [.scopedList ["geo"] [.path ["self"], .scopedList ["shape"] [.renamed ["Point"] "P"]]] := by
  have geo := isName_wordToken [' '] "geo" (by decide) (by decide) (by decide)
  have self := isName_wordToken [] "self" (by decide) (by decide) (by decide)
  have shape := isName_wordToken [' '] "shape" (by decide) (by decide) (by decide)
  let inside := .leaf (wordToken [] "self") :: .leaf (markToken ",") ::
    scopedBraces [wordToken [' '] "shape"] pointTrees
  have listed : SpellsAll [.path ["self"], .scopedList ["shape"] [.renamed ["Point"] "P"]] inside :=
    .inr ⟨[_], _, _, ⟨[_], spelledPath_word self, rfl⟩, rfl,
      .inl ⟨rfl, spells_scopedBraces (spelledPath_word shape) spellsAll_point⟩, rfl⟩
  let head := scopedBraces [wordToken [' '] "geo"] inside
  have grouped : groupTokens [] [] (Token.ofSource shapesText) = some (useItemTrees [] head) := by rfl
  have uses : UseHeads (Piece.list (useItemTrees [] head)) [head] :=
    .loose (.use rfl (by simp) (.loose .none))
  exact Grammar.writes_useTrees grouped uses
    (.cons (spells_scopedBraces (spelledPath_word geo) listed) .nil)

theorem declares_shapesApart : Declares (Grammar.parse shapesApartText)
    [.path ["geo"], .scopedList ["geo", "shape"] [.renamed ["Point"] "P"]] := by
  have geo := isName_wordToken [' '] "geo" (by decide) (by decide) (by decide)
  have shape := isName_wordToken [] "shape" (by decide) (by decide) (by decide)
  let head := scopedBraces [wordToken [' '] "geo", markToken ":", markToken ":",
    wordToken [] "shape"] pointTrees
  let first : List Tree := [.leaf (wordToken [' '] "geo")]
  have grouped : groupTokens [] [] (Token.ofSource shapesApartText) =
      some (useItemTrees [] first ++ useItemTrees [' '] head) := by rfl
  have uses : UseHeads (Piece.list (useItemTrees [] first ++ useItemTrees [' '] head)) [first, head] :=
    .loose (.use rfl (by simp) (.loose (.use rfl (by simp) (.loose .none))))
  exact Grammar.writes_useTrees grouped uses (.cons ⟨[_], spelledPath_word geo, rfl⟩
    (.cons (spells_scopedBraces (spelledPath_pair geo shape rfl) spellsAll_point) .nil))

def selfText : String := "use self::\x7bgeo\x7d;"

def aloneText : String := "use geo;"

theorem declares_selfText :
    Declares (Grammar.parse selfText) [.scopedList ["self"] [.path ["geo"]]] := by
  have self := isName_wordToken [' '] "self" (by decide) (by decide) (by decide)
  have geo := isName_wordToken [] "geo" (by decide) (by decide) (by decide)
  let head := scopedBraces [wordToken [' '] "self"] [.leaf (wordToken [] "geo")]
  have grouped : groupTokens [] [] (Token.ofSource selfText) = some (useItemTrees [] head) := by rfl
  have uses : UseHeads (Piece.list (useItemTrees [] head)) [head] :=
    .loose (.use rfl (by simp) (.loose .none))
  exact Grammar.writes_useTrees grouped uses (.cons (spells_scopedBraces (spelledPath_word self)
    (.inl ⟨rfl, [_], spelledPath_word geo, rfl⟩)) .nil)

theorem declares_aloneText : Declares (Grammar.parse aloneText) [.path ["geo"]] := by
  have geo := isName_wordToken [' '] "geo" (by decide) (by decide) (by decide)
  let head : List Tree := [.leaf (wordToken [' '] "geo")]
  have grouped : groupTokens [] [] (Token.ofSource aloneText) = some (useItemTrees [] head) := by rfl
  have uses : UseHeads (Piece.list (useItemTrees [] head)) [head] :=
    .loose (.use rfl (by simp) (.loose .none))
  exact Grammar.writes_useTrees grouped uses (.cons ⟨[_], spelledPath_word geo, rfl⟩ .nil)

theorem imports_of_grouped_shapes :
    ∃ unit apartUnit selfUnit aloneUnit, sourceUnit "src/lib.rs" "crate" shapesText = .ok unit ∧
      sourceUnit "src/lib.rs" "crate" shapesApartText = .ok apartUnit ∧
      sourceUnit "src/lib.rs" "crate" selfText = .ok selfUnit ∧
      sourceUnit "src/lib.rs" "crate" aloneText = .ok aloneUnit ∧
      unit.imports = [⟨"geo", none⟩, ⟨"geo::shape::Point", some "P"⟩] ∧
      unit.imports = apartUnit.imports ∧ selfUnit.imports = aloneUnit.imports := by
  have facts : importsRead shapesText = some [⟨"geo", none⟩, ⟨"geo::shape::Point", some "P"⟩] ∧
      importsRead shapesApartText = some [⟨"geo", none⟩, ⟨"geo::shape::Point", some "P"⟩] ∧
      importsRead selfText = some [⟨"geo", none⟩] ∧
      importsRead aloneText = some [⟨"geo", none⟩] := by
    decide +kernel
  obtain ⟨unit, read, imports⟩ := exists_unit facts.1
  obtain ⟨apartUnit, apartRead, _⟩ := exists_unit facts.2.1
  obtain ⟨selfUnit, selfRead, _⟩ := exists_unit facts.2.2.1
  obtain ⟨aloneUnit, aloneRead, _⟩ := exists_unit facts.2.2.2
  have grouped := (imports_of_grouped read apartRead [] declares_shapes).1 (by decide)
    _ (.cons .self (.cons (.within _) .nil)) declares_shapesApart
  have behindSelf := (imports_of_grouped selfRead aloneRead [] declares_selfText).2 rfl
    declares_aloneText
  exact ⟨unit, apartUnit, selfUnit, aloneUnit, read, apartRead, selfRead, aloneRead, imports,
    grouped, behindSelf⟩

def selfApartText : String := "use self::geo;"

/-- The group loses the `self` that its member has without it. -/
theorem grouped_loses_self :
    Declares (Grammar.parse selfText) [.scopedList ["self"] [.path ["geo"]]] ∧
      Declares (Grammar.parse selfApartText) [(UseBranch.path ["geo"]).within ["self"]] ∧
      importsRead selfText = some [⟨"geo", none⟩] ∧
      importsRead selfApartText = some [⟨"self::geo", none⟩] := by
  have self := isName_wordToken [' '] "self" (by decide) (by decide) (by decide)
  have geo := isName_wordToken [] "geo" (by decide) (by decide) (by decide)
  let head : List Tree := [.leaf (wordToken [' '] "self"), .leaf (markToken ":"),
    .leaf (markToken ":"), .leaf (wordToken [] "geo")]
  have grouped : groupTokens [] [] (Token.ofSource selfApartText) = some (useItemTrees [] head) := by
    rfl
  have uses : UseHeads (Piece.list (useItemTrees [] head)) [head] :=
    .loose (.use rfl (by simp) (.loose .none))
  exact ⟨declares_selfText, Grammar.writes_useTrees grouped uses
    (.cons ⟨_, spelledPath_pair self geo rfl, rfl⟩ .nil), by decide +kernel, by decide +kernel⟩

end Texts

end CrateAtlas.Rust
