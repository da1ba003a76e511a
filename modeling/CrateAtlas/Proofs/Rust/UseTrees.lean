import CrateAtlas.Proofs.Text.Blanks
import CrateAtlas.Proofs.Text.Lines
import CrateAtlas.Rust.Use
import Mathlib.Data.List.Forall2

/-!
Use trees by the names of their paths, and the syntax nodes that write them. Main statement: a node
imports what the names of its branch do, whatever blanks and comments it is written with.
-/

namespace CrateAtlas.Rust

open CrateAtlas.Text

section Branches

/-- A use tree by the names of its paths. A glob is a name of its own, and a path that begins at the
root has an empty name in front. -/
inductive UseBranch where
  | path (names : List String)
  | renamed (names : List String) (localName : String)
  | list (members : List UseBranch)
  | scopedList (names : List String) (members : List UseBranch)

/-- Induction on use trees where a list of members gives a hypothesis for each of them. -/
@[induction_eliminator]
theorem UseBranch.induct {motive : UseBranch → Prop} (path : ∀ names, motive (.path names))
    (renamed : ∀ names localName, motive (.renamed names localName))
    (list : ∀ members, (∀ member ∈ members, motive member) → motive (.list members))
    (scopedList : ∀ names members, (∀ member ∈ members, motive member) →
      motive (.scopedList names members))
    (branch : UseBranch) : motive branch :=
  @UseBranch.rec motive (fun members => ∀ member ∈ members, motive member) path renamed list
    scopedList (by simp) (fun _ _ first others => List.forall_mem_cons.mpr ⟨first, others⟩) branch

def pathText (names : List String) : String :=
  joinWith "::" names

mutual

def UseBranch.imports (base : String) : UseBranch → List Import
  | .path names => [{ path := importPath base (pathText names), localName := none }]
  | .renamed names localName =>
      [{ path := importPath base (pathText names), localName := some localName }]
  | .list members => importsOfAll base members
  | .scopedList names members => importsOfAll (importPath base (pathText names)) members

def importsOfAll (base : String) : List UseBranch → List Import
  | [] => []
  | member :: members => member.imports base ++ importsOfAll base members

end

theorem importsOfAll_eq (base : String) (members : List UseBranch) :
    importsOfAll base members = members.flatMap (UseBranch.imports base) := by
  induction members with
  | nil => rfl
  | cons member others ih => rw [importsOfAll, ih, List.flatMap_cons]

end Branches

section Paths

structure IsSegment (name : String) : Prop where
  filled : name ≠ ""
  visible : ∀ character ∈ name.toList, isBlank character = false
  free : ':' ∉ name.toList

structure Segments (names : List String) : Prop where
  ne_nil : names ≠ []
  segment : ∀ name ∈ names, IsSegment name

inductive IsPath : List String → Prop
  | plain {names : List String} (segments : Segments names) : IsPath names
  | rooted {names : List String} (segments : Segments names) : IsPath ("" :: names)

/-- The text is a path, with blanks wherever they like to stand. -/
structure WritesPath (names : List String) (text : String) : Prop where
  path : IsPath names
  spelled : dropBlanks text.toList = (pathText names).toList

variable {names : List String} {text : String}

theorem visible_joinWith (visible : ∀ name ∈ names, ∀ character ∈ name.toList,
    isBlank character = false) :
    ∀ character ∈ (joinWith "::" names).toList, isBlank character = false := by
  induction names with
  | nil => simp [joinWith]
  | cons name others ih =>
      obtain ⟨here, later⟩ := List.forall_mem_cons.mp visible
      cases others with
      | nil => exact here
      | cons second rest =>
          rw [joinWith_cons (List.cons_ne_nil second rest)]
          simp only [String.toList_append, List.forall_mem_append]
          exact ⟨⟨here, by simp [isBlank]⟩, ih later⟩

theorem IsPath.visible (path : IsPath names) :
    dropBlanks (pathText names).toList = (pathText names).toList := by
  apply dropBlanks_of_visible
  apply visible_joinWith
  cases path with
  | plain segments => exact fun name member => (segments.segment name member).visible
  | rooted segments =>
      exact List.forall_mem_cons.mpr
        ⟨by simp, fun name member => (segments.segment name member).visible⟩

theorem WritesPath.importPath (writes : WritesPath names text) (base : String) :
    importPath base text = importPath base (pathText names) := by
  rw [Rust.importPath, Rust.importPath, writes.spelled, writes.path.visible]

end Paths

section Writing

def SyntaxNode.isComment (node : SyntaxNode) : Bool :=
  node.kind = "line_comment" || node.kind = "block_comment"

def SyntaxNode.members (node : SyntaxNode) : List SyntaxNode :=
  node.namedChildren.filter fun child => !child.isComment

def useKinds : List String :=
  ["use_as_clause", "scoped_use_list", "use_list", "line_comment", "block_comment"]

mutual

/-- The node is the branch as it is written. -/
def UseBranch.Writes : UseBranch → SyntaxNode → Prop
  | .path names, node => node.kind ∉ useKinds ∧ WritesPath names node.text
  | .renamed names localName, node =>
      node.kind = "use_as_clause" ∧ ∃ path name, node.child? "path" = some path ∧
        WritesPath names path.text ∧ node.child? "alias" = some name ∧ name.text = localName
  | .list members, node => node.kind = "use_list" ∧ WritesAll members node.members
  | .scopedList names members, node =>
      node.kind = "scoped_use_list" ∧ ∃ path list, node.child? "path" = some path ∧
        WritesPath names path.text ∧ node.child? "list" = some list ∧ list.kind = "use_list" ∧
        WritesAll members list.members

def WritesAll : List UseBranch → List SyntaxNode → Prop
  | [], nodes => nodes = []
  | member :: members, nodes =>
      ∃ node others, member.Writes node ∧ WritesAll members others ∧ nodes = node :: others

end

end Writing

namespace SyntaxNode

variable {node : SyntaxNode} {base : String}

theorem memberImports_eq (base : String) (nodes : List SyntaxNode) :
    memberImports base nodes = (nodes.filter (·.isNamed)).flatMap (imports base) := by
  induction nodes with
  | nil => rfl
  | cons node others ih =>
      rw [memberImports, ih, List.filter_cons]
      split <;> simp

theorem listImports_eq (base : String) (nodes : List SyntaxNode) :
    listImports base nodes = ((withField? "list" nodes).map (imports base)).getD [] := by
  induction nodes with
  | nil => rfl
  | cons node others ih =>
      rw [listImports, ih, withField?, withField?, List.find?_cons]
      by_cases isList : node.field = some "list" <;> simp [isList]

theorem imports_of_isComment (isComment : node.isComment) : node.imports base = [] := by
  obtain ⟨head, children⟩ := node
  simp only [SyntaxNode.isComment, Bool.or_eq_true, decide_eq_true_eq] at isComment
  rcases isComment with kind | kind <;> simp [imports, kind]

theorem imports_of_path (kind : node.kind ∉ useKinds) :
    node.imports base = [{ path := importPath base node.text, localName := none }] := by
  obtain ⟨head, children⟩ := node
  simp only [useKinds, List.mem_cons, List.not_mem_nil, or_false, not_or] at kind
  simp [imports, kind]

theorem imports_of_clause (kind : node.kind = "use_as_clause") :
    node.imports base = (node.child? "path").toList.map fun path =>
      { path := importPath base path.text
        localName := (node.child? "alias").map fun name => name.text } := by
  obtain ⟨head, children⟩ := node
  dsimp only at kind
  simp only [imports, kind]
  rfl

theorem imports_of_list (kind : node.kind = "use_list") :
    node.imports base = node.members.flatMap (imports base) := by
  obtain ⟨head, children⟩ := node
  dsimp only at kind
  simp only [imports, kind]
  rw [memberImports_eq, members, namedChildren]
  generalize children.filter _ = named
  induction named with
  | nil => rfl
  | cons child others ih =>
      rw [List.flatMap_cons, ih, List.filter_cons]
      by_cases isComment : child.isComment
      · simp [isComment, imports_of_isComment isComment]
      · simp [isComment]

theorem imports_of_scopedList (kind : node.kind = "scoped_use_list") {path list : SyntaxNode}
    (pathFound : node.child? "path" = some path) (listFound : node.child? "list" = some list) :
    node.imports base = list.imports (importPath base path.text) := by
  obtain ⟨head, children⟩ := node
  rw [child?] at pathFound listFound
  dsimp only at kind pathFound listFound
  simp only [imports, kind]
  simp [listImports_eq, pathFound, listFound]

end SyntaxNode

theorem flatMap_imports {members : List UseBranch} {nodes : List SyntaxNode} {base : String}
    (writes : WritesAll members nodes)
    (reads : ∀ member ∈ members, ∀ node, member.Writes node →
      node.imports base = member.imports base) :
    nodes.flatMap (SyntaxNode.imports base) = importsOfAll base members := by
  induction members generalizing nodes with
  | nil =>
      obtain rfl : nodes = [] := writes
      rfl
  | cons member others ih =>
      obtain ⟨node, rest, here, later, rfl⟩ := writes
      obtain ⟨readsHere, readsLater⟩ := List.forall_mem_cons.mp reads
      rw [List.flatMap_cons, importsOfAll, readsHere node here, ih later readsLater]

/-- A node imports what the branch does that it is written for. -/
theorem UseBranch.Writes.imports {branch : UseBranch} {node : SyntaxNode}
    (writes : branch.Writes node) (base : String) : node.imports base = branch.imports base := by
  induction branch generalizing node base with
  | path names =>
      obtain ⟨kind, written⟩ := writes
      rw [SyntaxNode.imports_of_path kind, written.importPath, UseBranch.imports]
  | renamed names localName =>
      obtain ⟨kind, path, name, pathFound, written, nameFound, rfl⟩ := writes
      rw [SyntaxNode.imports_of_clause kind, pathFound, nameFound, UseBranch.imports,
        ← written.importPath]
      rfl
  | list members ih =>
      obtain ⟨kind, written⟩ := writes
      rw [SyntaxNode.imports_of_list kind, UseBranch.imports]
      exact flatMap_imports written fun member found node here => ih member found here base
  | scopedList names members ih =>
      obtain ⟨kind, path, list, pathFound, written, listFound, listKind, listed⟩ := writes
      rw [SyntaxNode.imports_of_scopedList kind pathFound listFound,
        SyntaxNode.imports_of_list listKind, UseBranch.imports, written.importPath]
      exact flatMap_imports listed fun member found node here => ih member found here _

end CrateAtlas.Rust
