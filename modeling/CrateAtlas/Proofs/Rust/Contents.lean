import CrateAtlas.Rust.Source
import Mathlib.Data.List.Basic

/-!
What a syntax tree declares, item by item. Main statements: every type is named below the path of its
modules, whatever that path is, and the imports are those of the use declarations in their order.
-/

namespace CrateAtlas.Rust

/-- A property of qualified names that modules hand on to what they declare under a proper name. -/
def HandedOn (proper named : String → Prop) : Prop :=
  ∀ modulePath name, named modulePath → proper name → named (ModulePath.join [modulePath, name])

namespace SyntaxNode

section Items

mutual

/-- The items below a node, those of inline modules behind their module. -/
def items : SyntaxNode → List SyntaxNode
  | ⟨_, children⟩ => itemsIn children

def itemsIn : List SyntaxNode → List SyntaxNode
  | [] => []
  | node :: others => (if node.isNamed then withInner node else []) ++ itemsIn others

def withInner : SyntaxNode → List SyntaxNode
  | ⟨head, children⟩ =>
      ⟨head, children⟩ ::
        if head.kind = "mod_item" ∧ (withField? "name" children).isSome then innerItems children
        else []

def innerItems : List SyntaxNode → List SyntaxNode
  | [] => []
  | node :: others => if node.field = some "body" then items node else innerItems others

end

theorem items_eq (node : SyntaxNode) : node.items = itemsIn node.children := by
  cases node
  rfl

theorem innerItems_eq (nodes : List SyntaxNode) :
    innerItems nodes = ((withField? "body" nodes).map items).getD [] := by
  induction nodes with
  | nil => rfl
  | cons node others ih =>
      rw [innerItems, ih, withField?, withField?, List.find?_cons]
      by_cases isBody : node.field = some "body" <;> simp [isBody]

theorem mem_withInner (node : SyntaxNode) : node ∈ withInner node := by
  obtain ⟨head, children⟩ := node
  rw [withInner]
  exact List.mem_cons_self

theorem itemsIn_append (front back : List SyntaxNode) :
    itemsIn (front ++ back) = itemsIn front ++ itemsIn back := by
  induction front with
  | nil => rfl
  | cons node others ih => rw [List.cons_append, itemsIn, itemsIn, ih, List.append_assoc]

end Items

section Names

def Called (proper : String → Prop) (items : List SyntaxNode) : Prop :=
  ∀ item ∈ items, ∀ name, item.child? "name" = some name → proper name.text

variable {proper named : String → Prop} {scope : Scope}

theorem Called.mono {part whole : List SyntaxNode} (called : Called proper whole)
    (subset : part ⊆ whole) : Called proper part :=
  fun item member => called item (subset member)

theorem typeDefinition_named (handed : HandedOn proper named) (placed : named scope.modulePath)
    {item : SyntaxNode} (called : ∀ name, item.child? "name" = some name → proper name.text)
    (kind : TypeKind) (fields : List Field) :
    ∀ type ∈ item.typeDefinition scope kind fields, named type.qualifiedName := by
  intro type member
  simp only [typeDefinition, List.mem_map, Option.mem_toList] at member
  obtain ⟨name, found, rfl⟩ := member
  exact handed scope.modulePath name.text placed (called name found)

theorem declared_named (handed : HandedOn proper named) (placed : named scope.modulePath)
    {item : SyntaxNode} (called : ∀ name, item.child? "name" = some name → proper name.text) :
    ∀ type ∈ (item.declared scope).types, named type.qualifiedName := by
  unfold declared
  split
  · exact typeDefinition_named handed placed called _ _
  · exact typeDefinition_named handed placed called _ _
  · exact typeDefinition_named handed placed called _ _
  · exact typeDefinition_named handed placed called _ _
  · exact fun _ => nofun
  · exact fun _ => nofun
  · exact fun _ => nofun

mutual

theorem contents_named (handed : HandedOn proper named) {scope : Scope}
    (placed : named scope.modulePath) : ∀ node : SyntaxNode, Called proper node.items →
      ∀ type ∈ (node.contents scope).types, named type.qualifiedName
  | ⟨_, children⟩, called => contentsIn_named handed placed children called

theorem contentsIn_named (handed : HandedOn proper named) {scope : Scope}
    (placed : named scope.modulePath) : ∀ nodes : List SyntaxNode, Called proper (itemsIn nodes) →
      ∀ type ∈ (contentsIn scope nodes).types, named type.qualifiedName
  | [], _ => nofun
  | node :: others, called => by
      rw [itemsIn] at called
      intro type member
      rw [contentsIn, Contents.append, List.mem_append] at member
      rcases member with here | later
      · by_cases isNamed : node.isNamed
        · rw [if_pos isNamed] at here called
          exact itemContents_named handed placed node
            (called.mono (List.subset_append_left _ _)) type here
        · rw [if_neg isNamed] at here
          exact absurd here nofun
      · exact contentsIn_named handed placed others (called.mono (List.subset_append_right _ _)) type
          later

theorem itemContents_named (handed : HandedOn proper named) {scope : Scope}
    (placed : named scope.modulePath) : ∀ node : SyntaxNode, Called proper (withInner node) →
      ∀ type ∈ (itemContents scope node).types, named type.qualifiedName
  | ⟨head, children⟩, called => by
      have here := called ⟨head, children⟩ (mem_withInner _)
      rw [withInner] at called
      rw [itemContents]
      split
      · rename_i name isModule found
        rw [if_pos ⟨isModule, by rw [found]; rfl⟩] at called
        refine bodyContents_named handed ?_ children (called.mono (List.subset_cons_self _ _))
        exact handed scope.modulePath name.text placed (here name found)
      · exact declared_named handed placed here

theorem bodyContents_named (handed : HandedOn proper named) {scope : Scope}
    (placed : named scope.modulePath) : ∀ nodes : List SyntaxNode,
      Called proper (innerItems nodes) →
      ∀ type ∈ (bodyContents scope nodes).types, named type.qualifiedName
  | [], _ => nofun
  | node :: others, called => by
      rw [innerItems] at called
      rw [bodyContents]
      split
      · rename_i isBody
        rw [if_pos isBody] at called
        exact contents_named handed placed node called
      · rename_i other
        rw [if_neg other] at called
        exact bodyContents_named handed placed others called

end

end Names

section Imports

/-- The use trees of the use declarations among some items. -/
def usesAmong (items : List SyntaxNode) : List SyntaxNode :=
  (items.filter fun item => item.kind = "use_declaration").filterMap (child? "argument")

def useTrees (root : SyntaxNode) : List SyntaxNode :=
  usesAmong root.items

theorem usesAmong_append (front back : List SyntaxNode) :
    usesAmong (front ++ back) = usesAmong front ++ usesAmong back := by
  simp [usesAmong]

theorem declared_imports (scope : Scope) (item : SyntaxNode) :
    (item.declared scope).imports = (usesAmong [item]).flatMap (imports "") := by
  by_cases isUse : item.kind = "use_declaration"
  · rw [declared.eq_def, isUse]
    cases argument : item.child? "argument" with
    | none => simp [usesAmong, isUse, argument]
    | some tree => simp [usesAmong, isUse, argument]
  · have none : usesAmong [item] = [] := by simp [usesAmong, isUse]
    rw [none]
    unfold declared
    split <;> first | rfl | exact absurd ‹_› isUse

mutual

theorem contents_imports (scope : Scope) : ∀ node : SyntaxNode,
    (node.contents scope).imports = (usesAmong node.items).flatMap (imports "")
  | ⟨_, children⟩ => contentsIn_imports scope children

theorem contentsIn_imports (scope : Scope) : ∀ nodes : List SyntaxNode,
    (contentsIn scope nodes).imports = (usesAmong (itemsIn nodes)).flatMap (imports "")
  | [] => rfl
  | node :: others => by
      rw [contentsIn, Contents.append, itemsIn, usesAmong_append, List.flatMap_append,
        contentsIn_imports scope others]
      split
      · rw [itemContents_imports scope node]
      · rfl

theorem itemContents_imports (scope : Scope) : ∀ node : SyntaxNode,
    (itemContents scope node).imports = (usesAmong (withInner node)).flatMap (imports "")
  | ⟨head, children⟩ => by
      rw [itemContents, withInner]
      split
      · rename_i name isModule found
        have noUse (inner : List SyntaxNode) :
            usesAmong (⟨head, children⟩ :: inner) = usesAmong inner := by simp [usesAmong, isModule]
        rw [if_pos ⟨isModule, by rw [found]; rfl⟩, noUse, bodyContents_imports _ children]
      · rename_i incomplete
        rw [if_neg, declared_imports]
        rintro ⟨isModule, found⟩
        obtain ⟨name, found⟩ := Option.isSome_iff_exists.mp found
        exact incomplete name isModule found

theorem bodyContents_imports (scope : Scope) : ∀ nodes : List SyntaxNode,
    (bodyContents scope nodes).imports = (usesAmong (innerItems nodes)).flatMap (imports "")
  | [] => rfl
  | node :: others => by
      rw [bodyContents, innerItems]
      split
      · exact contents_imports scope node
      · exact bodyContents_imports scope others

end

end Imports

end SyntaxNode

variable {filePath modulePath : String} {root : SyntaxNode} {unit : SourceUnit}

theorem sourceUnitOf_eq_ok (read : sourceUnitOf filePath modulePath root = .ok unit) :
    unit.filePath = filePath ∧
      unit.types = (root.contents { filePath := filePath, modulePath := modulePath }).types ∧
      unit.imports = distinctImports
        (root.contents { filePath := filePath, modulePath := modulePath }).imports := by
  rw [sourceUnitOf] at read
  split at read
  · exact absurd read nofun
  · rw [← Except.ok.inj read]
    exact ⟨rfl, rfl, rfl⟩

theorem sourceUnitOf_named {proper named : String → Prop}
    (handed : HandedOn proper named) (placed : named modulePath)
    (called : SyntaxNode.Called proper root.items)
    (read : sourceUnitOf filePath modulePath root = .ok unit) :
    ∀ type ∈ unit.types, named type.qualifiedName := by
  rw [(sourceUnitOf_eq_ok read).2.1]
  exact SyntaxNode.contents_named handed placed root called

/-- What a file imports is what its use declarations import, each import once. -/
theorem sourceUnitOf_imports (read : sourceUnitOf filePath modulePath root = .ok unit) :
    unit.imports = distinctImports (root.useTrees.flatMap (SyntaxNode.imports "")) := by
  rw [(sourceUnitOf_eq_ok read).2.2, SyntaxNode.contents_imports]
  rfl

end CrateAtlas.Rust
