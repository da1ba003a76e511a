import CrateAtlas.Proofs.Rust.Contents
import CrateAtlas.Proofs.Rust.Words
import CrateAtlas.Rust.Reader

/-!
Names in the syntax trees of source texts. Main statement: the qualified name of every type that is
read from a source text is a proper name, and is not empty.
-/

namespace CrateAtlas.Rust

namespace Item

open CrateAtlas.Rust.Tree

def Unnamed (parts : List Part) : Prop :=
  ∀ part ∈ parts, part.field ≠ some "name"

theorem unnamed_append {front back : List Part} :
    Unnamed (front ++ back) ↔ Unnamed front ∧ Unnamed back :=
  List.forall_mem_append

theorem unnamed_part {field : Option String} (other : field ≠ some "name") (kind : String)
    (reading : Reading) (trees : List Tree) : Unnamed (part field kind reading trees) := by
  rw [part]
  split
  · exact fun _ => nofun
  · simpa [Unnamed] using other

theorem unnamed_bounds (trees : List Tree) : Unnamed (boundParts trees) :=
  unnamed_part (by decide) _ _ _

theorem unnamed_parameterParts (trees : List Tree) : Unnamed (parameterParts trees).1 := by
  unfold parameterParts
  split
  · exact unnamed_part (by decide) _ _ _
  · exact fun _ => nofun

theorem unnamed_functionParts (trees : List Tree) : Unnamed (functionParts trees) := by
  unfold functionParts
  refine unnamed_append.mpr ⟨unnamed_part (by decide) _ _ _, ?_⟩
  split
  · split
    · exact unnamed_append.mpr ⟨unnamed_append.mpr ⟨unnamed_part (by decide) _ _ _,
        unnamed_part (by decide) _ _ _⟩, unnamed_bounds _⟩
    · exact unnamed_bounds _
  · exact unnamed_bounds _

theorem unnamed_structParts (isBlock : Bool) (trees : List Tree) :
    Unnamed (structParts isBlock trees) := by
  unfold structParts
  split
  · split
    · exact unnamed_append.mpr ⟨unnamed_part (by decide) _ _ _, unnamed_bounds _⟩
    · exact unnamed_bounds _
  · exact fun _ => nofun

theorem unnamed_valueParts (trees : List Tree) : Unnamed (valueParts trees) :=
  unnamed_append.mpr ⟨unnamed_append.mpr ⟨unnamed_part (by decide) _ _ _,
    unnamed_part (by decide) _ _ _⟩, unnamed_part (by decide) _ _ _⟩

theorem unnamed_targetParts (trees : List Tree) : Unnamed (targetParts trees) := by
  unfold targetParts
  dsimp only
  split
  · exact unnamed_part (by decide) _ _ _
  · exact unnamed_append.mpr ⟨unnamed_append.mpr ⟨unnamed_append.mpr
      ⟨unnamed_part (by decide) _ _ _, unnamed_part (by decide) _ _ _⟩,
      unnamed_part (by decide) _ _ _⟩, unnamed_part (by decide) _ _ _⟩

theorem unnamed_implParts (trees : List Tree) : Unnamed (implParts trees) := by
  unfold implParts
  dsimp only
  refine unnamed_append.mpr ⟨unnamed_append.mpr ⟨?_, unnamed_targetParts _⟩, unnamed_bounds _⟩
  split
  · split
    · exact fun _ => nofun
    · exact unnamed_part (by decide) _ _ _
  · exact fun _ => nofun

/-- The part that is the name of an item is a word of its head. -/
structure IsName (item : Item) (part : Part) (token : Token) : Prop where
  inHead : .leaf token ∈ item.head
  word : token.kind = .word
  trees : part.trees = [.leaf token]
  reading : part.reading = .tokens

theorem isName_of_nameParts {item : Item} {part : Part} (member : part ∈ item.nameParts.1) :
    ∃ token, item.IsName part token := by
  unfold nameParts at member
  split at member
  · rename_i token called
    obtain rfl := List.mem_singleton.mp member
    unfold name? at called
    split at called
    · rename_i first others head
      split at called
      · rename_i word
        obtain rfl := Option.some.inj called
        exact ⟨_, by rw [head]; exact List.mem_cons_self, word, rfl, rfl⟩
      · simp at called
    · simp at called
  · simp at member

theorem isName_of_append {item : Item} {rest : List Part} (unnamed : Unnamed rest) {part : Part}
    (member : part ∈ item.nameParts.1 ++ rest) (isName : part.field = some "name") :
    ∃ token, item.IsName part token := by
  rcases List.mem_append.mp member with here | later
  · exact isName_of_nameParts here
  · exact absurd isName (unnamed part later)

theorem exists_isName {item : Item} {part : Part} (member : part ∈ item.parts)
    (isName : part.field = some "name") : ∃ token, item.IsName part token := by
  unfold parts at member
  dsimp only at member
  split at member
  · exact absurd isName (unnamed_part (by decide) _ _ _ part member)
  · exact absurd isName (unnamed_part (by decide) _ _ _ part member)
  · exact absurd isName (unnamed_implParts _ part member)
  · exact isName_of_append (unnamed_valueParts _) member isName
  · exact isName_of_append (unnamed_valueParts _) member isName
  · rw [List.append_assoc] at member
    exact isName_of_append (unnamed_append.mpr ⟨unnamed_parameterParts _, unnamed_functionParts _⟩)
      member isName
  · rw [List.append_assoc] at member
    exact isName_of_append (unnamed_append.mpr ⟨unnamed_parameterParts _, unnamed_structParts _ _⟩)
      member isName
  · exact isName_of_append (unnamed_bounds _) member isName

end Item

namespace SyntaxNode

theorem mem_of_withField? {field : String} {nodes : List SyntaxNode} {node : SyntaxNode}
    (found : withField? field nodes = some node) : node ∈ nodes ∧ node.field = some field :=
  ⟨List.mem_of_find?_eq_some found, by simpa using List.find?_some found⟩

/-- No node fills a field of the node that they are part of. -/
def Plain (nodes : List SyntaxNode) : Prop :=
  ∀ node ∈ nodes, node.field = none

theorem Plain.withField? {nodes : List SyntaxNode} (plain : Plain nodes) (field : String) :
    SyntaxNode.withField? field nodes = none := by
  rw [SyntaxNode.withField?, List.find?_eq_none]
  intro node member
  simp [plain node member]

theorem withInner_of_plain {node : SyntaxNode} (plain : Plain node.children) :
    withInner node = [node] := by
  obtain ⟨head, children⟩ := node
  rw [withInner, if_neg]
  rintro ⟨_, found⟩
  rw [plain.withField?] at found
  simp at found

end SyntaxNode

namespace Grammar

open CrateAtlas.Rust.Tree SyntaxNode

section Fields

theorem phraseNode_field (kind : String) (trees : List Tree) (children : List SyntaxNode) :
    (phraseNode kind trees children).field = none := by
  unfold phraseNode
  split <;> rfl

theorem phraseNode_text (kind : String) (trees : List Tree) (children : List SyntaxNode) :
    (phraseNode kind trees children).text = String.ofList (textOf trees) := by
  unfold phraseNode
  split
  · simp [leafNode, textOf, tokensOf, Tree.tokens, spell]
  · rfl

theorem groupNode_field (kind : String) (inside : List SyntaxNode) (tree : Tree) :
    (groupNode kind inside tree).field = none := by
  cases tree <;> rfl

theorem node_field (tree : Tree) : (node tree).field = none := by
  cases tree with
  | leaf => rfl
  | group => exact groupNode_field _ _ _

theorem plain_nodes (trees : List Tree) : Plain (nodes trees) := by
  induction trees with
  | nil => exact fun _ => nofun
  | cons tree others ih => exact List.forall_mem_cons.mpr ⟨node_field tree, ih⟩

theorem plain_children (tree : Tree) : Plain (node tree).children := by
  cases tree with
  | leaf => exact fun _ => nofun
  | group opener inside closer =>
      refine List.forall_mem_append.mpr ⟨List.forall_mem_cons.mpr ⟨rfl, plain_nodes inside⟩, ?_⟩
      exact List.forall_mem_cons.mpr ⟨rfl, fun _ => nofun⟩

theorem plain_visibilityNodes (trees : List Tree) : Plain (visibilityNodes trees) := by
  unfold visibilityNodes
  split
  · exact fun _ => nofun
  · exact List.forall_mem_cons.mpr ⟨phraseNode_field _ _ _, fun _ => nofun⟩

theorem partNode_field (fuel : Nat) (part : Part) : (partNode fuel part).field = part.field := by
  cases fuel <;> rw [partNode]

theorem partNode_text (fuel : Nat) {part : Part} (tokens : part.reading = .tokens) :
    (partNode fuel part).text = String.ofList (textOf part.trees) := by
  cases fuel with
  | zero => exact phraseNode_text _ _ _
  | succ fuel =>
      rw [partNode, tokens]
      exact phraseNode_text _ _ _

theorem finishNode_field (fuel : Nat) (keyword : String) (finish : Tree) :
    (finishNode fuel keyword finish).field = none ∨
      (finishNode fuel keyword finish).field = some "body" := by
  cases fuel with
  | zero =>
      left
      rw [finishNode]
      exact node_field finish
  | succ fuel =>
      rw [finishNode]
      split
      · exact .inl (node_field finish)
      · exact .inr rfl

end Fields

section Pieces

theorem itemNode_kind (fuel : Nat) (item : Item) :
    (itemNode fuel item).kind = item.kind ∧ (itemNode fuel item).isNamed = true := by
  cases fuel <;> rw [itemNode] <;> exact ⟨rfl, rfl⟩

theorem itemsIn_loose (fuel : Nat) (trees : List Tree) (pieces : List Piece) :
    itemsIn (pieceNodes (fuel + 1) (.loose trees :: pieces)) =
      itemsIn (nodes trees) ++ itemsIn (pieceNodes (fuel + 1) pieces) := by
  rw [pieceNodes, pieceNodes, List.flatMap_cons, itemsIn_append]

theorem itemsIn_item (fuel : Nat) (item : Item) (pieces : List Piece) :
    itemsIn (pieceNodes (fuel + 1) (.item item :: pieces)) =
      withInner (itemNode fuel item) ++ itemsIn (pieceNodes (fuel + 1) pieces) := by
  rw [pieceNodes, pieceNodes, List.flatMap_cons, List.singleton_append, itemsIn,
    if_pos (itemNode_kind fuel item).2]

end Pieces

section Names

variable {item : Item} {fuel : Nat}

theorem mem_children_of_field {child : SyntaxNode} {field : String}
    (member : child ∈ (itemNode fuel item).children) (fills : child.field = some field) :
    ∃ less, fuel = less + 1 ∧ ((∃ part ∈ item.parts, part.field = some field ∧
      child = partNode less part) ∨
      ∃ finish, item.finish = some finish ∧ child = finishNode less item.keyword finish) := by
  cases fuel with
  | zero =>
      rw [itemNode] at member
      rw [plain_nodes _ child member] at fills
      exact absurd fills nofun
  | succ less =>
      refine ⟨less, rfl, ?_⟩
      rw [itemNode] at member
      simp only [branchNode, List.mem_append, List.mem_map, Option.mem_toList] at member
      rcases member with ((inVisibility | inModifiers) | ⟨part, among, rfl⟩) | ⟨finish, ends, rfl⟩
      · rw [plain_visibilityNodes _ child inVisibility] at fills
        exact absurd fills nofun
      · rw [plain_nodes _ child inModifiers] at fills
        exact absurd fills nofun
      · rw [partNode_field] at fills
        exact .inl ⟨part, among, fills, rfl⟩
      · exact .inr ⟨finish, ends, rfl⟩

theorem itemNode_name (proper : item.Proper) {name : SyntaxNode}
    (found : (itemNode fuel item).child? "name" = some name) : ProperName name.text := by
  obtain ⟨member, fills⟩ := mem_of_withField? found
  obtain ⟨less, rfl, ⟨part, among, isName, rfl⟩ | ⟨finish, -, rfl⟩⟩ :=
    mem_children_of_field member fills
  · obtain ⟨token, isName⟩ := Item.exists_isName among isName
    rw [partNode_text less isName.reading, isName.trees]
    simpa [textOf, tokensOf, Tree.tokens, spell] using proper.word isName.inHead isName.word
  · rcases finishNode_field less item.keyword finish with none | body
    · simp [none] at fills
    · simp [body] at fills

theorem unbodied_parts (isModule : item.keyword = "mod") :
    ∀ part ∈ item.parts, part.field ≠ some "body" := by
  have parts : item.parts = item.nameParts.1 ++ Item.boundParts item.nameParts.2 := by
    simp only [Item.parts, isModule]
    rfl
  rw [parts]
  intro part member
  rcases List.mem_append.mp member with inName | inBounds
  · unfold Item.nameParts at inName
    split at inName
    · obtain rfl := List.mem_singleton.mp inName
      simp
    · simp at inName
  · unfold Item.boundParts Item.part at inBounds
    split at inBounds
    · simp at inBounds
    · obtain rfl := List.mem_singleton.mp inBounds
      simp

theorem keyword_of_kind (isModule : item.kind = "mod_item") : item.keyword = "mod" := by
  unfold Item.kind at isModule
  split at isModule <;> first | assumption | (split at isModule) | skip
  all_goals simp at isModule

theorem called_nodes (trees : List Tree) (proper : String → Prop) :
    Called proper (itemsIn (nodes trees)) := by
  induction trees with
  | nil => exact fun _ => nofun
  | cons tree others ih =>
      rw [nodes, itemsIn]
      refine List.forall_mem_append.mpr ⟨?_, ih⟩
      split
      · rw [withInner_of_plain (plain_children tree)]
        refine List.forall_mem_cons.mpr ⟨fun name found => ?_, fun _ => nofun⟩
        rw [child?, (plain_children tree).withField?] at found
        exact absurd found nofun
      · exact fun _ => nofun

theorem called_leaf {nodes : List SyntaxNode} {proper : String → Prop}
    (called : Called proper (itemsIn nodes)) (token : Token) :
    Called proper (itemsIn (leafNode token :: nodes)) := by
  have alone := called_nodes [.leaf token] proper
  have split : itemsIn (leafNode token :: nodes) =
      itemsIn (Tree.nodes [.leaf token]) ++ itemsIn nodes :=
    itemsIn_append [leafNode token] nodes
  rw [split]
  exact List.forall_mem_append.mpr ⟨alone, called⟩

theorem called_groupNode {inside : List SyntaxNode} {proper : String → Prop}
    (called : Called proper (itemsIn inside)) (kind : String) (tree : Tree) :
    Called proper (groupNode kind inside tree).items := by
  rw [items_eq]
  cases tree with
  | leaf => exact fun _ => nofun
  | group opener trees closer =>
      have behind : Called proper (itemsIn (inside ++ [leafNode closer])) := by
        rw [itemsIn_append]
        exact List.forall_mem_append.mpr ⟨called, called_nodes [.leaf closer] proper⟩
      exact called_leaf behind opener

theorem called_finishNode {fuel : Nat} {item : Item} (isModule : item.keyword = "mod")
    {finish : Tree} (ends : item.finish = some finish) (proper : item.Proper)
    (inner : ∀ less < fuel, ∀ pieces, (∀ item, .item item ∈ pieces → item.Proper) →
      Called ProperName (itemsIn (pieceNodes less pieces))) :
    Called ProperName (finishNode fuel item.keyword finish).items := by
  have plain (tree : Tree) : Called ProperName (node tree).items := by
    cases tree with
    | leaf => exact fun _ => nofun
    | group opener trees closer =>
        rw [node]
        exact called_groupNode (called_nodes trees _) _ _
  cases fuel with
  | zero =>
      rw [finishNode]
      exact plain finish
  | succ less =>
      rw [finishNode, isModule]
      split
      · exact plain finish
      · rename_i inside braces
        rw [items_eq, asField]
        have pieces := inner less (Nat.lt_succ_self less) (Piece.list inside)
          fun item => Item.proper_of_mem_list (proper.body ends braces)
        have list := called_groupNode pieces "declaration_list" finish
        rw [items_eq] at list
        exact list

theorem called_itemNode {fuel : Nat} (item : Item) (proper : item.Proper)
    (inner : ∀ less < fuel, ∀ pieces, (∀ item, .item item ∈ pieces → item.Proper) →
      Called ProperName (itemsIn (pieceNodes less pieces))) :
    Called ProperName (withInner (itemNode fuel item)) := by
  have kind := (itemNode_kind fuel item).1
  cases whole : itemNode fuel item with
  | mk head children => ?_
  rw [withInner]
  refine List.forall_mem_cons.mpr ⟨fun name found => ?_, ?_⟩
  · rw [← whole] at found
    exact itemNode_name proper found
  · split
    · rename_i isModule
      rw [whole] at kind
      have keyword := keyword_of_kind (kind.symm.trans isModule.1)
      rw [innerItems_eq]
      cases found : withField? "body" children with
      | none => exact fun _ => nofun
      | some body =>
          obtain ⟨member, fills⟩ := mem_of_withField? found
          have among : body ∈ (itemNode fuel item).children := by rwa [whole]
          obtain ⟨less, rfl, ⟨part, inParts, isBody, -⟩ | ⟨finish, ends, rfl⟩⟩ :=
            mem_children_of_field among fills
          · exact absurd isBody (unbodied_parts keyword part inParts)
          · exact called_finishNode keyword ends proper fun least bound => inner least (by omega)
    · exact fun _ => nofun

theorem called_pieceNodes (fuel : Nat) {pieces : List Piece}
    (proper : ∀ item, .item item ∈ pieces → item.Proper) :
    Called ProperName (itemsIn (pieceNodes fuel pieces)) := by
  -- On the fuel: the pieces in the body of an inline module have less of it.
  induction fuel using Nat.strongRecOn generalizing pieces with
  | ind fuel ih =>
      cases fuel with
      | zero => exact fun _ => nofun
      | succ fuel =>
          induction pieces with
          | nil => exact fun _ => nofun
          | cons piece others rest =>
              have later := rest fun item member => proper item (List.mem_cons_of_mem _ member)
              cases piece with
              | loose trees =>
                  rw [itemsIn_loose]
                  exact List.forall_mem_append.mpr ⟨called_nodes trees ProperName, later⟩
              | item item =>
                  rw [itemsIn_item]
                  have here := called_itemNode item (proper item List.mem_cons_self)
                    fun less bound pieces => ih less (Nat.lt_succ_of_lt bound)
                  exact List.forall_mem_append.mpr ⟨here, later⟩

end Names

theorem called_parse (source : String) : Called ProperName (parse source).items := by
  have tokensProper := Token.ofSource_proper source
  rw [items_eq, parse]
  split
  · rename_i trees grouped
    have proper := Tree.groupTokens_proper tokensProper (by simp [ProperWords, tokensOf]) (by simp)
      grouped
    exact called_pieceNodes _ fun item => Item.proper_of_mem_list proper
  · have leaves (tokens : List Token) : tokens.map leafNode = nodes (tokens.map .leaf) := by
      induction tokens with
      | nil => rfl
      | cons token others ih => rw [List.map_cons, ih]; rfl
    rw [leaves]
    exact called_nodes _ ProperName

end Grammar

section Named

variable {filePath source : String} {unit : SourceUnit}

theorem sourceUnitAt_named {named : String → Prop} (handed : HandedOn ProperName named)
    (placed : named (ModulePath.ofFile filePath)) (read : sourceUnitAt filePath source = .ok unit) :
    ∀ type ∈ unit.types, named type.qualifiedName :=
  sourceUnitOf_named handed placed (Grammar.called_parse source) read

theorem handedOn_proper : HandedOn ProperName fun name => ProperName name ∧ name ≠ "" := by
  rintro modulePath name ⟨proper, filled⟩ nameProper
  refine ⟨ModulePath.properName_join ?_, ModulePath.join_ne_empty filled _⟩
  intro part member
  rcases List.mem_cons.mp member with rfl | later
  · exact proper
  · rw [List.mem_singleton.mp later]
    exact nameProper

theorem sourceUnitAt_proper (read : sourceUnitAt filePath source = .ok unit) :
    ∀ type ∈ unit.types, ProperName type.qualifiedName ∧ type.qualifiedName ≠ "" :=
  sourceUnitAt_named handedOn_proper
    ⟨ModulePath.properName_ofFile filePath, ModulePath.ofFile_ne_empty filePath⟩ read

end Named

end CrateAtlas.Rust
