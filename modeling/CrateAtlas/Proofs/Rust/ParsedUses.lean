import CrateAtlas.Proofs.Rust.UseSpelling

/-!
The use declarations of a source text. Main statement: what is spelled in them is what the use trees
of the syntax tree write.
-/

namespace CrateAtlas.Rust

open CrateAtlas.Text CrateAtlas.Rust.Tree

/-- The heads of the use declarations among some pieces, those in inline modules included. -/
inductive UseHeads : List Piece → List (List Tree) → Prop
  | none : UseHeads [] []
  | loose {trees : List Tree} {pieces : List Piece} {heads : List (List Tree)}
      (rest : UseHeads pieces heads) : UseHeads (.loose trees :: pieces) heads
  | use {item : Item} {pieces : List Piece} {heads : List (List Tree)}
      (isUse : item.keyword = "use") (filled : item.head ≠ []) (rest : UseHeads pieces heads) :
      UseHeads (.item item :: pieces) (item.head :: heads)
  | module {item : Item} {finish : Tree} {inside : List Tree} {pieces : List Piece}
      {inner heads : List (List Tree)} (isModule : item.keyword = "mod")
      (isNamed : item.name?.isSome) (ends : item.finish = some finish)
      (braces : finish.braces? = some inside) (within : UseHeads (Piece.list inside) inner)
      (rest : UseHeads pieces heads) : UseHeads (.item item :: pieces) (inner ++ heads)
  | other {item : Item} {pieces : List Piece} {heads : List (List Tree)}
      (noUse : item.keyword ≠ "use")
      (noBody : item.keyword = "mod" → item.finish.bind braces? = none)
      (rest : UseHeads pieces heads) : UseHeads (.item item :: pieces) heads

namespace Tree

def tokensRead (read : List Tree) : List (Token × List Tree) → List Token
  | [] => tokensOf read.reverse
  | (opener, before) :: outer => tokensRead before outer ++ opener :: tokensOf read.reverse

theorem tokensRead_cons (tree : Tree) (read : List Tree) (opened : List (Token × List Tree)) :
    tokensRead (tree :: read) opened = tokensRead read opened ++ tree.tokens := by
  cases opened <;> simp [tokensRead, tokensOf_append, tokensOf]

theorem tokensOf_groupTokens {tokens : List Token} {opened : List (Token × List Tree)}
    {read trees : List Tree} (grouped : groupTokens opened read tokens = some trees) :
    tokensOf trees = tokensRead read opened ++ tokens := by
  induction tokens generalizing opened read with
  | nil =>
      cases opened with
      | nil =>
          obtain rfl := Option.some.inj grouped
          rw [tokensRead, List.append_nil]
      | cons => simp [groupTokens] at grouped
  | cons token others ih =>
      simp only [groupTokens] at grouped
      split at grouped
      · rw [ih grouped]
        simp [tokensRead, tokensOf]
      · split at grouped
        · rw [ih grouped, tokensRead_cons]
          simp [Tree.tokens]
        · simp at grouped
        · split at grouped
          · rw [ih grouped, tokensRead_cons]
            simp [tokensRead, Tree.tokens]
          · simp at grouped

end Tree

namespace Grammar

open SyntaxNode

def argumentNode (trees : List Tree) : SyntaxNode :=
  (useNode (tokensOf trees).length trees).asField "argument"

section Nodes

variable {item : Item} {fuel : Nat}

theorem usesAmong_of_plain {node : SyntaxNode} (plain : Plain node.children) :
    usesAmong [node] = [] := by
  have noArgument : node.child? "argument" = none := plain.withField? "argument"
  unfold usesAmong
  rw [List.filter_cons]
  split <;> simp [noArgument]

theorem usesAmong_nodes (trees : List Tree) : usesAmong (itemsIn (nodes trees)) = [] := by
  induction trees with
  | nil => rfl
  | cons tree others ih =>
      rw [nodes, itemsIn, usesAmong_append, ih, List.append_nil]
      split
      · rw [withInner_of_plain (plain_children tree), usesAmong_of_plain (plain_children tree)]
      · rfl

theorem keyword_of_use (isUse : item.kind = "use_declaration") : item.keyword = "use" := by
  unfold Item.kind at isUse
  split at isUse <;> first | assumption | (split at isUse) | skip
  all_goals simp at isUse

theorem withInner_of_noModule {node : SyntaxNode} (noModule : node.kind ≠ "mod_item") :
    withInner node = [node] := by
  obtain ⟨head, children⟩ := node
  rw [withInner, if_neg fun both => noModule both.1]

theorem withInner_of_module {node body : SyntaxNode} (isModule : node.kind = "mod_item")
    (isNamed : (node.child? "name").isSome) (found : node.child? "body" = some body) :
    withInner node = node :: body.items := by
  obtain ⟨head, children⟩ := node
  rw [child?] at isNamed found
  dsimp only at isModule isNamed found
  rw [withInner, if_pos ⟨isModule, isNamed⟩, innerItems_eq, found]
  rfl

theorem withInner_of_bodiless {node : SyntaxNode} (noBody : node.child? "body" = none) :
    withInner node = [node] := by
  obtain ⟨head, children⟩ := node
  rw [child?] at noBody
  dsimp only at noBody
  rw [withInner, innerItems_eq, noBody]
  simp

theorem child?_itemNode (field : String) (fuel : Nat) (item : Item) :
    (itemNode (fuel + 1) item).child? field =
      withField? field (item.parts.map (partNode fuel) ++
        item.finish.toList.map (finishNode fuel item.keyword)) := by
  rw [itemNode, child?, branchNode, List.append_assoc, List.append_assoc,
    withField?_append_of_plain (plain_visibilityNodes _), withField?_append_of_plain (plain_nodes _)]

theorem itemNode_argument (isUse : item.keyword = "use") (filled : item.head ≠ []) (fuel : Nat) :
    (itemNode (fuel + 2) item).child? "argument" = some (argumentNode item.head) := by
  have parts : item.parts = [⟨some "argument", "argument", .uses, item.head⟩] := by
    simp [Item.parts, isUse, Item.part, filled]
  rw [child?_itemNode, parts, List.map_singleton, List.singleton_append, withField?, List.find?_cons,
    partNode]
  rfl

theorem name_itemNode (isModule : item.keyword = "mod") (isNamed : item.name?.isSome) (fuel : Nat) :
    ((itemNode (fuel + 1) item).child? "name").isSome := by
  obtain ⟨token, name⟩ := Option.isSome_iff_exists.mp isNamed
  have parts : item.parts = ⟨some "name", "identifier", .tokens, [.leaf token]⟩ ::
      Item.boundParts item.head.tail := by
    simp only [Item.parts, isModule, Item.nameParts, name]
    rfl
  rw [child?_itemNode, parts, List.map_cons, List.cons_append, withField?, List.find?_cons,
    partNode_field]
  rfl

theorem body_itemNode (isModule : item.keyword = "mod") (fuel : Nat) :
    (itemNode (fuel + 1) item).child? "body" =
      withField? "body" (item.finish.toList.map (finishNode fuel item.keyword)) := by
  have nothing : withField? "body" (item.parts.map (partNode fuel)) = none := by
    rw [withField?, List.find?_eq_none]
    intro node member
    obtain ⟨part, among, rfl⟩ := List.mem_map.mp member
    rw [partNode_field]
    simpa using unbodied_parts isModule part among
  rw [child?_itemNode, withField?, List.find?_append, ← withField?, nothing, Option.none_or]
  rfl

theorem finishNode_module {finish : Tree} {inside : List Tree}
    (braces : finish.braces? = some inside) (fuel : Nat) :
    finishNode (fuel + 1) "mod" finish =
      (groupNode "declaration_list" (pieceNodes fuel (Piece.list inside)) finish).asField "body" := by
  rw [finishNode, braces]
  rfl

theorem items_asField (field : String) (node : SyntaxNode) :
    (node.asField field).items = node.items := by
  rw [items_eq, items_eq, asField]

theorem usesAmong_groupNode (kind : String) (inside : List SyntaxNode) {tree : Tree}
    (isGroup : tree.braces?.isSome) :
    usesAmong (groupNode kind inside tree).items = usesAmong (itemsIn inside) := by
  cases tree with
  | leaf => simp [braces?, inside?] at isGroup
  | group opener trees closer =>
      have first := usesAmong_nodes [.leaf opener]
      have last := usesAmong_nodes [.leaf closer]
      have parts : (groupNode kind inside (.group opener trees closer)).items =
          itemsIn (nodes [.leaf opener]) ++ (itemsIn inside ++ itemsIn (nodes [.leaf closer])) := by
        rw [items_eq, groupNode, branchNode, ← itemsIn_append, ← itemsIn_append]
        rfl
      rw [parts, usesAmong_append, usesAmong_append, first, last, List.append_nil, List.nil_append]

end Nodes

theorem usesAmong_withInner_module {item : Item} (isModule : item.keyword = "mod")
    (isNamed : item.name?.isSome) {finish : Tree} (ends : item.finish = some finish)
    {inside : List Tree} (braces : finish.braces? = some inside) (fuel : Nat) :
    usesAmong (withInner (itemNode (fuel + 2) item)) =
      usesAmong (itemsIn (pieceNodes fuel (Piece.list inside))) := by
  have kind : (itemNode (fuel + 2) item).kind = "mod_item" := by
    rw [(itemNode_kind _ item).1, Item.kind, isModule]
    rfl
  have body : (itemNode (fuel + 2) item).child? "body" =
      some (finishNode (fuel + 1) "mod" finish) := by
    rw [body_itemNode isModule, ends, Option.toList_some, List.map_singleton, isModule,
      finishNode_module braces]
    rfl
  have noUse (inner : List SyntaxNode) :
      usesAmong (itemNode (fuel + 2) item :: inner) = usesAmong inner := by
    simp [usesAmong, kind]
  rw [withInner_of_module kind (name_itemNode isModule isNamed _) body, noUse,
    finishNode_module braces, items_asField,
    usesAmong_groupNode _ _ (Option.isSome_of_mem braces)]

theorem usesAmong_withInner_other {item : Item} (noUse : item.keyword ≠ "use")
    (noBody : item.keyword = "mod" → item.finish.bind braces? = none) (fuel : Nat) :
    usesAmong (withInner (itemNode (fuel + 2) item)) = [] := by
  have kind := (itemNode_kind (fuel + 2) item).1
  have alone : withInner (itemNode (fuel + 2) item) = [itemNode (fuel + 2) item] := by
    by_cases isModule : item.keyword = "mod"
    · apply withInner_of_bodiless
      have missing := noBody isModule
      rw [body_itemNode isModule]
      cases finish : item.finish with
      | none => rfl
      | some tree =>
          rw [finish, Option.bind_some] at missing
          rw [Option.toList_some, List.map_singleton, finishNode, missing, withField?,
            List.find?_cons, node_field]
          rfl
    · apply withInner_of_noModule
      rw [kind]
      exact fun isModuleKind => isModule (keyword_of_kind isModuleKind)
  have noUseKind : (itemNode (fuel + 2) item).kind ≠ "use_declaration" := by
    rw [kind]
    exact fun isUse => noUse (keyword_of_use isUse)
  simp [alone, usesAmong, noUseKind]

theorem length_tokens_le {tree : Tree} {trees : List Tree} (member : tree ∈ trees) :
    tree.tokens.length ≤ (tokensOf trees).length := by
  induction trees with
  | nil => simp at member
  | cons first others ih =>
      rw [tokensOf, List.length_append]
      rcases List.mem_cons.mp member with rfl | later
      · omega
      · have := ih later
        omega

theorem length_inside_lt {tree : Tree} {inside : List Tree} (braces : tree.braces? = some inside) :
    (tokensOf inside).length < tree.tokens.length := by
  cases tree with
  | leaf => simp [braces?, inside?] at braces
  | group opener trees closer =>
      simp only [braces?, inside?] at braces
      split at braces
      · obtain rfl := Option.some.inj braces
        simp only [Tree.tokens, List.length_append, List.length_cons]
        omega
      · simp at braces

/-- The use trees among the nodes of some pieces are the nodes of the heads, where the fuel covers
the nesting of modules. -/
theorem usesAmong_pieceNodes {pieces : List Piece} {heads : List (List Tree)}
    (uses : UseHeads pieces heads) {trees : List Tree}
    (within : ∀ item, .item item ∈ pieces → item.Within trees) {fuel : Nat}
    (enough : 3 * (tokensOf trees).length + 3 ≤ fuel) :
    usesAmong (itemsIn (pieceNodes fuel pieces)) = heads.map argumentNode := by
  obtain ⟨less, rfl⟩ := Nat.exists_eq_add_of_le' (Nat.le_of_add_left_le enough)
  induction uses generalizing trees less with
  | none => rfl
  | loose rest ih =>
      have later := ih (fun item member => within item (List.mem_cons_of_mem _ member)) less enough
      rw [itemsIn_loose, usesAmong_append, later, usesAmong_nodes, List.nil_append]
  | @use item _ _ isUse filled rest ih =>
      have later := ih (fun item member => within item (List.mem_cons_of_mem _ member)) less enough
      have kind : (itemNode (less + 2) item).kind = "use_declaration" := by
        rw [(itemNode_kind _ item).1, Item.kind, isUse]
        rfl
      have here : usesAmong [itemNode (less + 2) item] = [argumentNode item.head] := by
        simp [usesAmong, kind, itemNode_argument isUse filled]
      rw [itemsIn_item, usesAmong_append, later, withInner_of_noModule (by rw [kind]; decide), here,
        List.map_cons, List.singleton_append]
  | @module item finish inside _ _ _ isModule isNamed ends braces inner rest ihInner ih =>
      have later := ih (fun item member => within item (List.mem_cons_of_mem _ member)) less enough
      have shorter : (tokensOf inside).length < (tokensOf trees).length := by
        have among : finish ∈ trees := (within item List.mem_cons_self).2 (by simp [ends])
        exact Nat.lt_of_lt_of_le (length_inside_lt braces) (length_tokens_le among)
      obtain ⟨deeper, rfl⟩ : ∃ deeper, less = deeper + 3 := Nat.exists_eq_add_of_le' (by omega)
      have inside := ihInner (fun item => Piece.listFrom_within) deeper (by omega)
      have here := usesAmong_withInner_module isModule isNamed ends braces (deeper + 3)
      rw [itemsIn_item, usesAmong_append, later, here, inside, List.map_append]
  | @other item _ _ noUse noBody rest ih =>
      have later := ih (fun item member => within item (List.mem_cons_of_mem _ member)) less enough
      rw [itemsIn_item, usesAmong_append, later, usesAmong_withInner_other noUse noBody,
        List.nil_append]

/-- A source text whose use declarations are spelled for some branches has a syntax tree whose use
trees write these branches. -/
theorem writes_useTrees {source : String} {trees : List Tree}
    (grouped : groupTokens [] [] (Token.ofSource source) = some trees)
    {heads : List (List Tree)} (uses : UseHeads (Piece.list trees) heads)
    {branches : List UseBranch} (spelled : List.Forall₂ UseBranch.Spells branches heads) :
    List.Forall₂ UseBranch.Writes branches (parse source).useTrees := by
  have whole : (parse source).useTrees = heads.map argumentNode := by
    have tokens := tokensOf_groupTokens grouped
    rw [tokensRead, List.reverse_nil, tokensOf, List.nil_append] at tokens
    rw [useTrees, items_eq, parse, grouped]
    refine usesAmong_pieceNodes uses (fun item => Piece.listFrom_within) ?_
    rw [tokens]
    omega
  rw [whole, List.forall₂_map_right_iff]
  exact spelled.imp fun branch head here => (here.writes (Nat.le_refl _)).asField "argument"

end Grammar

end CrateAtlas.Rust
