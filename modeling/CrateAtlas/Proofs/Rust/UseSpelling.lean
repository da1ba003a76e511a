import CrateAtlas.Proofs.Rust.ItemNames
import CrateAtlas.Proofs.Rust.UseTrees
import CrateAtlas.Proofs.TypeText.Paths
import Mathlib.Data.List.TakeDrop

/-!
Use trees as they are spelled token by token. Main statement: the grammar reads what is spelled for a
branch as a node that writes the branch, whatever gaps and commas it is spelled with.
-/

namespace CrateAtlas.Rust

open CrateAtlas.Text CrateAtlas.Rust.Tree

section Spelling

structure Token.IsName (token : Token) : Prop where
  word : token.kind = .word
  filled : token.text ≠ ""
  letters : ∀ character ∈ token.text.toList, TypeText.isIdentifierChar character
  apart : token.text ≠ "as"

structure IsSeparator (first second : Token) : Prop where
  opens : first.isMark ':'
  closes : second.isMark ':'
  joined : second.gap = []

inductive SpellsNames : List String → List Token → Prop
  | name {token : Token} (isName : token.IsName) : SpellsNames [token.text] [token]
  | glob {star : Token} (isStar : star.isMark '*') : SpellsNames ["*"] [star]
  | cons {token first second : Token} {names : List String} {tokens : List Token}
      (isName : token.IsName) (separator : IsSeparator first second)
      (rest : SpellsNames names tokens) :
      SpellsNames (token.text :: names) (token :: first :: second :: tokens)

inductive SpellsPath : List String → List Token → Prop
  | plain {names : List String} {tokens : List Token} (spells : SpellsNames names tokens) :
      SpellsPath names tokens
  | rooted {first second : Token} {names : List String} {tokens : List Token}
      (separator : IsSeparator first second) (spells : SpellsNames names tokens) :
      SpellsPath ("" :: names) (first :: second :: tokens)

/-- The tokens are a path, with blanks but no comments in between. -/
structure SpelledPath (names : List String) (tokens : List Token) : Prop where
  spells : SpellsPath names tokens
  spaced : ∀ token ∈ tokens.tail, ∀ character ∈ token.gap, isBlank character

mutual

/-- The trees are the branch as it is written, with commas between the members of a list. -/
def UseBranch.Spells : UseBranch → List Tree → Prop
  | .path names, trees => ∃ path, SpelledPath names path ∧ trees = path.map .leaf
  | .renamed names localName, trees =>
      ∃ path keyword token, SpelledPath names path ∧ keyword.isWord "as" ∧ token.IsName ∧
        token.text = localName ∧ trees = path.map .leaf ++ [.leaf keyword, .leaf token]
  | .list members, trees =>
      ∃ opener inside closer, opener.isMark '\x7b' ∧ closer.isMark '\x7d' ∧
        SpellsAll members inside ∧ trees = [.group opener inside closer]
  | .scopedList names members, trees =>
      ∃ path first second opener inside closer, SpelledPath names path ∧
        IsSeparator first second ∧ opener.isMark '\x7b' ∧ closer.isMark '\x7d' ∧
        SpellsAll members inside ∧
        trees = path.map .leaf ++ [.leaf first, .leaf second, .group opener inside closer]

def SpellsAll : List UseBranch → List Tree → Prop
  | [], trees => trees = []
  | member :: members, trees =>
      (members = [] ∧ member.Spells trees) ∨
        ∃ first comma rest, member.Spells first ∧ comma.isMark ',' ∧ SpellsAll members rest ∧
          trees = first ++ .leaf comma :: rest

end

end Spelling

section Reading

variable {names : List String} {tokens : List Token} {trees inside : List Tree}

structure Token.IsPathToken (token : Token) : Prop where
  visible : ∀ character ∈ token.text.toList, isBlank character = false
  inert : ∀ mark ∈ [',', '<', '>'], token.isMark mark = false
  apart : token.isWord "as" = false

theorem Token.isPathToken_of_isMark {token : Token} {mark : Char} (isMark : token.isMark mark)
    (path : mark ∈ [':', '*']) : token.IsPathToken := by
  simp only [Token.isMark, Bool.and_eq_true, decide_eq_true_eq] at isMark
  obtain ⟨kind, text⟩ := isMark
  simp only [List.mem_cons, List.not_mem_nil, or_false] at path
  constructor
  · rcases path with rfl | rfl <;> simp [text, isBlank]
  · rcases path with rfl | rfl <;> simp [Token.isMark, kind, text]
  · simp [Token.isWord, kind]

theorem Token.IsName.isPathToken {token : Token} (isName : token.IsName) :
    token.IsPathToken where
  visible := fun character member =>
    TypeText.isBlank_of_isIdentifierChar (isName.letters character member)
  inert := by simp [Token.isMark, isName.word]
  apart := by simp [Token.isWord, isName.apart]

theorem SpellsNames.isPathToken (spells : SpellsNames names tokens) :
    ∀ token ∈ tokens, token.IsPathToken := by
  induction spells with
  | name isName => simpa using isName.isPathToken
  | glob isStar => simpa using Token.isPathToken_of_isMark isStar (by simp)
  | cons isName separator _ ih =>
      simp only [List.forall_mem_cons]
      exact ⟨isName.isPathToken, Token.isPathToken_of_isMark separator.opens (by simp),
        Token.isPathToken_of_isMark separator.closes (by simp), ih⟩

theorem SpellsPath.isPathToken (spells : SpellsPath names tokens) :
    ∀ token ∈ tokens, token.IsPathToken := by
  cases spells with
  | plain spells => exact spells.isPathToken
  | rooted separator spells =>
      simp only [List.forall_mem_cons]
      exact ⟨Token.isPathToken_of_isMark separator.opens (by simp),
        Token.isPathToken_of_isMark separator.closes (by simp), spells.isPathToken⟩

theorem SpellsNames.ne_nil (spells : SpellsNames names tokens) : names ≠ [] := by
  cases spells <;> simp

theorem IsSeparator.texts {first second : Token} (separator : IsSeparator first second) :
    first.text.toList = [':'] ∧ second.text.toList = [':'] := by
  have opens := separator.opens
  have closes := separator.closes
  simp only [Token.isMark, Bool.and_eq_true, decide_eq_true_eq] at opens closes
  simp [opens, closes]

theorem SpellsNames.texts (spells : SpellsNames names tokens) :
    tokens.flatMap (·.text.toList) = (pathText names).toList := by
  induction spells with
  | name => simp [pathText, joinWith]
  | glob isStar =>
      simp only [Token.isMark, Bool.and_eq_true, decide_eq_true_eq] at isStar
      simp [pathText, joinWith, isStar.2]
  | cons isName separator rest ih =>
      have more := rest.ne_nil
      rw [pathText, joinWith_cons more]
      simp [separator.texts, ih, pathText]

theorem SpellsPath.texts (spells : SpellsPath names tokens) :
    tokens.flatMap (·.text.toList) = (pathText names).toList := by
  cases spells with
  | plain spells => exact spells.texts
  | rooted separator spells =>
      rw [pathText, joinWith_cons spells.ne_nil]
      simp [separator.texts, spells.texts, pathText]

theorem tokensOf_leaves (tokens : List Token) : tokensOf (tokens.map .leaf) = tokens := by
  induction tokens with
  | nil => rfl
  | cons token others ih => simp [tokensOf, Tree.tokens, ih]

theorem dropBlanks_spell (visible : ∀ token ∈ tokens, token.IsPathToken)
    (spaced : ∀ token ∈ tokens, ∀ character ∈ token.gap, isBlank character) :
    dropBlanks (spell tokens) = tokens.flatMap (·.text.toList) := by
  induction tokens with
  | nil => rfl
  | cons token others ih =>
      obtain ⟨here, later⟩ := List.forall_mem_cons.mp visible
      obtain ⟨gap, gaps⟩ := List.forall_mem_cons.mp spaced
      have parts : spell (token :: others) = token.gap ++ (token.text.toList ++ spell others) := by
        simp [spell]
      rw [parts, dropBlanks_append, dropBlanks_append, dropBlanks_of_blank gap,
        dropBlanks_of_visible here.visible, ih later gaps]
      simp

theorem SpellsNames.segments (spells : SpellsNames names tokens) : Segments names := by
  have segment {token : Token} (isName : token.IsName) : IsSegment token.text :=
    ⟨isName.filled, isName.isPathToken.visible,
      fun member => absurd (isName.letters ':' member) (by decide)⟩
  induction spells with
  | name isName => exact ⟨by simp, by simpa using segment isName⟩
  | glob => exact ⟨by simp, by simpa using ⟨by decide, by simp [isBlank], by decide⟩⟩
  | cons isName _ _ ih =>
      exact ⟨by simp, List.forall_mem_cons.mpr ⟨segment isName, ih.segment⟩⟩

theorem SpelledPath.writes (spelled : SpelledPath names tokens) :
    WritesPath names (String.ofList (textOf (tokens.map .leaf))) := by
  have visible := spelled.spells.isPathToken
  have spaced := spelled.spaced
  constructor
  · cases spelled.spells with
    | plain spells => exact .plain spells.segments
    | rooted _ spells => exact .rooted spells.segments
  · rw [← spelled.spells.texts, String.toList_ofList, textOf, tokensOf_leaves]
    cases tokens with
    | nil => rfl
    | cons first others =>
        obtain ⟨here, later⟩ := List.forall_mem_cons.mp visible
        rw [dropBlanks_append, dropBlanks_of_visible here.visible, dropBlanks_spell later spaced]
        simp

def endBraces? (trees : List Tree) : Option (Tree × List Tree) :=
  trees.getLast?.bind fun list => list.braces?.map fun inside => (list, inside)

theorem endBraces?_leaf (trees : List Tree) (token : Token) :
    endBraces? (trees ++ [.leaf token]) = none := by
  rw [endBraces?, List.getLast?_concat]
  rfl

theorem endBraces?_group {opener closer : Token} (brace : opener.isMark '\x7b')
    (trees inside : List Tree) :
    endBraces? (trees ++ [.group opener inside closer]) =
      some (.group opener inside closer, inside) := by
  simp only [Token.isMark, Bool.and_eq_true, decide_eq_true_eq] at brace
  rw [endBraces?, List.getLast?_concat]
  simp [braces?, inside?, brace.2]

theorem span_renaming (trees : List Tree) (apart : ∀ token ∈ tokens, token.isWord "as" = false)
    (renames : ∀ tree ∈ trees.head?, tree.isWord "as") :
    (tokens.map Tree.leaf ++ trees).span (fun tree => !tree.isWord "as") =
      (tokens.map .leaf, trees) := by
  have passed : ∀ tree ∈ tokens.map Tree.leaf, (!tree.isWord "as") = true := by
    intro tree member
    obtain ⟨token, found, rfl⟩ := List.mem_map.mp member
    simp [Tree.isWord, apart token found]
  rw [List.span_eq_takeWhile_dropWhile, List.takeWhile_append_of_pos passed,
    List.dropWhile_append_of_pos passed]
  cases trees with
  | nil => simp
  | cons first others => simp [renames first rfl]

theorem SpelledPath.concat (spelled : SpelledPath names tokens) :
    ∃ earlier last, tokens = earlier ++ [last] := by
  have filled : tokens ≠ [] := by
    cases spelled.spells with
    | plain spells => cases spells <;> simp
    | rooted => simp
  exact ⟨tokens.dropLast, tokens.getLast filled, (List.dropLast_append_getLast filled).symm⟩

theorem dropLastSeparator_append {first second : Token} (separator : IsSeparator first second) :
    Grammar.dropLastSeparator (trees ++ [.leaf first, .leaf second]) = trees := by
  simp [Grammar.dropLastSeparator, Tree.isMark, separator.opens, separator.closes]

/-- A tree that is neither a comma nor an angle bracket. -/
def IsInert (tree : Tree) : Prop :=
  ∀ mark ∈ [',', '<', '>'], tree.isMark mark = false

theorem isInert_group {opener closer : Token} : IsInert (.group opener inside closer) :=
  fun _ _ => rfl

theorem SpelledPath.isInert (spelled : SpelledPath names tokens) :
    ∀ tree ∈ tokens.map Tree.leaf, IsInert tree := by
  intro tree member
  obtain ⟨token, found, rfl⟩ := List.mem_map.mp member
  exact (spelled.spells.isPathToken token found).inert

theorem isInert_of_isWord {token : Token} (word : token.kind = .word) : IsInert (.leaf token) := by
  intro mark _
  simp [Tree.isMark, Token.isMark, word]

theorem UseBranch.Spells.isInert {branch : UseBranch} (spells : branch.Spells trees) :
    ∀ tree ∈ trees, IsInert tree := by
  cases branch with
  | path names =>
      obtain ⟨path, written, rfl⟩ := spells
      exact written.isInert
  | renamed names localName =>
      obtain ⟨path, keyword, token, written, isAs, isName, -, rfl⟩ := spells
      simp only [Token.isWord, Bool.and_eq_true, decide_eq_true_eq] at isAs
      simp only [List.forall_mem_append, List.forall_mem_cons]
      exact ⟨written.isInert, isInert_of_isWord isAs.1, isInert_of_isWord isName.word, by simp⟩
  | list members =>
      obtain ⟨opener, inside, closer, -, -, -, rfl⟩ := spells
      simpa using isInert_group
  | scopedList names members =>
      obtain ⟨path, first, second, opener, inside, closer, written, separator, -, -, -, rfl⟩ := spells
      simp only [List.forall_mem_append, List.forall_mem_cons]
      exact ⟨written.isInert, (Token.isPathToken_of_isMark separator.opens (by simp)).inert,
        (Token.isPathToken_of_isMark separator.closes (by simp)).inert, isInert_group, by simp⟩

theorem UseBranch.Spells.ne_nil {branch : UseBranch} (spells : branch.Spells trees) :
    trees ≠ [] := by
  cases branch with
  | path names =>
      obtain ⟨path, written, rfl⟩ := spells
      obtain ⟨earlier, last, rfl⟩ := written.concat
      simp
  | renamed names localName =>
      obtain ⟨path, keyword, token, -, -, -, -, rfl⟩ := spells
      simp
  | list members =>
      obtain ⟨opener, inside, closer, -, -, -, rfl⟩ := spells
      simp
  | scopedList names members =>
      obtain ⟨path, first, second, opener, inside, closer, -, -, -, -, -, rfl⟩ := spells
      simp

theorem angleDepth_of_isInert {tree : Tree} (inert : IsInert tree) (previous : Option Tree) :
    angleDepth 0 previous tree = 0 := by
  simp [angleDepth, inert '<' (by simp), inert '>' (by simp)]

theorem piecesOutside_inert (inert : ∀ tree ∈ trees, IsInert tree) (previous : Option Tree) :
    piecesOutside angleDepth 0 previous trees = [(trees, [])] := by
  induction trees generalizing previous with
  | nil => rfl
  | cons tree others ih =>
      obtain ⟨here, later⟩ := List.forall_mem_cons.mp inert
      have noComma : tree.isMark ',' = false := here ',' (by simp)
      simp [piecesOutside, noComma, angleDepth_of_isInert here, ih later]

theorem piecesOutside_comma {comma : Token} (isComma : comma.isMark ',')
    (inert : ∀ tree ∈ trees, IsInert tree) (previous : Option Tree) (rest : List Tree) :
    piecesOutside angleDepth 0 previous (trees ++ .leaf comma :: rest) =
      (trees, [.leaf comma]) :: piecesOutside angleDepth 0 (some (.leaf comma)) rest := by
  induction trees generalizing previous with
  | nil => simp [piecesOutside, Tree.isMark, isComma]
  | cons tree others ih =>
      obtain ⟨here, later⟩ := List.forall_mem_cons.mp inert
      have noComma : tree.isMark ',' = false := here ',' (by simp)
      simp [piecesOutside, noComma, angleDepth_of_isInert here, ih later]

theorem tokensOf_append (left right : List Tree) :
    tokensOf (left ++ right) = tokensOf left ++ tokensOf right := by
  induction left with
  | nil => rfl
  | cons tree others ih => simp [tokensOf, ih]

end Reading

namespace Grammar

open SyntaxNode

section Nodes

variable {trees : List Tree} {opener closer : Token}

theorem phraseNode_kind (kind : String) (trees : List Tree) (children : List SyntaxNode) :
    (phraseNode kind trees children).kind = kind ∧
      (phraseNode kind trees children).isNamed = true := by
  unfold phraseNode
  split <;> exact ⟨rfl, rfl⟩

theorem pathNode_kind (trees : List Tree) :
    (pathNode trees).kind = "identifier" ∨ (pathNode trees).kind = "scoped_identifier" := by
  rw [pathNode, (phraseNode_kind _ _ _).1, pathKind]
  split
  · exact .inl rfl
  · exact .inr rfl

def IsMember (node : SyntaxNode) : Prop :=
  (node.isNamed && !node.isComment) = true

theorem isMember_pathNode (trees : List Tree) : IsMember (pathNode trees) := by
  have named : (pathNode trees).isNamed = true := (phraseNode_kind _ _ _).2
  rcases pathNode_kind trees with kind | kind <;> simp [IsMember, isComment, named, kind]

theorem isMember_useNode (fuel : Nat) (trees : List Tree) : IsMember (useNode fuel trees) := by
  cases fuel with
  | zero => exact isMember_pathNode trees
  | succ fuel =>
      rw [useNode]
      split
      · rename_i list inside found
        dsimp only
        split
        · cases list with
          | leaf => simp [braces?, inside?, Option.bind_eq_some_iff] at found
          | group => rfl
        · rfl
      · dsimp only
        split
        · rfl
        · exact isMember_pathNode trees

theorem leafNode_unnamed {token : Token} {mark : Char} (isMark : token.isMark mark) :
    (leafNode token).isNamed = false := by
  simp only [Token.isMark, Bool.and_eq_true, decide_eq_true_eq] at isMark
  simp [leafNode, isMark.1]

theorem members_groupNode {open_ close_ : Char} (opens : opener.isMark open_)
    (closes : closer.isMark close_) (kind : String) (inside : List SyntaxNode) :
    (groupNode kind inside (.group opener trees closer)).members =
      inside.filter fun node => node.isNamed && !node.isComment := by
  simp [members, namedChildren, groupNode, branchNode, leafNode_unnamed opens,
    leafNode_unnamed closes, List.filter_filter, Bool.and_comm]

theorem members_asField (field : String) (node : SyntaxNode) :
    (node.asField field).members = node.members :=
  rfl

theorem withField?_append_of_plain {front back : List SyntaxNode} (plain : Plain front)
    (field : String) : withField? field (front ++ back) = withField? field back := by
  have nothing := plain.withField? field
  rw [withField?] at nothing ⊢
  rw [List.find?_append, nothing, Option.none_or]
  rfl

end Nodes

section Reading

variable {names : List String} {tokens : List Token} {trees inside : List Tree}

theorem useNode_path (spelled : SpelledPath names tokens) (fuel : Nat) :
    useNode (fuel + 1) (tokens.map .leaf) = pathNode (tokens.map .leaf) := by
  have apart := fun token member => (spelled.spells.isPathToken token member).apart
  have whole := span_renaming [] apart (by simp)
  obtain ⟨earlier, last, shape⟩ := spelled.concat
  have leaf : endBraces? (tokens.map Tree.leaf) = none := by
    rw [shape, List.map_append, List.map_singleton]
    exact endBraces?_leaf _ _
  rw [List.append_nil] at whole
  rw [useNode, ← endBraces?, leaf]
  simp only [whole]

theorem useNode_renamed (spelled : SpelledPath names tokens) {word name : Token}
    (isAs : word.isWord "as") (fuel : Nat) :
    useNode (fuel + 1) (tokens.map .leaf ++ [.leaf word, .leaf name]) =
      branchNode "use_as_clause" (tokens.map .leaf ++ [.leaf word, .leaf name])
        [(pathNode (tokens.map .leaf)).asField "path", leafNode word,
          (phraseNode "identifier" [.leaf name] [leafNode name]).asField "alias"] := by
  have apart := fun token member => (spelled.spells.isPathToken token member).apart
  have cut := span_renaming [.leaf word, .leaf name] apart (by simpa [Tree.isWord] using isAs)
  have leaf : endBraces? (tokens.map Tree.leaf ++ [.leaf word, .leaf name]) = none := by
    rw [List.append_cons]
    exact endBraces?_leaf _ _
  rw [useNode, ← endBraces?, leaf]
  simp only [cut]
  rfl

def memberNodes (fuel : Nat) (inside : List Tree) : List SyntaxNode :=
  (splitCommas inside).flatMap fun (piece, comma) =>
    (if piece.isEmpty then [] else [useNode fuel piece]) ++ nodes comma

theorem useNode_list {opener closer : Token} (brace : opener.isMark '\x7b') (fuel : Nat) :
    useNode (fuel + 1) [.group opener inside closer] =
      groupNode "use_list" (memberNodes fuel inside) (.group opener inside closer) := by
  rw [useNode, ← endBraces?, ← List.nil_append [_], endBraces?_group brace]
  rfl

theorem useNode_scopedList (spelled : SpelledPath names tokens) {first second opener closer : Token}
    (separator : IsSeparator first second) (brace : opener.isMark '\x7b') (inside : List Tree)
    (fuel : Nat) :
    ∃ trees between, Plain between ∧
      useNode (fuel + 1)
          (tokens.map .leaf ++ [.leaf first, .leaf second, .group opener inside closer]) =
        branchNode "scoped_use_list" trees
          ((pathNode (tokens.map .leaf)).asField "path" :: (between ++
            [(groupNode "use_list" (memberNodes fuel inside)
              (.group opener inside closer)).asField "list"])) := by
  have parts : tokens.map Tree.leaf ++ [.leaf first, .leaf second, .group opener inside closer] =
      (tokens.map Tree.leaf ++ [.leaf first, .leaf second]) ++ [.group opener inside closer] := by
    simp
  obtain ⟨earlier, last, rfl⟩ := spelled.concat
  let path := (earlier ++ [last]).map Tree.leaf
  let front := path ++ [Tree.leaf first, Tree.leaf second]
  refine ⟨front ++ [.group opener inside closer], nodes (front.drop path.length), plain_nodes _, ?_⟩
  rw [parts, useNode, ← endBraces?, endBraces?_group brace]
  simp only [List.dropLast_concat, dropLastSeparator_append separator]
  rw [if_neg (by simp), if_neg (by simp)]
  rfl

theorem writesAll_memberNodes {members : List UseBranch} {fuel : Nat}
    (spells : SpellsAll members inside) (enough : (tokensOf inside).length ≤ fuel)
    (reads : ∀ member ∈ members, ∀ trees, member.Spells trees → (tokensOf trees).length ≤ fuel →
      member.Writes (useNode fuel trees)) (previous : Option Tree) :
    WritesAll members (((piecesOutside angleDepth 0 previous inside).flatMap fun (piece, comma) =>
      (if piece.isEmpty then [] else [useNode fuel piece]) ++ nodes comma).filter fun node =>
        node.isNamed && !node.isComment) := by
  have kept (trees : List Tree) := isMember_useNode fuel trees
  unfold IsMember at kept
  induction members generalizing inside previous with
  | nil =>
      obtain rfl : inside = [] := spells
      rfl
  | cons member others ih =>
      obtain ⟨readsHere, readsLater⟩ := List.forall_mem_cons.mp reads
      obtain ⟨rfl, last⟩ | ⟨first, comma, rest, here, isComma, later, rfl⟩ := spells
      · rw [piecesOutside_inert last.isInert]
        refine ⟨useNode fuel inside, [], readsHere inside last enough, rfl, ?_⟩
        simp [last.ne_nil, nodes, kept]
      · rw [tokensOf_append, List.length_append, tokensOf, List.length_append] at enough
        rw [piecesOutside_comma isComma here.isInert]
        refine ⟨useNode fuel first, _, readsHere first here (by omega),
          ih later (by omega) readsLater (some (.leaf comma)), ?_⟩
        simp [here.ne_nil, nodes, node, leafNode_unnamed isComma, kept]

end Reading

end Grammar

theorem UseBranch.Writes.asField {branch : UseBranch} {node : SyntaxNode}
    (writes : branch.Writes node) (field : String) : branch.Writes (node.asField field) := by
  cases branch <;> exact writes

/-- What is spelled for a branch is read as a node that writes it. -/
theorem UseBranch.Spells.writes {branch : UseBranch} {trees : List Tree}
    (spells : branch.Spells trees) {fuel : Nat} (enough : (tokensOf trees).length ≤ fuel) :
    branch.Writes (Grammar.useNode fuel trees) := by
  -- On the branch; the fuel falls by one where a group is entered.
  induction branch generalizing trees fuel with
  | path names =>
      obtain ⟨path, spelled, rfl⟩ := spells
      obtain ⟨earlier, last, rfl⟩ := spelled.concat
      rw [tokensOf_leaves, List.length_append, List.length_singleton] at enough
      obtain ⟨less, rfl⟩ := Nat.exists_eq_add_of_le' (Nat.le_of_add_left_le enough)
      rw [Grammar.useNode_path spelled]
      refine ⟨?_, ?_⟩
      · rcases Grammar.pathNode_kind ((earlier ++ [last]).map .leaf) with kind | kind <;>
          (rw [kind]; decide)
      · rw [Grammar.pathNode, Grammar.phraseNode_text]
        exact spelled.writes
  | renamed names localName =>
      obtain ⟨path, word, name, spelled, isAs, -, rfl, rfl⟩ := spells
      rw [tokensOf_append, List.length_append] at enough
      obtain ⟨less, rfl⟩ := Nat.exists_eq_add_of_le'
        ((Nat.le_add_left 1 1).trans (Nat.le_of_add_left_le enough))
      rw [Grammar.useNode_renamed spelled isAs]
      refine ⟨rfl, _, _, rfl, ?_, rfl, ?_⟩
      · rw [SyntaxNode.asField, Grammar.pathNode]
        exact Grammar.phraseNode_text _ _ _ ▸ spelled.writes
      · rfl
  | list members ih =>
      obtain ⟨opener, inside, closer, opens, closes, listed, rfl⟩ := spells
      simp only [tokensOf, Tree.tokens, List.append_nil, List.length_append, List.length_cons,
        List.length_nil] at enough
      obtain ⟨less, rfl⟩ := Nat.exists_eq_add_of_le' (Nat.le_of_add_left_le enough)
      rw [Grammar.useNode_list opens]
      refine ⟨rfl, ?_⟩
      rw [Grammar.members_groupNode opens closes]
      exact Grammar.writesAll_memberNodes listed (by omega)
        (fun member found trees here bound => ih member found here bound) none
  | scopedList names members ih =>
      obtain ⟨path, first, second, opener, inside, closer, spelled, separator, opens, closes, listed,
        rfl⟩ := spells
      rw [tokensOf_append, tokensOf_leaves] at enough
      simp only [tokensOf, Tree.tokens, List.append_nil, List.length_append, List.length_cons,
        List.length_nil] at enough
      obtain ⟨less, rfl⟩ : ∃ less, fuel = less + 1 := Nat.exists_eq_add_of_le' (by omega)
      obtain ⟨trees, between, plain, shape⟩ :=
        Grammar.useNode_scopedList spelled separator opens inside less
      rw [shape]
      refine ⟨rfl, _, _, rfl, ?_, Grammar.withField?_append_of_plain plain "list", ?_⟩
      · exact Grammar.phraseNode_text _ _ _ ▸ spelled.writes
      refine ⟨rfl, ?_⟩
      rw [Grammar.members_asField, Grammar.members_groupNode opens closes]
      exact Grammar.writesAll_memberNodes listed (by omega)
        (fun member found trees here bound => ih member found here bound) none

end CrateAtlas.Rust
