import CrateAtlas.Rust.Grammar.Declaration

/-!
The syntax tree of a source text. Expressions are read as chains: an operand followed by field
accesses, calls, indexes and question marks. What stands between the chains is kept token by token,
as are patterns, types, attributes and macro arguments, in which nothing is called.
-/

namespace CrateAtlas.Rust

open CrateAtlas.Rust.Tree

namespace Grammar

def ahead (front : List SyntaxNode) (next : List SyntaxNode × List Tree) :
    List SyntaxNode × List Tree :=
  (front ++ next.1, next.2)

def visibilityNodes (trees : List Tree) : List SyntaxNode :=
  if trees.isEmpty then [] else [phraseNode "visibility_modifier" trees (nodes trees)]

def decoration (trees : List Tree) : List SyntaxNode × List Tree :=
  let bare := dropAttributes trees
  let (visibility, rest) := Item.takeVisibility bare
  let attributes := readOff trees bare
  ((if attributes.isEmpty then [] else
      [branchNode "attribute_item" attributes (nodes attributes)]) ++ visibilityNodes visibility,
    rest)

mutual

def scan : Nat → Ending → Place → List Tree → List SyntaxNode × List Tree
  | 0, _, _, trees => ([], trees)
  | _ + 1, _, _, [] => ([], [])
  | fuel + 1, ending, place, first :: rest =>
      if first.isMark ';' then ahead [node first] (scan fuel ending .statement rest)
      else if first.isMark ',' then
        if ending = .armValue then ([node first], rest)
        else ahead [node first] (scan fuel ending .operand rest)
      else if isArrow (first :: rest) then
        if ending = .arrow then ([], first :: rest)
        else ahead (node first :: nodes (rest.take 1)) (scan fuel ending .operand rest.tail)
      else if place = .operator then scanOperator fuel ending first rest
      else
        let bare := dropAttributes (first :: rest)
        if bare.length ≤ rest.length then
          ahead (nodes (readOff (first :: rest) bare)) (scan fuel ending place bare)
        else
          match Item.take? (first :: rest) with
          | some (item, rest) => ahead [itemNode fuel item] (scan fuel ending .statement rest)
          | none => scanOperand fuel ending place first rest

def scanOperator : Nat → Ending → Tree → List Tree → List SyntaxNode × List Tree
  | 0, _, first, rest => ([], first :: rest)
  | fuel + 1, ending, first, rest =>
      let isDoubled := rest.head?.any fun next =>
        (first.isMark '|' && next.isJoinedMark '|') ||
          (first.isMark '<' && next.isJoinedMark '<')
      if first.isBraces && ending = .body then ([], first :: rest)
      else if first.isWord "as" then
        let (type, rest) := takeType rest.length rest
        ahead (node first :: typeNodes fuel 0 none type) (scan fuel ending .operator rest)
      else if first.isMark '.' then
        let behind := dropRange rest
        let range := node first :: nodes (readOff rest behind)
        match behind with
        | body :: tail =>
            if ending = .body && body.isBraces && !(tail.head?.any Tree.isBraces) then
              (range, behind)
            else ahead range (scan fuel ending .operand behind)
        | [] => (range, [])
      else if isDoubled then
        ahead (node first :: nodes (rest.take 1)) (scan fuel ending .operand rest.tail)
      else
        match first with
        | .leaf token =>
            if token.kind = .mark then ahead [node first] (scan fuel ending .operand rest)
            else scan fuel ending .statement (first :: rest)
        | .group .. => scan fuel ending .statement (first :: rest)

def scanOperand : Nat → Ending → Place → Tree → List Tree → List SyntaxNode × List Tree
  | 0, _, _, first, rest => ([], first :: rest)
  | fuel + 1, ending, place, first, rest =>
      let isBlock := startsWithWord blockWords [first] &&
        ((rest.dropWhile fun tree => startsWithWord blockWords [tree]).head?.any Tree.isBraces)
      let isBinder := first.isWord "for" && startsWithMark '<' rest
      let isPath := (angleList? (first :: rest)).isSome ||
        startsWithPathSeparator (first :: rest)
      if first.isWord "let" then
        let (pattern, rest) := cutLet 0 none rest
        ahead (node first :: typeNodes fuel 0 none pattern) (scan fuel ending .operand rest)
      else if isBinder then
        let behind := ((angleList? rest).map Prod.snd).getD rest.tail
        ahead (node first :: nodes (readOff rest behind)) (scan fuel ending place behind)
      else if startsWithWord jumpWords [first] || isPrefixMark first then
        ahead [node first] (scan fuel ending .operand rest)
      else if isLifetime first || (startsWithWord leadWords [first] && !isBlock) then
        ahead [node first] (scan fuel ending place rest)
      else if first.isMark '|' then
        let behind := afterClosureHead rest
        ahead (node first :: typeNodes fuel 0 none (readOff rest behind))
          (scan fuel ending .operand behind)
      else
        match first with
        | .leaf token =>
            if token.kind = .mark && !isPath then ahead [node first] (scan fuel ending place rest)
            else scanChain fuel ending place first rest
        | .group .. => scanChain fuel ending place first rest

def scanChain : Nat → Ending → Place → Tree → List Tree → List SyntaxNode × List Tree
  | 0, _, _, first, rest => ([], first :: rest)
  | fuel + 1, ending, place, first, rest =>
      let (head, endsStatement, behind) := operand fuel ending first rest
      let (chain, behind, isLinked) :=
        links fuel (endsStatement && place = .statement) (first :: rest) head behind
      if endsStatement && place = .statement && !isLinked then
        if ending = .armValue && !goesOn behind then
          if startsWithMark ',' behind then (chain :: nodes (behind.take 1), behind.tail)
          else ([chain], behind)
        else
          let place := if ending = .armValue then .operator else .statement
          ahead [chain] (scan fuel ending place behind)
      else ahead [chain] (scan fuel ending .operator behind)

/-- An operand, whether it ends a statement by itself, and what is left. -/
def operand : Nat → Ending → Tree → List Tree → SyntaxNode × Bool × List Tree
  | 0, _, first, rest => (node first, false, rest)
  | fuel + 1, ending, first, rest =>
      match first with
      | .group _ inside _ =>
          if first.isBraces then
            (groupNode "block" (scan fuel .trees .statement inside).1 first, true, rest)
          else
            (groupNode "parenthesized_expression" (scan fuel .trees .operand inside).1 first, false,
              rest)
      | .leaf token =>
          let whole (kind : String) (behind : List Tree) (inside : List SyntaxNode) :=
            branchNode kind (readOff (first :: rest) behind) (node first :: inside)
          if token.kind = .quoted || token.kind = .number then (node first, false, rest)
          else if first.isWord "if" then
            let (inside, behind) := conditional fuel rest
            (whole "if_expression" behind inside, true, behind)
          else if first.isWord "while" then
            let (condition, behind) := scan fuel .body .operand rest
            (whole "while_expression" behind.tail (condition ++ blockNodes fuel behind), true,
              behind.tail)
          else if first.isWord "for" then
            let values := (rest.dropWhile fun tree => !tree.isWord "in").tail
            let (range, behind) := scan fuel .body .operand values
            (whole "for_expression" behind.tail
              (nodes (readOff rest values) ++ range ++ blockNodes fuel behind), true, behind.tail)
          else if first.isWord "match" then
            let (value, behind) := scan fuel .body .operand rest
            let arms := (behind.take 1).map fun block =>
              groupNode "match_block" (armNodes fuel (block.braces?.getD [])) block
            (whole "match_expression" behind.tail (value ++ arms), true, behind.tail)
          else if startsWithWord blockWords [first] then
            let (words, behind) := rest.span fun tree => startsWithWord blockWords [tree]
            (whole "block_expression" behind.tail (nodes words ++ blockNodes fuel behind), true,
              behind.tail)
          else
            let (path, behind) := takePath (first :: rest)
            match behind with
            | second :: third :: tail =>
                if second.isMark '!' && third.isAnyGroup then
                  (branchNode "macro_invocation" (path ++ [second, third])
                    (nodes (path ++ [second, third])), third.isBraces, tail)
                else structLiteral fuel ending path behind
            | _ => structLiteral fuel ending path behind

def structLiteral : Nat → Ending → List Tree → List Tree → SyntaxNode × Bool × List Tree
  | 0, _, path, rest => (pathNode path, false, rest)
  | fuel + 1, ending, path, rest =>
      let name := phraseNode (pathKind path) path (typeNodes fuel 0 none path)
      match rest with
      | fields :: tail =>
          match fields.braces? with
          | some inside =>
              if ending = .body then (name, false, rest)
              else
                let values := groupNode "field_initializer_list"
                  (scan fuel .trees .operand inside).1 fields
                (branchNode "struct_expression" (path ++ [fields]) [name, values], false, tail)
          | none => (name, false, rest)
      | [] => (name, false, [])

def blockNodes : Nat → List Tree → List SyntaxNode
  | 0, trees => nodes (trees.take 1)
  | fuel + 1, trees =>
      (trees.take 1).map fun block =>
        groupNode "block" (scan fuel .trees .statement (block.braces?.getD [])).1 block

def conditional : Nat → List Tree → List SyntaxNode × List Tree
  | 0, trees => ([], trees)
  | fuel + 1, trees =>
      let (condition, rest) := scan fuel .body .operand trees
      let made := condition ++ blockNodes fuel rest
      match rest with
      | _ :: word :: second :: tail =>
          if !word.isWord "else" then (made, rest.tail)
          else if second.isWord "if" then
            ahead (made ++ [node word, node second]) (conditional fuel tail)
          else (made ++ node word :: blockNodes fuel (second :: tail), tail)
      | _ => (made, rest.tail)

/-- Follows the links of a chain that starts where `start` does; behind a block that may end a
statement, only a field access or a question mark goes on. Answers also whether there was any
link. -/
def links : Nat → Bool → List Tree → SyntaxNode → List Tree → SyntaxNode × List Tree × Bool
  | 0, _, _, chain, trees => (chain, trees, false)
  | fuel + 1, isBlock, start, chain, trees =>
      let follow (kind : String) (parts : List SyntaxNode) (rest : List Tree) :=
        let (chain, rest, _) :=
          links fuel false start (branchNode kind (readOff start rest) parts) rest
        (chain, rest, true)
      let turbofish := if startsWithPathSeparator trees then angleList? (trees.drop 2) else none
      match turbofish with
      | some (list, rest) =>
          let arguments := branchNode "type_arguments" list (typeNodes fuel 0 none list)
          follow "generic_function"
            (chain.asField "function" :: nodes (trees.take 2) ++ [arguments]) rest
      | none =>
          match trees with
          | [] => (chain, [], false)
          | first :: rest =>
              if first.isMark '?' then follow "try_expression" [chain, node first] rest
              else if first.isMark '.' then
                match rest with
                | name :: tail =>
                    match name with
                    | .leaf token =>
                        if token.kind = .word || token.kind = .number then
                          follow "field_expression"
                            [chain.asField "value", node first, (node name).asField "field"] tail
                        else (chain, trees, false)
                    | .group .. => (chain, trees, false)
                | [] => (chain, trees, false)
              else if isBlock then (chain, trees, false)
              else
                match first.inside? "(", first.inside? "[" with
                | some inside, _ =>
                    let arguments := groupNode "arguments" (scan fuel .trees .operand inside).1 first
                    follow "call_expression"
                      [chain.asField "function", arguments.asField "arguments"] rest
                | none, some inside =>
                    let index := groupNode "index" (scan fuel .trees .operand inside).1 first
                    follow "index_expression" [chain, index] rest
                | none, none => (chain, trees, false)

def armNodes : Nat → List Tree → List SyntaxNode
  | 0, trees => nodes trees
  | _ + 1, [] => []
  | fuel + 1, first :: trees =>
      let guarded := cutPattern (dropAttributes (first :: trees))
      let (guard, arrow) :=
        if startsWithWord ["if"] guarded then
          ahead (nodes (guarded.take 1)) (scan fuel .arrow .operand guarded.tail)
        else ([], guarded)
      let (value, rest) := scan fuel .armValue .statement (arrow.drop 2)
      nodes (readOff (first :: trees) guarded) ++ guard ++ nodes (arrow.take 2) ++ value ++
        armNodes fuel rest

def typeNodes : Nat → Nat → Option Tree → List Tree → List SyntaxNode
  | 0, _, _, trees => nodes trees
  | _ + 1, _, _, [] => []
  | fuel + 1, depth, previous, tree :: trees =>
      let own :=
        match tree.inside? "(", tree.inside? "[", tree.braces? with
        | some inside, _, _ => groupNode "tuple_type" (typeNodes fuel 0 none inside) tree
        | none, some inside, _ =>
            let (element, length) := inside.span fun tree => !tree.isMark ';'
            groupNode "array_type"
              (typeNodes fuel 0 none element ++ nodes (length.take 1) ++
                (scan fuel .trees .operand length.tail).1) tree
        | none, none, some inside =>
            if depth = 0 then node tree
            else groupNode "block" (scan fuel .trees .statement inside).1 tree
        | none, none, none => node tree
      own :: typeNodes fuel (angleDepth depth previous tree) (some tree) trees

def fieldNode : Nat → List Tree → SyntaxNode
  | 0, trees => branchNode "field_declaration" trees (nodes trees)
  | fuel + 1, trees =>
      let (front, bare) := decoration trees
      branchNode "field_declaration" trees <| front ++
        match bare with
        | .leaf name :: colon :: first :: type =>
            if colon.isMark ':' && name.kind = .word then
              [(leafNode name).asField "name", node colon,
                (phraseNode "type" (first :: type) (typeNodes fuel 0 none (first :: type))).asField
                  "type"]
            else typeNodes fuel 0 none bare
        | _ => typeNodes fuel 0 none bare

def positionNodes : Nat → List Tree → List SyntaxNode
  | 0, trees => nodes trees
  | fuel + 1, trees =>
      let (front, type) := decoration trees
      front ++ if type.isEmpty then [] else [phraseNode "type" type (typeNodes fuel 0 none type)]

def fieldNodes : Nat → List (List Tree × List Tree) → List SyntaxNode
  | 0, _ => []
  | fuel + 1, pieces =>
      pieces.flatMap fun (piece, comma) =>
        (if piece.isEmpty then [] else [fieldNode fuel piece]) ++ nodes comma

def numberedNodes : Nat → List (List Tree × List Tree) → List SyntaxNode
  | 0, _ => []
  | fuel + 1, pieces =>
      pieces.flatMap fun (piece, comma) => positionNodes fuel piece ++ nodes comma

def payloadNodes : Nat → List Tree → List SyntaxNode
  | 0, trees => nodes trees
  | fuel + 1, trees =>
      match trees with
      | [] => []
      | fields :: rest =>
          match fields.inside? "(", fields.braces? with
          | some inside, _ =>
              (groupNode "ordered_field_declaration_list" (numberedNodes fuel (splitCommas inside))
                fields).asField "body" :: typeNodes fuel 0 none rest
          | none, some inside =>
              (groupNode "field_declaration_list" (fieldNodes fuel (splitCommas inside))
                fields).asField "body" :: typeNodes fuel 0 none rest
          | none, none => typeNodes fuel 0 none trees

def variantNode : Nat → List Tree → SyntaxNode
  | 0, trees => branchNode "enum_variant" trees (nodes trees)
  | fuel + 1, trees =>
      let (front, bare) := decoration trees
      let (declared, value) := bare.span fun tree => !tree.isMark '='
      branchNode "enum_variant" trees <| front ++
        (match declared with
          | .leaf name :: payload =>
              if name.kind = .word then (leafNode name).asField "name" :: payloadNodes fuel payload
              else nodes declared
          | _ => nodes declared) ++
        nodes (value.take 1) ++ (scan fuel .trees .operand value.tail).1

def variantNodes : Nat → List (List Tree × List Tree) → List SyntaxNode
  | 0, _ => []
  | fuel + 1, pieces =>
      pieces.flatMap fun (piece, comma) =>
        (if piece.isEmpty then [] else [variantNode fuel piece]) ++ nodes comma

def partNode : Nat → Part → SyntaxNode
  | 0, part => { phraseNode part.kind part.trees (nodes part.trees) with field := part.field }
  | fuel + 1, part =>
      let inside :=
        match part.reading with
        | .types => phraseNode part.kind part.trees (typeNodes fuel 0 none part.trees)
        | .value =>
            branchNode part.kind part.trees (scan fuel .trees .operand part.trees).1
        | .positions =>
            match part.trees with
            | [fields] =>
                groupNode part.kind
                  (numberedNodes fuel (splitCommas ((fields.inside? "(").getD []))) fields
            | trees => branchNode part.kind trees (nodes trees)
        | .uses => useNode (tokensOf part.trees).length part.trees
        | .tokens => phraseNode part.kind part.trees (nodes part.trees)
      { inside with field := part.field }

def pieceNodes : Nat → List Piece → List SyntaxNode
  | 0, _ => []
  | fuel + 1, pieces =>
      pieces.flatMap fun piece =>
        match piece with
        | .loose trees => nodes trees
        | .item item => [itemNode fuel item]

def finishNode : Nat → String → Tree → SyntaxNode
  | 0, _, finish => node finish
  | fuel + 1, keyword, finish =>
      match finish.braces? with
      | none => node finish
      | some inside =>
          let body :=
            match keyword with
            | "struct" | "union" =>
                groupNode "field_declaration_list" (fieldNodes fuel (splitCommas inside)) finish
            | "enum" =>
                groupNode "enum_variant_list" (variantNodes fuel (splitVariants inside)) finish
            | "fn" => groupNode "block" (scan fuel .trees .statement inside).1 finish
            | "macro_rules" => node finish
            | _ => groupNode "declaration_list" (pieceNodes fuel (Piece.list inside)) finish
          body.asField "body"

def itemNode : Nat → Item → SyntaxNode
  | 0, item => branchNode item.kind item.trees (nodes item.trees)
  | fuel + 1, item =>
      branchNode item.kind item.trees
        (visibilityNodes item.visibility ++ nodes item.modifiers ++
          item.parts.map (partNode fuel) ++
          item.finish.toList.map (finishNode fuel item.keyword))

end

/-- The syntax tree of a source text. One whose brackets do not balance is left as its tokens. -/
def parse (source : String) : SyntaxNode :=
  let tokens := Token.ofSource source
  match groupTokens [] [] tokens with
  | some trees =>
      branchNode "source_file" trees (pieceNodes (6 * tokens.length + 64) (Piece.list trees))
  | none => branchNode "source_file" (tokens.map .leaf) (tokens.map leafNode)

end Grammar

end CrateAtlas.Rust
