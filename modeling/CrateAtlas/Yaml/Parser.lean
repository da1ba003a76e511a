import CrateAtlas.Yaml.Node
import CrateAtlas.Yaml.Text

/-!
Reading a YAML text that holds one document: block and flow collections, all styles of
scalars, anchors, references and tags. Indentation is counted in spaces.
-/

namespace CrateAtlas.Yaml

open CrateAtlas.Text

structure Cursor where
  rest : List Char
  column : Nat

namespace Cursor

def skip : Nat → Cursor → Cursor
  | 0, cursor => cursor
  | count + 1, cursor =>
      match cursor.rest with
      | [] => cursor
      | '\n' :: rest => skip count { rest := rest, column := 0 }
      | _ :: rest => skip count { rest := rest, column := cursor.column + 1 }

def skipBlanks (cursor : Cursor) : Cursor :=
  cursor.skip (cursor.rest.takeWhile isSpaceOrTab).length

def head? (cursor : Cursor) : Option Char := cursor.rest.head?

end Cursor

def endsToken : Option Char → Bool
  | none => true
  | some character => isSpaceOrTab character || character = '\n'

def isFlowMark (character : Char) : Bool :=
  [',', '[', ']', '\x7b', '\x7d'].contains character

def endsFlowToken (next : Option Char) : Bool :=
  endsToken next || next.any isFlowMark

def isIndicatorAt (mark : Char) (cursor : Cursor) : Bool :=
  match cursor.rest with
  | character :: rest => character = mark && endsToken rest.head?
  | [] => false

/-- Blanks, line feeds and comments up to the next content. `indent` is the column of the
content, or of the first tab in front of it on its line. -/
structure Gap where
  cursor : Cursor
  crossesLine : Bool
  indent : Nat
  hasTab : Bool

def Gap.atEnd (gap : Gap) : Bool := gap.cursor.rest.isEmpty

def readGap (column : Nat) (afterBlank crossesLine inComment : Bool) (tab : Option Nat) :
    List Char → Gap
  | [] =>
      { cursor := { rest := [], column := column }, crossesLine := crossesLine,
        indent := tab.getD column, hasTab := tab.isSome }
  | character :: rest =>
      if character = '\n' then readGap 0 true true false none rest
      else if inComment then readGap (column + 1) true crossesLine true tab rest
      else if character = ' ' then readGap (column + 1) true crossesLine false tab rest
      else if character = '\t' then
        readGap (column + 1) true crossesLine false (tab.or (some column)) rest
      else if character = '#' && afterBlank then
        readGap (column + 1) true crossesLine true tab rest
      else
        { cursor := { rest := character :: rest, column := column }, crossesLine := crossesLine,
          indent := tab.getD column, hasTab := tab.isSome }

def gapAt (cursor : Cursor) : Gap :=
  let atStart := cursor.column = 0
  readGap cursor.column atStart atStart false none cursor.rest

def plainLine (inFlow : Bool) : List Char → List Char
  | [] => []
  | character :: rest =>
      let next := rest.head?
      if character = '\n' then []
      else if character = ':' &&
          (endsToken next || (inFlow && next.any isFlowMark)) then []
      else if isSpaceOrTab character && next = some '#' then []
      else if inFlow && isFlowMark character then []
      else character :: plainLine inFlow rest

def nextLine? (cursor : Cursor) : Option Cursor :=
  let behind := cursor.skipBlanks
  if behind.head? = some '\n' then some (behind.skip 1) else none

def plainLines (inFlow : Bool) (least : Nat) : Nat → Cursor → List (List Char) × Cursor
  | 0, cursor => ([], cursor)
  | fuel + 1, cursor =>
      match nextLine? cursor with
      | none => ([], cursor)
      | some line =>
          let content := line.skipBlanks
          if content.head? = some '\n' then
            let (lines, finish) := plainLines inFlow least fuel line
            if lines.isEmpty then ([], cursor) else ([] :: lines, finish)
          else
            let indent := (line.rest.takeWhile (· = ' ')).length
            let text := dropBlanksAtEnd (plainLine inFlow content.rest)
            if indent < least || content.head? = some '#' || text.isEmpty then ([], cursor)
            else
              let (lines, finish) := plainLines inFlow least fuel (content.skip text.length)
              (text :: lines, finish)

structure Reading (α : Type) where
  value : α
  isMultiline : Bool
  cursor : Cursor

def startsNoPlain (character : Char) : Bool :=
  ",[]\x7b\x7d#&*!|>'\"%@`".toList.contains character

def readPlain (fuel : Nat) (inFlow : Bool) (least : Nat) (cursor : Cursor) :
    Option (Reading String) :=
  if cursor.head?.any startsNoPlain then none
  else
    let first := dropBlanksAtEnd (plainLine inFlow cursor.rest)
    if first.isEmpty then none
    else
      let (lines, finish) := plainLines inFlow least fuel (cursor.skip first.length)
      some
        { value := String.ofList (foldLines (first :: lines))
          isMultiline := !lines.isEmpty
          cursor := finish }

def fitsIndent (least : Nat) (line : List Char) : Bool :=
  let indent := (line.takeWhile (· = ' ')).length
  let next := (line.drop indent).head?
  least ≤ indent || next = some '\n' || next = none

def quotedRaw (quote : Char) (least : Nat) : List Char → Option (List Char)
  | [] => none
  | '\\' :: character :: rest =>
      if quote = '"' then
        if character = '\n' && !fitsIndent least rest then none
        else (quotedRaw quote least rest).map ('\\' :: character :: ·)
      else (quotedRaw quote least (character :: rest)).map ('\\' :: ·)
  | first :: rest =>
      if first = quote then
        match quote, rest with
        | '\'', '\'' :: rest => (quotedRaw quote least rest).map ('\'' :: '\'' :: ·)
        | _, _ => some []
      else if first = '\n' && !fitsIndent least rest then none
      else (quotedRaw quote least rest).map (first :: ·)

def readQuoted (least : Nat) (cursor : Cursor) : Option (Reading String) := do
  let quote ← cursor.head?
  let raw ← quotedRaw quote least cursor.rest.tail
  let text ←
    if quote = '"' then decodeDouble (raw.length + 1) raw else some (decodeSingle raw)
  some
    { value := String.ofList text
      isMultiline := contains '\n' raw
      cursor := cursor.skip (raw.length + 2) }

def blockLines (least : Nat) : List (List Char) → List BlockLine
  | [] => []
  | line :: lines =>
      let read := BlockLine.ofText line
      if read.content.isEmpty || least ≤ read.indent then read :: blockLines least lines else []

def endsHeader (rest : List Char) : Bool :=
  let behind := rest.dropWhile isSpaceOrTab
  behind.isEmpty || behind.head? = some '\n' ||
    (behind.head? = some '#' && rest.head?.any isSpaceOrTab)

def readBlockText (parent : Int) (cursor : Cursor) : Option (Reading String) := do
  let (header, rest) ← readBlockHeader
    { isFolded := cursor.head? = some '>', indent := none, chomp := none } cursor.rest.tail
  let text := (rest.dropWhile (· ≠ '\n')).tail
  let lines := if text.isEmpty then [] else splitOn '\n' text
  let first := (lines.map BlockLine.ofText).find? fun line => !line.content.isEmpty
  let least := (parent + 1).toNat
  let firstIndent := (first.map BlockLine.indent).getD 0
  let indent :=
    match header.indent with
    | some indent => indent - 1 + max 1 least
    | none => firstIndent
  let read :=
    if least ≤ firstIndent then blockLines indent lines
    else (lines.map BlockLine.ofText).takeWhile fun line => line.content.isEmpty
  let isCut := !read.isEmpty && read.length < lines.length
  let value ← blockValue header parent.toNat
    (if isCut then read ++ [{ indent := 0, content := [] }] else read)
  let length := (lines.take read.length).foldl (fun total line => total + line.length + 1) 0
  if endsHeader rest then
    some
      { value := String.ofList value
        isMultiline := true
        cursor := { rest := text.drop length, column := 0 } }
  else none

structure Properties where
  anchor : Option String
  tag : Option String

def Properties.absent : Properties := { anchor := none, tag := none }

def Properties.isEmpty (properties : Properties) : Bool :=
  properties.anchor.isNone && properties.tag.isNone

def Properties.apply (properties : Properties) (node : Node) : Node :=
  let tagged :=
    match node, properties.tag with
    | .scalar none isPlain text, some tag => .scalar (some tag) isPlain text
    | node, _ => node
  match properties.anchor with
  | some name => .anchored name tagged
  | none => tagged

def isNameEnd (character : Char) : Bool :=
  isSpaceOrTab character || character = '\n' || isFlowMark character

def resolveTag (written : List Char) : Option String :=
  match written with
  | ['!'] => some "!"
  | '!' :: '<' :: rest =>
      let name := String.ofList rest.dropLast
      if endsWith ">" rest && name ≠ "!" && name ≠ "!!" then some name else none
  | '!' :: '!' :: name =>
      if name.isEmpty || contains '!' name then none else some (Node.coreTag (String.ofList name))
  | '!' :: name => if contains '!' name then none else some (String.ofList written)
  | _ => none

def isTagCharacter (character : Char) : Bool :=
  Text.isAsciiLetter character || Text.isAsciiDigit character ||
    "-#;/?:@&=+$_.!~*'()%".toList.contains character

def takeTag (text : List Char) : List Char :=
  match text with
  | '!' :: '<' :: rest =>
      let (name, behind) := rest.span fun character =>
        !isSpaceOrTab character && character ≠ '\n' && character ≠ '>'
      '!' :: '<' :: name ++ behind.take 1
  | text => text.takeWhile isTagCharacter

def endsProperty (rest : List Char) : Bool :=
  match rest with
  | [] => true
  | character :: _ => isNameEnd character && character ≠ '[' && character ≠ '\x7b'

def readProperties : Nat → Properties → Cursor → Option (Properties × Cursor)
  | 0, _, _ => none
  | fuel + 1, properties, cursor =>
      let start := cursor.skipBlanks
      match start.rest with
      | '&' :: rest =>
          let name := rest.takeWhile fun character => !isNameEnd character
          let behind := start.skip (name.length + 1)
          if name.isEmpty || properties.anchor.isSome || !endsProperty behind.rest then none
          else
            readProperties fuel { properties with anchor := some (String.ofList name) } behind
      | '!' :: rest =>
          let written := takeTag ('!' :: rest)
          let behind := start.skip written.length
          if properties.tag.isSome || !endsProperty behind.rest then none
          else
            (resolveTag written).bind fun tag =>
              readProperties fuel { properties with tag := some tag } behind
      | _ => some (properties, cursor)

def propertiesAt (cursor : Cursor) : Option (Properties × Cursor) :=
  readProperties 3 .absent cursor

def endsLine (cursor : Cursor) : Bool :=
  let gap := gapAt cursor
  gap.atEnd || gap.crossesLine

def addMember (members : List (Node × Node)) (key value : Node) :
    Option (List (Node × Node)) :=
  if members.any fun member => member.1.sameKey key then none
  else some (members ++ [(key, value)])

def maxKeyLength : Nat := 1024

/-- Where a node stands: behind the colon of a key, or behind a mark that lets a collection
start on the same line. -/
inductive Place where
  | value
  | compact
  deriving DecidableEq

/- Flow collections -/

/-- The gap inside a flow collection, whose lines are indented by at least `least`; only the
bracket that closes the outermost collection may stand one column to the left. -/
def flowGap (least depth : Nat) (cursor : Cursor) : Option Cursor :=
  let gap := gapAt cursor
  let isCloser := gap.cursor.head?.any fun character => character = ']' || character = '\x7d'
  if gap.atEnd then none
  else if gap.crossesLine && gap.indent < least &&
      !(isCloser && depth = 1 && gap.indent + 1 = least) then none
  else some gap.cursor

def isFlowIndicator (mark : Char) (cursor : Cursor) : Bool :=
  match cursor.rest with
  | character :: rest => character = mark && endsFlowToken rest.head?
  | [] => false

mutual

def flowNode : Nat → Nat → Nat → Cursor → Option (Reading Node × Bool)
  | 0, _, _, _ => none
  | fuel + 1, least, depth, start =>
      match propertiesAt start with
      | none => none
      | some (properties, found) =>
          match (if properties.isEmpty then some found else flowGap least depth found) with
          | none => none
          | some cursor =>
              let wrap (reading : Reading Node) (isJson : Bool) : Option (Reading Node × Bool) :=
                some ({ reading with value := properties.apply reading.value }, isJson)
              match cursor.rest with
              | [] => none
              | '*' :: rest =>
                  let name := rest.takeWhile fun character => !isNameEnd character
                  if name.isEmpty || !properties.isEmpty then none
                  else
                    wrap
                      { value := .reference (String.ofList name), isMultiline := false,
                        cursor := cursor.skip (name.length + 1) } false
              | character :: _ =>
                  if character = '"' || character = '\'' then
                    match readQuoted least cursor with
                    | some text =>
                        wrap
                          { value := .scalar none false text.value,
                            isMultiline := text.isMultiline, cursor := text.cursor } true
                    | none => none
                  else if character = '[' || character = '\x7b' then
                    match flowCollection fuel least (depth + 1) cursor with
                    | some reading => wrap reading true
                    | none => none
                  else if character = ',' || character = ']' || character = '\x7d' ||
                      isFlowIndicator ':' cursor then
                    wrap { value := .empty, isMultiline := false, cursor := cursor } false
                  else if isFlowIndicator '-' cursor || isFlowIndicator '?' cursor then none
                  else
                    match readPlain fuel true least cursor with
                    | some text =>
                        wrap
                          { value := .scalar none true text.value,
                            isMultiline := text.isMultiline, cursor := text.cursor } false
                    | none => none

def flowCollection : Nat → Nat → Nat → Cursor → Option (Reading Node)
  | 0, _, _, _ => none
  | fuel + 1, least, depth, start =>
      let isRecord := start.head? = some '\x7b'
      match flowItems fuel least depth isRecord [] (start.skip 1) with
      | none => none
      | some (pairs, cursor) =>
          let consumed := start.rest.take (start.rest.length - cursor.rest.length)
          let node : Node :=
            if isRecord then .record (pairs.map fun pair => (pair.1, pair.2.getD .empty))
            else
              .list (pairs.map fun pair =>
                match pair.2 with
                | some value => .record [(pair.1, value)]
                | none => pair.1)
          some { value := node, isMultiline := contains '\n' consumed, cursor := cursor }

def flowItems : Nat → Nat → Nat → Bool → List (Node × Option Node) → Cursor →
    Option (List (Node × Option Node) × Cursor)
  | 0, _, _, _, _, _ => none
  | fuel + 1, least, depth, isRecord, read, start =>
      match flowGap least depth start with
      | none => none
      | some cursor =>
          let closer := if isRecord then '\x7d' else ']'
          let character := cursor.head?
          if character = some closer then some (read, cursor.skip 1)
          else if character = some ']' || character = some '\x7d' || character = some ',' then none
          else
            let isExplicit := isFlowIndicator '?' cursor
            match (if isExplicit then flowGap least depth (cursor.skip 1) else some cursor) with
            | none => none
            | some keyStart =>
                match flowNode fuel least depth keyStart with
                | none => none
                | some (key, isJson) =>
                    match flowPair fuel least depth key isJson with
                    | none => none
                    | some (value, isSplit, behind) =>
                        let isRepeated := isRecord && read.any fun pair =>
                          pair.1.sameKey key.value
                        let isBroken := !isRecord && !isExplicit && value.isSome &&
                          (key.isMultiline || isSplit)
                        let pair : Node × Option Node :=
                          (key.value, if isExplicit then some (value.getD .empty) else value)
                        if isRepeated || isBroken then none
                        else
                          match flowGap least depth behind with
                          | none => none
                          | some cursor =>
                              if cursor.head? = some ',' then
                                flowItems fuel least depth isRecord (read ++ [pair])
                                  (cursor.skip 1)
                              else if cursor.head? = some closer then
                                some (read ++ [pair], cursor.skip 1)
                              else none

def flowPair : Nat → Nat → Nat → Reading Node → Bool →
    Option (Option Node × Bool × Cursor)
  | 0, _, _, _, _ => none
  | fuel + 1, least, depth, key, isJson =>
      match flowGap least depth key.cursor with
      | none => none
      | some cursor =>
          let hasColon := isFlowIndicator ':' cursor || (isJson && cursor.head? = some ':')
          if !hasColon then some (none, false, key.cursor)
          else
            let isSplit := (gapAt key.cursor).crossesLine
            match flowGap least depth (cursor.skip 1) with
            | none => none
            | some valueStart =>
                match flowNode fuel least depth valueStart with
                | none => none
                | some (value, _) => some (some value.value, isSplit, value.cursor)

end

/- Block collections -/

def inlineNode (fuel : Nat) (parent : Int) (properties : Properties) (cursor : Cursor) :
    Option (Reading Node) :=
  let least := (parent + 1).toNat
  match cursor.rest with
  | [] => none
  | '*' :: rest =>
      let name := rest.takeWhile fun character => !isNameEnd character
      if name.isEmpty || !properties.isEmpty then none
      else
        some
          { value := .reference (String.ofList name), isMultiline := false,
            cursor := cursor.skip (name.length + 1) }
  | character :: _ =>
      if character = '"' || character = '\'' then
        (readQuoted least cursor).map fun text =>
          { value := properties.apply (.scalar none false text.value),
            isMultiline := text.isMultiline, cursor := text.cursor }
      else if character = '[' || character = '\x7b' then
        (flowCollection fuel least 1 cursor).map fun reading =>
          { reading with value := properties.apply reading.value }
      else
        (readPlain fuel false least cursor).map fun text =>
          { value := properties.apply (.scalar none true text.value),
            isMultiline := text.isMultiline, cursor := text.cursor }

def behindColon? (start : Cursor) (reading : Reading Node) : Option Cursor :=
  let colon := reading.cursor.skipBlanks
  if isIndicatorAt ':' colon then
    let length := colon.column - start.column
    if reading.isMultiline || length > maxKeyLength then none else some (colon.skip 1)
  else none

def hasColon (reading : Reading Node) : Bool :=
  isIndicatorAt ':' reading.cursor.skipBlanks

mutual

def blockNode : Nat → Int → Place → Cursor → Option (Node × Cursor)
  | 0, _, _, _ => none
  | fuel + 1, parent, place, start =>
      let gap := gapAt start
      if gap.atEnd then some (.empty, start)
      else if gap.crossesLine then
        if gap.indent ≤ parent then
          if place = .value && gap.indent = parent && !gap.hasTab &&
              isIndicatorAt '-' gap.cursor then
            sequence fuel gap.indent [] gap.cursor
          else some (.empty, start)
        else content fuel parent place (!gap.hasTab) gap.cursor
      else content fuel parent place (place = .compact && !gap.hasTab) gap.cursor

/-- A node at its first character; `hasBlocks` says whether it may be a block collection. -/
def content : Nat → Int → Place → Bool → Cursor → Option (Node × Cursor)
  | 0, _, _, _, _ => none
  | fuel + 1, parent, place, hasBlocks, start =>
      match propertiesAt start with
      | none => none
      | some (properties, found) =>
          let cursor := found.skipBlanks
          if !properties.isEmpty && endsLine found then
            (blockNode fuel parent place found).map fun (node, cursor) =>
              (properties.apply node, cursor)
          else if isIndicatorAt '-' cursor then
            if hasBlocks && properties.isEmpty then sequence fuel cursor.column [] cursor
            else none
          else if isIndicatorAt '?' cursor || isIndicatorAt ':' cursor then
            if hasBlocks && properties.isEmpty then members fuel cursor.column [] cursor else none
          else if cursor.head? = some '|' || cursor.head? = some '>' then
            (readBlockText parent cursor).map fun text =>
              (properties.apply (.scalar none false text.value), text.cursor)
          else
            match inlineNode fuel parent properties cursor with
            | none => none
            | some reading =>
                if hasColon reading then
                  if hasBlocks then members fuel start.column [] start else none
                else if endsLine reading.cursor then some (reading.value, reading.cursor)
                else none

def sequence : Nat → Nat → List Node → Cursor → Option (Node × Cursor)
  | 0, _, _, _ => none
  | fuel + 1, column, read, start =>
      match blockNode fuel column .compact (start.skip 1) with
      | none => none
      | some (item, behind) =>
          let items := read ++ [item]
          let gap := gapAt behind
          if gap.atEnd || gap.indent < column then some (.list items, behind)
          else if gap.indent > column || gap.hasTab || !gap.crossesLine then none
          else if isIndicatorAt '-' gap.cursor then sequence fuel column items gap.cursor
          else some (.list items, behind)

def members : Nat → Nat → List (Node × Node) → Cursor → Option (Node × Cursor)
  | 0, _, _, _ => none
  | fuel + 1, column, read, start =>
      match member fuel column start with
      | none => none
      | some (key, value, behind) =>
          match addMember read key value with
          | none => none
          | some read =>
              let gap := gapAt behind
              if gap.atEnd || gap.indent < column then some (.record read, behind)
              else if gap.indent > column || gap.hasTab || !gap.crossesLine then none
              else members fuel column read gap.cursor

def member : Nat → Nat → Cursor → Option (Node × Node × Cursor)
  | 0, _, _ => none
  | fuel + 1, column, start =>
      if isIndicatorAt '?' start then
        match blockNode fuel column .compact (start.skip 1) with
        | none => none
        | some (key, behind) =>
            let gap := gapAt behind
            if !gap.atEnd && gap.crossesLine && gap.indent = column && !gap.hasTab &&
                isIndicatorAt ':' gap.cursor then
              (blockNode fuel column .compact (gap.cursor.skip 1)).map fun (value, behind) =>
                (key, value, behind)
            else some (key, .empty, behind)
      else if isIndicatorAt ':' start then
        (blockNode fuel column .value (start.skip 1)).map fun (value, behind) =>
          (.empty, value, behind)
      else if isIndicatorAt '-' start then none
      else
        match propertiesAt start with
        | none => none
        | some (properties, found) =>
            match inlineNode fuel column properties found.skipBlanks with
            | none => none
            | some reading =>
                match behindColon? start reading with
                | none => none
                | some behind =>
                    (blockNode fuel column .value behind).map fun (value, behind) =>
                      (reading.value, value, behind)

end

/- Documents -/

def isMarkerLine (marker : String) (line : List Char) : Bool :=
  match afterLead? marker line with
  | some rest => endsToken rest.head?
  | none => false

def isBlankOrComment (line : List Char) : Bool :=
  let text := line.dropWhile isSpaceOrTab
  text.isEmpty || text.head? = some '#'

def isDirective (line : List Char) : Bool := line.head? = some '%'

/-- The lines of the only document, and the column in which the first of them starts: behind
a document marker, or at zero. Nothing when there are several documents, or directives
without a marker. -/
def documentLines (lines : List (List Char)) : Option (Nat × List (List Char)) :=
  let (lead, rest) := lines.span fun line => isBlankOrComment line || isDirective line
  let hasDirective := lead.any isDirective
  let isOpened := rest.head?.any (isMarkerLine "---")
  let (column, body) :=
    if isOpened then (3, (rest.head?.getD []).drop 3 :: rest.tail) else (0, lead ++ rest)
  let (inside, after) := body.span fun line =>
    !(isMarkerLine "---" line || isMarkerLine "..." line)
  let isOver :=
    match after with
    | [] => true
    | marker :: rest =>
        isMarkerLine "..." marker && isBlankOrComment (marker.drop 3) &&
          rest.all isBlankOrComment &&
          (isOpened || inside.any fun line => !isBlankOrComment line)
  if isOver && (isOpened || !hasDirective) then some (column, inside) else none

def unifyLines : List Char → List Char
  | '\r' :: '\n' :: rest => '\n' :: unifyLines rest
  | character :: rest => character :: unifyLines rest
  | [] => []

def dropByteOrderMark : List Char → List Char
  | character :: rest => if character.toNat = 0xFEFF then rest else character :: rest
  | [] => []

def unsplit : List (List Char) → List Char
  | [] => []
  | [line] => line
  | line :: lines => line ++ '\n' :: unsplit lines

def readDocument (text : List Char) : Option Node := do
  let (column, lines) ← documentLines (splitOn '\n' text)
  let source := unsplit lines
  let (node, behind) ← blockNode (8 * source.length + 8) (-1) .value
    { rest := source, column := column }
  if (gapAt behind).atEnd then some node else none

def parse (source : String) : Except Fault Json :=
  match readDocument (unifyLines (dropByteOrderMark source.toList)) with
  | some node => node.document
  | none => .error .malformed

end CrateAtlas.Yaml
