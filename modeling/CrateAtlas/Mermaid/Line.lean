import CrateAtlas.ModulePath
import CrateAtlas.Text.Scan

/-!
Lines of diagram markup: which word starts them, and the class definitions, class
statements and inline classes they hold.
-/

namespace CrateAtlas.Mermaid

open CrateAtlas.Text

def startsWithWord (word : String) (line : List Char) : Bool :=
  match afterLead? word line with
  | some rest => !(rest.head?.any isWordChar)
  | none => false

def startsWithAnyWord (words : List String) (line : List Char) : Bool :=
  words.any fun word => startsWithWord word line

def isFlowchart (line : List Char) : Bool :=
  startsWithAnyWord ["graph", "flowchart"] line

def isHeader (line : List Char) : Bool :=
  startsWithAnyWord
    ["graph", "flowchart", "classDiagram", "stateDiagram", "sequenceDiagram", "erDiagram",
      "gantt", "pie"] line

def isBlockKeyword (line : List Char) : Bool :=
  startsWithAnyWord
    ["subgraph", "loop", "alt", "opt", "par", "critical", "break", "rect", "box"] line

def isSubgraph (line : List Char) : Bool :=
  startsWithWord "subgraph" line

def styleWords : List String := ["classDef", "class", "style", "linkStyle"]

def afterKeyword? (word : String) (line : List Char) : Option (List Char) :=
  match afterLead? word line with
  | some (next :: rest) => if isBlank next then some (trimStart (next :: rest)) else none
  | _ => none

def isStyleStatement (line : List Char) : Bool :=
  styleWords.any fun word => (afterKeyword? word line).isSome

def isComment (line : List Char) : Bool :=
  startsWith "%%" line

def isEnd (line : List Char) : Bool :=
  line = "end".toList

def opensBlock (line : List Char) : Bool :=
  isBlockKeyword line || endsWith "\x7b" line

def closesBlock (line : List Char) : Bool :=
  isEnd line || line = ['\x7d']

def readName? (line : List Char) : Option (List Char × List Char) :=
  let name := line.takeWhile isNameChar
  if name.isEmpty then none else some (name, line.dropWhile isNameChar)

def dropSemicolon (text : List Char) : List Char :=
  if text.length > 1 && text.getLast? = some ';' then text.dropLast else text

def parseClassDef? (line : List Char) : Option (String × String) := do
  let rest ← afterKeyword? "classDef" line
  let (name, rest) ← readName? rest
  let properties := trimStart rest
  if properties.length < rest.length && !properties.isEmpty &&
      !(properties.any isLineBreak) then
    return (String.ofList name, String.ofList (dropSemicolon properties))
  else none

structure ClassAssignment where
  elements : List String
  className : String
  deriving DecidableEq, Repr

def readNames : Nat → List Char → List (List Char) → List (List Char) × List Char
  | 0, rest, names => (names, rest)
  | fuel + 1, rest, names =>
      match trimStart rest with
      | ',' :: next =>
          match readName? (trimStart next) with
          | some (name, rest) => readNames fuel rest (names ++ [name])
          | none => (names, rest)
      | _ => (names, rest)

def parseClassStatement? (line : List Char) : Option ClassAssignment := do
  let rest ← afterKeyword? "class" line
  let (first, rest) ← readName? rest
  let (names, rest) := readNames rest.length rest [first]
  let behind := trimStart rest
  let (className, tail) ← readName? behind
  if behind.length < rest.length && (tail = [] || tail = [';']) then
    return { elements := names.map String.ofList, className := String.ofList className }
  else none

def formatAssignment (assignment : ClassAssignment) : String :=
  "class " ++ joinWith "," assignment.elements ++ " " ++ assignment.className

def formatClassDef (definition : String × String) : String :=
  "classDef " ++ definition.1 ++ " " ++ definition.2

inductive Lexeme where
  | name (text : List Char)
  | mark (character : Char)

def lexemes : List Char → List Lexeme
  | [] => []
  | character :: rest =>
      if isNameChar character then
        match lexemes rest with
        | .name text :: more => .name (character :: text) :: more
        | more => .name [character] :: more
      else .mark character :: lexemes rest

def classBehind? : List Lexeme → Option (List Char)
  | .mark ':' :: .mark ':' :: .mark ':' :: .name className :: _ => some className
  | _ => none

/-- The nodes that are given a class by `node:::class`, with that class; `inClass` is set
until the class name behind a node is passed. -/
def inlineClassesOf (inClass : Bool) : List Lexeme → List (String × String)
  | [] => []
  | .mark _ :: tail => inlineClassesOf inClass tail
  | .name run :: tail =>
      let node := run.dropWhile fun character => !isWordStart character
      match classBehind? tail with
      | some className =>
          if inClass || node.isEmpty then inlineClassesOf false tail
          else (String.ofList node, String.ofList className) :: inlineClassesOf true tail
      | none => inlineClassesOf false tail

def inlineClasses (line : List Char) : List (String × String) :=
  inlineClassesOf false (lexemes line)

def subgraphName (line : List Char) : String :=
  let bare (text : List Char) : String :=
    let name := text.takeWhile fun character => !(isBlank character || character = '[')
    if name.isEmpty then "unnamed" else String.ofList name
  match afterKeyword? "subgraph" line with
  | none => "unnamed"
  | some ('"' :: rest) =>
      let name := rest.takeWhile (· ≠ '"')
      if !name.isEmpty && name.length < rest.length then String.ofList name
      else bare ('"' :: rest)
  | some rest => bare rest

def plainSpaces (line : List Char) : List Char :=
  replaceAll "&nbsp;" " " line

end CrateAtlas.Mermaid
