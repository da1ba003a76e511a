import CrateAtlas.Failure
import CrateAtlas.Mermaid.Format

/-!
Splitting a flowchart by its top-level subgraphs, and merging flowcharts into one.
-/

namespace CrateAtlas.Mermaid

open CrateAtlas.Text

structure Part where
  name : String
  markup : String
  deriving DecidableEq, Repr

def classDefs (lines : List (List Char)) : List (String × String) :=
  (lines.filterMap fun line => parseClassDef? (trim line)).foldl
    (fun kept definition => OrderedMap.put definition.1 definition.2 kept) []

def classAssignments (lines : List (List Char)) : List ClassAssignment :=
  lines.filterMap fun line => parseClassStatement? (trim line)

/-- The lines of a block up to the one that brings the depth back to zero, and the lines
behind it. -/
def takeBlock? (depth : Int) : List (List Char) → Option (List (List Char) × List (List Char))
  | [] => none
  | raw :: rest =>
      let line := trim raw
      let next :=
        if isSubgraph line then depth + 1 else if isEnd line then depth - 1 else depth
      if next = 0 then some ([raw], rest)
      else (takeBlock? next rest).map fun parts => (raw :: parts.1, parts.2)

/-- Drops everything from an opening mark to the next closing one, when there is one;
`closing` is the mark that is waited for. -/
def dropEnclosed (closer : Char → Option Char) (closing : Option Char) : List Char → List Char
  | [] => []
  | character :: rest =>
      match closing with
      | some mark => dropEnclosed closer (if character = mark then none else closing) rest
      | none =>
          match (closer character).filter fun mark => contains mark rest with
          | some mark => dropEnclosed closer (some mark) rest
          | none => character :: dropEnclosed closer none rest

def quoteCloser (character : Char) : Option Char :=
  if character = '"' then some '"' else none

def shapeCloser (character : Char) : Option Char :=
  match character with
  | '[' => some ']'
  | '(' => some ')'
  | '\x7b' => some '\x7d'
  | '|' => some '|'
  | _ => none

/-- Drops `:::` together with the class name behind it; `pending` counts the colons still
to be passed over, and `inName` is set until the name ends. -/
def dropInlineClasses (pending : Nat) (inName : Bool) : List Char → List Char
  | [] => []
  | character :: rest =>
      match pending with
      | remaining + 1 => dropInlineClasses remaining true rest
      | 0 =>
          if inName && isNameChar character then dropInlineClasses 0 true rest
          else if startsWith ":::" (character :: rest) &&
              ((rest.drop 2).head?.any isNameChar) then
            dropInlineClasses 2 true rest
          else character :: dropInlineClasses 0 false rest

def wordsOf (word : List Char) : List Char → List String
  | [] => if word.isEmpty then [] else [String.ofList word.reverse]
  | character :: rest =>
      if isWordStart character || (!word.isEmpty && isWordChar character) then
        wordsOf (character :: word) rest
      else if word.isEmpty then wordsOf [] rest
      else String.ofList word.reverse :: wordsOf [] rest

def lineNodeIds (raw : List Char) : List String :=
  let line := trim raw
  if isSubgraph line then [subgraphName line]
  else if isEnd line || isComment line || isStyleStatement line ||
      startsWith "direction " line then []
  else
    wordsOf [] (dropInlineClasses 0 false
      (dropEnclosed shapeCloser none (dropEnclosed quoteCloser none line)))

def blockNodeIds (block : List (List Char)) : List String :=
  block.flatMap lineNodeIds

def partAssignments (nodes : List String) (assignments : List ClassAssignment) :
    List ClassAssignment :=
  assignments.filterMap fun assignment =>
    let elements := assignment.elements.filter nodes.contains
    if elements.isEmpty then none else some { assignment with elements := elements }

def partMarkup (definitions : List (String × String)) (assignments : List ClassAssignment)
    (block : List (List Char)) : String :=
  let nodes := blockNodeIds block
  let own := partAssignments nodes assignments
  let inlineUses := (block.flatMap inlineClasses).filter fun use => nodes.contains use.1
  let used := inlineUses.map Prod.snd ++ own.map ClassAssignment.className
  let kept := definitions.filter fun entry => used.contains entry.1
  unlines (formatLines ("flowchart TB".toList :: block ++
    (kept.map formatClassDef ++ own.map formatAssignment).map String.toList))

def isBlankLine (line : List Char) : Bool :=
  (trim line).isEmpty

def partName (taken : List String) (base : String) : String :=
  let seen := (taken.filter (· = base)).length + 1
  if seen = 1 then base else base ++ "_" ++ toString seen

/-- Walks over the lines block by block; `position` is the number of the next line and
`taken` holds the subgraph names seen before. -/
def splitLines (definitions : List (String × String)) (assignments : List ClassAssignment) :
    Nat → Nat → List String → List (List Char) → Except Failure (List Part)
  | 0, _, _, _ => .ok []
  | _, _, _, [] => .ok []
  | fuel + 1, position, taken, raw :: rest =>
      let first := trim raw
      if !isSubgraph first then
        splitLines definitions assignments fuel (position + 1) taken rest
      else
        match takeBlock? 0 (raw :: rest) with
        | none =>
            .error (.markup ("Subgraph " ++ subgraphName first ++ " on line " ++
              toString position ++ " is never closed"))
        | some (lines, after) =>
            let block := lines.map plainSpaces
            let next := position + lines.length
            if (block.tail.dropLast).all isBlankLine then
              splitLines definitions assignments fuel next taken after
            else do
              let base := subgraphName first
              let parts ← splitLines definitions assignments fuel next (base :: taken) after
              return { name := partName taken base,
                       markup := partMarkup definitions assignments block } :: parts

def split (text : String) : Except Failure (List Part) :=
  let lines := splitOn '\n' text.toList
  splitLines (classDefs lines) (classAssignments lines) lines.length 1 [] lines

structure MergeState where
  body : List (List Char) := []
  definitions : List (String × String) := []
  statements : List String := []

def mergeLine (state : MergeState) (raw : List Char) : MergeState :=
  let line := trim raw
  if line.isEmpty || isFlowchart line then state
  else
    match parseClassDef? line with
    | some (name, properties) =>
        { state with definitions := OrderedMap.put name properties state.definitions }
    | none =>
        match parseClassStatement? line with
        | some assignment =>
            { state with statements := state.statements ++ [formatAssignment assignment] }
        | none => { state with body := line :: state.body }

def merge (texts : List String) : String :=
  let state := (texts.flatMap fun text => splitOn '\n' text.toList).foldl mergeLine {}
  let classLines := state.definitions.map formatClassDef ++
    OrderedMap.distinct state.statements
  unlines (formatLines ("flowchart LR".toList :: state.body.reverse ++
    classLines.map String.toList))

def sanitizeFileName (name : String) : String :=
  String.ofList (replaceChars (fun character =>
    if isNameChar character then none
    else if character.toNat < 0x10000 then some "_" else some "__") name.toList)

end CrateAtlas.Mermaid
