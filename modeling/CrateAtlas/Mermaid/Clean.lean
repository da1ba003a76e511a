import CrateAtlas.Mermaid.Format

/-!
Cleaning of diagram markup: directive blocks, commented-out edges and unused class
definitions go, and what is left of the class lines is gathered at the end.
-/

namespace CrateAtlas.Mermaid

open CrateAtlas.Text

/-- What cleaning has seen so far; the lines are in reverse. -/
structure CleanState where
  lines : List (List Char) := []
  definitions : List (String × String) := []
  statements : List String := []
  used : List String := []
  flowchart : Bool := false
  inDirective : Bool := false

def isDeadComment (line : List Char) : Bool :=
  isComment line && (hasPart "-->" line || hasPart "class" line)

def closesDirective (line : List Char) : Bool :=
  hasPart "\x7d%%" line

def cleanContent (state : CleanState) (raw line : List Char) : CleanState :=
  let flowchart :=
    if state.lines.isEmpty && isHeader line then isFlowchart line else state.flowchart
  let state := { state with flowchart := flowchart }
  match parseClassDef? line with
  | some (name, properties) =>
      { state with definitions := OrderedMap.put name properties state.definitions }
  | none =>
      match (if flowchart then parseClassStatement? line else none) with
      | some assignment =>
          { state with
            statements := state.statements ++ [formatAssignment assignment]
            used := state.used ++ [assignment.className] }
      | none =>
          { state with
            lines := trimEnd (plainSpaces raw) :: state.lines
            used := state.used ++ (inlineClasses line).map Prod.snd }

def cleanLine (state : CleanState) (raw : List Char) : CleanState :=
  let line := trim raw
  if state.inDirective then { state with inDirective := !closesDirective line }
  else if startsWith "%%\x7b" line then { state with inDirective := !closesDirective line }
  else if line.isEmpty || isDeadComment line then state
  else cleanContent state raw line

def byClassName (left right : String × String) : Ordering :=
  compareText left.1 right.1

def cleanTail (state : CleanState) : List (List Char) :=
  let definitions := state.definitions.filter fun entry => state.used.contains entry.1
  ((sortBy byClassName definitions).map formatClassDef ++
    sortTexts (OrderedMap.distinct state.statements)).map String.toList

def clean (text : String) : String :=
  let state := (splitOn '\n' text.toList).foldl cleanLine {}
  let tail := cleanTail state
  unlines (if tail.isEmpty then state.lines.reverse else state.lines.reverse ++ [] :: tail)

end CrateAtlas.Mermaid
