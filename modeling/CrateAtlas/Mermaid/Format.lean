import CrateAtlas.Mermaid.Line
import CrateAtlas.OrderedMap
import CrateAtlas.Text.Order

/-!
Formatting of diagram markup: four blanks of indentation for each open block, and the style
statements of a flowchart gathered at the end.
-/

namespace CrateAtlas.Mermaid

open CrateAtlas.Text

/-- What formatting has seen so far; the body is in reverse. -/
structure FormatState where
  body : List (List Char) := []
  styles : List (List Char) := []
  headerSeen : Bool := false
  flowchart : Bool := false
  openBlocks : Nat := 0

def indentation (levels : Nat) : List Char :=
  List.replicate (4 * levels) ' '

def formatLine (state : FormatState) (raw : List Char) : FormatState :=
  let line := trim raw
  if line.isEmpty then state
  else if !state.headerSeen && isHeader line then
    { state with body := line :: state.body, headerSeen := true, flowchart := isFlowchart line }
  else if state.flowchart && isStyleStatement line then
    { state with styles := state.styles ++ [line] }
  else
    let comment := isComment line
    let inside :=
      if !comment && closesBlock line then state.openBlocks - 1 else state.openBlocks
    let level := (if state.headerSeen then 1 else 0) + inside
    { state with
      body := (indentation level ++ line) :: state.body
      openBlocks := if !comment && opensBlock line then inside + 1 else inside }

def styleRank (line : List Char) : Nat :=
  (styleWords.findIdx? fun word => (afterKeyword? word line).isSome).getD styleWords.length

def styleOrder (left right : List Char) : Ordering :=
  (compare (styleRank left) (styleRank right)).then (compareUnits left right)

def formatLines (lines : List (List Char)) : List (List Char) :=
  let state := lines.foldl formatLine {}
  let styles := sortBy styleOrder (OrderedMap.distinct state.styles)
  if styles.isEmpty then state.body.reverse
  else state.body.reverse ++ [] :: styles.map (indentation 1 ++ ·)

def unlines (lines : List (List Char)) : String :=
  joinWith "\n" (lines.map String.ofList) ++ "\n"

def format (text : String) : String :=
  unlines (formatLines (splitOn '\n' text.toList))

end CrateAtlas.Mermaid
