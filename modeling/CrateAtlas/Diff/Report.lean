import CrateAtlas.Diff
import CrateAtlas.Failure

/-!
The report of a comparison: a line for each identity with its changes below it, and a
summary.
-/

namespace CrateAtlas.Diff

def formatValue (change : ValueChange) : String :=
  change.before ++ " -> " ++ change.after

def setLine (label : String) (change : SetChange) : List String :=
  let parts := change.added.map ("+" ++ ·) ++ change.removed.map ("-" ++ ·) ++
    change.changed.map ("~" ++ ·)
  if parts.isEmpty then [] else ["    " ++ label ++ ": " ++ Text.joinWith ", " parts]

def valueLine (label : String) : Option ValueChange → List String
  | some change => ["    " ++ label ++ ": " ++ formatValue change]
  | none => []

def signatureLines : Option ValueChange → List String
  | some change =>
      ["    signature:", "      - " ++ change.before, "      + " ++ change.after]
  | none => []

def changeLines (changes : ChangeDetail) : List String :=
  valueLine "kind" changes.kind ++ valueLine "visibility" changes.visibility ++
    signatureLines changes.signature ++ setLine "fields" changes.fields ++
    setLine "methods" changes.methods ++ setLine "traits" changes.traits

def formatSkipped (duplicate : DuplicateType) (side : String) : String :=
  "! " ++ duplicate.qualifiedName ++ " skipped in " ++ side ++ " snapshot: defined at " ++
    duplicate.whereabouts

def summary (result : Result) : String :=
  let skipped := result.skippedBefore.length + result.skippedAfter.length
  let counts :=
    [toString result.added.length ++ " added", toString result.removed.length ++ " removed",
      toString result.modified.length ++ " modified",
      toString result.unchanged.length ++ " unchanged"]
  Text.joinWith ", "
    (if skipped = 0 then counts else counts ++ [toString skipped ++ " skipped"])

def reportLines (result : Result) : List String :=
  (Record.names result.added).map ("+ " ++ ·) ++
    (Record.names result.removed).map ("- " ++ ·) ++
    ((Record.listing result.modified).flatMap fun entry =>
      ("~ " ++ entry.1) :: changeLines entry.2.changes) ++
    (result.skippedBefore.map fun duplicate => formatSkipped duplicate "old") ++
    (result.skippedAfter.map fun duplicate => formatSkipped duplicate "new")

def report (result : Result) : String :=
  match reportLines result with
  | [] => "No structural changes (" ++ summary result ++ ")"
  | lines => Text.joinWith "\n" (lines ++ ["", summary result])

end CrateAtlas.Diff
