import CrateAtlas.Files.Finder
import CrateAtlas.Files.Task
import CrateAtlas.Rust.Reader
import CrateAtlas.Snapshot
import CrateAtlas.WorkPool

/-!
Extraction: the source files below a folder are read and merged into one snapshot. A file
that is too large or whose delimiters do not balance is skipped, and everything else goes on
without it.
-/

namespace CrateAtlas

structure Extraction where
  snapshot : Snapshot
  totalFiles : Nat
  skipped : List SkippedFile

namespace Extraction

structure Settings where
  folder : Path
  included : List String
  excluded : List String
  concurrency : Int
  sizeLimit : Int

inductive Outcome where
  | extracted (content : SourceUnit)
  | skipped (file : SkippedFile)

def Outcome.unit? : Outcome → Option SourceUnit
  | .extracted content => some content
  | .skipped _ => none

def Outcome.skipped? : Outcome → Option SkippedFile
  | .extracted _ => none
  | .skipped file => some file

/-- Empty lists stand for the usual ones. -/
def Settings.search (settings : Settings) : FileSearch :=
  { patterns := if settings.included.isEmpty then ["**/*.rs"] else settings.included
    ignored :=
      if settings.excluded.isEmpty then ["**/target/**", "**/.git/**", "**/node_modules/**"]
      else settings.excluded
    dots := false }

def outcomeOf (sizeLimit : Int) (filePath content : String) : Outcome :=
  if Rust.isTooLarge sizeLimit content then
    .skipped { filePath := filePath, reason := "file exceeds parser.maxFileSize" }
  else
    match Rust.sourceUnitAt filePath content with
    | .ok unit => .extracted unit
    | .error failure => .skipped { filePath := filePath, reason := failure.message }

def readFile (settings : Settings) (tree : FileTree) (filePath : String) :
    Except Failure Outcome :=
  match tree.read (settings.folder.descend filePath) with
  | .error fault => .error (.file fault)
  | .ok content => .ok (outcomeOf settings.sizeLimit filePath content)

def ofOutcomes (folder : Path) (outcomes : List Outcome) : Extraction :=
  { snapshot :=
      (Snapshot.create folder.render (outcomes.filterMap Outcome.unit?)).resolveCallTargets
    totalFiles := outcomes.length
    skipped := outcomes.filterMap Outcome.skipped? }

def ofTree (find : Finder) (settings : Settings) (tree : FileTree) :
    Except Failure Extraction :=
  match find.inOrder settings.search tree settings.folder with
  | .error failure => .error failure
  | .ok files =>
      (WorkPool.mapAll files (max 1 settings.concurrency) (readFile settings tree)).map
        (ofOutcomes settings.folder)

def run (find : Finder) (settings : Settings) : FileTask Extraction :=
  FileTask.ask (ofTree find settings)

end Extraction

end CrateAtlas
