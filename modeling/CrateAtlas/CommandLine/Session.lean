import CrateAtlas.Files.Finder
import CrateAtlas.Files.Task
import CrateAtlas.Image

/-!
Sessions: the files that a command works on, and what it has said so far.
-/

namespace CrateAtlas.CommandLine

structure Setting where
  place : Path
  format : Json.Format
  find : Finder
  runner : Runner
  /-- A folder for the input of the runner, which nothing else uses. -/
  scratch : Path
  elapsed : String

structure Session where
  tree : FileTree
  output : String
  errors : String

abbrev SessionTask (α : Type) := ExceptT Failure (StateM Session) α

namespace SessionTask

def files (task : FileTask α) : SessionTask α := do
  let session ← get
  let (answer, tree) := StateT.run (ExceptT.run task) session.tree
  set { session with tree := tree }
  MonadExcept.ofExcept answer

def say (line : String) : SessionTask Unit :=
  modify fun session => { session with output := session.output ++ line ++ "\n" }

def sayAll (lines : List String) : SessionTask Unit :=
  lines.forM say

def warn (line : String) : SessionTask Unit :=
  modify fun session => { session with errors := session.errors ++ line ++ "\n" }

def warnAll (lines : List String) : SessionTask Unit :=
  lines.forM warn

end SessionTask

end CrateAtlas.CommandLine
