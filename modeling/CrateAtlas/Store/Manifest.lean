import CrateAtlas.Files.Task
import CrateAtlas.Json.Check

/-!
Manifests: the list of the artifacts that a store holds. An entry stands for a file inside
the store, or for none.
-/

namespace CrateAtlas

def artifactExtension : String := ".yaml"

def artifactName (filePath : String) : String := filePath ++ artifactExtension

namespace Manifest

open Json

def fileName : String := ".archscope-manifest.json"

def check : Part → Checked (List String) :=
  checkRecord fun part => checkList checkNonEmpty (part.member "artifacts")

def document (artifacts : List String) : Json :=
  .record [("artifacts", .ofTexts artifacts)]

def print (artifacts : List String) : String :=
  (document artifacts).pretty "" ++ "\n"

def parse (path : Path) (content : String) : Except Failure (List String) :=
  match Json.parse content with
  | .error failure => .error (.snapshotFormat path.render failure.message)
  | .ok document =>
      match run check document with
      | .passed artifacts => .ok artifacts
      | .failed issues => .error (.snapshotFormat path.render (listIssues issues))

/-- The file that an entry stands for: an artifact strictly inside the store, on a way that
does not start with two points. -/
def place? (store : Path) (entry : String) : Option Path :=
  if Text.endsWith artifactExtension entry.toList then
    let path := store.resolve entry
    match Path.below? store path with
    | some (first :: _) => if Text.startsWith ".." first.toList then none else some path
    | _ => none
  else none

def load (store : Path) : FileTask (Option (List String)) := do
  let path := store.child fileName
  if !(← FileTask.has path) then return none
  match (← get).read path with
  | .error fault => throw (.snapshotFormat path.render fault.message)
  | .ok content => return some (← FileTask.ofExcept (parse path content))

end Manifest

end CrateAtlas
