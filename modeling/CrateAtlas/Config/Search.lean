import CrateAtlas.Config
import CrateAtlas.Files.Task

/-!
Configuration files, and the search for one from a folder up to the root. The nearest
configuration counts, even where it is faulty; a package description without a section for
this tool is passed over.
-/

namespace CrateAtlas.Config

def load (path : Path) : FileTask Config := do
  if !(← FileTask.has path) then
    throw (.plain ("Config file not found: " ++ path.render))
  match Json.parse (← FileTask.read path) with
  | .error _ => throw (.plain ("Invalid JSON in config file: " ++ path.render))
  | .ok document => FileTask.ofExcept (ofDocument document)

def fileNames : List String := ["archscope.config.json", ".archscoperc.json"]

def packageName : String := "package.json"

def ownSection? (content : String) : Option Json :=
  match Json.parse content with
  | .ok document => document.member? "archscope"
  | .error _ => none

def packageSection? (tree : FileTree) (folder : Path) : Option Json :=
  match tree.read (folder.child packageName) with
  | .ok content => ownSection? content
  | .error _ => none

def findIn (folder : Path) : FileTask (Option Config) := do
  let tree ← get
  match (fileNames.map folder.child).find? tree.has with
  | some path => return some (← load path)
  | none =>
      match packageSection? tree folder with
      | some document => return some (← FileTask.ofExcept (ofDocument document))
      | none => return none

def findAmong : List Path → FileTask (Option Config)
  | [] => return none
  | folder :: folders => do
      match ← findIn folder with
      | some config => return some config
      | none => findAmong folders

def find (folder : Path) : FileTask (Option Config) :=
  findAmong folder.upward

def findOrStandard (folder : Path) : FileTask Config := do
  return (← find folder).getD standard

def choose (place folder : Path) (path : Option String) : FileTask Config :=
  match path.filter (· ≠ "") with
  | some path => load (place.resolve path)
  | none => findOrStandard folder

end CrateAtlas.Config
