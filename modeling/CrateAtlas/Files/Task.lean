import CrateAtlas.Failure
import CrateAtlas.Files.Tree

/-!
Tasks that work on a tree of files. What a task has changed stays changed when it fails.
-/

namespace CrateAtlas

abbrev FileTask (α : Type) := ExceptT Failure (StateM FileTree) α

namespace FileTask

def look (answer : FileTree → Except FileFault α) : FileTask α := do
  match answer (← get) with
  | .ok value => return value
  | .error fault => throw (.file fault)

def change (update : FileTree → Except FileFault FileTree) : FileTask Unit := do
  set (← look update)

def ofExcept (answer : Except Failure α) : FileTask α :=
  MonadExcept.ofExcept answer

def ask (answer : FileTree → Except Failure α) : FileTask α := do
  ofExcept (answer (← get))

def has (path : Path) : FileTask Bool := do
  return (← get).has path

def read (path : Path) : FileTask String :=
  look (·.read path)

def write (path : Path) (text : String) : FileTask Unit :=
  change (·.write path text)

def makeFolders (path : Path) : FileTask Unit :=
  change (·.makeFolders path)

def remove (path : Path) : FileTask Unit :=
  change (·.remove path)

def place (path : Path) (text : String) : FileTask Unit := do
  makeFolders path.parent
  write path text

end FileTask

end CrateAtlas
