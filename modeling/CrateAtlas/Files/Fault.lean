import CrateAtlas.Files.Path

/-!
What can go wrong with files and folders, and the words for it.
-/

namespace CrateAtlas

inductive FileAction where
  | inspect
  | inspectLink
  | enter
  | list
  | create
  deriving DecidableEq, Repr

def FileAction.label : FileAction → String
  | .inspect => "stat"
  | .inspectLink => "lstat"
  | .enter => "open"
  | .list => "scandir"
  | .create => "mkdir"

inductive FileFault where
  | missing (action : FileAction) (path : Path)
  | notFolder (action : FileAction) (path : Path)
  | readsFolder
  | writesFolder (path : Path)
  | occupied (path : Path)
  | removesFolder (path : Path)
  deriving DecidableEq, Repr

def FileAction.on (action : FileAction) (path : Path) : String :=
  action.label ++ " '" ++ path.render ++ "'"

def FileFault.message : FileFault → String
  | .missing action path => "ENOENT: no such file or directory, " ++ action.on path
  | .notFolder action path => "ENOTDIR: not a directory, " ++ action.on path
  | .readsFolder => "EISDIR: illegal operation on a directory, read"
  | .writesFolder path =>
      "EISDIR: illegal operation on a directory, " ++ FileAction.enter.on path
  | .occupied path => "EEXIST: file already exists, " ++ FileAction.create.on path
  | .removesFolder path =>
      "Path is a directory: rm returned EISDIR (is a directory) " ++ path.render

end CrateAtlas
