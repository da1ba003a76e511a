import CrateAtlas.Files.Fault
import CrateAtlas.OrderedMap
import CrateAtlas.Text.Order

/-!
Trees of files and folders. The root is always a folder, and what lies in a folder that is
not there is not reached.
-/

namespace CrateAtlas

inductive FileNode where
  | file (text : String)
  | folder
  deriving DecidableEq, Repr

structure FileTree where
  nodes : List (Path × FileNode)
  deriving DecidableEq, Repr

namespace FileTree

def empty : FileTree := ⟨[]⟩

def node? (tree : FileTree) (path : Path) : Option FileNode :=
  if path = .root then some .folder else OrderedMap.get? path tree.nodes

def obstacle? (tree : FileTree) (action : FileAction) (path : Path) : Option FileFault :=
  (path.ancestors.find? fun above => tree.node? above ≠ some .folder).map fun above =>
    match tree.node? above with
    | none => .missing action path
    | some _ => .notFolder action path

/-- The node at a path, with every path above it a folder. -/
def reach (tree : FileTree) (action : FileAction) (path : Path) : Except FileFault FileNode :=
  match tree.obstacle? action path with
  | some fault => .error fault
  | none =>
      match tree.node? path with
      | some node => .ok node
      | none => .error (.missing action path)

def has (tree : FileTree) (path : Path) : Bool :=
  (tree.reach .inspect path).isOk

def isFolder (tree : FileTree) (path : Path) : Except FileFault Bool :=
  (tree.reach .inspect path).map fun node => node = .folder

def read (tree : FileTree) (path : Path) : Except FileFault String :=
  match tree.reach .enter path with
  | .ok (.file text) => .ok text
  | .ok .folder => .error .readsFolder
  | .error fault => .error fault

def write (tree : FileTree) (path : Path) (text : String) : Except FileFault FileTree :=
  match tree.obstacle? .enter path with
  | some fault => .error fault
  | none =>
      if tree.node? path = some .folder then .error (.writesFolder path)
      else .ok ⟨OrderedMap.put path (.file text) tree.nodes⟩

def addFolder (tree : FileTree) (path : Path) : FileTree :=
  match tree.node? path with
  | none => ⟨OrderedMap.put path .folder tree.nodes⟩
  | some _ => tree

def isFile : Option FileNode → Bool
  | some (.file _) => true
  | _ => false

def makeFolders (tree : FileTree) (path : Path) : Except FileFault FileTree :=
  if path.ancestors.any fun above => isFile (tree.node? above) then
    .error (.notFolder .create path)
  else if isFile (tree.node? path) then .error (.occupied path)
  else .ok ((path.ancestors ++ [path]).foldl addFolder tree)

def remove (tree : FileTree) (path : Path) : Except FileFault FileTree :=
  match tree.reach .inspectLink path with
  | .ok (.file _) => .ok ⟨tree.nodes.filter fun entry => entry.1 ≠ path⟩
  | .ok .folder => .error (.removesFolder path)
  | .error (.missing _ _) => .ok tree
  | .error fault => .error fault

def removeAll (tree : FileTree) (path : Path) : FileTree :=
  ⟨tree.nodes.filter fun entry => (Path.below? path entry.1).isNone⟩

def filesBelow (tree : FileTree) (folder : Path) : List (List String × String) :=
  tree.nodes.filterMap fun entry =>
    match entry.2, Path.below? folder entry.1 with
    | .file text, some (name :: names) => some (name :: names, text)
    | _, _ => none

end FileTree

end CrateAtlas
