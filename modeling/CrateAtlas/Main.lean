import CrateAtlas.Command.BuiltIn
import CrateAtlas.CommandLine.Run
import CrateAtlas.Files.Search
import CrateAtlas.Yaml

/-!
The program. It reads the files around the current folder into a tree, runs the command line on
the tree, and stores what has changed.
-/

namespace CrateAtlas.Disk

/-- Adds what stands at a path, with everything below it. A file that is no text is left out. -/
partial def load (tree : FileTree) (path : Path) : IO FileTree := do
  let place ← IO.FS.realPath path.render
  match (← place.metadata).type with
  | .dir =>
      (← place.readDir).foldlM (fun tree entry => load tree (path.child entry.fileName))
        (tree.addFolder path)
  | .file =>
      match String.fromUTF8? (← IO.FS.readBinFile place) with
      | some text => return ⟨OrderedMap.put path (.file text) tree.nodes⟩
      | none => return tree
  | _ => return tree

def loadIfAny (tree : FileTree) (path : Path) : IO FileTree := do
  match ← (load tree path).toBaseIO with
  | .ok tree => return tree
  | .error _ => return tree

def loadConfiguration (tree : FileTree) (folder : Path) : IO FileTree :=
  ((Config.fileNames ++ [Config.packageName]).map folder.child).foldlM loadIfAny
    (tree.addFolder folder)

def namedPaths (place : Path) (argument : String) : List Path :=
  let texts :=
    match Text.cutAt? '=' argument.toList with
    | some (_, value) => [argument, String.ofList value]
    | none => [argument]
  texts.map place.resolve

def loadNamed (place : Path) (tree : FileTree) (path : Path) : IO FileTree :=
  if (Path.below? place path).isSome then return tree
  else loadIfAny (path.ancestors.foldl FileTree.addFolder tree) path

def around (place : Path) (arguments : List String) : IO FileTree := do
  let tree ← place.ancestors.foldlM loadConfiguration .empty
  let tree ← load tree place
  (arguments.flatMap (namedPaths place)).foldlM (loadNamed place) tree

def store (before after : FileTree) : IO Unit := do
  for (path, _) in before.nodes do
    if (after.node? path).isNone then IO.FS.removeFile path.render
  for (path, node) in after.nodes do
    if before.node? path ≠ some node then
      match node with
      | .folder => IO.FS.createDirAll path.render
      | .file text => IO.FS.writeFile path.render text

end CrateAtlas.Disk

open CrateAtlas

def main (arguments : List String) : IO UInt32 := do
  let start ← IO.monoMsNow
  let place := Path.root.descend (← IO.currentDir).toString
  let tree ← Disk.around place arguments
  let elapsed := (← IO.monoMsNow) - start
  let setting : CommandLine.Setting :=
    { place := place
      format := Yaml.format
      find := FileSearch.find
      runner := Command.builtIn
      scratch := place.child ".diagram-input"
      elapsed := toString elapsed }
  let result := CommandLine.run setting arguments tree
  Disk.store tree result.tree
  IO.print result.output
  IO.eprint result.errors
  return UInt32.ofNat result.status
