import CrateAtlas.Failure
import CrateAtlas.Files.Tree
import CrateAtlas.Text.Order

/-!
Searches for files by patterns, and what it takes to carry them out.
-/

namespace CrateAtlas

structure FileSearch where
  patterns : List String
  ignored : List String
  dots : Bool

/-- Finds files below a place, each by a text that leads there from the place, in any order. -/
abbrev Finder := FileSearch → FileTree → Path → Except Failure (List String)

def Finder.inOrder (find : Finder) : Finder := fun search tree place =>
  (find search tree place).map Text.sortTexts

end CrateAtlas
