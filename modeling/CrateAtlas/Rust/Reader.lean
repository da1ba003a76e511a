import CrateAtlas.Rust.Grammar.Parser
import CrateAtlas.Rust.Source

/-!
Which files are Rust sources, and the architecture of their texts.
-/

namespace CrateAtlas.Rust

open CrateAtlas.Text

def sourceUnit (filePath modulePath source : String) : Except Failure SourceUnit :=
  sourceUnitOf filePath modulePath (Grammar.parse source)

def sourceUnitAt (filePath source : String) : Except Failure SourceUnit :=
  sourceUnit filePath (ModulePath.ofFile filePath) source

def extensions : List String := ["rs"]

/-- Whether a file is one to read: by its extension in any case, where a name without a
point is an extension too. -/
def isSourcePath (path : String) : Bool :=
  let extension :=
    match cutAtLast? '.' path.toList with
    | some (_, extension) => extension
    | none => path.toList
  extensions.contains (String.ofList (extension.map Char.toLower))

-- No limit is zero.
def isTooLarge (limit : Int) (source : String) : Bool :=
  limit > 0 && (source.utf8ByteSize : Int) > limit

def defaultSizeLimit : Int := 1048576

end CrateAtlas.Rust
