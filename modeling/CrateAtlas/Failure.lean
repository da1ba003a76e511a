import CrateAtlas.Architecture
import CrateAtlas.Files.Fault
import CrateAtlas.Text.Scan

/-!
What can go wrong, by cause, and how each cause is worded.
-/

namespace CrateAtlas

inductive DelimiterFault where
  | unexpected (closer : String)
  | mismatched (closer opener : String) (openedOn : Nat)
  | unclosed (opener : String)
  deriving DecidableEq, Repr

def DelimiterFault.message : DelimiterFault → String
  | .unexpected closer => "unexpected '" ++ closer ++ "'"
  | .mismatched closer opener openedOn =>
      "'" ++ closer ++ "' does not close '" ++ opener ++ "' opened on line " ++
        toString openedOn
  | .unclosed opener => "unclosed '" ++ opener ++ "'"

def DuplicateType.whereabouts (duplicate : DuplicateType) : String :=
  Text.joinWith ", " (duplicate.locations.map fun site =>
    site.filePath ++ ":" ++ toString site.line)

def DuplicateType.message (duplicate : DuplicateType) : String :=
  "Type " ++ duplicate.qualifiedName ++ " is defined more than once (" ++
    duplicate.whereabouts ++ ")"

inductive Failure where
  | scan (filePath : String) (line : Int) (detail : String)
  | duplicate (type : DuplicateType)
  | ambiguousGraph (names : List String)
  | snapshotFormat (path detail : String)
  | incomparable (directory reason : String)
  | markup (detail : String)
  | backend (detail errorOutput : String)
  /-- What was thrown is no error and cannot be put into words. -/
  | wordless
  | unknownType (name : String)
  | ambiguousType (name : String) (candidates : List String)
  | invalidDepth
  | file (fault : FileFault)
  | plain (detail : String)
  deriving DecidableEq, Repr

def Failure.message : Failure → String
  | .scan filePath line detail => filePath ++ ":" ++ toString line ++ ": " ++ detail
  | .duplicate type => type.message
  | .ambiguousGraph names =>
      "Cannot build relationship graph: duplicate type names " ++ Text.joinWith ", " names
  | .snapshotFormat path detail => "Invalid snapshot artifact " ++ path ++ ": " ++ detail
  | .incomparable directory reason => "Cannot diff snapshot " ++ directory ++ ": " ++ reason
  | .markup detail => detail
  | .backend detail errorOutput =>
      if errorOutput = "" then detail
      else detail ++ ": " ++ String.ofList (Text.trim errorOutput.toList)
  | .wordless => "Cannot convert object to primitive value"
  | .unknownType name => "Unknown type: " ++ name
  | .ambiguousType name candidates =>
      "Type name " ++ name ++ " is ambiguous: " ++ Text.joinWith ", " candidates
  | .invalidDepth => "Depth must be a non-negative integer."
  | .file fault => fault.message
  | .plain detail => detail

end CrateAtlas
