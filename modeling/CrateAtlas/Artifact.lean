import CrateAtlas.Failure
import CrateAtlas.Json.Check
import CrateAtlas.Snapshot.Canonical

/-!
Artifacts: the document that describes one source file, in any text format. Units are written in
their canonical order, and what does not have the shape of an artifact is refused with every fault.
-/

namespace CrateAtlas

open Json

/- The document of a unit -/

def linesDocument (location : Location) : Json :=
  .list [.ofInt location.startLine, .ofInt location.endLine]

def CallSite.document (call : CallSite) : Json :=
  .record
    [("callee", .string call.callee), ("method", .string call.method),
      ("target", .ofOptionalText call.target), ("line", .ofInt call.line)]

def Method.document (method : Method) : Json :=
  .record
    [("name", .string method.name), ("visibility", .string method.visibility.label),
      ("signature", .string method.signature), ("returns", .ofOptionalText method.returnType),
      ("lines", linesDocument method.location),
      ("calls", .list (method.calls.map CallSite.document))]

def Field.document (field : Field) : Json :=
  .record [("name", .string field.name), ("type", .string field.typeText)]

def TypeDefinition.document (type : TypeDefinition) : Json :=
  .record
    [("name", .string type.name), ("qualified", .string type.qualifiedName),
      ("kind", .string type.kind.label), ("visibility", .string type.visibility.label),
      ("lines", linesDocument type.location),
      ("fields", .list (type.fields.map Field.document))]

def ImplBlock.document (impl : ImplBlock) : Json :=
  .record
    [("target", .string impl.target), ("trait", .ofOptionalText impl.traitName),
      ("lines", linesDocument impl.location),
      ("methods", .list (impl.methods.map Method.document))]

def Import.document (entry : Import) : Json :=
  .record [("path", .string entry.path), ("alias", .ofOptionalText entry.localName)]

def SourceUnit.document (unit : SourceUnit) : Json :=
  .record
    [("file", .string unit.filePath), ("module", .string unit.modulePath),
      ("imports", .list (unit.imports.map Import.document)),
      ("types", .list (unit.types.map TypeDefinition.document)),
      ("impls", .list (unit.impls.map ImplBlock.document))]

/- The unit of a document -/

def checkLine (part : Part) : Checked Int := checkWhole 1 none part

def checkLines (filePath : String) (part : Part) : Checked Location :=
  (fun lines => { filePath := filePath, startLine := lines.1, endLine := lines.2 }) <$>
    checkPair checkLine part

def checkVisibility (part : Part) : Checked Visibility :=
  checkChoice Visibility.all Visibility.label part

def checkCall : Part → Checked CallSite :=
  checkRecord fun part =>
    CallSite.mk <$> checkText (part.member "callee") <*> checkText (part.member "method") <*>
      checkOptionalText (part.member "target") <*> checkLine (part.member "line")

def checkMethod (filePath : String) : Part → Checked Method :=
  checkRecord fun part =>
    (fun name visibility signature returnType location calls =>
      Method.mk name signature returnType visibility calls location) <$>
      checkText (part.member "name") <*> checkVisibility (part.member "visibility") <*>
      checkText (part.member "signature") <*> checkOptionalText (part.member "returns") <*>
      checkLines filePath (part.member "lines") <*>
      checkDefault [] (checkList checkCall) (part.member "calls")

def checkField : Part → Checked Field :=
  checkRecord fun part =>
    Field.mk <$> checkText (part.member "name") <*> checkText (part.member "type")

def checkType (filePath : String) : Part → Checked TypeDefinition :=
  checkRecord fun part =>
    (fun name qualifiedName kind visibility location fields =>
      TypeDefinition.mk name qualifiedName kind visibility fields location) <$>
      checkText (part.member "name") <*> checkText (part.member "qualified") <*>
      checkChoice TypeKind.all TypeKind.label (part.member "kind") <*>
      checkVisibility (part.member "visibility") <*>
      checkLines filePath (part.member "lines") <*>
      checkDefault [] (checkList checkField) (part.member "fields")

def checkImpl (filePath : String) : Part → Checked ImplBlock :=
  checkRecord fun part =>
    (fun target traitName location methods => ImplBlock.mk target traitName methods location) <$>
      checkText (part.member "target") <*> checkOptionalText (part.member "trait") <*>
      checkLines filePath (part.member "lines") <*>
      checkDefault [] (checkList (checkMethod filePath)) (part.member "methods")

def checkImport : Part → Checked Import :=
  checkRecord fun part =>
    Import.mk <$> checkText (part.member "path") <*> checkOptionalText (part.member "alias")

/-- The shape of an artifact; every location is in the file that the artifact names. -/
def checkUnit : Part → Checked SourceUnit :=
  checkRecord fun part =>
    let filePath :=
      match (part.member "file").value with
      | some (.string filePath) => filePath
      | _ => ""
    (fun filePath modulePath imports types impls =>
      SourceUnit.mk filePath modulePath types impls imports) <$>
      checkNonEmpty (part.member "file") <*> checkNonEmpty (part.member "module") <*>
      checkDefault [] (checkList checkImport) (part.member "imports") <*>
      checkDefault [] (checkList (checkType filePath)) (part.member "types") <*>
      checkDefault [] (checkList (checkImpl filePath)) (part.member "impls")

namespace Artifact

def print (format : Format) (unit : SourceUnit) : String :=
  format.print unit.canonical.document

def parse (format : Format) (path content : String) : Except Failure SourceUnit :=
  match format.parse content with
  | .error message => .error (.snapshotFormat path message)
  | .ok document =>
      match run checkUnit document with
      | .passed unit => .ok unit
      | .failed issues => .error (.snapshotFormat path (listIssues issues))

end Artifact

end CrateAtlas
