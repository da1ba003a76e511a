import CrateAtlas.Diff
import CrateAtlas.Json

/-!
The outcome of a comparison as a document.
-/

namespace CrateAtlas

def DeclarationSite.document (site : DeclarationSite) : Json :=
  .record [("filePath", .string site.filePath), ("line", .ofInt site.line)]

def DuplicateType.document (duplicate : DuplicateType) : Json :=
  .record
    [("qualifiedName", .string duplicate.qualifiedName),
      ("locations", .list (duplicate.locations.map DeclarationSite.document))]

namespace Diff

def recordDocument (document : α → Json) (record : List (String × α)) : Json :=
  .record ((Record.listing record).map fun entry => (entry.1, document entry.2))

def fieldDocument (field : Field) : Json :=
  .record [("name", .string field.name), ("type", .string field.typeText)]

def TypeEntity.document (entity : TypeEntity) : Json :=
  .record
    [("entity", .string "type"), ("identity", .string entity.identity),
      ("kind", .string entity.kind.label), ("visibility", .string entity.visibility.label),
      ("fields", .list (entity.fields.map fieldDocument)), ("traits", .ofTexts entity.traits),
      ("methods", recordDocument .string entity.methods)]

def MethodEntity.document (entity : MethodEntity) : Json :=
  .record
    [("entity", .string "method"), ("identity", .string entity.identity),
      ("owner", .string entity.owner), ("name", .string entity.name),
      ("trait", .ofOptionalText entity.traitName), ("signature", .string entity.signature)]

def entityDocument : Option Entity → Json
  | some (.type entity) => entity.document
  | some (.method entity) => entity.document
  | none => .null

def SetChange.document (change : SetChange) : Json :=
  .record
    [("added", .ofTexts change.added), ("removed", .ofTexts change.removed),
      ("changed", .ofTexts change.changed)]

def valueMember (name : String) : Option ValueChange → List (String × Json)
  | some change =>
      [(name, .record [("before", .string change.before), ("after", .string change.after)])]
  | none => []

def ChangeDetail.document (detail : ChangeDetail) : Json :=
  .record
    (valueMember "signature" detail.signature ++
      [("fields", detail.fields.document), ("methods", detail.methods.document),
        ("traits", detail.traits.document)] ++
      valueMember "kind" detail.kind ++ valueMember "visibility" detail.visibility)

def Modification.document (change : Modification) : Json :=
  .record
    [("before", entityDocument change.before), ("after", entityDocument change.after),
      ("changes", change.changes.document)]

def Result.document (result : Result) : Json :=
  .record
    [("granularity", .string result.granularity.label),
      ("added", recordDocument entityDocument result.added),
      ("removed", recordDocument entityDocument result.removed),
      ("modified", recordDocument Modification.document result.modified),
      ("unchanged", .ofTexts result.unchanged),
      ("skipped", .record
        [("before", .list (result.skippedBefore.map DuplicateType.document)),
          ("after", .list (result.skippedAfter.map DuplicateType.document))])]

end Diff

end CrateAtlas
