import CrateAtlas.Architecture
import CrateAtlas.TypeText.References

/-!
Resolution of written types and callees to the qualified names of a registry, through the
imports of the file they are written in.
-/

namespace CrateAtlas

structure Resolver where
  units : List SourceUnit
  registry : List (String × String)

namespace Resolver

open ModulePath

def ofSnapshot (snapshot : Snapshot) : Resolver :=
  { units := snapshot.units, registry := snapshot.registry }

def named (name : Option String) : Option String :=
  name.filter (· ≠ "")

def isRegistered (resolver : Resolver) (qualifiedName : String) : Bool :=
  OrderedMap.has qualifiedName resolver.registry

def declarations (resolver : Resolver) : List (TypeDefinition × SourceUnit) :=
  resolver.units.flatMap fun unit =>
    (unit.types.filter fun type =>
      OrderedMap.get? type.qualifiedName resolver.registry = some unit.filePath).map
      fun type => (type, unit)

def declaration? (resolver : Resolver) (qualifiedName : String) :
    Option (TypeDefinition × SourceUnit) :=
  (resolver.declarations.filter fun entry => entry.1.qualifiedName = qualifiedName).getLast?

def definition? (resolver : Resolver) (qualifiedName : String) : Option TypeDefinition :=
  (resolver.declaration? qualifiedName).map Prod.fst

def declaringUnit? (resolver : Resolver) (qualifiedName : String) : Option SourceUnit :=
  (resolver.declaration? qualifiedName).map Prod.snd

def unitsOfModule (resolver : Resolver) (modulePath : String) : List SourceUnit :=
  resolver.units.filter fun unit => unit.modulePath = modulePath

end Resolver

namespace Import

def isGlob (entry : Import) : Bool :=
  entry.path = "*" || Text.endsWith "::*" entry.path.toList

def visibleName (entry : Import) : String :=
  entry.localName.getD (ModulePath.lastSegment entry.path)

def globMember (entry : Import) (name : String) : String :=
  let base := entry.path.toList
  ModulePath.join [String.ofList (base.take (base.length - 3)), name]

end Import

namespace Resolver

open ModulePath

/-- Looks a name up in the imports of a unit, explicit ones first, where `find` says what a
list of candidates resolves to. -/
def throughImports (find : List String → Option String) (name : String)
    (unit : SourceUnit) : Option String :=
  let explicit := unit.imports.filter fun entry =>
    !entry.isGlob && entry.visibleName = name
  let globs := unit.imports.filter Import.isGlob
  let tried := explicit.map Import.path ++ globs.map (·.globMember name)
  tried.findSome? fun path => named (find (absoluteCandidates path unit.modulePath))

/-- The first candidate that is registered, or else the first that an import in its parent
module leads to, over at most `hops` further imports. -/
def firstRegistered (resolver : Resolver) : Nat → List String → Option String
  | hops, candidates =>
      match named (candidates.find? resolver.isRegistered), hops with
      | some direct, _ => some direct
      | none, 0 => none
      | none, hops + 1 =>
          candidates.findSome? fun candidate =>
            if parent candidate = candidate then none
            else
              (resolver.unitsOfModule (parent candidate)).findSome? fun unit =>
                throughImports (firstRegistered resolver hops) (lastSegment candidate) unit

def maxHops : Nat := 4

def resolveName (resolver : Resolver) (name : String) (unit : SourceUnit) : Option String :=
  match unit.types.find? fun type =>
      type.name = name && resolver.isRegistered type.qualifiedName with
  | some type => some type.qualifiedName
  | none =>
      let sameModule := join [unit.modulePath, name]
      if resolver.isRegistered sameModule then some sameModule
      else throughImports (resolver.firstRegistered maxHops) name unit

def moduleCandidates (head : String) (unit : SourceUnit) : List String :=
  let imported := unit.imports.filter fun entry =>
    !entry.isGlob && entry.visibleName = head
  OrderedMap.distinct
    (imported.flatMap (fun entry => absoluteCandidates entry.path unit.modulePath) ++
      [join [unit.modulePath, head], join [crateRoot unit.modulePath, head], "crate::" ++ head])

/-- Resolves a type as written in a unit; `selfType` is what `Self` stands for. -/
def resolveType (resolver : Resolver) (text : String) (unit : SourceUnit)
    (selfType : Option String) : Option String :=
  let path := TypeText.typePathOf text
  if path = "" then none
  else
    match segments path with
    | [] => none
    | ["Self"] => selfType
    | "Self" :: _ => none
    | head :: rest =>
        if ["crate", "self", "super"].contains head then
          resolver.firstRegistered maxHops (absoluteCandidates path unit.modulePath)
        else if rest = [] then resolver.resolveName path unit
        else
          resolver.firstRegistered maxHops
            ((moduleCandidates head unit).map (fun base => join (base :: rest)) ++
              absoluteCandidates path unit.modulePath)

structure ResolvedRef where
  qualifiedName : String
  many : Bool
  deriving DecidableEq, Repr

def resolveTypeRefs (resolver : Resolver) (text : String) (unit : SourceUnit)
    (selfType : Option String) : List ResolvedRef :=
  let found := (TypeText.innerTypeRefs text).filterMap fun ref =>
    (named (resolver.resolveType ref.path unit selfType)).map fun name => (name, ref.many)
  (TypeText.mergeMentions found).map fun mention =>
    { qualifiedName := mention.1, many := mention.2 }

def resolveFieldType (resolver : Resolver) (owner fieldName : String) : Option String :=
  match resolver.declaration? owner with
  | none => none
  | some (type, unit) =>
      match type.fields.find? fun field => field.name = fieldName with
      | none => none
      | some field =>
          (resolver.resolveTypeRefs field.typeText unit (some owner)).head?.map
            ResolvedRef.qualifiedName

/-- The type a call lands on: the enclosing type for `self.method`, the type of a field for
`self.field.method`, the type in front of the last segment of a path, and the type itself
for a bare constructor call. -/
def resolveCallee (resolver : Resolver) (callee : String) (unit : SourceUnit)
    (selfType : Option String) : Option String :=
  if Text.contains '.' callee.toList then
    match Text.splitText '.' callee, named selfType with
    | ["self", _], some owner => some owner
    | ["self", field, _], some owner => resolver.resolveFieldType owner field
    | _, _ => none
  else
    match segments callee with
    | [_] => resolver.resolveType callee unit selfType
    | parts => resolver.resolveType (Text.joinWith "::" parts.dropLast) unit selfType

end Resolver

end CrateAtlas
