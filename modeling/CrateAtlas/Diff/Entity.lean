import CrateAtlas.Record
import CrateAtlas.Resolver
import CrateAtlas.Text.Order

/-!
The entities of a snapshot that a comparison looks at: registered types, and the methods of
the impl blocks that resolve to them.
-/

namespace CrateAtlas.Diff

structure TypeEntity where
  identity : String
  kind : TypeKind
  visibility : Visibility
  fields : List Field
  traits : List String
  methods : List (String × String)
  deriving DecidableEq, Repr

structure MethodEntity where
  identity : String
  owner : String
  name : String
  traitName : Option String
  signature : String
  deriving DecidableEq, Repr

inductive Entity where
  | type (entity : TypeEntity)
  | method (entity : MethodEntity)
  deriving DecidableEq, Repr

structure EntityIndex where
  types : List (String × TypeEntity)
  methods : List (String × MethodEntity)

/-- The key of a method within its type: its name, with the trait in front for a method of
a trait impl. -/
def methodKey (name : String) (traitName : Option String) : String :=
  match Resolver.named traitName with
  | some traitName => traitName ++ "::" ++ name
  | none => name

structure OwnedImpl where
  owner : String
  impl : ImplBlock
  traitName : Option String
  traitPath : Option String

def ownImpl (resolver : Resolver) (unit : SourceUnit) (impl : ImplBlock) (owner : String) :
    OwnedImpl :=
  let written := Resolver.named impl.traitName
  { owner := owner
    impl := impl
    traitName := written.map fun name =>
      ModulePath.lastSegment (TypeText.typePathOf name) ++ TypeText.genericArgsOf name
    traitPath := written.map fun name =>
      ((resolver.resolveType name unit (some owner)).getD (TypeText.typePathOf name)) ++
        TypeText.genericArgsOf name }

def ownedImpls (snapshot : Snapshot) : List OwnedImpl :=
  let resolver := Resolver.ofSnapshot snapshot
  snapshot.units.flatMap fun unit =>
    unit.impls.filterMap fun impl =>
      ((Resolver.named (resolver.resolveType impl.target unit none)).filter fun owner =>
        (resolver.definition? owner).isSome).map (ownImpl resolver unit impl)

/-- The methods of a type by key; of two methods with one key the last one counts. -/
def methodRecord (impls : List OwnedImpl) (owner : String) : List (String × String) :=
  let own := impls.filter fun entry => entry.owner = owner
  let pairs := own.flatMap fun entry =>
    entry.impl.methods.map fun method =>
      (methodKey method.name entry.traitName, method.signature)
  Record.sorted (pairs.foldl (fun record pair => Record.assign pair.1 pair.2 record) [])

def traitList (impls : List OwnedImpl) (owner : String) : List String :=
  let own := impls.filter fun entry => entry.owner = owner
  Text.sortTexts (OrderedMap.distinct (own.filterMap OwnedImpl.traitPath))

def typeEntity (impls : List OwnedImpl) (definition : TypeDefinition) (identity : String) :
    TypeEntity :=
  { identity := identity
    kind := definition.kind
    visibility := definition.visibility
    fields := definition.fields
    traits := traitList impls identity
    methods := methodRecord impls identity }

def methodEntities (entry : OwnedImpl) : List (String × MethodEntity) :=
  entry.impl.methods.map fun method =>
    let identity := entry.owner ++ "::" ++ methodKey method.name entry.traitName
    (identity,
      { identity := identity
        owner := entry.owner
        name := method.name
        traitName := entry.traitName
        signature := method.signature })

def collectEntities (snapshot : Snapshot) : EntityIndex :=
  let resolver := Resolver.ofSnapshot snapshot
  let impls := ownedImpls snapshot
  let names := Text.sortTexts (OrderedMap.keys snapshot.registry)
  { types := names.filterMap fun name =>
      (resolver.definition? name).map fun definition =>
        (name, typeEntity impls definition name)
    methods := (impls.flatMap methodEntities).foldl
      (fun kept entry => OrderedMap.put entry.1 entry.2 kept) [] }

end CrateAtlas.Diff
