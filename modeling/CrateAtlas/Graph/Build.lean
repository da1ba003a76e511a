import CrateAtlas.Failure
import CrateAtlas.Graph
import CrateAtlas.Snapshot

/-!
The relationship graph of a snapshot: types contain the types of their fields, implement
traits, call each other, and move each other into new states.
-/

namespace CrateAtlas

def mentionsSelf (text : String) : Bool :=
  go [] text.toList
where
  go (word : List Char) : List Char → Bool
    | [] => word.reverse = ['S', 'e', 'l', 'f']
    | character :: rest =>
        if Text.isWordChar character then go (character :: word) rest
        else word.reverse = ['S', 'e', 'l', 'f'] || go [] rest

def isConstructorName (name : String) : Bool :=
  ["new", "default", "build", "create", "try_from"].contains name ||
    ["from", "new_", "with_"].any fun lead => Text.startsWith lead name.toList

namespace Snapshot

structure OwnedMethod where
  owner : String
  method : Method
  unit : SourceUnit

def ownedMethods (resolver : Resolver) (units : List SourceUnit) : List OwnedMethod :=
  units.flatMap fun unit =>
    unit.impls.flatMap fun impl =>
      match Resolver.named (resolver.resolveType impl.target unit none) with
      | none => []
      | some owner =>
          impl.methods.map fun method => { owner := owner, method := method, unit := unit }

def returnsOwner (resolver : Resolver) (owned : OwnedMethod) : Bool :=
  match Resolver.named owned.method.returnType with
  | none => false
  | some returned =>
      mentionsSelf returned ||
        (resolver.resolveTypeRefs returned owned.unit (some owned.owner)).any
          fun ref => ref.qualifiedName = owned.owner

/-- A call moves the caller into a new state of its target when it constructs the target,
or calls a method of the target that gives the target back. -/
def isStateTransition (resolver : Resolver) (methods : List OwnedMethod) (call : CallSite)
    (target : String) : Bool :=
  isConstructorName call.method ||
    (methods.filter fun owned =>
      owned.owner = target && owned.method.name = call.method).any (returnsOwner resolver)

def callTarget (resolver : Resolver) (call : CallSite) (unit : SourceUnit)
    (source : String) : Option String :=
  let target :=
    match call.target with
    | some target => some target
    | none => resolver.resolveCallee call.callee unit (some source)
  (Resolver.named target).filter resolver.isRegistered

def containsEdges (resolver : Resolver) (unit : SourceUnit) (type : TypeDefinition) :
    List Edge :=
  type.fields.flatMap fun field =>
    (resolver.resolveTypeRefs field.typeText unit (some type.qualifiedName)).map fun ref =>
      { source := type.qualifiedName
        target := ref.qualifiedName
        kind := .contains
        label := field.name
        cardinality := some (if ref.many then .many else .one) }

def typeEdges (resolver : Resolver) (unit : SourceUnit) : List Edge :=
  (unit.types.filter fun type =>
    OrderedMap.get? type.qualifiedName resolver.registry = some unit.filePath).flatMap
    (containsEdges resolver unit)

def implementsEdges (resolver : Resolver) (unit : SourceUnit) (source : String)
    (impl : ImplBlock) : List Edge :=
  match Resolver.named impl.traitName with
  | none => []
  | some traitName =>
      match Resolver.named (resolver.resolveType traitName unit (some source)) with
      | none => []
      | some target =>
          if target = source then []
          else
            [{ source := source, target := target, kind := .implements, label := "",
               cardinality := none }]

def callEdges (resolver : Resolver) (methods : List OwnedMethod) (unit : SourceUnit)
    (source : String) (method : Method) (call : CallSite) : List Edge :=
  match callTarget resolver call unit source with
  | none => []
  | some target =>
      if target = source then []
      else
        { source := source, target := target, kind := .calls, label := call.method,
          cardinality := none } ::
        (if isStateTransition resolver methods call target then
          [{ source := source, target := target, kind := .stateTransition,
             label := method.name, cardinality := none }]
        else [])

def implEdges (resolver : Resolver) (methods : List OwnedMethod) (unit : SourceUnit)
    (impl : ImplBlock) : List Edge :=
  match Resolver.named (resolver.resolveType impl.target unit none) with
  | none => []
  | some source =>
      implementsEdges resolver unit source impl ++
        impl.methods.flatMap fun method =>
          method.calls.flatMap (callEdges resolver methods unit source method)

/-- The call sites of an impl block that land on no registered type; all of them when the
target of the block is unknown. -/
def unresolvedCalls (resolver : Resolver) (unit : SourceUnit) (impl : ImplBlock) : Nat :=
  let calls := impl.methods.flatMap Method.calls
  match Resolver.named (resolver.resolveType impl.target unit none) with
  | none => calls.length
  | some source =>
      (calls.filter fun call => (callTarget resolver call unit source).isNone).length

/-- Builds the graph. Duplicate names are refused unless they are allowed, and then they
are left out. -/
def buildGraph (snapshot : Snapshot) (allowDuplicates : Bool) : Except Failure Graph :=
  let duplicates := Text.sortTexts (snapshot.duplicates.map DuplicateType.qualifiedName)
  if duplicates ≠ [] ∧ !allowDuplicates then .error (.ambiguousGraph duplicates)
  else
    let resolver := Resolver.ofSnapshot snapshot
    let units := Text.sortBy byFilePath snapshot.units
    let methods := ownedMethods resolver units
    let edges := units.flatMap fun unit =>
      typeEdges resolver unit ++ unit.impls.flatMap (implEdges resolver methods unit)
    .ok
      { nodes := Text.sortTexts (OrderedMap.keys snapshot.registry)
        edges := Text.sortBy Edge.order (Graph.distinctEdges edges)
        unresolvedCalls :=
          ((units.flatMap fun unit => unit.impls.map (unresolvedCalls resolver unit)).foldl
            (· + ·) 0 : Nat)
        duplicates := duplicates }

end Snapshot

end CrateAtlas
