import CrateAtlas.Diagram.Members

/-!
Trait diagrams: every trait of a snapshot with its methods, and an arrow wherever a
signature of one trait names another.
-/

namespace CrateAtlas.Diagram

open CrateAtlas.Text

/-- Drops every lifetime; `inLifetime` is set while its word is passed over. -/
def dropLifetimes (inLifetime : Bool) : List Char → List Char
  | [] => []
  | character :: rest =>
      if inLifetime && isWordChar character then dropLifetimes true rest
      else if character = '\'' && (rest.head?.any isWordChar) then dropLifetimes true rest
      else character :: dropLifetimes false rest

def pathTail (fuel : Nat) (text : List Char) : List Char × List Char :=
  match fuel with
  | 0 => ([], text)
  | fuel + 1 =>
      match trimStart text with
      | ':' :: ':' :: after =>
          let next := trimStart after
          if next.head?.any isWordStart then
            let (tail, rest) := pathTail fuel (next.dropWhile isWordChar)
            (':' :: ':' :: next.takeWhile isWordChar ++ tail, rest)
          else ([], text)
      | _ => ([], text)

def pathsIn (fuel : Nat) (text : List Char) : List String :=
  match fuel with
  | 0 => []
  | fuel + 1 =>
      let start := text.dropWhile fun character => !isWordStart character
      if start.isEmpty then []
      else
        let (tail, rest) := pathTail start.length (start.dropWhile isWordChar)
        String.ofList (start.takeWhile isWordChar ++ tail) :: pathsIn fuel rest

def signaturePaths (signature : String) : List String :=
  let text := dropLifetimes false signature.toList
  pathsIn (text.length + 1) text

structure TraitEntry where
  name : String
  methods : List Method
  references : List String

/-- The methods of a trait stand in impl blocks of the trait itself. -/
def ownImpls (resolver : Resolver) (units : List SourceUnit) (name : String) :
    List (SourceUnit × ImplBlock) :=
  units.flatMap fun unit =>
    (unit.impls.filter fun impl =>
      impl.traitName.isNone && resolver.resolveType impl.target unit none = some name).map
      fun impl => (unit, impl)

def collectTraits (snapshot : Snapshot) : List TraitEntry :=
  let resolver := Resolver.ofSnapshot snapshot
  let names := (OrderedMap.keys snapshot.registry).filter fun name =>
    (resolver.definition? name).any fun definition => definition.kind = .trait
  (sortTexts names).map fun name =>
    let impls := if name = "" then [] else ownImpls resolver snapshot.units name
    let references := impls.flatMap fun (unit, impl) =>
      impl.methods.flatMap fun method =>
        (signaturePaths method.signature).filterMap fun path =>
          (Resolver.named (resolver.resolveType path unit (some name))).filter
            fun target => target ≠ name && names.contains target
    { name := name
      methods := sortBy byMethodName (impls.flatMap fun entry => entry.2.methods)
      references := sortTexts (OrderedMap.distinct references) }

def traitLines (ids : List (String × String)) (light : Bool) (entry : TraitEntry) :
    Except Failure (List String) := do
  let id ← idOf ids entry.name
  let methods := if light then [] else entry.methods
  return classLine id :: ("  <<interface>> " ++ id) ::
    methods.map fun method => "  " ++ id ++ " : " ++ formatMethod method
where
  classLine (id : String) : String :=
    "  class " ++ id ++ "[" ++ quotedName entry.name ++ "]"

def referenceLines (ids : List (String × String)) (entry : TraitEntry) :
    Except Failure (List String) :=
  entry.references.mapM fun reference => do
    let source ← idOf ids entry.name
    let target ← idOf ids reference
    return "  " ++ source ++ " --> " ++ target

def renderTraits (snapshot : Snapshot) (light : Bool) : Except Failure String := do
  let traits := collectTraits snapshot
  let ids ← assignIds
    { nodes := traits.map TraitEntry.name, edges := [], unresolvedCalls := 0,
      duplicates := [] }
  let classes ← traits.mapM (traitLines ids light)
  let arrows ← traits.mapM (referenceLines ids)
  return joinLines ("classDiagram" :: classes.flatten ++ arrows.flatten)

end CrateAtlas.Diagram
