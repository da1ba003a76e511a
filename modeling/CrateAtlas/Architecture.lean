/-!
The architecture of a crate: types with their fields, impl blocks with their methods and
call sites, and imports, gathered by source file.
-/

namespace CrateAtlas

inductive TypeKind where
  | struct
  | enum
  | trait
  deriving DecidableEq, Repr

inductive Visibility where
  | everywhere
  | crateWide
  | restricted
  | hidden
  deriving DecidableEq, Repr

structure Location where
  filePath : String
  startLine : Int
  endLine : Int
  deriving DecidableEq, Repr

structure Field where
  name : String
  typeText : String
  deriving DecidableEq, Repr

structure TypeDefinition where
  name : String
  qualifiedName : String
  kind : TypeKind
  visibility : Visibility
  fields : List Field
  location : Location
  deriving DecidableEq, Repr

/-- A call as written; `target` is the qualified name of the type it lands on. -/
structure CallSite where
  callee : String
  method : String
  target : Option String
  line : Int
  deriving DecidableEq, Repr

structure Method where
  name : String
  signature : String
  returnType : Option String
  visibility : Visibility
  calls : List CallSite
  location : Location
  deriving DecidableEq, Repr

structure ImplBlock where
  target : String
  traitName : Option String
  methods : List Method
  location : Location
  deriving DecidableEq, Repr

structure Import where
  path : String
  localName : Option String
  deriving DecidableEq, Repr

structure SourceUnit where
  filePath : String
  modulePath : String
  types : List TypeDefinition
  impls : List ImplBlock
  imports : List Import
  deriving DecidableEq, Repr

structure DeclarationSite where
  filePath : String
  line : Int
  deriving DecidableEq, Repr

structure DuplicateType where
  qualifiedName : String
  locations : List DeclarationSite
  deriving DecidableEq, Repr

/-- The merged units of a crate. Each name of the registry is declared exactly once, in the
file it is paired with. -/
structure Snapshot where
  root : String
  units : List SourceUnit
  registry : List (String × String)
  duplicates : List DuplicateType
  deriving DecidableEq, Repr

structure SkippedFile where
  filePath : String
  reason : String
  deriving DecidableEq, Repr

def TypeKind.label : TypeKind → String
  | .struct => "struct"
  | .enum => "enum"
  | .trait => "trait"

def Visibility.label : Visibility → String
  | .everywhere => "public"
  | .crateWide => "crate"
  | .restricted => "restricted"
  | .hidden => "private"

theorem TypeKind.label_injective : Function.Injective TypeKind.label := by
  intro left right same
  cases left <;> cases right <;> simp_all [TypeKind.label]

theorem Visibility.label_injective : Function.Injective Visibility.label := by
  intro left right same
  cases left <;> cases right <;> simp_all [Visibility.label]

def TypeKind.all : List TypeKind := [.struct, .enum, .trait]

def Visibility.all : List Visibility := [.everywhere, .crateWide, .restricted, .hidden]

end CrateAtlas
