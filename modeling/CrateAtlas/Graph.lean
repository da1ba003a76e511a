import CrateAtlas.OrderedMap
import CrateAtlas.Text.Order

/-!
Relationship graphs between the registered types of a crate.
-/

namespace CrateAtlas

inductive EdgeKind where
  | implements
  | contains
  | calls
  | stateTransition
  deriving DecidableEq, Repr

inductive Cardinality where
  | one
  | many
  deriving DecidableEq, Repr

/-- A relation between two types; only containment has a cardinality. -/
structure Edge where
  source : String
  target : String
  kind : EdgeKind
  label : String
  cardinality : Option Cardinality
  deriving DecidableEq, Repr

structure Graph where
  nodes : List String
  edges : List Edge
  unresolvedCalls : Int
  duplicates : List String
  deriving DecidableEq, Repr

namespace EdgeKind

/-- Smaller ranks take precedence. -/
def rank : EdgeKind → Nat
  | .implements => 0
  | .contains => 1
  | .calls => 2
  | .stateTransition => 3

def label : EdgeKind → String
  | .implements => "implements"
  | .contains => "contains"
  | .calls => "calls"
  | .stateTransition => "state-transition"

def all : List EdgeKind := [.implements, .contains, .calls, .stateTransition]

end EdgeKind

namespace Cardinality

def label : Cardinality → String
  | .one => "one"
  | .many => "many"

end Cardinality

namespace Edge

def order (left right : Edge) : Ordering :=
  (((Text.compareText left.source right.source).then
    (Text.compareText left.target right.target)).then
    (compare left.kind.rank right.kind.rank)).then
    (Text.compareText left.label right.label)

def key (edge : Edge) : String :=
  edge.kind.label ++ "\x00" ++ edge.source ++ "\x00" ++ edge.target ++ "\x00" ++ edge.label

def pairKey (edge : Edge) : String :=
  edge.source ++ "\x00" ++ edge.target

def caption (edge : Edge) : String :=
  if edge.label = "" then edge.kind.label else edge.label

end Edge

namespace Graph

/-- Every edge joins nodes of the graph. -/
def Joined (graph : Graph) : Prop :=
  ∀ edge ∈ graph.edges, edge.source ∈ graph.nodes ∧ edge.target ∈ graph.nodes

instance (graph : Graph) : Decidable graph.Joined :=
  inferInstanceAs (Decidable (∀ edge ∈ graph.edges, _ ∧ _))

def distinctEdges (edges : List Edge) : List Edge :=
  OrderedMap.values
    (edges.foldl (fun kept edge => OrderedMap.putNew edge.key edge kept) [])

def preferKind (kept : List (String × Edge)) (edge : Edge) : List (String × Edge) :=
  let plain := { edge with label := "", cardinality := none }
  match OrderedMap.get? edge.pairKey kept with
  | none => OrderedMap.put edge.pairKey plain kept
  | some existing =>
      if edge.kind.rank < existing.kind.rank then OrderedMap.put edge.pairKey plain kept
      else kept

def abbreviate (graph : Graph) : Graph :=
  let edges := Text.sortBy Edge.order
    (OrderedMap.values (graph.edges.foldl preferKind []))
  { graph with
    nodes := graph.nodes.filter fun node =>
      edges.any fun edge => edge.source = node || edge.target = node
    edges := edges }

end Graph

end CrateAtlas
