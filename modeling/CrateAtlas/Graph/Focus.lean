import CrateAtlas.Failure
import CrateAtlas.Graph
import CrateAtlas.ModulePath

/-!
Focused graphs: the types within a number of edges of one type.
-/

namespace CrateAtlas.Graph

def findNode (graph : Graph) (name : String) : Except Failure String :=
  if graph.nodes.contains name then .ok name
  else
    match graph.nodes.filter fun node => ModulePath.lastSegment node = name with
    | [] => .error (.unknownType name)
    | [node] => .ok node
    | nodes => .error (.ambiguousType name nodes)

def neighbours (graph : Graph) (node : String) : List String :=
  graph.edges.flatMap fun edge =>
    (if edge.source = node then [edge.target] else []) ++
      (if edge.target = node then [edge.source] else [])

def spread (graph : Graph) : Nat → List String → List String → List String
  | 0, kept, _ => kept
  | _ + 1, kept, [] => kept
  | depth + 1, kept, frontier =>
      let next := OrderedMap.distinct ((frontier.flatMap graph.neighbours).filter
        fun node => !kept.contains node)
      spread graph depth (kept ++ next) next

def focused (graph : Graph) (name : String) (depth : Int) : Except Failure Graph := do
  let focus ← graph.findNode name
  let levels := min depth.toNat (graph.nodes.length + 2 * graph.edges.length)
  let kept := graph.spread levels [focus] [focus]
  return { graph with
    nodes := graph.nodes.filter kept.contains
    edges := graph.edges.filter fun edge =>
      kept.contains edge.source && kept.contains edge.target }

end CrateAtlas.Graph
