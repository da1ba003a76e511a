import CrateAtlas.Diagram.Render
import CrateAtlas.Proofs.Canonical.Graph
import CrateAtlas.Proofs.Diagram.Ids
import CrateAtlas.Proofs.Graph.Abbreviate
import CrateAtlas.Proofs.Graph.Build

/-!
Diagrams of built graphs. Main statement: the graph of an extracted snapshot is drawn in every
mode, unless two of the types that the mode draws share a diagram id.
-/

namespace CrateAtlas.Diagram

open OrderedMap

/-- The graph that a diagram shows. -/
def Mode.view (graph : Graph) : Mode → Graph
  | .connections => graph.abbreviate
  | _ => graph

section Render

variable {graph : Graph}

theorem assignIds_decides (joined : graph.Joined)
    (filled : ∀ node ∈ graph.nodes, sanitizeId node ≠ "") :
    Decides graph.nodes (assignIds graph) := by
  have none : OwnIds (keys ([] : List (String × String))) := by simp [OwnIds]
  refine (nodeIds_decides none (by simp) filled).bind ?_
  intro ids assigned
  have known : ∀ node ∈ graph.nodes, node ∈ keys ids :=
    fun node member => (mem_keys_nodeIds assigned).mpr (.inr member)
  have checked : checkEdges ids graph.edges = .ok () := checkEdges_eq_ok.mpr fun edge member =>
    ⟨known _ (joined edge member).1, known _ (joined edge member).2⟩
  exact ⟨ids, by rw [checked]; rfl⟩

theorem assignIds_eq_ok {ids : List (String × String)} :
    assignIds graph = .ok ids ↔
      nodeIds [] graph.nodes = .ok ids ∧ checkEdges ids graph.edges = .ok () := by
  simp only [assignIds, bind_eq_ok, pure_eq_ok]
  constructor
  · rintro ⟨given, assigned, _, checked, rfl⟩
    exact ⟨assigned, checked⟩
  · rintro ⟨assigned, checked⟩
    exact ⟨ids, assigned, (), checked, rfl⟩

theorem mem_keys_assignIds {ids : List (String × String)} (assigned : assignIds graph = .ok ids)
    {node : String} : node ∈ keys ids ↔ node ∈ graph.nodes := by
  rw [mem_keys_nodeIds (assignIds_eq_ok.mp assigned).1]
  simp

theorem lines_decides (joined : graph.Joined)
    (filled : ∀ node ∈ graph.nodes, sanitizeId node ≠ "")
    {write : List (String × String) → Except Failure String}
    (written : ∀ ids, (∀ node ∈ graph.nodes, node ∈ keys ids) → ∃ text, write ids = .ok text) :
    Decides graph.nodes (assignIds graph >>= write) :=
  (assignIds_decides joined filled).bind fun ids assigned =>
    written ids fun _ => (mem_keys_assignIds assigned).mpr

variable {ids : List (String × String)}

theorem edgeLine_ok (known : ∀ node ∈ graph.nodes, node ∈ keys ids) (joined : graph.Joined)
    {edge : Edge} (member : edge ∈ graph.edges) {write : String → String → Except Failure String}
    (written : ∀ source target, ∃ text, write source target = .ok text) :
    ∃ text, (do
      let source ← idOf ids edge.source
      let target ← idOf ids edge.target
      write source target) = .ok text := by
  obtain ⟨source, sourceId⟩ := idOf_ok (known _ (joined edge member).1)
  obtain ⟨target, targetId⟩ := idOf_ok (known _ (joined edge member).2)
  rw [sourceId, targetId]
  exact written source target

theorem nodeLine_ok {node : String} (known : node ∈ keys ids) (write : String → α) :
    ∃ line, (do
      let id ← idOf ids node
      return write id) = Except.ok line := by
  obtain ⟨id, found⟩ := idOf_ok known
  exact ⟨write id, by rw [found]; rfl⟩

theorem diagram_decides (joined : graph.Joined)
    (filled : ∀ node ∈ graph.nodes, sanitizeId node ≠ "")
    {nodeLine : List (String × String) → String → Except Failure α}
    {edgeLine : List (String × String) → Edge → Except Failure String}
    (nodeLines : ∀ ids, ∀ node ∈ keys ids, ∃ line, nodeLine ids node = .ok line)
    (edgeLines : ∀ ids, (∀ node ∈ graph.nodes, node ∈ keys ids) →
      ∀ edge ∈ graph.edges, ∃ line, edgeLine ids edge = .ok line)
    (layOut : List α → List String → String) :
    Decides graph.nodes (do
      let ids ← assignIds graph
      let nodes ← graph.nodes.mapM (nodeLine ids)
      let edges ← graph.edges.mapM (edgeLine ids)
      return layOut nodes edges) := by
  refine lines_decides joined filled ?_
  intro ids known
  obtain ⟨nodes, nodesDone⟩ :=
    exists_mapM_ok fun node member => nodeLines ids node (known node member)
  obtain ⟨edges, edgesDone⟩ := exists_mapM_ok (edgeLines ids known)
  rw [nodesDone, edgesDone]
  exact ⟨_, rfl⟩

theorem renderClasses_decides (joined : graph.Joined)
    (filled : ∀ node ∈ graph.nodes, sanitizeId node ≠ "") (members : List (String × ClassMember)) :
    Decides graph.nodes (renderClasses graph members) := by
  refine diagram_decides joined filled (fun _ _ known => nodeLine_ok known _) ?_ _
  intro ids known edge member
  refine edgeLine_ok known joined member fun source target => ?_
  cases edge.kind <;> exact ⟨_, rfl⟩

theorem renderState_decides (joined : graph.Joined)
    (filled : ∀ node ∈ graph.nodes, sanitizeId node ≠ "") :
    Decides graph.nodes (renderState graph) := by
  refine diagram_decides joined filled (fun _ _ known => nodeLine_ok known _) ?_ _
  intro ids known edge member
  exact edgeLine_ok known joined member fun _ _ => ⟨_, rfl⟩

theorem renderConnections_decides (joined : graph.abbreviate.Joined)
    (filled : ∀ node ∈ graph.abbreviate.nodes, sanitizeId node ≠ "") :
    Decides graph.abbreviate.nodes (renderConnections graph) := by
  refine diagram_decides joined filled (fun _ _ known => nodeLine_ok known _) ?_ _
  intro ids known edge member
  exact edgeLine_ok known joined member fun _ _ => ⟨_, rfl⟩

theorem renderEntity_decides (joined : graph.Joined)
    (filled : ∀ node ∈ graph.nodes, sanitizeId node ≠ "") :
    Decides graph.nodes (renderEntity graph) := by
  refine lines_decides joined filled ?_
  intro ids known
  have edgeLines : ∀ edge ∈ graph.edges.filter (fun edge => edge.kind = .contains),
      ∃ line, entityEdgeLine ids edge = .ok line := fun edge member =>
    edgeLine_ok known joined (List.mem_of_mem_filter member) fun _ _ => ⟨_, rfl⟩
  obtain ⟨edges, edgesDone⟩ := exists_mapM_ok edgeLines
  dsimp only
  rw [edgesDone]
  exact ⟨_, rfl⟩

/-- A graph whose edges join its nodes is drawn unless two nodes that the mode draws share an
id. -/
theorem render_decides (joined : graph.Joined)
    (filled : ∀ node ∈ graph.nodes, sanitizeId node ≠ "") (mode : Mode)
    (snapshot : Option Snapshot) :
    Decides (mode.view graph).nodes (render graph mode snapshot) := by
  cases mode with
  | classes => exact renderClasses_decides joined filled _
  | state => exact renderState_decides joined filled
  | connections =>
      refine renderConnections_decides joined.abbreviate ?_
      exact fun node member => filled node (List.mem_of_mem_filter member)
  | entity => exact renderEntity_decides joined filled

theorem view_nodes_subset (graph : Graph) (mode : Mode) :
    (mode.view graph).nodes ⊆ graph.nodes := by
  cases mode with
  | connections => exact List.filter_subset_self _
  | classes => exact List.Subset.refl _
  | state => exact List.Subset.refl _
  | entity => exact List.Subset.refl _

end Render

section Letters

open ModulePath

theorem StartsWithLetter.ne_empty {name : String} (starts : StartsWithLetter name) : name ≠ "" := by
  rintro rfl
  simp [StartsWithLetter] at starts

theorem StartsWithLetter.append {first : String} (starts : StartsWithLetter first)
    (rest : String) : StartsWithLetter (first ++ rest) := by
  unfold StartsWithLetter at starts ⊢
  rw [String.toList_append]
  cases text : first.toList with
  | nil => simp [text] at starts
  | cons character _ => simpa [text] using starts

theorem StartsWithLetter.joinWith {first : String} (starts : StartsWithLetter first)
    (separator : String) (rest : List String) :
    StartsWithLetter (Text.joinWith separator (first :: rest)) := by
  cases rest with
  | nil => exact starts
  | cons second others => exact (starts.append separator).append _

theorem StartsWithLetter.join {first : String} (starts : StartsWithLetter first)
    (rest : List String) : StartsWithLetter (join (first :: rest)) := by
  rw [ModulePath.join, List.filter_cons_of_pos (by simpa using starts.ne_empty)]
  exact starts.joinWith _ _

theorem startsWithLetter_ofComponents (names : List String) :
    StartsWithLetter (ofComponents names) := by
  have binary : StartsWithLetter "bin" := rfl
  have library : StartsWithLetter "crate" := rfl
  unfold ofComponents
  split
  · exact rfl
  · exact binary.join _
  · exact library
  · exact library.joinWith _ _

theorem startsWithLetter_ofFile (path : String) : StartsWithLetter (ofFile path) := by
  unfold ofFile
  split <;> exact startsWithLetter_ofComponents _

theorem handedOn_startsWithLetter : Rust.HandedOn ProperName StartsWithLetter :=
  fun _ name starts _ => starts.join [name]

end Letters

section Extracted

open Resolver Snapshot

variable {sizeLimit : Int} {root : String} {files : List (String × String)}

theorem startsWithLetter_extracted {name : String}
    (registered : (ofSnapshot (Extraction.snapshotOf sizeLimit root files)).isRegistered name) :
    StartsWithLetter name := by
  obtain ⟨unit, member, type, typeMember, rfl⟩ := registered_extracted registered
  obtain ⟨file, _, read, _⟩ := Extraction.mem_unitsOf member
  exact Rust.sourceUnitAt_named handedOn_startsWithLetter (startsWithLetter_ofFile _) read type
    typeMember

theorem joined_graphOf (snapshot : Snapshot) : (graphOf snapshot).Joined := by
  intro edge member
  obtain ⟨source, target⟩ := connects_of_mem_edgesOf (mem_edgesOf_of_mem_edges member)
  exact ⟨mem_nodes.mpr (mem_keys_of_isRegistered source),
    mem_nodes.mpr (mem_keys_of_isRegistered target)⟩

/-- The graph of an extracted snapshot without duplicates has usable ids only, and in every mode it
is drawn exactly when the types that the mode draws have ids of their own. Otherwise two of these
types are named, and legible names never lead there. -/
theorem extracted_graph_drawn (sizeLimit : Int) (root : String) (files : List (String × String)) :
    let snapshot := Extraction.snapshotOf sizeLimit root files
    snapshot.duplicates = [] →
      ∃ graph, buildGraph snapshot false = .ok graph ∧
        (∀ node ∈ graph.nodes, sanitizeId node ≠ "") ∧
        ∀ mode : Mode,
          ((∃ markup, render graph mode (some snapshot) = .ok markup) ↔
            OwnIds (mode.view graph).nodes) ∧
          (∀ failure, render graph mode (some snapshot) = .error failure →
            Clash (mode.view graph).nodes failure) ∧
          ((∀ node ∈ (mode.view graph).nodes, Legible node) →
            ∃ markup, render graph mode (some snapshot) = .ok markup) := by
  intro snapshot unique
  have starts : ∀ node ∈ (graphOf snapshot).nodes, StartsWithLetter node := by
    intro node member
    exact startsWithLetter_extracted (mem_keys_iff_isSome.mp (mem_nodes.mp member))
  have filled : ∀ node ∈ (graphOf snapshot).nodes, sanitizeId node ≠ "" :=
    fun node member => sanitizeId_ne_empty (starts node member)
  refine ⟨graphOf snapshot, buildGraph_eq_graphOf (.inl unique), filled, ?_⟩
  intro mode
  have decides := render_decides (joined_graphOf snapshot) filled mode (some snapshot)
  refine ⟨decides.ok_iff, fun failure => decides.clash, ?_⟩
  intro legible
  refine decides.ok_iff.mpr (ownIds_of_legible ?_ legible)
  exact fun node member => starts node (view_nodes_subset _ mode member)

def draftFiles : List (String × String) :=
  [("src/lib.rs", "mod shelf; struct Page;" ++
      " struct _Draft \x7b first_page: Page, on: shelf::Page \x7d"),
    ("src/shelf.rs", "pub struct Page;")]

theorem drafts_drawn :
    let drafts := Extraction.snapshotOf 0 "" draftFiles
    drafts.duplicates = [] ∧
      (buildGraph drafts false).toOption.map Graph.nodes =
        some ["crate::Page", "crate::_Draft", "crate::shelf::Page"] ∧
      ∃ graph, buildGraph drafts false = .ok graph ∧ (∀ node ∈ graph.nodes, Legible node) ∧
        ∀ mode, ∃ markup, render graph mode (some drafts) = .ok markup := by
  intro drafts
  have facts : drafts.duplicates = [] ∧
      (buildGraph drafts false).toOption.map Graph.nodes =
        some ["crate::Page", "crate::_Draft", "crate::shelf::Page"] ∧
      ∀ name ∈ ["crate::Page", "crate::_Draft", "crate::shelf::Page"], Legible name := by
    decide +kernel
  obtain ⟨unique, nodes, legible⟩ := facts
  obtain ⟨graph, built, _, drawn⟩ := extracted_graph_drawn 0 "" draftFiles unique
  have drawnNodes : graph.nodes = ["crate::Page", "crate::_Draft", "crate::shelf::Page"] := by
    rw [built] at nodes
    exact Option.some.inj nodes
  have legibleNodes : ∀ node ∈ graph.nodes, Legible node := by
    rw [drawnNodes]
    exact legible
  refine ⟨unique, nodes, graph, built, legibleNodes, ?_⟩
  intro mode
  exact (drawn mode).2.2 fun node member => legibleNodes node (view_nodes_subset graph mode member)

def twoFoos : Snapshot :=
  Extraction.snapshotOf 0 "" [("src/lib.rs", "struct Foo; struct Foo_;")]

def drawing (snapshot : Snapshot) (mode : Mode) : Except Failure String := do
  let graph ← buildGraph snapshot false
  render graph mode (some snapshot)

/-- Two types whose names differ in an underscore at their end share an id. -/
theorem twoFoos_not_drawn :
    twoFoos.duplicates = [] ∧ keys twoFoos.registry = ["crate::Foo", "crate::Foo_"] ∧
      drawing twoFoos .classes = .error
        (.markup "Types crate::Foo and crate::Foo_ both map to diagram id crate__Foo") := by
  decide +kernel

end Extracted

end CrateAtlas.Diagram
