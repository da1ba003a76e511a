import CrateAtlas.Proofs.Diagram.Render

/-!
Which graphs are drawn. Main statement: nodes get their ids exactly when each of them has an id of
its own and every edge joins nodes, and once they have their ids no line of a diagram fails.
-/

namespace CrateAtlas.Diagram

open OrderedMap

section Ids

variable {graph : Graph} {ids : List (String × String)}

theorem ownIds_of_assigned (assigned : assignIds graph = .ok ids) : OwnIds graph.nodes := by
  have none : OwnIds (keys ([] : List (String × String))) := by simp [OwnIds]
  have given := (assignIds_eq_ok.mp assigned).1
  have decides := nodeIds_decides none (by simp) (filled_of_nodeIds given)
  exact decides.ok_iff.mp ⟨ids, given⟩

theorem joined_of_assigned (assigned : assignIds graph = .ok ids) : graph.Joined := by
  have checked := checkEdges_eq_ok.mp (assignIds_eq_ok.mp assigned).2
  intro edge member
  obtain ⟨source, target⟩ := checked edge member
  exact ⟨(mem_keys_assignIds assigned).mp source, (mem_keys_assignIds assigned).mp target⟩

theorem exists_assigned_iff :
    (∃ ids, assignIds graph = .ok ids) ↔
      (∀ node ∈ graph.nodes, sanitizeId node ≠ "") ∧ OwnIds graph.nodes ∧ graph.Joined := by
  constructor
  · rintro ⟨ids, assigned⟩
    exact ⟨filled_of_nodeIds (assignIds_eq_ok.mp assigned).1, ownIds_of_assigned assigned,
      joined_of_assigned assigned⟩
  · rintro ⟨filled, own, joined⟩
    exact (assignIds_decides joined filled).ok_iff.mpr own

theorem get?_assigned (assigned : assignIds graph = .ok ids) {node id : String} :
    get? node ids = some id ↔ node ∈ graph.nodes ∧ id = sanitizeId node := by
  have spelled := spelled_of_nodeIds (by simp) (assignIds_eq_ok.mp assigned).1
  rw [← mem_keys_assignIds assigned]
  constructor
  · intro found
    exact ⟨mem_keys_iff.mpr ⟨id, found⟩, spelled _ (mem_of_get? found)⟩
  · rintro ⟨member, rfl⟩
    obtain ⟨id, found⟩ := mem_keys_iff.mp member
    rw [found, ← spelled _ (mem_of_get? found)]

end Ids

section Drawn

variable {graph : Graph} {mode : Mode} {snapshot : Option Snapshot}

theorem assigned_of_drawn {markup : String} (other : mode ≠ .connections)
    (drawn : render graph mode snapshot = .ok markup) : ∃ ids, assignIds graph = .ok ids := by
  cases mode with
  | connections => exact absurd rfl other
  | classes =>
      obtain ⟨ids, assigned, _⟩ := bind_eq_ok.mp drawn
      exact ⟨ids, assigned⟩
  | state =>
      obtain ⟨ids, assigned, _⟩ := bind_eq_ok.mp drawn
      exact ⟨ids, assigned⟩
  | entity =>
      obtain ⟨ids, assigned, _⟩ := bind_eq_ok.mp drawn
      exact ⟨ids, assigned⟩

theorem drawn_of_assigned (assigned : ∃ ids, assignIds graph = .ok ids) (mode : Mode)
    (snapshot : Option Snapshot) : ∃ markup, render graph mode snapshot = .ok markup := by
  obtain ⟨filled, own, joined⟩ := exists_assigned_iff.mp assigned
  refine (render_decides joined filled mode snapshot).ok_iff.mpr ?_
  have shown := view_nodes_subset graph mode
  exact fun first firstMember second secondMember =>
    own first (shown firstMember) second (shown secondMember)

/-- Nodes get their ids exactly when no id is empty or shared and every edge joins nodes. The ids then
tell the nodes apart, and nothing else in a diagram can fail; only a connections diagram, which
leaves out nodes without edges, may be drawn of other graphs as well. -/
theorem drawn_iff_assigned (graph : Graph) :
    ((∃ ids, assignIds graph = .ok ids) ↔
      (∀ node ∈ graph.nodes, sanitizeId node ≠ "") ∧
        (∀ first ∈ graph.nodes, ∀ second ∈ graph.nodes,
          first ≠ second → sanitizeId first ≠ sanitizeId second) ∧
        ∀ edge ∈ graph.edges, edge.source ∈ graph.nodes ∧ edge.target ∈ graph.nodes) ∧
    (∀ ids, assignIds graph = .ok ids →
      (∀ node id, get? node ids = some id ↔ node ∈ graph.nodes ∧ id = sanitizeId node) ∧
      ∀ first second id, get? first ids = some id → get? second ids = some id → first = second) ∧
    (∀ mode snapshot, mode ≠ .connections →
      ((∃ markup, render graph mode snapshot = .ok markup) ↔ ∃ ids, assignIds graph = .ok ids)) ∧
    ((∃ ids, assignIds graph = .ok ids) →
      ∀ snapshot, ∃ markup, render graph .connections snapshot = .ok markup) := by
  refine ⟨?_, ?_, ?_, fun assigned => drawn_of_assigned assigned .connections⟩
  · rw [exists_assigned_iff]
    refine and_congr_right' (and_congr_left' ?_)
    exact forall₄_congr fun first _ second _ => not_imp_not.symm
  · intro ids assigned
    refine ⟨fun node id => get?_assigned assigned, ?_⟩
    intro first second id firstFound secondFound
    obtain ⟨firstMember, firstId⟩ := (get?_assigned assigned).mp firstFound
    obtain ⟨secondMember, secondId⟩ := (get?_assigned assigned).mp secondFound
    exact ownIds_of_assigned assigned first firstMember second secondMember
      (firstId.symm.trans secondId)
  · intro mode snapshot other
    constructor
    · rintro ⟨markup, drawn⟩
      exact assigned_of_drawn other drawn
    · exact fun assigned => drawn_of_assigned assigned mode snapshot

-- Two nodes share an id, and only the connections diagram leaves both out.
example :
    let graph : Graph :=
      { nodes := ["dock.Keel", "dock/Keel"], edges := [], unresolvedCalls := 0, duplicates := [] }
    (assignIds graph).isOk = false ∧ (render graph .entity none).isOk = false ∧
      (render graph .connections none).isOk = true := by
  decide +kernel

end Drawn

def berth : Graph :=
  { nodes := ["dock::Hull", "dock::Keel"]
    edges :=
      [{ source := "dock::Hull", target := "dock::Keel", kind := .contains, label := "keel"
         cardinality := some .one }]
    unresolvedCalls := 0, duplicates := [] }

theorem drawn_iff_assigned_berth :
    (∃ ids, assignIds berth = .ok ids ∧ get? "dock::Keel" ids = some "dock__Keel") ∧
      ∀ mode snapshot, ∃ markup, render berth mode snapshot = .ok markup := by
  obtain ⟨assignable, ids, drawn, connections⟩ := drawn_iff_assigned berth
  have conditions : (∀ node ∈ berth.nodes, sanitizeId node ≠ "") ∧
      (∀ first ∈ berth.nodes, ∀ second ∈ berth.nodes,
        first ≠ second → sanitizeId first ≠ sanitizeId second) ∧
      ∀ edge ∈ berth.edges, edge.source ∈ berth.nodes ∧ edge.target ∈ berth.nodes := by
    decide +kernel
  obtain ⟨given, assigned⟩ := assignable.mpr conditions
  constructor
  · refine ⟨given, assigned, ?_⟩
    rw [(ids given assigned).1]
    decide +kernel
  · intro mode snapshot
    by_cases same : mode = .connections
    · subst mode
      exact connections ⟨given, assigned⟩ snapshot
    · exact (drawn mode snapshot same).mpr ⟨given, assigned⟩

end CrateAtlas.Diagram
