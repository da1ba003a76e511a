import CrateAtlas.Proofs.Graph.Calls

/-!
What a built graph says. Main statements: its edges are the relations between the types of the
snapshot when no registered name holds a null character, every call is counted or accounted for,
and its nodes and edges are registered, sorted and free of repetitions for any snapshot.
-/

namespace CrateAtlas.Snapshot

open OrderedMap Resolver

section Units

variable {resolver : Resolver} {left right : List SourceUnit}

theorem Site.In.mono (subset : left ⊆ right) {site : Site} (here : site.In left) :
    site.In right :=
  { here with unit := subset here.unit }

theorem GivesBack.mono (subset : left ⊆ right) {target methodName : String}
    (givesBack : GivesBack resolver left target methodName) :
    GivesBack resolver right target methodName :=
  let ⟨unit, member, rest⟩ := givesBack
  ⟨unit, subset member, rest⟩

theorem Relates.mono (subset : left ⊆ right) {source target label : String} {kind : EdgeKind}
    (relates : Relates resolver left source target kind label) :
    Relates resolver right source target kind label := by
  cases relates with
  | contains member declared registered written refers =>
      exact .contains (subset member) declared registered written refers
  | implements member implMember caller written refers other =>
      exact .implements (subset member) implMember caller written refers other
  | calls here joins other => exact .calls (here.mono subset) joins other
  | stateTransition here joins other moves =>
      exact .stateTransition (here.mono subset) joins other
        (moves.imp_right fun givesBack => givesBack.mono subset)

theorem relates_perm (perm : left.Perm right) {source target label : String} {kind : EdgeKind} :
    Relates resolver left source target kind label ↔
      Relates resolver right source target kind label :=
  ⟨Relates.mono perm.subset, Relates.mono perm.symm.subset⟩

theorem Relates.ne {source target label : String} {kind : EdgeKind}
    (relates : Relates resolver left source target kind label) (other : kind ≠ .contains) :
    source ≠ target := by
  cases relates with
  | contains => exact absurd rfl other
  | implements _ _ _ _ _ different => exact different.symm
  | calls _ _ different => exact different.symm
  | stateTransition _ _ different _ => exact different.symm

theorem Relates.calls_of_stateTransition {source target label : String}
    (relates : Relates resolver left source target .stateTransition label) :
    ∃ called, Relates resolver left source target .calls called := by
  cases relates with
  | stateTransition here joins different _ => exact ⟨_, .calls here joins different⟩

end Units

section Graph

variable {snapshot : Snapshot}

def graphOf (snapshot : Snapshot) : Graph :=
  let resolver := ofSnapshot snapshot
  let units := Text.sortBy byFilePath snapshot.units
  { nodes := Text.sortTexts (keys snapshot.registry)
    edges := Text.sortBy Edge.order (Graph.distinctEdges (edgesOf resolver units))
    unresolvedCalls := (unresolvedOf resolver units : Nat)
    duplicates := Text.sortTexts (duplicateNames snapshot) }

theorem buildGraph_eq_graphOf {allowDuplicates : Bool}
    (accepted : snapshot.duplicates = [] ∨ allowDuplicates) :
    buildGraph snapshot allowDuplicates = .ok (graphOf snapshot) := by
  refine if_neg ?_
  rcases accepted with unique | allowed
  · simp [unique, Text.sortTexts, Text.sortBy]
  · simp [allowed]

theorem mem_nodes {name : String} :
    name ∈ (graphOf snapshot).nodes ↔ name ∈ keys snapshot.registry :=
  Text.mem_sortTexts

theorem mem_edgesOf_of_mem_edges {edge : Edge} (member : edge ∈ (graphOf snapshot).edges) :
    edge ∈ edgesOf (ofSnapshot snapshot) (Text.sortBy byFilePath snapshot.units) :=
  Graph.mem_of_mem_distinctEdges ((Text.mem_sortBy Edge.order).mp member)

theorem relates_of_mem_edges {edge : Edge} (member : edge ∈ (graphOf snapshot).edges) :
    Relates (ofSnapshot snapshot) snapshot.units edge.source edge.target edge.kind edge.label :=
  (relates_perm (Text.sortBy_perm byFilePath snapshot.units)).mp
    (relates_of_mem_edgesOf (mem_edgesOf_of_mem_edges member))

theorem mem_keys_of_isRegistered {name : String}
    (registered : (ofSnapshot snapshot).isRegistered name) : name ∈ keys snapshot.registry :=
  mem_keys_iff_isSome.mpr registered

theorem shows_graphOf (proper : ∀ name ∈ keys snapshot.registry, ProperName name)
    {source target label : String} {kind : EdgeKind} :
    Graph.Shows (graphOf snapshot).edges source target kind label ↔
      Relates (ofSnapshot snapshot) snapshot.units source target kind label := by
  have properEdges : ∀ edge ∈ edgesOf (ofSnapshot snapshot)
      (Text.sortBy byFilePath snapshot.units), edge.Proper := by
    intro edge member
    obtain ⟨sourceKnown, targetKnown⟩ := connects_of_mem_edgesOf member
    exact ⟨proper _ (mem_keys_of_isRegistered sourceKnown),
      proper _ (mem_keys_of_isRegistered targetKnown)⟩
  rw [← relates_perm (Text.sortBy_perm byFilePath snapshot.units), ← shows_edgesOf,
    ← Graph.shows_distinctEdges properEdges]
  simp only [Graph.Shows, graphOf, Text.mem_sortBy]

/-- The graph of a snapshot without duplicates shows exactly the relations between its types. It
counts the calls that land nowhere, and every other call stays within its type or is shown. -/
theorem buildGraph_relations (unique : snapshot.duplicates = [])
    (proper : ∀ name ∈ keys snapshot.registry, ProperName name) (allowDuplicates : Bool) :
    ∃ graph, buildGraph snapshot allowDuplicates = .ok graph ∧
      (∀ source target kind label, Graph.Shows graph.edges source target kind label ↔
        Relates (ofSnapshot snapshot) snapshot.units source target kind label) ∧
      graph.unresolvedCalls =
        ((callSites snapshot.units).countP (fun site => site.Lost (ofSnapshot snapshot)) : Nat) +
          ((callSites snapshot.units).countP fun site => site.Misses (ofSnapshot snapshot) : Nat) ∧
      ∀ site ∈ callSites snapshot.units,
        site.Lost (ofSnapshot snapshot) ∨ site.Misses (ofSnapshot snapshot) ∨
          ∃ source target, site.Joins (ofSnapshot snapshot) source target ∧
            (target = source ∨
              Graph.Shows graph.edges source target .calls site.call.method) := by
  refine ⟨graphOf snapshot, buildGraph_eq_graphOf (.inl unique), ?_, ?_, ?_⟩
  · exact fun source target kind label => shows_graphOf proper
  · have perm : (callSites (Text.sortBy byFilePath snapshot.units)).Perm
        (callSites snapshot.units) := (Text.sortBy_perm byFilePath snapshot.units).flatMap_right _
    simp only [graphOf, unresolvedOf_eq, perm.countP_eq]
    rfl
  · intro site member
    refine (site.cases (ofSnapshot snapshot)).imp_right (Or.imp_right ?_)
    rintro ⟨source, target, joins⟩
    refine ⟨source, target, joins, or_iff_not_imp_left.mpr fun other => ?_⟩
    exact (shows_graphOf proper).mpr (.calls (mem_callSites.mp member) joins other)

end Graph

def tillType (name : String) (kind : TypeKind) (fields : List Field) : TypeDefinition :=
  { name := name, qualifiedName := name, kind := kind, visibility := .everywhere
    fields := fields, location := { filePath := "t", startLine := 1, endLine := 1 } }

def openTill (calls : List CallSite) : ImplBlock :=
  { target := "Till", traitName := some "Open"
    location := { filePath := "t", startLine := 1, endLine := 1 }
    methods :=
      [{ name := "open", signature := "fn open()", returnType := none, visibility := .everywhere
         calls := calls, location := { filePath := "t", startLine := 1, endLine := 1 } }] }

def tillUnit : SourceUnit :=
  { filePath := "t", modulePath := "t", imports := []
    types :=
      [tillType "Till" .struct [{ name := "coins", typeText := "Vec<Coin>" }],
        tillType "Coin" .struct [], tillType "Open" .trait []]
    impls :=
      [openTill
        [{ callee := "Coin::new", method := "new", target := none, line := 1 },
          { callee := "a.b", method := "b", target := none, line := 1 }]] }

def tillSnapshot : Snapshot := create "" [tillUnit]

theorem tillSnapshot_proper : ∀ name ∈ keys tillSnapshot.registry, ProperName name := by
  unfold ProperName
  decide +kernel

theorem buildGraph_relations_till :
    tillSnapshot.duplicates = [] ∧
      ∃ graph, buildGraph tillSnapshot false = .ok graph ∧
        graph.edges.map Edge.kind = [.contains, .calls, .stateTransition, .implements] ∧
        graph.unresolvedCalls = 1 ∧
        ∀ source target kind label, Graph.Shows graph.edges source target kind label ↔
          Relates (ofSnapshot tillSnapshot) tillSnapshot.units source target kind label := by
  have unique : tillSnapshot.duplicates = [] := by decide +kernel
  have shown : (graphOf tillSnapshot).edges.map Edge.kind =
      [.contains, .calls, .stateTransition, .implements] ∧
        (graphOf tillSnapshot).unresolvedCalls = 1 := by
    decide +kernel
  obtain ⟨graph, built, relations, -⟩ := buildGraph_relations unique tillSnapshot_proper false
  obtain rfl := Except.ok.inj (built.symm.trans (buildGraph_eq_graphOf (.inl unique)))
  exact ⟨unique, _, built, shown.1, shown.2, relations⟩

/-- The graph of any merged snapshot has its registered names for nodes, and edges between them
in strict order. Only containment has a cardinality or joins a type to itself, and a move into a
new state is shown as a call too, unless a null character in a name blurs two calls. -/
theorem buildGraph_valid (root : String) (units : List SourceUnit) :
    ∃ graph, buildGraph (create root units) true = .ok graph ∧
      Text.Ascending graph.nodes ∧
      (∀ name, name ∈ graph.nodes ↔ name ∈ keys (create root units).registry) ∧
      (∀ edge ∈ graph.edges, edge.source ∈ graph.nodes ∧ edge.target ∈ graph.nodes) ∧
      graph.edges.Pairwise (fun left right => Edge.order left right = .lt) ∧
      graph.edges.Pairwise (fun left right =>
        ¬ (left.source = right.source ∧ left.target = right.target ∧ left.kind = right.kind ∧
          left.label = right.label)) ∧
      (∀ edge ∈ graph.edges, edge.kind ≠ .contains → edge.source ≠ edge.target) ∧
      (∀ edge ∈ graph.edges, edge.cardinality.isSome ↔ edge.kind = .contains) ∧
      ((∀ name ∈ keys (create root units).registry, ProperName name) →
        ∀ edge ∈ graph.edges, edge.kind = .stateTransition →
          ∃ call ∈ graph.edges, call.kind = .calls ∧ call.source = edge.source ∧
            call.target = edge.target) := by
  have increasing := Graph.increasing_distinctEdges
    (edgesOf (ofSnapshot (create root units)) (Text.sortBy byFilePath (create root units).units))
  refine ⟨graphOf (create root units), buildGraph_eq_graphOf (.inr rfl), ?_, fun name => mem_nodes,
    ?_, increasing, ?_, ?_, ?_, ?_⟩
  · exact Text.ascending_sortTexts (ascending_registry root units).nodup
  · intro edge member
    obtain ⟨source, target⟩ := connects_of_mem_edgesOf (mem_edgesOf_of_mem_edges member)
    exact ⟨mem_nodes.mpr (mem_keys_of_isRegistered source),
      mem_nodes.mpr (mem_keys_of_isRegistered target)⟩
  · refine increasing.imp ?_
    rintro left right below ⟨source, target, kind, label⟩
    have same : Edge.order left right = Edge.order right right := by
      simp only [Edge.order, source, target, kind, label]
    have tied : Edge.order right right = .eq := Std.ReflCmp.compare_self
    simp [same, tied] at below
  · exact fun edge member other => (relates_of_mem_edges member).ne other
  · exact fun edge member => cardinality_of_mem_edgesOf (mem_edgesOf_of_mem_edges member)
  · intro proper edge member transition
    have relates := relates_of_mem_edges member
    rw [transition] at relates
    obtain ⟨called, calls⟩ := relates.calls_of_stateTransition
    obtain ⟨call, callMember, source, target, kind, -⟩ := (shows_graphOf proper).mpr calls
    exact ⟨call, callMember, kind, source, target⟩

theorem buildGraph_valid_till :
    ∃ graph, buildGraph tillSnapshot true = .ok graph ∧
      ∃ edge ∈ graph.edges, edge.kind = .stateTransition ∧
        ∃ call ∈ graph.edges, call.kind = .calls ∧ call.source = edge.source ∧
          call.target = edge.target := by
  have shown : ∃ edge ∈ (graphOf tillSnapshot).edges, edge.kind = .stateTransition := by
    decide +kernel
  obtain ⟨graph, built, -, -, -, -, -, -, -, calls⟩ := buildGraph_valid "" [tillUnit]
  obtain rfl := Except.ok.inj (built.symm.trans (buildGraph_eq_graphOf (.inr rfl)))
  obtain ⟨edge, member, transition⟩ := shown
  exact ⟨_, built, edge, member, transition, calls tillSnapshot_proper edge member transition⟩

def blurredUnit : SourceUnit :=
  { filePath := "t", modulePath := "t", imports := []
    types :=
      [tillType "Till" .struct [], tillType "Coin" .struct [], tillType "Coin\x00Roll" .struct []]
    impls :=
      [openTill
        [{ callee := "", method := "Roll\x00new", target := some "Coin", line := 1 },
          { callee := "", method := "new", target := some "Coin\x00Roll", line := 1 }]] }

/-- The second call has the key of the first one and is dropped; the move that it makes stays. -/
theorem blurred_transition_without_call :
    ([blurredUnit].map SourceUnit.filePath).Nodup ∧
      ∃ graph, buildGraph (create "" [blurredUnit]) true = .ok graph ∧
        ∃ edge ∈ graph.edges, edge.kind = .stateTransition ∧
          ∀ call ∈ graph.edges, ¬ (call.kind = .calls ∧ call.source = edge.source ∧
            call.target = edge.target) := by
  refine ⟨by decide, graphOf (create "" [blurredUnit]), buildGraph_eq_graphOf (.inr rfl), ?_⟩
  decide +kernel

end CrateAtlas.Snapshot
