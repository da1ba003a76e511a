import CrateAtlas.Graph.Focus
import CrateAtlas.Proofs.Maps
import Mathlib.Data.List.Perm.Subperm

/-!
Focused graphs. Main statement: focusing keeps the nodes that a path of bounded length joins to the
focus and the edges between them, and focusing a second time narrows the bound.
-/

namespace CrateAtlas.Graph

open OrderedMap

def Adjacent (graph : Graph) (node next : String) : Prop :=
  ∃ edge ∈ graph.edges,
    edge.source = node ∧ edge.target = next ∨ edge.target = node ∧ edge.source = next

/-- A walk along edges in either direction, by the number of its edges. -/
inductive Walk (graph : Graph) (origin : String) : Nat → String → Prop where
  | here : Walk graph origin 0 origin
  | step {length : Nat} {node next : String} (front : Walk graph origin length node)
      (last : graph.Adjacent node next) : Walk graph origin (length + 1) next

/-- A walk that meets no node twice, by the nodes it has left behind. -/
inductive Path (graph : Graph) (origin : String) : List String → String → Prop where
  | here : Path graph origin [] origin
  | step {visited : List String} {node next : String} (front : Path graph origin visited node)
      (last : graph.Adjacent node next) (unseen : next ∉ node :: visited) :
      Path graph origin (node :: visited) next

def Near (graph : Graph) (origin : String) (depth : Nat) (node : String) : Prop :=
  ∃ length ≤ depth, graph.Walk origin length node

section Walks

variable {graph : Graph} {origin start next node : String} {length depth : Nat}

theorem Walk.cons (first : graph.Adjacent start next) (walk : graph.Walk next length node) :
    graph.Walk start (length + 1) node := by
  induction walk with
  | here => exact .step .here first
  | step _ last ih => exact .step ih last

theorem Walk.uncons (walk : graph.Walk start (length + 1) node) :
    ∃ next, graph.Adjacent start next ∧ graph.Walk next length node := by
  induction length generalizing node with
  | zero =>
      cases walk with
      | step front last =>
          cases front
          exact ⟨node, last, .here⟩
  | succ length ih =>
      cases walk with
      | step front last =>
          obtain ⟨next, first, rest⟩ := ih front
          exact ⟨next, first, .step rest last⟩

theorem near_zero : graph.Near start 0 node ↔ start = node := by
  constructor
  · rintro ⟨length, bound, walk⟩
    obtain rfl : length = 0 := by omega
    cases walk
    rfl
  · rintro rfl
    exact ⟨0, le_rfl, .here⟩

theorem near_succ :
    graph.Near start (depth + 1) node ↔
      start = node ∨ ∃ next, graph.Adjacent start next ∧ graph.Near next depth node := by
  constructor
  · rintro ⟨length, bound, walk⟩
    cases length with
    | zero =>
        cases walk
        exact .inl rfl
    | succ length =>
        obtain ⟨next, first, rest⟩ := walk.uncons
        exact .inr ⟨next, first, length, by omega, rest⟩
  · rintro (rfl | ⟨next, first, length, bound, rest⟩)
    · exact ⟨0, by omega, .here⟩
    · exact ⟨length + 1, by omega, rest.cons first⟩

theorem Near.mono {further : Nat} (near : graph.Near start depth node) (bound : depth ≤ further) :
    graph.Near start further node := by
  obtain ⟨length, within, walk⟩ := near
  exact ⟨length, by omega, walk⟩

theorem near_self (depth : Nat) : graph.Near origin depth origin :=
  ⟨0, Nat.zero_le depth, .here⟩

theorem Path.walk {visited : List String} (path : graph.Path origin visited node) :
    graph.Walk origin visited.length node := by
  induction path with
  | here => exact .here
  | step _ last _ ih => exact .step ih last

theorem Path.exists_part {visited : List String} (path : graph.Path origin visited node)
    (met : next ∈ node :: visited) :
    ∃ part, graph.Path origin part next ∧ part.length ≤ visited.length := by
  induction path with
  | here =>
      obtain rfl := List.mem_singleton.mp met
      exact ⟨[], .here, le_rfl⟩
  | @step visited node last front adjacent unseen ih =>
      rcases List.mem_cons.mp met with rfl | earlier
      · exact ⟨node :: visited, .step front adjacent unseen, le_rfl⟩
      · obtain ⟨part, path, shorter⟩ := ih earlier
        exact ⟨part, path, by rw [List.length_cons]; omega⟩

theorem Walk.exists_path (walk : graph.Walk origin length node) :
    ∃ visited, graph.Path origin visited node ∧ visited.length ≤ length := by
  induction walk with
  | here => exact ⟨[], .here, le_rfl⟩
  | @step length node next front last ih =>
      obtain ⟨visited, path, shorter⟩ := ih
      by_cases met : next ∈ node :: visited
      · obtain ⟨part, shortcut, within⟩ := path.exists_part met
        exact ⟨part, shortcut, by omega⟩
      · exact ⟨node :: visited, .step path last met, by rw [List.length_cons]; omega⟩

theorem near_iff_path :
    graph.Near origin depth node ↔
      ∃ visited, graph.Path origin visited node ∧ visited.length ≤ depth := by
  constructor
  · rintro ⟨length, bound, walk⟩
    obtain ⟨visited, path, shorter⟩ := walk.exists_path
    exact ⟨visited, path, shorter.trans bound⟩
  · rintro ⟨visited, path, bound⟩
    exact ⟨visited.length, bound, path.walk⟩

theorem Joined.near_mem (joined : graph.Joined) (inside : origin ∈ graph.nodes)
    (near : graph.Near origin depth node) : node ∈ graph.nodes := by
  obtain ⟨length, _, walk⟩ := near
  cases walk with
  | here => exact inside
  | step _ last =>
      obtain ⟨edge, member, ⟨_, rfl⟩ | ⟨_, rfl⟩⟩ := last
      · exact (joined edge member).2
      · exact (joined edge member).1

end Walks

section Spread

variable {graph : Graph} {kept frontier : List String} {node next : String} {depth : Nat}

theorem mem_neighbours : next ∈ graph.neighbours node ↔ graph.Adjacent node next := by
  simp only [neighbours, List.mem_flatMap, List.mem_append, Adjacent]
  constructor
  · rintro ⟨edge, member, here | here⟩
    · split at here
      · exact ⟨edge, member, .inl ⟨by assumption, (List.mem_singleton.mp here).symm⟩⟩
      · exact absurd here List.not_mem_nil
    · split at here
      · exact ⟨edge, member, .inr ⟨by assumption, (List.mem_singleton.mp here).symm⟩⟩
      · exact absurd here List.not_mem_nil
  · rintro ⟨edge, member, ⟨source, rfl⟩ | ⟨target, rfl⟩⟩
    · exact ⟨edge, member, .inl (by simp [source])⟩
    · exact ⟨edge, member, .inr (by simp [target])⟩

def nextLevel (graph : Graph) (kept frontier : List String) : List String :=
  distinct ((frontier.flatMap graph.neighbours).filter fun node => !kept.contains node)

theorem mem_nextLevel :
    node ∈ graph.nextLevel kept frontier ↔
      (∃ start ∈ frontier, graph.Adjacent start node) ∧ node ∉ kept := by
  simp only [nextLevel, mem_distinct, List.mem_filter, List.mem_flatMap, mem_neighbours,
    Bool.not_eq_true', List.contains_eq_mem, decide_eq_false_iff_not]

theorem spread_nil (depth : Nat) : graph.spread depth kept [] = kept := by
  cases depth <;> rfl

theorem spread_succ :
    graph.spread (depth + 1) kept frontier =
      graph.spread depth (kept ++ graph.nextLevel kept frontier)
        (graph.nextLevel kept frontier) := by
  cases frontier with
  | nil => simp [nextLevel, distinct, spread_nil]
  | cons => rfl

/-- Kept nodes of which only those on the frontier can have neighbours that are not kept. -/
structure Front (graph : Graph) (kept frontier : List String) : Prop where
  subset : frontier ⊆ kept
  closed : ∀ node ∈ kept, node ∉ frontier → ∀ next, graph.Adjacent node next → next ∈ kept

theorem front_singleton (graph : Graph) (origin : String) : graph.Front [origin] [origin] where
  subset := List.Subset.refl [origin]
  closed _ member outside := absurd member outside

theorem Front.mem_grown (front : graph.Front kept frontier) :
    node ∈ kept ++ graph.nextLevel kept frontier ↔
      node ∈ kept ∨ ∃ start ∈ kept, graph.Adjacent start node := by
  rw [List.mem_append, mem_nextLevel]
  constructor
  · rintro (old | ⟨⟨start, member, first⟩, _⟩)
    · exact .inl old
    · exact .inr ⟨start, front.subset member, first⟩
  · rintro (old | ⟨start, member, first⟩)
    · exact .inl old
    · by_cases old : node ∈ kept
      · exact .inl old
      · by_cases outer : start ∈ frontier
        · exact .inr ⟨⟨start, outer, first⟩, old⟩
        · exact .inl (front.closed start member outer node first)

theorem Front.grow (front : graph.Front kept frontier) :
    graph.Front (kept ++ graph.nextLevel kept frontier) (graph.nextLevel kept frontier) where
  subset := List.subset_append_right _ _
  closed start member inner next first := by
    rcases List.mem_append.mp member with old | new
    · exact front.mem_grown.mpr (.inr ⟨start, old, first⟩)
    · exact absurd new inner

/-- Each level reaches one edge further than the kept nodes do. -/
theorem Front.mem_spread (front : graph.Front kept frontier) :
    node ∈ graph.spread depth kept frontier ↔ ∃ start ∈ kept, graph.Near start depth node := by
  induction depth generalizing kept frontier with
  | zero =>
      simp only [spread, near_zero]
      constructor
      · intro member
        exact ⟨node, member, rfl⟩
      · rintro ⟨start, member, rfl⟩
        exact member
  | succ depth ih =>
      rw [spread_succ, ih front.grow]
      constructor
      · rintro ⟨start, member, near⟩
        rcases front.mem_grown.mp member with old | ⟨before, old, first⟩
        · exact ⟨start, old, near.mono (Nat.le_succ depth)⟩
        · exact ⟨before, old, near_succ.mpr (.inr ⟨start, first, near⟩)⟩
      · rintro ⟨start, member, near⟩
        rcases near_succ.mp near with rfl | ⟨next, first, rest⟩
        · exact ⟨start, front.mem_grown.mpr (.inl member), near_self depth⟩
        · exact ⟨next, front.mem_grown.mpr (.inr ⟨start, member, first⟩), rest⟩

theorem mem_spread_singleton {origin : String} :
    node ∈ graph.spread depth [origin] [origin] ↔ graph.Near origin depth node := by
  rw [(front_singleton graph origin).mem_spread]
  simp only [List.mem_singleton, exists_eq_left]

instance (graph : Graph) (origin : String) (depth : Nat) (node : String) :
    Decidable (graph.Near origin depth node) :=
  decidable_of_iff (node ∈ graph.spread depth [origin] [origin]) mem_spread_singleton

end Spread

section Levels

variable {graph : Graph} {kept frontier : List String} {origin : String} {depth : Nat}

def endpoints (graph : Graph) : List String :=
  graph.edges.flatMap fun edge => [edge.source, edge.target]

theorem length_endpoints (graph : Graph) : graph.endpoints.length = 2 * graph.edges.length := by
  rw [endpoints]
  induction graph.edges with
  | nil => rfl
  | cons edge rest ih =>
      rw [List.flatMap_cons, List.length_append, ih, List.length_cons, List.length_cons,
        List.length_cons, List.length_nil]
      omega

theorem nextLevel_subset : graph.nextLevel kept frontier ⊆ graph.endpoints := by
  intro node member
  obtain ⟨⟨start, _, edge, present, ⟨_, rfl⟩ | ⟨_, rfl⟩⟩, _⟩ := mem_nextLevel.mp member
  · exact List.mem_flatMap.mpr ⟨edge, present, by simp⟩
  · exact List.mem_flatMap.mpr ⟨edge, present, by simp⟩

theorem nodup_grown (distinct : kept.Nodup) :
    (kept ++ graph.nextLevel kept frontier).Nodup := by
  refine List.nodup_append.mpr ⟨distinct, nodup_distinct _, ?_⟩
  rintro old oldMember new newMember rfl
  exact (mem_nextLevel.mp newMember).2 oldMember

/-- No level is left to add once there are as many levels and kept nodes as the edges have ends. -/
theorem spread_add (distinct : kept.Nodup) (known : kept ⊆ origin :: graph.endpoints)
    (enough : 2 * graph.edges.length + 1 ≤ kept.length + depth) (more : Nat) :
    graph.spread (depth + more) kept frontier = graph.spread depth kept frontier := by
  -- Every level that adds a node uses up one of the ends.
  induction depth generalizing kept frontier with
  | zero =>
      have grown : (kept ++ graph.nextLevel kept frontier).Nodup := nodup_grown distinct
      have inside : kept ++ graph.nextLevel kept frontier ⊆ origin :: graph.endpoints :=
        List.append_subset.mpr ⟨known, List.subset_cons_of_subset origin nextLevel_subset⟩
      have bound := (List.subperm_of_subset grown inside).length_le
      rw [List.length_append, List.length_cons, length_endpoints] at bound
      have none : graph.nextLevel kept frontier = [] := List.eq_nil_of_length_eq_zero (by omega)
      cases more with
      | zero => rfl
      | succ more => rw [Nat.zero_add, spread_succ, none, List.append_nil, spread_nil, spread]
  | succ depth ih =>
      rw [Nat.add_right_comm, spread_succ, spread_succ]
      by_cases none : graph.nextLevel kept frontier = []
      · rw [none, spread_nil, spread_nil]
      · have positive := List.length_pos_iff.mpr none
        refine ih (nodup_grown distinct) ?_ ?_
        · exact List.append_subset.mpr
            ⟨known, List.subset_cons_of_subset origin nextLevel_subset⟩
        · rw [List.length_append]
          omega

theorem spread_levels (inside : origin ∈ graph.nodes) :
    graph.spread (min depth (graph.nodes.length + 2 * graph.edges.length)) [origin] [origin] =
      graph.spread depth [origin] [origin] := by
  have positive := List.length_pos_of_mem inside
  rcases Nat.le_total depth (graph.nodes.length + 2 * graph.edges.length) with few | many
  · rw [Nat.min_eq_left few]
  · obtain ⟨more, rfl⟩ := Nat.exists_eq_add_of_le many
    have known : [origin] ⊆ origin :: graph.endpoints :=
      List.cons_subset.mpr ⟨List.mem_cons_self, List.nil_subset _⟩
    rw [Nat.min_eq_right many]
    symm
    apply spread_add (List.nodup_singleton origin) known
    rw [List.length_singleton]
    omega

end Levels

section Focused

variable {graph : Graph} {name focus node : String} {depth further : Nat}

/-- The part of a graph within a number of edges of a node. -/
def neighbourhood (graph : Graph) (focus : String) (depth : Nat) : Graph :=
  { graph with
    nodes := graph.nodes.filter fun node => graph.Near focus depth node
    edges := graph.edges.filter fun edge =>
      graph.Near focus depth edge.source ∧ graph.Near focus depth edge.target }

theorem findNode_cases (found : graph.findNode name = .ok focus) :
    name ∈ graph.nodes ∧ focus = name ∨
      name ∉ graph.nodes ∧
        (graph.nodes.filter fun node => ModulePath.lastSegment node = name) = [focus] := by
  rw [findNode] at found
  split at found
  · rename_i present
    exact .inl ⟨List.contains_iff_mem.mp present, (Except.ok.inj found).symm⟩
  · rename_i absent
    rw [List.contains_iff_mem] at absent
    split at found
    · simp at found
    · rename_i only matched
      obtain rfl := Except.ok.inj found
      exact .inr ⟨absent, matched⟩
    · simp at found

theorem mem_of_findNode (found : graph.findNode name = .ok focus) : focus ∈ graph.nodes := by
  rcases findNode_cases found with ⟨present, rfl⟩ | ⟨_, only⟩
  · exact present
  · exact List.mem_of_mem_filter (only ▸ List.mem_singleton_self focus)

theorem focused_eq (found : graph.findNode name = .ok focus) (depth : Int) :
    graph.focused name depth = .ok (graph.neighbourhood focus depth.toNat) := by
  have kept : ∀ node, (graph.spread
      (min depth.toNat (graph.nodes.length + 2 * graph.edges.length)) [focus] [focus]).contains
        node = decide (graph.Near focus depth.toNat node) := by
    intro node
    rw [spread_levels (mem_of_findNode found), List.contains_eq_mem]
    exact decide_eq_decide.mpr mem_spread_singleton
  rw [focused, found]
  refine congrArg Except.ok ?_
  rw [neighbourhood, Graph.mk.injEq]
  refine ⟨List.filter_congr fun node _ => kept node, ?_, rfl, rfl⟩
  refine List.filter_congr fun edge _ => ?_
  rw [kept, kept, Bool.decide_and]

theorem findNode_neighbourhood (found : graph.findNode name = .ok focus) (depth : Nat) :
    (graph.neighbourhood focus depth).findNode name = .ok focus := by
  have inside : focus ∈ (graph.neighbourhood focus depth).nodes :=
    List.mem_filter.mpr ⟨mem_of_findNode found, decide_eq_true (near_self depth)⟩
  rcases findNode_cases found with ⟨_, rfl⟩ | ⟨absent, only⟩
  · exact if_pos (List.contains_iff_mem.mpr inside)
  · have stillAbsent : name ∉ (graph.neighbourhood focus depth).nodes :=
      fun member => absent (List.mem_of_mem_filter member)
    have stillOnly : ((graph.neighbourhood focus depth).nodes.filter fun node =>
        ModulePath.lastSegment node = name) = [focus] := by
      rw [neighbourhood, List.filter_comm, only,
        List.filter_singleton, decide_eq_true (near_self depth)]
      rfl
    rw [findNode, if_neg (by simpa using stillAbsent), stillOnly]

theorem Joined.mem_neighbourhood (joined : graph.Joined) (inside : focus ∈ graph.nodes) :
    node ∈ (graph.neighbourhood focus depth).nodes ↔ graph.Near focus depth node := by
  rw [neighbourhood, List.mem_filter, decide_eq_true_iff, and_iff_right_iff_imp]
  exact joined.near_mem inside

theorem Walk.of_neighbourhood {length : Nat}
    (walk : (graph.neighbourhood focus depth).Walk focus length node) :
    graph.Walk focus length node ∧ graph.Near focus depth node := by
  induction walk with
  | here => exact ⟨.here, near_self depth⟩
  | step front last ih =>
      obtain ⟨edge, member, ends⟩ := last
      obtain ⟨present, near⟩ := List.mem_filter.mp member
      obtain ⟨source, target⟩ := of_decide_eq_true near
      refine ⟨.step ih.1 ⟨edge, present, ends⟩, ?_⟩
      rcases ends with ⟨_, rfl⟩ | ⟨_, rfl⟩
      · exact target
      · exact source

theorem Walk.to_neighbourhood {length : Nat} (walk : graph.Walk focus length node)
    (bound : length ≤ depth) : (graph.neighbourhood focus depth).Walk focus length node := by
  induction walk with
  | here => exact .here
  | @step length node next front last ih =>
      have before : graph.Near focus depth node := ⟨length, by omega, front⟩
      have after : graph.Near focus depth next := ⟨length + 1, bound, .step front last⟩
      obtain ⟨edge, member, ends⟩ := last
      refine .step (ih (by omega)) ⟨edge, List.mem_filter.mpr ⟨member, decide_eq_true ?_⟩, ends⟩
      rcases ends with ⟨rfl, rfl⟩ | ⟨rfl, rfl⟩
      · exact ⟨before, after⟩
      · exact ⟨after, before⟩

theorem near_neighbourhood :
    (graph.neighbourhood focus depth).Near focus further node ∧ graph.Near focus depth node ↔
      graph.Near focus (min depth further) node := by
  constructor
  · rintro ⟨⟨length, bound, walk⟩, near⟩
    rcases Nat.le_total depth further with narrow | wide
    · rwa [Nat.min_eq_left narrow]
    · rw [Nat.min_eq_right wide]
      exact ⟨length, bound, walk.of_neighbourhood.1⟩
  · rintro ⟨length, bound, walk⟩
    have within : length ≤ depth := by omega
    exact ⟨⟨length, by omega, walk.to_neighbourhood within⟩, length, within, walk⟩

theorem filter_filter_eq {first second both : α → Prop} [DecidablePred first]
    [DecidablePred second] [DecidablePred both] (list : List α)
    (same : ∀ value, second value ∧ first value ↔ both value) :
    (list.filter first).filter second = list.filter both := by
  rw [List.filter_filter]
  refine List.filter_congr fun value _ => ?_
  rw [← Bool.decide_and]
  exact decide_eq_decide.mpr (same value)

theorem neighbourhood_neighbourhood :
    (graph.neighbourhood focus depth).neighbourhood focus further =
      graph.neighbourhood focus (min depth further) := by
  rw [neighbourhood, Graph.mk.injEq]
  refine ⟨filter_filter_eq graph.nodes fun node => near_neighbourhood, ?_, rfl, rfl⟩
  refine filter_filter_eq graph.edges fun edge => ?_
  exact and_and_and_comm.trans (and_congr near_neighbourhood near_neighbourhood)

/-- Focusing keeps the nodes that a path of the given number of edges joins to the focus, in their
order, and the edges between kept nodes. A second focus on the same node keeps what the smaller bound allows. -/
theorem focused_keeps_near (joined : graph.Joined) (found : graph.findNode name = .ok focus)
    (depth : Int) :
    ∃ view, graph.focused name depth = .ok view ∧
      view.nodes = graph.nodes.filter (fun node => graph.Near focus (max 0 depth).toNat node) ∧
      (∀ node, node ∈ view.nodes ↔
        ∃ visited, graph.Path focus visited node ∧ visited.length ≤ (max 0 depth).toNat) ∧
      view.edges = graph.edges.filter (fun edge =>
        edge.source ∈ view.nodes ∧ edge.target ∈ view.nodes) ∧
      view.unresolvedCalls = graph.unresolvedCalls ∧ view.duplicates = graph.duplicates ∧
      view.Joined ∧
      ∀ again : Int,
        view.focused name again = graph.focused name (min (max 0 depth) (max 0 again)) := by
  have bound : (max 0 depth).toNat = depth.toNat := by omega
  have kept : ∀ node, node ∈ (graph.neighbourhood focus depth.toNat).nodes ↔
      graph.Near focus depth.toNat node :=
    fun node => joined.mem_neighbourhood (mem_of_findNode found)
  refine ⟨graph.neighbourhood focus depth.toNat, focused_eq found depth, ?_, ?_, ?_, rfl, rfl,
    ?_, ?_⟩
  · rw [bound]
    rfl
  · intro node
    rw [bound, kept, near_iff_path]
  · simp only [kept]
    rfl
  · intro edge member
    obtain ⟨_, near⟩ := List.mem_filter.mp member
    obtain ⟨source, target⟩ := of_decide_eq_true near
    exact ⟨(kept _).mpr source, (kept _).mpr target⟩
  · intro again
    have narrower : (min (max 0 depth) (max 0 again)).toNat = min depth.toNat again.toNat := by
      omega
    rw [focused_eq (findNode_neighbourhood found _), focused_eq found, narrower,
      neighbourhood_neighbourhood]

end Focused

def canalEdge (source target : String) (kind : EdgeKind) (label : String) : Edge :=
  { source := source, target := target, kind := kind, label := label
    cardinality := if kind = .contains then some .one else none }

def canal : Graph :=
  { nodes := ["a::Lock", "b::Gate", "c::Boat", "d::Quay", "e::Lock"]
    edges :=
      [canalEdge "a::Lock" "b::Gate" .contains "gate", canalEdge "b::Gate" "a::Lock" .calls "fill",
        canalEdge "b::Gate" "b::Gate" .calls "shut", canalEdge "c::Boat" "b::Gate" .calls "open",
        canalEdge "c::Boat" "d::Quay" .calls "moor"]
    unresolvedCalls := 2, duplicates := ["e::Boat"] }

theorem focused_keeps_near_canal :
    canal.Joined ∧ canal.findNode "Gate" = .ok "b::Gate" ∧
      ∃ view, canal.focused "Gate" 1 = .ok view ∧
        view.nodes = ["a::Lock", "b::Gate", "c::Boat"] ∧
        view.edges.map Edge.label = ["gate", "fill", "shut", "open"] ∧
        ¬canal.Near "b::Gate" 1 "d::Quay" ∧ canal.Near "b::Gate" 2 "d::Quay" ∧
        view.focused "Gate" 3 = .ok view := by
  have joined : canal.Joined := by decide
  have found : canal.findNode "Gate" = .ok "b::Gate" := by decide +kernel
  obtain ⟨view, focused, nodes, -, edges, -, -, -, again⟩ := focused_keeps_near joined found 1
  have near : canal.nodes.filter (fun node => canal.Near "b::Gate" (max 0 1 : Int).toNat node) =
      ["a::Lock", "b::Gate", "c::Boat"] := by decide +kernel
  rw [near] at nodes
  rw [nodes] at edges
  refine ⟨joined, found, view, focused, nodes, ?_, by decide +kernel, by decide +kernel, ?_⟩
  · rw [edges]
    decide +kernel
  · rw [again 3]
    exact focused

end CrateAtlas.Graph
