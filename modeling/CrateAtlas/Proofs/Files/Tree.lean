import CrateAtlas.Files.Tree
import CrateAtlas.Proofs.Files.Path
import CrateAtlas.Proofs.Maps
import Mathlib.Logic.Function.Basic

/-!
What a step on a tree does to its files. In a sound tree everything lies in folders; every step
keeps a tree sound, writing and removing change one file, and making folders changes none.
-/

namespace CrateAtlas

def FileNode.text? : FileNode → Option String
  | .file text => some text
  | .folder => none

namespace FileTree

variable {tree after : FileTree} {path above : Path} {node : FileNode} {text : String}

def text? (tree : FileTree) (path : Path) : Option String :=
  (tree.node? path).bind FileNode.text?

/-- A tree in which whatever is there lies in folders all the way from the root. -/
def Sound (tree : FileTree) : Prop :=
  ∀ path node, tree.node? path = some node →
    ∀ above ∈ path.ancestors, tree.node? above = some .folder

theorem text?_eq_some : tree.text? path = some text ↔ tree.node? path = some (.file text) := by
  rw [text?]
  rcases tree.node? path with _ | _ | _ <;> simp [FileNode.text?]

theorem isFile_node? (tree : FileTree) (path : Path) :
    isFile (tree.node? path) = (tree.text? path).isSome := by
  rw [text?]
  rcases tree.node? path with _ | _ | _ <;> rfl

theorem node?_root (tree : FileTree) : tree.node? .root = some .folder :=
  if_pos rfl

theorem ne_root (other : tree.node? path ≠ some .folder) : path ≠ .root :=
  fun same => other (same ▸ node?_root tree)

theorem sound_iff : tree.Sound ↔
    ∀ entry ∈ tree.nodes, ∀ above ∈ entry.1.ancestors, tree.node? above = some .folder := by
  constructor
  · intro sound entry member above higher
    have listed : entry.1 ∈ OrderedMap.keys tree.nodes := List.mem_map_of_mem member
    obtain ⟨node, stored⟩ := OrderedMap.mem_keys_iff.mp listed
    have present : entry.1 ≠ .root := by
      intro isRoot
      simp [isRoot, Path.ancestors, Path.root] at higher
    refine sound entry.1 node ?_ above higher
    rw [node?, if_neg present, stored]
  · intro inside path node stored above higher
    rw [node?] at stored
    split at stored
    · rename_i isRoot
      simp [isRoot, Path.ancestors, Path.root] at higher
    · exact inside (path, node) (OrderedMap.mem_of_get? stored) above higher

instance (tree : FileTree) : Decidable tree.Sound :=
  decidable_of_iff _ sound_iff.symm

theorem obstacle?_eq_none {action : FileAction} :
    tree.obstacle? action path = none ↔
      ∀ above ∈ path.ancestors, tree.node? above = some .folder := by
  simp [obstacle?]

section Reading

theorem of_reach {action : FileAction} (reached : tree.reach action path = .ok node) :
    (∀ above ∈ path.ancestors, tree.node? above = some .folder) ∧ tree.node? path = some node := by
  rw [reach] at reached
  split at reached
  · simp at reached
  · rename_i clear
    refine ⟨obstacle?_eq_none.mp clear, ?_⟩
    split at reached
    · rename_i found
      rw [found, Except.ok.inj reached]
    · simp at reached

theorem folders_of_has (there : tree.has path) :
    ∀ above ∈ path.ancestors, tree.node? above = some .folder := by
  rw [has] at there
  cases reached : tree.reach .inspect path with
  | ok node => exact (of_reach reached).1
  | error fault =>
      rw [reached] at there
      exact absurd there (by simp [Except.isOk, Except.toBool])

theorem text?_of_read (read : tree.read path = .ok text) : tree.text? path = some text := by
  rw [FileTree.read] at read
  split at read
  · rename_i reached
    rw [text?_eq_some, (of_reach reached).2, Except.ok.inj read]
  · simp at read
  · simp at read

theorem reach_congr {left right : FileTree} (here : left.node? path = right.node? path)
    (agree : ∀ above ∈ path.ancestors, left.node? above = right.node? above)
    (action : FileAction) : left.reach action path = right.reach action path := by
  have found : path.ancestors.find? (fun above => left.node? above ≠ some .folder) =
      path.ancestors.find? fun above => right.node? above ≠ some .folder := by
    rw [List.find?_eq_findSome?_guard, List.find?_eq_findSome?_guard]
    exact Text.findSome?_congr fun above member => by rw [Option.guard, agree above member]; rfl
  have clear : left.obstacle? action path = right.obstacle? action path := by
    rw [obstacle?, obstacle?, found]
    cases blocked : path.ancestors.find? (fun above => right.node? above ≠ some .folder) with
    | none => rfl
    | some above => simp only [Option.map_some, agree above (List.mem_of_find?_eq_some blocked)]
  rw [reach, reach, clear, here]

theorem reach_eq_ok (sound : tree.Sound) (action : FileAction) :
    tree.reach action path = .ok node ↔ tree.node? path = some node := by
  rw [reach]
  cases blocked : tree.obstacle? action path with
  | none => cases tree.node? path <;> simp
  | some fault =>
      simp only [reduceCtorEq, false_iff]
      intro stored
      rw [obstacle?_eq_none.mpr (sound path node stored)] at blocked
      exact absurd blocked (by simp)

theorem node?_eq_none_of_has (sound : tree.Sound) (absent : tree.has path = false) :
    tree.node? path = none := by
  cases stored : tree.node? path with
  | none => rfl
  | some node =>
      rw [has, (reach_eq_ok sound _).mpr stored] at absent
      exact absurd absent (by simp [Except.isOk, Except.toBool])

theorem text?_eq_none_of_has (sound : tree.Sound) (absent : tree.has path = false) :
    tree.text? path = none := by
  rw [text?, node?_eq_none_of_has sound absent]
  rfl

theorem read_eq_ok (sound : tree.Sound) :
    tree.read path = .ok text ↔ tree.text? path = some text := by
  rw [text?_eq_some, ← reach_eq_ok sound .enter, read]
  split <;> simp_all

theorem has_of_text? (sound : tree.Sound) (stored : tree.text? path = some text) :
    tree.has path := by
  rw [has, (reach_eq_ok sound _).mpr (text?_eq_some.mp stored)]
  rfl

theorem isFolder_above (sound : tree.Sound) (stored : tree.text? path = some text)
    (member : above ∈ path.ancestors) : tree.isFolder above = .ok true := by
  have folder := sound path _ (text?_eq_some.mp stored) above member
  rw [isFolder, (reach_eq_ok sound _).mpr folder]
  rfl

end Reading

section Changing

theorem text?_of_change {found : Option FileNode} (change : ∀ other,
      after.node? other = if other = path then found else tree.node? other) :
    after.text? = Function.update tree.text? path (found.bind FileNode.text?) := by
  funext other
  rw [text?, change, Function.update_apply]
  split <;> rfl

theorem node?_put (free : tree.node? path ≠ some .folder) (node : FileNode) (other : Path) :
    node? ⟨OrderedMap.put path node tree.nodes⟩ other =
      if other = path then some node else tree.node? other := by
  simp only [node?, OrderedMap.get?_put]
  by_cases same : other = path
  · simp [same, ne_root free]
  · simp [same, Ne.symm same]

theorem sound_put (sound : tree.Sound)
    (inside : ∀ above ∈ path.ancestors, tree.node? above = some .folder)
    (free : tree.node? path ≠ some .folder) (node : FileNode) :
    Sound ⟨OrderedMap.put path node tree.nodes⟩ := by
  intro other found stored above member
  rw [node?_put free] at stored ⊢
  have folder : tree.node? above = some .folder := by
    split at stored
    · rename_i same
      exact inside above (same ▸ member)
    · exact sound other found stored above member
  rw [if_neg, folder]
  rintro rfl
  exact free folder

theorem of_write (written : tree.write path text = .ok after) :
    tree.obstacle? .enter path = none ∧ tree.node? path ≠ some .folder ∧
      after = ⟨OrderedMap.put path (.file text) tree.nodes⟩ := by
  rw [write] at written
  split at written
  · simp at written
  · rename_i clear
    split at written
    · simp at written
    · rename_i free
      exact ⟨clear, free, (Except.ok.inj written).symm⟩

theorem write_ok (sound : tree.Sound) (written : tree.write path text = .ok after) :
    after.Sound ∧ after.text? = Function.update tree.text? path (some text) := by
  obtain ⟨clear, free, rfl⟩ := of_write written
  exact ⟨sound_put sound (obstacle?_eq_none.mp clear) free _, text?_of_change (node?_put free _)⟩

theorem read_of_write (written : tree.write path text = .ok after) :
    after.read path = .ok text := by
  obtain ⟨clear, free, rfl⟩ := of_write written
  have folders := obstacle?_eq_none.mp clear
  have clearStill : obstacle? ⟨OrderedMap.put path (.file text) tree.nodes⟩ .enter path = none := by
    refine obstacle?_eq_none.mpr fun above member => ?_
    rw [node?_put free, if_neg (Path.mem_ancestors.mp member).2]
    exact folders above member
  rw [FileTree.read, reach, clearStill]
  simp [node?_put free]

theorem node?_removeAll {place : Path} (below : place.names <+: path.names)
    (filled : place ≠ .root) : (tree.removeAll place).node? path = none := by
  have inside : path ≠ .root := by
    rintro rfl
    exact filled (congrArg Path.mk (List.prefix_nil.mp below))
  obtain ⟨rest, written⟩ := below
  rw [node?, if_neg inside, OrderedMap.get?_eq_none_iff, removeAll]
  intro member
  obtain ⟨entry, kept, rfl⟩ := List.mem_map.mp member
  have found := Path.below?_append place rest
  rw [written] at found
  simp [found] at kept

def without (tree : FileTree) (path : Path) : FileTree :=
  ⟨tree.nodes.filter fun entry => entry.1 ≠ path⟩

theorem node?_without (free : tree.node? path ≠ some .folder) (other : Path) :
    (tree.without path).node? other = if other = path then none else tree.node? other := by
  simp only [node?, without, OrderedMap.get?_without]
  by_cases same : other = path
  · simp [same, ne_root free]
  · simp [same, Ne.symm same]

theorem sound_without (sound : tree.Sound) (free : tree.node? path ≠ some .folder) :
    (tree.without path).Sound := by
  intro other node found above member
  rw [node?_without free] at found ⊢
  split at found
  · simp at found
  · have folder := sound other node found above member
    rw [if_neg, folder]
    -- what is taken away is no folder, so nothing lay below it
    rintro rfl
    exact free folder

theorem remove_ok (sound : tree.Sound) (removed : tree.remove path = .ok after) :
    after.Sound ∧ after.text? = Function.update tree.text? path none := by
  rw [remove] at removed
  split at removed
  · rename_i text reached
    obtain rfl := Except.ok.inj removed
    have free : tree.node? path ≠ some .folder := by simp [(reach_eq_ok sound _).mp reached]
    exact ⟨sound_without sound free, text?_of_change (node?_without free)⟩
  · simp at removed
  · rename_i missing
    obtain rfl := Except.ok.inj removed
    -- what is missing had no text, so that nothing changes
    have nothing : tree.text? path = none := by
      cases stored : tree.text? path with
      | none => rfl
      | some text =>
          rw [(reach_eq_ok sound _).mpr (text?_eq_some.mp stored)] at missing
          exact absurd missing (by simp)
    exact ⟨sound, by rw [← nothing, Function.update_eq_self]⟩
  · simp at removed

theorem text?_addFolder (tree : FileTree) (path : Path) : (tree.addFolder path).text? = tree.text? := by
  rw [addFolder]
  split
  · rename_i missing
    have free : tree.node? path ≠ some .folder := by simp [missing]
    have nothing : tree.text? path = none := by simp [text?, missing]
    rw [text?_of_change (node?_put free _)]
    exact (congrArg _ nothing.symm).trans (Function.update_eq_self _ _)
  · rfl

theorem text?_addFolders (tree : FileTree) (places : List Path) :
    (places.foldl addFolder tree).text? = tree.text? := by
  induction places generalizing tree with
  | nil => rfl
  | cons place rest ih => rw [List.foldl_cons, ih, text?_addFolder]

theorem text?_makeFolders (made : tree.makeFolders path = .ok after) : after.text? = tree.text? := by
  rw [makeFolders] at made
  split at made
  · simp at made
  · split at made
    · simp at made
    · rw [← Except.ok.inj made, text?_addFolders]

theorem addFolder_spec (sound : tree.Sound)
    (inside : ∀ above ∈ path.ancestors, tree.node? above = some .folder)
    (nothing : tree.text? path = none) :
    (tree.addFolder path).Sound ∧ (tree.addFolder path).node? path = some .folder ∧
      ∀ other, tree.node? other = some .folder →
        (tree.addFolder path).node? other = some .folder := by
  rw [addFolder]
  split
  · rename_i missing
    have free : tree.node? path ≠ some .folder := by simp [missing]
    refine ⟨sound_put sound inside free _, by simp [node?_put free], fun other folder => ?_⟩
    rw [node?_put free, folder, ite_self]
  · rename_i node stored
    refine ⟨sound, ?_, fun other folder => folder⟩
    cases node with
    | folder => exact stored
    | file text => simp [text?, stored, FileNode.text?] at nothing

def wayDown (path : Path) (count : Nat) : List Path :=
  (List.range count).map fun length => ⟨path.names.take length⟩

theorem wayDown_succ (path : Path) (count : Nat) :
    wayDown path (count + 1) = wayDown path count ++ [⟨path.names.take count⟩] := by
  simp [wayDown, List.range_succ]

theorem ancestors_append_self (path : Path) :
    path.ancestors ++ [path] = wayDown path (path.names.length + 1) := by
  rw [wayDown_succ, List.take_length]
  rfl

theorem ancestors_take {path : Path} {count : Nat} (bound : count ≤ path.names.length) :
    Path.ancestors ⟨path.names.take count⟩ = wayDown path count := by
  rw [Path.ancestors, wayDown, List.length_take, Nat.min_eq_left bound]
  refine List.map_congr_left fun length member => ?_
  rw [List.take_take, Nat.min_eq_left (List.mem_range.mp member).le]

/-- Folders are added from the root down, so each of them finds the ones above it. -/
theorem addFolders_spec (sound : tree.Sound) (path : Path) {count : Nat}
    (bound : count ≤ path.names.length + 1)
    (free : ∀ above ∈ wayDown path count, tree.text? above = none) :
    ((wayDown path count).foldl addFolder tree).Sound ∧
      ∀ above ∈ wayDown path count,
        ((wayDown path count).foldl addFolder tree).node? above = some .folder := by
  induction count with
  | zero => exact ⟨sound, by simp [wayDown]⟩
  | succ count ih =>
      rw [wayDown_succ] at free ⊢
      obtain ⟨soundSoFar, folders⟩ :=
        ih (by omega) fun above member => free above (by simp [member])
      rw [List.foldl_append, List.foldl_cons, List.foldl_nil]
      have inside : ∀ above ∈ Path.ancestors ⟨path.names.take count⟩,
          ((wayDown path count).foldl addFolder tree).node? above = some .folder := by
        rwa [ancestors_take (Nat.le_of_succ_le_succ bound)]
      have nothing : ((wayDown path count).foldl addFolder tree).text?
          ⟨path.names.take count⟩ = none := by
        rw [text?_addFolders]
        exact free _ (by simp)
      obtain ⟨stays, made, keeps⟩ := addFolder_spec soundSoFar inside nothing
      refine ⟨stays, fun above member => ?_⟩
      rcases List.mem_append.mp member with before | now
      · exact keeps above (folders above before)
      · rwa [List.mem_singleton.mp now]

theorem makeFolders_ok (sound : tree.Sound) (made : tree.makeFolders path = .ok after) :
    after.Sound ∧ after.text? = tree.text? := by
  rw [makeFolders] at made
  split at made
  · simp at made
  · rename_i clear
    split at made
    · simp at made
    · rename_i free
      obtain rfl := Except.ok.inj made
      rw [ancestors_append_self]
      have nothing : ∀ above ∈ wayDown path (path.names.length + 1), tree.text? above = none := by
        intro above member
        rw [← ancestors_append_self, List.mem_append, List.mem_singleton] at member
        rcases member with higher | rfl
        · have folder := List.any_eq_false.mp (Bool.not_eq_true _ ▸ clear) above higher
          simpa [isFile_node?] using folder
        · simpa [isFile_node?] using free
      exact ⟨(addFolders_spec sound path le_rfl nothing).1, text?_addFolders tree _⟩

def KeepsFile (path : Path) (before after : FileTree) : Prop :=
  (before.text? path).isSome → (after.text? path).isSome

theorem KeepsFile.refl (tree : FileTree) : KeepsFile path tree tree :=
  fun held => held

theorem KeepsFile.trans {first second third : FileTree} (keeps : KeepsFile path first second)
    (others : KeepsFile path second third) : KeepsFile path first third :=
  fun held => others (keeps held)

theorem keepsFile_of_text? (same : after.text? = tree.text?) : KeepsFile path tree after :=
  fun held => by rwa [same]

theorem keepsFile_write {other : Path} (written : tree.write path text = .ok after) :
    KeepsFile other tree after := by
  intro held
  obtain ⟨-, free, rfl⟩ := of_write written
  rw [text?_of_change (node?_put free _), Function.update_apply]
  split
  · rfl
  · exact held

def SameNode (path : Path) (before after : FileTree) : Prop :=
  after.node? path = before.node? path

theorem SameNode.refl (tree : FileTree) : SameNode path tree tree := rfl

theorem SameNode.trans {first second third : FileTree} (same : SameNode path first second)
    (others : SameNode path second third) : SameNode path first third :=
  Eq.trans others same

theorem SameNode.keepsFile (same : SameNode path tree after) : KeepsFile path tree after := by
  intro held
  rwa [text?, same]

theorem sameNode_remove (removed : tree.remove path = .ok after) {other : Path}
    (different : other ≠ path) : SameNode other tree after := by
  rw [remove] at removed
  split at removed
  · rename_i text reached
    obtain rfl := Except.ok.inj removed
    have free : tree.node? path ≠ some .folder := by simp [(of_reach reached).2]
    exact (node?_without free other).trans (if_neg different)
  · simp at removed
  · exact Except.ok.inj removed ▸ .refl tree
  · simp at removed

theorem makeFolders_of_folders (folder : tree.node? path = some .folder)
    (folders : ∀ above ∈ path.ancestors, tree.node? above = some .folder) :
    tree.makeFolders path = .ok tree := by
  have plain : (path.ancestors.any fun above => isFile (tree.node? above)) = false := by
    rw [List.any_eq_false]
    intro above member
    simp [folders above member, isFile]
  have stays : ∀ places : List Path, (∀ place ∈ places, tree.node? place = some .folder) →
      places.foldl addFolder tree = tree := by
    intro places there
    induction places with
    | nil => rfl
    | cons place rest ih =>
        have here : tree.addFolder place = tree := by
          rw [addFolder, there place List.mem_cons_self]
        rw [List.foldl_cons, here, ih fun other member => there other (by simp [member])]
  rw [makeFolders, plain, folder, stays]
  · rfl
  · intro place member
    rcases List.mem_append.mp member with above | here
    · exact folders place above
    · rwa [List.mem_singleton.mp here]

end Changing

section Without

/-- A tree as a disk holds one: each path is there once, under names that files can have, and
everything lies in folders. -/
structure WellFormed (tree : FileTree) : Prop where
  sound : tree.Sound
  distinct : (OrderedMap.keys tree.nodes).Nodup
  names : ∀ path ∈ OrderedMap.keys tree.nodes, ∀ name ∈ path.names, Path.IsName name

theorem wellFormed_iff : tree.WellFormed ↔ tree.Sound ∧ (OrderedMap.keys tree.nodes).Nodup ∧
    ∀ path ∈ OrderedMap.keys tree.nodes, ∀ name ∈ path.names, Path.IsName name :=
  ⟨fun formed => ⟨formed.sound, formed.distinct, formed.names⟩,
    fun ⟨sound, distinct, names⟩ => ⟨sound, distinct, names⟩⟩

instance (tree : FileTree) : Decidable tree.WellFormed :=
  decidable_of_iff _ wellFormed_iff.symm

theorem free_of_file (stored : tree.node? path = some (.file text)) :
    tree.node? path ≠ some .folder := by
  simp [stored]

theorem reach_below_file (sound : tree.Sound) (stored : tree.node? path = some (.file text))
    {below : Path} (higher : path ∈ below.ancestors) (action : FileAction) :
    tree.reach action below = .error (.notFolder action below) := by
  obtain ⟨rest, split⟩ := Path.ancestors_split higher
  have folders : ∀ above ∈ path.ancestors, tree.node? above = some .folder :=
    sound path _ stored
  have first : below.ancestors.find? (fun above => tree.node? above ≠ some .folder) =
      some path := by
    rw [split, List.find?_append, List.find?_eq_none.mpr]
    · simp [stored]
    · simpa using folders
  rw [reach, obstacle?, first]
  simp [stored]

theorem reach_without (sound : tree.Sound) (stored : tree.node? path = some (.file text))
    {other : Path} (different : other ≠ path) {action : FileAction}
    (passable : tree.reach action other ≠ .error (.notFolder action other)) :
    (tree.without path).reach action other = tree.reach action other := by
  have beside : path ∉ other.ancestors :=
    fun higher => passable (reach_below_file sound stored higher action)
  have same : ∀ place, place ≠ path → (tree.without path).node? place = tree.node? place := by
    intro place elsewhere
    rw [node?_without (free_of_file stored), if_neg elsewhere]
  exact reach_congr (same other different)
    (fun above member => same above fun here => beside (here ▸ member)) action

theorem read_without (sound : tree.Sound) (stored : tree.node? path = some (.file text))
    {other : Path} (different : other ≠ path) {content : String}
    (read : tree.read other = .ok content) : (tree.without path).read other = .ok content := by
  have passable : tree.reach .enter other ≠ .error (.notFolder .enter other) := by
    intro blocked
    simp [FileTree.read, blocked] at read
  rw [← read, FileTree.read, FileTree.read, reach_without sound stored different passable]

end Without

end FileTree

end CrateAtlas
