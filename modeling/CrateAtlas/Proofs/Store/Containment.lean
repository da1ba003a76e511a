import CrateAtlas.Files.Search
import CrateAtlas.Proofs.Store.Manifest
import CrateAtlas.Store
import CrateAtlas.Yaml

/-!
What a store can reach. Main statement: whatever a manifest says, files vanish and artifacts are
read only strictly below the store, and with a manifest that cannot be read nothing is changed.
-/

namespace CrateAtlas.Store

open FileTree FileTask Manifest

variable {format : Json.Format} {find : Finder} {store path : Path} {before left right : FileTree}
  {entries : List String}

section Removing

theorem sameNode_removeListed (unlisted : ∀ entry ∈ entries, place? store entry ≠ some path) :
    Moves (SameNode path) (removeListed store entries) := by
  refine moves_forM .refl (fun _ _ _ => .trans) fun entry member => ?_
  have elsewhere := unlisted entry member
  cases found : place? store entry with
  | none => exact moves_pure .refl ()
  | some other =>
      refine moves_change .refl fun _ _ removed => sameNode_remove removed ?_
      rintro rfl
      exact elsewhere found

theorem keepsFile_makeFolders (place path : Path) : Moves (KeepsFile path) (FileTask.makeFolders place) :=
  moves_change .refl fun _ _ made => keepsFile_of_text? (text?_makeFolders made)

theorem keepsFile_writeUnit (store : Path) (unit : SourceUnit) :
    Moves (KeepsFile path) (writeUnit format store unit) := by
  refine moves_bind (fun _ _ _ => .trans) ?_ fun _ => moves_pure .refl _
  refine moves_bind (fun _ _ _ => .trans) (keepsFile_makeFolders _ path) fun _ => ?_
  exact moves_change .refl fun _ _ => keepsFile_write

/-- The path is where an entry in the manifest of the store leads. -/
def Listed (store : Path) (tree : FileTree) (path : Path) : Prop :=
  ∃ content names entry, tree.text? (store.child fileName) = some content ∧
    parse (store.child fileName) content = .ok names ∧ entry ∈ names ∧
      place? store entry = some path

theorem Listed.inside (listed : Listed store before path) : Inside store path := by
  obtain ⟨_, _, _, _, _, _, found⟩ := listed
  exact inside_of_place? found

theorem keepsFile_write_of_unlisted (snapshot : Snapshot) (unlisted : ¬Listed store before path) :
    KeepsFile path before (outcome (write format snapshot store) before).2 := by
  have transitive (first second third : FileTree) (keeps : KeepsFile path first second)
      (others : KeepsFile path second third) : KeepsFile path first third := keeps.trans others
  refine moves_bind_from transitive (keepsFile_makeFolders store path before) fun _ middle made => ?_
  have texts : middle.text? = before.text? := text?_makeFolders (does_change.mp made)
  have loads : (outcome (load store) middle).2 = middle := by
    rcases load_cases store middle with ⟨_, same⟩ | ⟨_, ⟨_, _, _, _, same⟩ | ⟨_, _, same⟩⟩ <;> rw [same]
  refine moves_bind_from transitive (by rw [loads]; exact .refl middle) fun listed after loaded => ?_
  obtain rfl : after = middle := by rw [← loads, loaded]
  refine moves_bind transitive ?_ (fun _ => moves_bind transitive ?_ fun paths => ?_) after
  -- Only the removal can take the file away, and it takes what the manifest lists.
  · have elsewhere : ∀ entry ∈ listed.getD [], place? store entry ≠ some path := by
      intro entry member found
      rcases load_cases store after with
        ⟨_, same⟩ | ⟨_, ⟨content, names, read, parsed, same⟩ | ⟨_, _, same⟩⟩
      · simp only [same, Prod.mk.injEq, Except.ok.injEq] at loaded
        simp [← loaded.1] at member
      · simp only [same, Prod.mk.injEq, Except.ok.injEq] at loaded
        rw [← loaded.1] at member
        exact unlisted ⟨content, names, entry, texts ▸ text?_of_read read, parsed, member, found⟩
      · simp [same] at loaded
    exact fun tree => (sameNode_removeListed elsewhere tree).keepsFile
  · exact moves_mapM .refl transitive fun unit _ => keepsFile_writeUnit store unit
  · refine moves_bind transitive ?_ fun _ => moves_pure .refl paths
    exact moves_change .refl fun _ _ => keepsFile_write

theorem write_refuses (snapshot : Snapshot) (present : before.has (store.child fileName))
    (unlisted : ∀ content document names, before.read (store.child fileName) = .ok content →
      Json.parse content = .ok document → ¬IsListing document names) :
    ∃ detail, outcome (write format snapshot store) before =
      (.error (.snapshotFormat (store.child fileName).render detail), before) := by
  have folders := folders_of_has present
  have inside := Path.mem_ancestors_child store fileName
  obtain ⟨rest, split⟩ := Path.ancestors_split inside
  have made : before.makeFolders store = .ok before :=
    makeFolders_of_folders (folders store inside) fun above member =>
      folders above (by rw [split]; exact List.mem_append_left _ member)
  have stays : outcome (FileTask.makeFolders store) before = (.ok (), before) := by
    rw [FileTask.makeFolders, outcome_change, made]
  rcases load_cases store before with
    ⟨missing, _⟩ | ⟨_, ⟨content, names, read, parsed, _⟩ | ⟨detail, _, same⟩⟩
  · simp [present] at missing
  · obtain ⟨document, found, listing⟩ := parse_eq_ok.mp parsed
    exact absurd listing (unlisted content document names read found)
  · exact ⟨detail, by rw [write, outcome_bind, stays]; dsimp only; rw [outcome_bind, same]⟩

end Removing

section Reading

/-- Trees that agree on what a store is: on its folder and its manifest, on the artifacts that are
found in it where it has no manifest, and on what can be read strictly inside. -/
structure SameStore (find : Finder) (store : Path) (left right : FileTree) : Prop where
  folder : left.isFolder store = right.isFolder store
  present : left.has (store.child fileName) = right.has (store.child fileName)
  manifest : left.read (store.child fileName) = right.read (store.child fileName)
  found : left.has (store.child fileName) = false →
    find.inOrder allArtifacts left store = find.inOrder allArtifacts right store
  inside : ∀ path, Inside store path → left.read path = right.read path

theorem sameStore_of_agree (found : left.has (store.child fileName) = false →
      find.inOrder allArtifacts left store = find.inOrder allArtifacts right store)
    (agree : ∀ path, path ∈ store.ancestors ∨ store.names <+: path.names →
      left.node? path = right.node? path) : SameStore find store left right := by
  have above (path : Path) (leads : store.names <+: path.names) :
      ∀ above ∈ path.ancestors, left.node? above = right.node? above := by
    intro above member
    apply agree
    by_cases same : above = store
    · exact .inr (same ▸ List.prefix_rfl)
    · rcases List.prefix_or_prefix_of_prefix (Path.mem_ancestors.mp member).1 leads with higher | lower
      · exact .inl (Path.mem_ancestors.mpr ⟨higher, same⟩)
      · exact .inr lower
  have reached (path : Path) (leads : store.names <+: path.names) (action : FileAction) :
      left.reach action path = right.reach action path :=
    reach_congr (agree path (.inr leads)) (above path leads) action
  have child : store.names <+: (store.child fileName).names := List.prefix_append _ _
  refine ⟨?_, ?_, ?_, found, ?_⟩
  · rw [isFolder, isFolder, reached store List.prefix_rfl]
  · rw [FileTree.has, FileTree.has, reached _ child]
  · rw [FileTree.read, FileTree.read, reached _ child]
  · intro path inside
    obtain ⟨names, _, rfl, _⟩ := inside.below
    rw [FileTree.read, FileTree.read, reached _ (List.prefix_append _ _)]

theorem SameStore.readUnit (same : SameStore find store left right) (entry : String) :
    AnswersAlike left right (readUnit format store entry) := by
  rw [Store.readUnit]
  cases found : place? store entry with
  | none => exact alike_throw _
  | some path =>
      have agree := same.inside path (inside_of_place? found)
      refine alike_get (by simp only [agree]) ?_
      cases left.read path with
      | error fault => exact alike_throw _
      | ok content => exact alike_ofExcept _

theorem SameStore.load (same : SameStore find store left right) :
    AnswersAlike left right (load store) := by
  refine alike_bind (alike_has same.present) fun present _ => ?_
  cases present with
  | false => exact alike_pure none
  | true =>
      refine alike_get (by simp only [same.manifest]) ?_
      cases left.read (store.child fileName) with
      | error fault => exact alike_throw _
      | ok content => exact alike_bind (alike_ofExcept _) fun names _ => alike_pure (some names)

theorem SameStore.read (same : SameStore find store left right) :
    AnswersAlike left right (read format find store) := by
  have units (entries : List String) :
      AnswersAlike left right (entries.mapM (Store.readUnit format store)) :=
    alike_mapM fun entry _ => same.readUnit entry
  refine alike_get (by simp only [same.folder]) ?_
  cases left.isFolder store with
  | error fault => exact alike_throw _
  | ok folder =>
      cases folder with
      | false => exact alike_throw _
      | true =>
          refine alike_bind same.load fun listed loaded => ?_
          cases listed with
          | some entries =>
              refine alike_bind (alike_pure _) fun entries _ => ?_
              refine alike_bind (units entries) fun units _ => ?_
              cases repeatedPath? [] (units.map SourceUnit.filePath) with
              | none => exact alike_pure _
              | some path => exact alike_throw _
          | none =>
              have missing : left.has (store.child fileName) = false := by
                rcases load_cases store left with
                  ⟨missing, _⟩ | ⟨_, ⟨_, _, _, _, other⟩ | ⟨_, _, other⟩⟩
                · exact missing
                · simp [other] at loaded
                · simp [other] at loaded
              refine alike_bind (alike_ask (same.found missing)) fun entries _ => ?_
              refine alike_bind (units entries) fun units _ => ?_
              cases repeatedPath? [] (units.map SourceUnit.filePath) with
              | none => exact alike_pure _
              | some path => exact alike_throw _

end Reading

/-- Whatever a manifest says, an entry leads to an artifact strictly below the store or nowhere;
only such files vanish when the store is written, and only such files are read when it is read. A
manifest that lists no names is refused, and then everything stays as it is. -/
theorem store_stays_inside (format : Json.Format) (find : Finder) (store : Path) :
    (∀ entry path, place? store entry = some path → Inside store path) ∧
    (∀ entries before path, ¬Inside store path →
      (outcome (removeListed store entries) before).2.node? path = before.node? path) ∧
    (∀ snapshot before path text, before.text? path = some text →
      (outcome (write format snapshot store) before).2.text? path = none →
        Inside store path ∧ Listed store before path) ∧
    (∀ left right, SameStore find store left right → ∃ answer,
      outcome (read format find store) left = (answer, left) ∧
        outcome (read format find store) right = (answer, right)) ∧
    ∀ snapshot before, before.has (store.child fileName) →
      (∀ content document names, before.read (store.child fileName) = .ok content →
        Json.parse content = .ok document → ¬IsListing document names) →
      ∃ detail, outcome (write format snapshot store) before =
        (.error (.snapshotFormat (store.child fileName).render detail), before) := by
  refine ⟨fun _ _ => inside_of_place?, ?_, ?_, fun _ _ same => same.read, ?_⟩
  · intro entries before path outside
    have unlisted : ∀ entry ∈ entries, place? store entry ≠ some path :=
      fun _ _ found => outside (inside_of_place? found)
    exact sameNode_removeListed unlisted before
  · intro snapshot before path text held vanished
    have listed : Listed store before path := by
      by_contra unlisted
      have kept : ((outcome (write format snapshot store) before).2.text? path).isSome :=
        keepsFile_write_of_unlisted snapshot unlisted (by rw [held]; rfl)
      rw [vanished] at kept
      exact Bool.false_ne_true kept
    exact ⟨listed.inside, listed⟩
  · exact fun snapshot _ present unlisted => write_refuses snapshot present unlisted

def depot : Path := ⟨["depot"]⟩

def depotManifest : String :=
  Manifest.print ["../depot-2.yaml", "x//../axle.rs.yaml"]

def depotTree (manifest beside : String) : FileTree :=
  ⟨[(depot, .folder), (depot.child fileName, .file manifest),
    (depot.child "axle.rs.yaml", .file ""), (⟨["depot-2.yaml"]⟩, .file beside)]⟩

theorem sameStore_depot :
    SameStore FileSearch.find depot (depotTree depotManifest "") (depotTree depotManifest "x") := by
  have present : (depotTree depotManifest "").has (depot.child fileName) = true := by decide +kernel
  refine sameStore_of_agree (by simp [present]) fun path near => ?_
  have apart : (⟨["depot-2.yaml"]⟩ : Path) ≠ path := by
    rintro rfl
    revert near
    decide
  simp [node?, depotTree, apart]

theorem store_stays_inside_depot :
    (place? depot "../depot-2.yaml" = none ∧ place? depot "x//../axle.rs.yaml" =
        some (depot.child "axle.rs.yaml") ∧ Inside depot (depot.child "axle.rs.yaml")) ∧
    ((depotTree depotManifest "").text? (depot.child "axle.rs.yaml") = some "" ∧
      (outcome (write Yaml.format (Snapshot.create "" []) depot) (depotTree depotManifest "")).2.text?
        (depot.child "axle.rs.yaml") = none ∧
      Listed depot (depotTree depotManifest "") (depot.child "axle.rs.yaml")) ∧
    (SameStore FileSearch.find depot (depotTree depotManifest "") (depotTree depotManifest "x") ∧
      (outcome (read Yaml.format FileSearch.find depot) (depotTree depotManifest "")).1 =
        (outcome (read Yaml.format FileSearch.find depot) (depotTree depotManifest "x")).1) ∧
    (depotTree "[" "").has (depot.child fileName) ∧
      ∃ detail, outcome (write Yaml.format (Snapshot.create "" []) depot) (depotTree "[" "") =
        (.error (.snapshotFormat (depot.child fileName).render detail), depotTree "[" "") := by
  obtain ⟨leads, -, vanishes, reads, refuses⟩ := store_stays_inside Yaml.format FileSearch.find depot
  obtain ⟨answer, here, there⟩ := reads _ _ sameStore_depot
  have found : place? depot "x//../axle.rs.yaml" = some (depot.child "axle.rs.yaml") := by
    decide +kernel
  have held : (depotTree depotManifest "").text? (depot.child "axle.rs.yaml") = some "" := by
    decide +kernel
  have vanished : (outcome (write Yaml.format (Snapshot.create "" []) depot)
      (depotTree depotManifest "")).2.text? (depot.child "axle.rs.yaml") = none := by
    decide +kernel
  have present : (depotTree "[" "").has (depot.child fileName) := by decide +kernel
  have stored : (depotTree "[" "").read (depot.child fileName) = .ok "[" := by decide +kernel
  have broken : Json.parse "[" = .error .malformed := by rfl
  refine ⟨⟨by decide +kernel, found, leads _ _ found⟩,
    ⟨held, vanished, (vanishes _ _ _ _ held vanished).2⟩,
    ⟨sameStore_depot, by rw [here, there]⟩, present, ?_⟩
  refine refuses _ _ present fun content document names read parsed _ => ?_
  obtain rfl := Except.ok.inj (stored.symm.trans read)
  rw [broken] at parsed
  simp at parsed

end CrateAtlas.Store
