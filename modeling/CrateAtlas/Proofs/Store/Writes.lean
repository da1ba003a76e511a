import CrateAtlas.Files.Search
import CrateAtlas.Proofs.Artifact
import CrateAtlas.Proofs.Canonical.Graph
import CrateAtlas.Proofs.Store.Manifest
import CrateAtlas.Store
import Mathlib.Data.List.Induction

/-!
What is in a folder after snapshots have been written to it. Main statement: however many
snapshots are written one after another, the folder has the artifacts and the manifest of the
last one, the files that no artifact has ever taken the place of, and nothing else; and it reads
as the last snapshot in canonical form.
-/

namespace CrateAtlas

/-- A snapshot of storable units in different files, with straight paths. -/
structure Snapshot.Storable (snapshot : Snapshot) : Prop where
  units : ∀ unit ∈ snapshot.units, unit.Storable
  distinct : (snapshot.units.map SourceUnit.filePath).Nodup
  straight : ∀ unit ∈ snapshot.units, Path.Straight unit.filePath

namespace Store

open FileTree FileTask Manifest

variable {format : Json.Format} {store path : Path} {text : String} {before tree after : FileTree}

section Steps

theorem removeListed_ok (sound : tree.Sound) {filePaths : List String}
    (straight : ∀ filePath ∈ filePaths, Path.Straight filePath) {done : Unit}
    (does : Does (removeListed store (filePaths.map artifactName)) tree done after) :
    after.Sound ∧ ∀ path, after.text? path =
      if path ∈ filePaths.map (artifactPlace store) then none else tree.text? path := by
  induction filePaths generalizing tree with
  | nil =>
      obtain ⟨-, rfl⟩ := does_pure.mp does
      exact ⟨sound, by simp⟩
  | cons filePath rest ih =>
      rw [removeListed, List.map_cons] at does
      obtain ⟨middle, first, others⟩ := does_forM_cons.mp does
      rw [place?_artifactName (straight filePath (by simp))] at first
      obtain ⟨middleSound, removed⟩ := remove_ok sound (does_change.mp first)
      obtain ⟨afterSound, texts⟩ :=
        ih middleSound (fun other member => straight other (by simp [member])) others
      refine ⟨afterSound, fun path => ?_⟩
      rw [texts, removed, Function.update_apply, List.map_cons]
      by_cases same : path = artifactPlace store filePath
      · simp [same]
      · simp [same]

theorem writeUnit_ok (sound : tree.Sound) {unit : SourceUnit} {written : Path}
    (does : Does (writeUnit format store unit) tree written after) :
    after.Sound ∧ after.text? =
      Function.update tree.text? (artifactPlace store unit.filePath)
        (some (Artifact.print format unit)) := by
  rw [writeUnit] at does
  obtain ⟨_, _, placed, returned⟩ := does_bind.mp does
  obtain ⟨-, rfl⟩ := does_pure.mp returned
  obtain ⟨_, middle, folders, file⟩ := does_bind.mp placed
  obtain ⟨middleSound, texts⟩ := makeFolders_ok sound (does_change.mp folders)
  obtain ⟨afterSound, wrote⟩ := write_ok middleSound (does_change.mp file)
  exact ⟨afterSound, texts ▸ wrote⟩

def KeepsAt (store : Path) (units : List SourceUnit) (path : Path) : Prop :=
  ∃ unit ∈ units, path = artifactPlace store unit.filePath

def Keeps (format : Json.Format) (store : Path) (units : List SourceUnit) (path : Path)
    (text : String) : Prop :=
  ∃ unit ∈ units, path = artifactPlace store unit.filePath ∧ text = Artifact.print format unit

theorem Keeps.keepsAt {units : List SourceUnit} (keeps : Keeps format store units path text) :
    KeepsAt store units path :=
  let ⟨unit, member, place, _⟩ := keeps
  ⟨unit, member, place⟩

theorem writeUnits_ok (sound : tree.Sound) {units : List SourceUnit}
    (distinct : (units.map SourceUnit.filePath).Nodup)
    (straight : ∀ unit ∈ units, Path.Straight unit.filePath) {written : List Path}
    (does : Does (units.mapM (writeUnit format store)) tree written after) :
    after.Sound ∧ ∀ path text, after.text? path = some text ↔
      Keeps format store units path text ∨
        tree.text? path = some text ∧ ¬ KeepsAt store units path := by
  induction units generalizing tree written with
  | nil =>
      obtain ⟨-, rfl⟩ := does_mapM_nil.mp does
      exact ⟨sound, by simp [Keeps, KeepsAt]⟩
  | cons unit rest ih =>
      obtain ⟨_, others, middle, -, first, more⟩ := does_mapM_cons.mp does
      obtain ⟨middleSound, wrote⟩ := writeUnit_ok sound first
      obtain ⟨fresh, restDistinct⟩ := List.nodup_cons.mp distinct
      obtain ⟨afterSound, texts⟩ :=
        ih middleSound restDistinct (fun other member => straight other (by simp [member])) more
      -- the first artifact is not overwritten, since the others have places of their own
      have apart : ¬ KeepsAt store rest (artifactPlace store unit.filePath) := by
        rintro ⟨other, member, same⟩
        have equal := artifactPlace_injective (straight unit (by simp))
          (straight other (by simp [member])) same
        exact fresh (equal ▸ List.mem_map_of_mem member)
      refine ⟨afterSound, fun path text => ?_⟩
      rw [texts, wrote, Function.update_apply]
      by_cases same : path = artifactPlace store unit.filePath
      · subst same
        have nothing : ¬ Keeps format store rest (artifactPlace store unit.filePath) text :=
          fun keeps => apart keeps.keepsAt
        simp only [if_true, Keeps, KeepsAt, List.mem_cons, exists_eq_or_imp] at nothing apart ⊢
        simp [nothing, apart, eq_comm]
      · simp [same, Keeps, KeepsAt]

def writtenPaths (snapshot : Snapshot) : List String :=
  (Text.sortBy Snapshot.byFilePath snapshot.units).map SourceUnit.filePath

def manifestText (snapshot : Snapshot) : String :=
  Manifest.print ((writtenPaths snapshot).map artifactName)

theorem mem_writtenPaths {snapshot : Snapshot} {filePath : String} :
    filePath ∈ writtenPaths snapshot ↔ ∃ unit ∈ snapshot.units, unit.filePath = filePath := by
  simp [writtenPaths]

theorem mem_places {snapshot : Snapshot} :
    path ∈ (writtenPaths snapshot).map (artifactPlace store) ↔
      KeepsAt store snapshot.units path := by
  simp [writtenPaths, KeepsAt, eq_comm]

def Lists (tree : FileTree) (store : Path) (filePaths : List String) : Prop :=
  filePaths = [] ∧ tree.text? (store.child fileName) = none ∨
    tree.text? (store.child fileName) = some (Manifest.print (filePaths.map artifactName))

theorem filled_names (filePaths : List String) :
    ∀ name ∈ filePaths.map artifactName, name ≠ "" := by
  intro name member
  obtain ⟨filePath, _, rfl⟩ := List.mem_map.mp member
  exact artifactName_ne_empty filePath

theorem load_lists {filePaths : List String} (sound : tree.Sound)
    (lists : Lists tree store filePaths) {listed : Option (List String)}
    (does : Does (Manifest.load store) tree listed after) :
    after = tree ∧ listed.getD [] = filePaths.map artifactName := by
  rcases lists with ⟨rfl, missing⟩ | held
  · obtain ⟨rfl, rfl⟩ := load_missing sound missing does
    exact ⟨rfl, rfl⟩
  · obtain ⟨rfl, rfl⟩ := does.unique (load_written sound (filled_names filePaths) held)
    exact ⟨rfl, rfl⟩

/-- A write puts the artifacts of a snapshot and their manifest in place of the artifacts that
the manifest before it listed. -/
theorem write_step {snapshot : Snapshot} {filePaths : List String} {written : List Path}
    (sound : tree.Sound) (lists : Lists tree store filePaths)
    (listedStraight : ∀ filePath ∈ filePaths, Path.Straight filePath)
    (storable : snapshot.Storable) (does : Does (write format snapshot store) tree written after) :
    after.Sound ∧ ∀ path text, after.text? path = some text ↔
      if path = store.child fileName then text = manifestText snapshot
      else Keeps format store snapshot.units path text ∨
        tree.text? path = some text ∧ ¬ KeepsAt store snapshot.units path ∧
          path ∉ filePaths.map (artifactPlace store) := by
  rw [write] at does
  obtain ⟨_, entered, folders, loading⟩ := does_bind.mp does
  obtain ⟨listed, loaded, found, removing⟩ := does_bind.mp loading
  obtain ⟨_, cleared, removed, keeping⟩ := does_bind.mp removing
  obtain ⟨_, kept, units, closing⟩ := does_bind.mp keeping
  obtain ⟨_, _, manifest, returned⟩ := does_bind.mp closing
  obtain ⟨-, rfl⟩ := does_pure.mp returned
  obtain ⟨enteredSound, sameTexts⟩ := makeFolders_ok sound (does_change.mp folders)
  have listsStill : Lists entered store filePaths := by rwa [Lists, sameTexts]
  obtain ⟨rfl, names⟩ := load_lists enteredSound listsStill found
  rw [names] at removed
  obtain ⟨clearedSound, left⟩ := removeListed_ok enteredSound listedStraight removed
  have sortedPerm := Text.sortBy_perm Snapshot.byFilePath snapshot.units
  obtain ⟨keptSound, texts⟩ := writeUnits_ok clearedSound
    ((sortedPerm.map SourceUnit.filePath).nodup_iff.mpr storable.distinct)
    (fun unit member => storable.straight unit (sortedPerm.mem_iff.mp member)) units
  obtain ⟨afterSound, listing⟩ := write_ok keptSound (does_change.mp manifest)
  refine ⟨afterSound, fun path text => ?_⟩
  rw [listing, Function.update_apply]
  by_cases same : path = store.child fileName
  · rw [if_pos same, if_pos same, Option.some.injEq, eq_comm, manifestText, writtenPaths,
      List.map_map]
    rfl
  · rw [if_neg same, if_neg same, texts, left, sameTexts]
    by_cases listed : path ∈ filePaths.map (artifactPlace store)
    · simp [listed, Keeps]
    · simp [listed, Keeps, KeepsAt]

end Steps

section Runs

/-- A tree after writes to a store: of what was there before, it has all but the files that made
room for artifacts, and of what was written, the last snapshot. -/
structure Written (format : Json.Format) (store : Path) (before : FileTree)
    (earlier : List Snapshot) (last : Snapshot) (tree : FileTree) : Prop where
  sound : tree.Sound
  texts : ∀ path text, tree.text? path = some text ↔
    if path = store.child fileName then text = manifestText last
    else Keeps format store last.units path text ∨
      before.text? path = some text ∧
        ∀ snapshot ∈ earlier ++ [last], ¬ KeepsAt store snapshot.units path

theorem Written.manifest {earlier : List Snapshot} {last : Snapshot}
    (written : Written format store before earlier last tree) :
    tree.text? (store.child fileName) = some (manifestText last) := by
  simp [written.texts]

theorem Written.lists {earlier : List Snapshot} {last : Snapshot}
    (written : Written format store before earlier last tree) :
    Lists tree store (writtenPaths last) :=
  .inr written.manifest

theorem straight_writtenPaths {snapshot : Snapshot} (storable : snapshot.Storable) :
    ∀ filePath ∈ writtenPaths snapshot, Path.Straight filePath := by
  intro filePath member
  obtain ⟨unit, present, rfl⟩ := mem_writtenPaths.mp member
  exact storable.straight unit present

theorem Written.first {snapshot : Snapshot} {paths : List Path} (sound : before.Sound)
    (missing : before.text? (store.child fileName) = none) (storable : snapshot.Storable)
    (does : Does (write format snapshot store) before paths after) :
    Written format store before [] snapshot after := by
  obtain ⟨afterSound, texts⟩ :=
    write_step sound (.inl ⟨rfl, missing⟩) (by simp) storable does
  exact ⟨afterSound, by simpa using texts⟩

theorem Written.next {earlier : List Snapshot} {previous snapshot : Snapshot} {paths : List Path}
    (written : Written format store before earlier previous tree) (former : previous.Storable)
    (storable : snapshot.Storable) (does : Does (write format snapshot store) tree paths after) :
    Written format store before (earlier ++ [previous]) snapshot after := by
  obtain ⟨afterSound, texts⟩ :=
    write_step written.sound written.lists (straight_writtenPaths former) storable does
  refine ⟨afterSound, fun path text => ?_⟩
  rw [texts, mem_places, written.texts]
  by_cases same : path = store.child fileName
  · simp [same]
  · rw [if_neg same, if_neg same, if_neg same]
    have gone : ¬ KeepsAt store previous.units path → ¬ Keeps format store previous.units path text :=
      mt Keeps.keepsAt
    simp only [List.mem_append, List.mem_singleton, or_imp, forall_and, forall_eq]
    tauto

theorem written_of_writes {earlier : List Snapshot} {last : Snapshot} {paths : List (List Path)}
    (sound : before.Sound) (missing : before.text? (store.child fileName) = none)
    (storable : ∀ snapshot ∈ earlier ++ [last], snapshot.Storable)
    (does : Does ((earlier ++ [last]).mapM fun snapshot => write format snapshot store)
      before paths after) :
    Written format store before earlier last after := by
  induction earlier using List.reverseRecOn generalizing last paths after with
  | nil =>
      obtain ⟨_, _, _, -, only, nothing⟩ := does_mapM_cons.mp does
      obtain ⟨-, rfl⟩ := does_mapM_nil.mp nothing
      exact Written.first sound missing (storable last (by simp)) only
  | append_singleton earlier previous ih =>
      obtain ⟨_, _, _, -, most, one⟩ := does_mapM_concat.mp does
      have written := ih
        (fun snapshot member => storable snapshot (List.mem_append_left [last] member)) most
      exact written.next (storable previous (by simp)) (storable last (by simp)) one

end Runs

section Reading

theorem readUnit_ok {unit : SourceUnit} (sound : tree.Sound) (storable : unit.Storable)
    (straight : Path.Straight unit.filePath) (survives : format.Survives unit.canonical.document)
    (held : tree.text? (artifactPlace store unit.filePath) = some (Artifact.print format unit)) :
    Does (readUnit format store (artifactName unit.filePath)) tree unit.canonical tree := by
  rw [readUnit, place?_artifactName straight]
  refine does_bind.mpr ⟨tree, tree, does_get.mpr ⟨rfl, rfl⟩, ?_⟩
  rw [(read_eq_ok sound).mpr held]
  exact does_ofExcept.mpr ⟨Artifact.parse_print format storable survives _, rfl⟩

theorem readUnits_ok {units : List SourceUnit}
    (reads : ∀ unit ∈ units,
      Does (readUnit format store (artifactName unit.filePath)) tree unit.canonical tree) :
    Does ((units.map fun unit => artifactName unit.filePath).mapM (readUnit format store)) tree
      (units.map SourceUnit.canonical) tree := by
  induction units with
  | nil => exact does_mapM_nil.mpr ⟨rfl, rfl⟩
  | cons unit rest ih =>
      exact does_mapM_cons.mpr ⟨unit.canonical, rest.map SourceUnit.canonical, tree, rfl,
        reads unit (by simp), ih fun other member => reads other (by simp [member])⟩

theorem repeatedPath?_of_nodup {seen paths : List String} (distinct : (seen ++ paths).Nodup) :
    repeatedPath? seen paths = none := by
  induction paths generalizing seen with
  | nil => rfl
  | cons path rest ih =>
      have fresh : path ∉ seen := fun member =>
        (List.nodup_append.mp distinct).2.2 path member path (by simp) rfl
      rw [repeatedPath?, if_neg (by simpa using fresh)]
      exact ih (List.perm_middle.nodup_iff.mp distinct)

theorem sorted_names (snapshot : Snapshot) :
    ∃ units : List SourceUnit, units.Perm snapshot.units ∧
      Text.sortTexts ((writtenPaths snapshot).map artifactName) =
        units.map fun unit => artifactName unit.filePath := by
  refine ⟨Text.sortBy (fun left right =>
    Text.compareText (artifactName left.filePath) (artifactName right.filePath))
      (Text.sortBy Snapshot.byFilePath snapshot.units), ?_, ?_⟩
  · exact (Text.sortBy_perm _ _).trans (Text.sortBy_perm _ _)
  · rw [writtenPaths, List.map_map, Text.sortTexts, Text.sortBy_map]
    rfl

theorem read_stored {snapshot : Snapshot} (sound : tree.Sound) (storable : snapshot.Storable)
    (survive : ∀ unit ∈ snapshot.units, format.Survives unit.canonical.document)
    (manifest : tree.text? (store.child fileName) = some (manifestText snapshot))
    (artifacts : ∀ unit ∈ snapshot.units,
      tree.text? (artifactPlace store unit.filePath) = some (Artifact.print format unit)) (find : Finder) :
    Does (read format find store) tree { snapshot.canonical with root := store.render } tree := by
  have folder := isFolder_above sound manifest (Path.mem_ancestors_child store fileName)
  obtain ⟨units, perm, entries⟩ := sorted_names snapshot
  have reads := readUnits_ok fun unit member =>
    have stored := perm.mem_iff.mp member
    readUnit_ok sound (storable.units unit stored) (storable.straight unit stored)
      (survive unit stored) (artifacts unit stored)
  have canonicalPerm := perm.map SourceUnit.canonical
  have paths : (units.map SourceUnit.canonical).map SourceUnit.filePath =
      units.map SourceUnit.filePath := by
    simp [SourceUnit.canonical]
  have distinct : (units.map SourceUnit.filePath).Nodup :=
    (perm.map SourceUnit.filePath).nodup_iff.mpr storable.distinct
  rw [read]
  refine does_bind.mpr ⟨tree, tree, does_get.mpr ⟨rfl, rfl⟩, ?_⟩
  rw [folder]
  refine does_bind.mpr ⟨_, tree, load_written sound (filled_names _) manifest, ?_⟩
  refine does_bind.mpr ⟨_, tree, does_pure.mpr ⟨rfl, rfl⟩, ?_⟩
  refine does_bind.mpr ⟨units.map SourceUnit.canonical, tree, by rwa [entries], ?_⟩
  rw [paths, repeatedPath?_of_nodup (by simpa using distinct)]
  refine does_pure.mpr ⟨?_, rfl⟩
  rw [Snapshot.create_of_perm canonicalPerm (paths ▸ distinct), Snapshot.canonical]
  rfl

end Reading

/-- After any number of writes to a folder that had no manifest, its files are the artifacts and
the manifest of the last snapshot, and the files from before that lie where no artifact of any of
the snapshots belongs. The folder reads as the last snapshot in canonical form. -/
theorem files_after_writes {earlier : List Snapshot} {last : Snapshot} {paths : List (List Path)}
    (sound : before.Sound) (missing : before.has (store.child fileName) = false)
    (storable : ∀ snapshot ∈ earlier ++ [last], snapshot.Storable)
    (survive : ∀ unit ∈ last.units, format.Survives unit.canonical.document)
    (does : Does ((earlier ++ [last]).mapM fun snapshot => write format snapshot store)
      before paths after) (find : Finder) :
    (∀ path text, after.read path = .ok text ↔
      before.read path = .ok text ∧
          (∀ snapshot ∈ earlier ++ [last], ¬ KeepsAt store snapshot.units path) ∨
        Keeps format store last.units path text ∨
        path = store.child fileName ∧ text = manifestText last) ∧
      Does (read format find store) after { last.canonical with root := store.render } after := by
  have nothing := text?_eq_none_of_has sound missing
  have lastStorable := storable last (by simp)
  have written := written_of_writes sound nothing storable does
  have apart : ∀ path, KeepsAt store last.units path → path ≠ store.child fileName := by
    rintro _ ⟨unit, member, rfl⟩
    exact artifactPlace_ne_manifest (lastStorable.straight unit member) store
  constructor
  · intro path text
    rw [read_eq_ok written.sound, read_eq_ok sound, written.texts]
    by_cases same : path = store.child fileName
    · have free : ¬ Keeps format store last.units path text := fun keeps => apart path keeps.keepsAt same
      subst same
      simp [nothing, free]
    · simp [same, or_comm]
  · refine read_stored written.sound lastStorable survive written.manifest (fun unit member => ?_) find
    rw [written.texts, if_neg (apart _ ⟨unit, member, rfl⟩)]
    exact .inl ⟨unit, member, rfl, rfl⟩

theorem storable_create {unit : SourceUnit} (root : String) (storable : unit.Storable)
    (straight : Path.Straight unit.filePath) : (Snapshot.create root [unit]).Storable := by
  have units : (Snapshot.create root [unit]).units = [unit] :=
    Snapshot.units_create root (List.nodup_singleton _)
  refine ⟨?_, ?_, ?_⟩ <;> simp [units, storable, straight]

def yard : Path := ⟨["yard"]⟩

def yardTree : FileTree :=
  ⟨[(yard, .folder), (yard.child "note.yaml", .file "keep")]⟩

def spokeUnit : SourceUnit :=
  { filePath := "s", modulePath := "s", types := [], impls := [], imports := [] }

def spokeSnapshot : Snapshot := Snapshot.create "" [spokeUnit]

def wheelSnapshot : Snapshot := Snapshot.create "" [Artifact.wheelUnit]

theorem spokeSnapshot_storable : spokeSnapshot.Storable := by
  refine storable_create "" ⟨by decide, by decide, ?_, ?_⟩ (by decide)
  · exact fun type member => absurd member List.not_mem_nil
  · exact fun impl member => absurd member List.not_mem_nil

theorem wheelSnapshot_storable : wheelSnapshot.Storable :=
  storable_create "" Artifact.wheelUnit_storable (by decide)

theorem wheelSnapshot_survives :
    ∀ unit ∈ wheelSnapshot.units, Yaml.format.Survives unit.canonical.document := by
  intro unit member
  obtain rfl := List.mem_singleton.mp member
  exact Artifact.wheelUnit_survives

theorem files_after_writes_yard :
    ∃ paths after,
      Does (([spokeSnapshot] ++ [wheelSnapshot]).mapM fun snapshot => write Yaml.format snapshot yard)
        yardTree paths after ∧
      (∀ path text, after.read path = .ok text ↔
        yardTree.read path = .ok text ∧
            (∀ snapshot ∈ [spokeSnapshot] ++ [wheelSnapshot],
              ¬ KeepsAt yard snapshot.units path) ∨
          Keeps Yaml.format yard wheelSnapshot.units path text ∨
          path = yard.child fileName ∧ text = manifestText wheelSnapshot) ∧
        Does (read Yaml.format FileSearch.find yard) after
          { wheelSnapshot.canonical with root := yard.render } after := by
  obtain ⟨paths, after, does⟩ := exists_does
    (show (outcome (([spokeSnapshot] ++ [wheelSnapshot]).mapM fun snapshot =>
        write Yaml.format snapshot yard)
      yardTree).1.isOk by decide +kernel)
  have storable : ∀ snapshot ∈ [spokeSnapshot] ++ [wheelSnapshot], snapshot.Storable := by
    simp [spokeSnapshot_storable, wheelSnapshot_storable]
  exact ⟨paths, after, does,
    files_after_writes (by decide) (by decide) storable wheelSnapshot_survives does FileSearch.find⟩

end Store

end CrateAtlas
