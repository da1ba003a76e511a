import CrateAtlas.Extraction
import CrateAtlas.Proofs.Rust.Contents

/-!
The units that extraction hands over: those of the files that are read and not skipped.
-/

namespace CrateAtlas.Extraction

def unitsOf (sizeLimit : Int) (files : List (String × String)) : List SourceUnit :=
  (files.map fun file => outcomeOf sizeLimit file.1 file.2).filterMap Outcome.unit?

/-- The snapshot of some files, as extraction leaves it. -/
def snapshotOf (sizeLimit : Int) (root : String) (files : List (String × String)) : Snapshot :=
  (Snapshot.create root (unitsOf sizeLimit files)).resolveCallTargets

theorem sourceUnitAt_of_unit? {sizeLimit : Int} {filePath content : String} {unit : SourceUnit}
    (extracted : (outcomeOf sizeLimit filePath content).unit? = some unit) :
    Rust.sourceUnitAt filePath content = .ok unit ∧ unit.filePath = filePath := by
  simp only [outcomeOf] at extracted
  split at extracted
  · simp [Outcome.unit?] at extracted
  · cases read : Rust.sourceUnitAt filePath content with
    | error failure => simp [read, Outcome.unit?] at extracted
    | ok found =>
        simp only [read, Outcome.unit?, Option.some.injEq] at extracted
        subst found
        exact ⟨rfl, (Rust.sourceUnitOf_eq_ok read).1⟩

theorem mem_unitsOf {sizeLimit : Int} {files : List (String × String)} {unit : SourceUnit}
    (member : unit ∈ unitsOf sizeLimit files) :
    ∃ file ∈ files, Rust.sourceUnitAt file.1 file.2 = .ok unit ∧ unit.filePath = file.1 := by
  simp only [unitsOf, List.mem_filterMap, List.mem_map] at member
  obtain ⟨_, ⟨file, fileMember, rfl⟩, extracted⟩ := member
  exact ⟨file, fileMember, sourceUnitAt_of_unit? extracted⟩

theorem nodup_filePaths {files : List (String × String)} (distinct : (files.map Prod.fst).Nodup)
    (sizeLimit : Int) : ((unitsOf sizeLimit files).map SourceUnit.filePath).Nodup := by
  have sublist : ((unitsOf sizeLimit files).map SourceUnit.filePath).Sublist
      (files.map Prod.fst) := by
    clear distinct
    induction files with
    | nil => exact .slnil
    | cons file rest ih =>
        simp only [unitsOf, List.map_cons, List.filterMap_cons]
        cases extracted : (outcomeOf sizeLimit file.1 file.2).unit? with
        | none => exact .cons _ ih
        | some unit =>
            have path := (sourceUnitAt_of_unit? extracted).2
            simp only [List.map_cons, path]
            exact .cons_cons _ ih
  exact sublist.nodup distinct

end CrateAtlas.Extraction
