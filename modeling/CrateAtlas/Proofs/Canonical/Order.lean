import CrateAtlas.Proofs.Registry
import CrateAtlas.Snapshot.Canonical

/-!
Canonical order as a normal form. Main statement: units in canonical order stay as they are when
they are put into canonical order once more, and so do snapshots, which equal their canonical form.
-/

namespace CrateAtlas

section Orders

instance : Std.TransCmp CallSite.order := by
  have line : Std.TransCmp fun left right : CallSite => compare left.line right.line :=
    Text.transCmp_on compare CallSite.line
  have callee : Std.TransCmp fun left right : CallSite =>
      Text.compareText left.callee right.callee := Text.transCmp_on Text.compareText CallSite.callee
  exact inferInstanceAs (Std.TransCmp (compareLex
    (fun left right : CallSite => compare left.line right.line)
    (fun left right : CallSite => Text.compareText left.callee right.callee)))

instance : Std.TransCmp Method.order :=
  Text.transCmp_on Text.compareText Method.name

instance : Std.TransCmp TypeDefinition.order := by
  have name : Std.TransCmp fun left right : TypeDefinition =>
      Text.compareText left.name right.name :=
    Text.transCmp_on Text.compareText TypeDefinition.name
  have qualified : Std.TransCmp fun left right : TypeDefinition =>
      Text.compareText left.qualifiedName right.qualifiedName :=
    Text.transCmp_on Text.compareText TypeDefinition.qualifiedName
  exact inferInstanceAs (Std.TransCmp (compareLex
    (fun left right : TypeDefinition => Text.compareText left.name right.name)
    (fun left right : TypeDefinition =>
      Text.compareText left.qualifiedName right.qualifiedName)))

instance : Std.TransCmp Text.compareOptional :=
  Text.transCmp_on Text.compareText fun text : Option String => text.getD ""

instance : Std.TransCmp ImplBlock.order := by
  have target : Std.TransCmp fun left right : ImplBlock =>
      Text.compareText left.target right.target :=
    Text.transCmp_on Text.compareText ImplBlock.target
  have traitName : Std.TransCmp fun left right : ImplBlock =>
      Text.compareOptional left.traitName right.traitName :=
    Text.transCmp_on Text.compareOptional ImplBlock.traitName
  have line : Std.TransCmp fun left right : ImplBlock =>
      compare left.location.startLine right.location.startLine :=
    Text.transCmp_on compare fun impl : ImplBlock => impl.location.startLine
  exact inferInstanceAs (Std.TransCmp (compareLex (compareLex
    (fun left right : ImplBlock => Text.compareText left.target right.target)
    (fun left right : ImplBlock => Text.compareOptional left.traitName right.traitName))
    (fun left right : ImplBlock => compare left.location.startLine right.location.startLine)))

instance : Std.TransCmp Import.order := by
  have path : Std.TransCmp fun left right : Import => Text.compareText left.path right.path :=
    Text.transCmp_on Text.compareText Import.path
  have localName : Std.TransCmp fun left right : Import =>
      Text.compareOptional left.localName right.localName :=
    Text.transCmp_on Text.compareOptional Import.localName
  exact inferInstanceAs (Std.TransCmp (compareLex
    (fun left right : Import => Text.compareText left.path right.path)
    (fun left right : Import => Text.compareOptional left.localName right.localName)))

end Orders

theorem Method.canonical_canonical (method : Method) :
    method.canonical.canonical = method.canonical := by
  simp only [Method.canonical, Text.sortBy_sortBy]

theorem ImplBlock.canonical_canonical (impl : ImplBlock) :
    impl.canonical.canonical = impl.canonical := by
  have methods := Text.sortBy_map_sortBy Method.order Method.canonical
    fun method (_ : method ∈ impl.methods) => method.canonical_canonical
  simp only [ImplBlock.canonical, methods]

theorem SourceUnit.canonical_canonical (unit : SourceUnit) :
    unit.canonical.canonical = unit.canonical := by
  have impls := Text.sortBy_map_sortBy ImplBlock.order ImplBlock.canonical
    fun impl (_ : impl ∈ unit.impls) => impl.canonical_canonical
  simp only [SourceUnit.canonical, Text.sortBy_sortBy, impls]

namespace Snapshot

theorem Keyed.resolveCallTargets {snapshot : Snapshot} (keyed : snapshot.Keyed) :
    snapshot.resolveCallTargets.Keyed := by
  have paths : snapshot.resolveCallTargets.units.map SourceUnit.filePath =
      snapshot.units.map SourceUnit.filePath := by
    simp only [Snapshot.resolveCallTargets, List.map_map, Function.comp_def]
  rw [Keyed, paths]
  exact keyed

section Canonical

variable {snapshot : Snapshot}

theorem Keyed.map_canonical (keyed : snapshot.Keyed) :
    ((snapshot.units.map SourceUnit.canonical).map SourceUnit.filePath).Nodup := by
  rw [List.map_map]
  exact keyed

theorem Keyed.units_canonical (keyed : snapshot.Keyed) :
    snapshot.canonical.units = snapshot.canonicalUnits :=
  units_create snapshot.root keyed.map_canonical

theorem map_canonicalUnits (snapshot : Snapshot) :
    snapshot.canonicalUnits.map SourceUnit.canonical = snapshot.canonicalUnits :=
  Text.map_sortBy_map byFilePath SourceUnit.canonical fun unit _ => unit.canonical_canonical

theorem Keyed.canonical_canonical (keyed : snapshot.Keyed) :
    snapshot.canonical.canonical = snapshot.canonical := by
  have perm := Text.sortBy_perm byFilePath (snapshot.units.map SourceUnit.canonical)
  rw [canonical, keyed.units_canonical, map_canonicalUnits]
  exact (create_of_perm perm.symm keyed.map_canonical snapshot.root).symm

theorem Keyed.equal_canonical (keyed : snapshot.Keyed) : snapshot.equal snapshot.canonical := by
  refine decide_eq_true ?_
  rw [canonicalUnits.eq_1 snapshot.canonical, keyed.units_canonical, map_canonicalUnits]
  exact (Text.sortBy_sortBy byFilePath _).symm

end Canonical

end Snapshot

end CrateAtlas
