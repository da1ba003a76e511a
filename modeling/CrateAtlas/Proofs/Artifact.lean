import CrateAtlas.Artifact
import CrateAtlas.Proofs.Canonical.Order
import CrateAtlas.Proofs.Json.Check
import CrateAtlas.Proofs.Json.RoundTrip
import CrateAtlas.Yaml

/-!
What an artifact keeps of a unit. Main statement: reading a printed artifact gives the unit back
in canonical order, as long as the text format gives its document back, and printing what was read
gives the same text once more.
-/

namespace CrateAtlas

/-- A document that the format reads back from the text that it writes. -/
def Json.Format.Survives (format : Json.Format) (document : Json) : Prop :=
  format.parse (format.print document) = .ok document

instance (format : Json.Format) (document : Json) : Decidable (format.Survives document) :=
  match answer : format.parse (format.print document) with
  | .ok read => decidable_of_iff (read = document) (by rw [Json.Format.Survives, answer]; simp)
  | .error _ => isFalse (by rw [Json.Format.Survives, answer]; simp)

structure Location.LiesIn (location : Location) (filePath : String) : Prop where
  filePath : location.filePath = filePath
  startLine : 1 ≤ location.startLine
  endLine : 1 ≤ location.endLine

structure Method.LiesIn (method : Method) (filePath : String) : Prop where
  location : method.location.LiesIn filePath
  calls : ∀ call ∈ method.calls, 1 ≤ call.line

structure ImplBlock.LiesIn (impl : ImplBlock) (filePath : String) : Prop where
  location : impl.location.LiesIn filePath
  methods : ∀ method ∈ impl.methods, method.LiesIn filePath

/-- A unit with a file and a module, all of it in that file. -/
structure SourceUnit.Storable (unit : SourceUnit) : Prop where
  filePath : unit.filePath ≠ ""
  modulePath : unit.modulePath ≠ ""
  types : ∀ type ∈ unit.types, type.location.LiesIn unit.filePath
  impls : ∀ impl ∈ unit.impls, impl.LiesIn unit.filePath

section Canonical

theorem Method.LiesIn.canonical {method : Method} {filePath : String}
    (inside : method.LiesIn filePath) : method.canonical.LiesIn filePath where
  location := inside.location
  calls call member := inside.calls call ((Text.mem_sortBy CallSite.order).mp member)

theorem ImplBlock.LiesIn.canonical {impl : ImplBlock} {filePath : String}
    (inside : impl.LiesIn filePath) : impl.canonical.LiesIn filePath where
  location := inside.location
  methods method member := by
    obtain ⟨original, written, rfl⟩ := List.mem_map.mp ((Text.mem_sortBy Method.order).mp member)
    exact (inside.methods original written).canonical

theorem SourceUnit.Storable.canonical {unit : SourceUnit} (storable : unit.Storable) :
    unit.canonical.Storable where
  filePath := storable.filePath
  modulePath := storable.modulePath
  types type member := storable.types type ((Text.mem_sortBy TypeDefinition.order).mp member)
  impls impl member := by
    obtain ⟨original, written, rfl⟩ :=
      List.mem_map.mp ((Text.mem_sortBy ImplBlock.order).mp member)
    exact (storable.impls original written).canonical

end Canonical

open Json

section Passes

theorem passes_lines {location : Location} {filePath : String}
    (inside : location.LiesIn filePath) :
    Passes (checkLines filePath) (linesDocument location) location := by
  intro part held
  have lines := passes_pair (passes_whole inside.startLine) (passes_whole inside.endLine) part held
  change (fun lines : Int × Int => _) <$> checkPair checkLine part = _
  rw [show checkPair checkLine part = _ from lines, ← inside.filePath]
  rfl

theorem passes_visibility (visibility : Visibility) :
    Passes checkVisibility (.string visibility.label) visibility := by
  refine passes_choice Visibility.label_injective ?_
  cases visibility <;> simp [Visibility.all]

theorem passes_kind (kind : TypeKind) :
    Passes (checkChoice TypeKind.all TypeKind.label) (.string kind.label) kind := by
  refine passes_choice TypeKind.label_injective ?_
  cases kind <;> simp [TypeKind.all]

theorem passes_call {call : CallSite} (line : 1 ≤ call.line) :
    Passes checkCall call.document call := by
  refine passes_record fun part held => ?_
  rw [(passes_text call.callee).member held rfl, (passes_text call.method).member held rfl,
    (passes_optionalText call.target).member held rfl,
    show checkLine _ = _ from (passes_whole line).member held rfl]
  rfl

theorem passes_method {method : Method} {filePath : String} (inside : method.LiesIn filePath) :
    Passes (checkMethod filePath) method.document method := by
  refine passes_record fun part held => ?_
  have calls := passes_list fun call member => passes_call (inside.calls call member)
  rw [(passes_text method.name).member held rfl,
    (passes_visibility method.visibility).member held rfl,
    (passes_text method.signature).member held rfl,
    (passes_optionalText method.returnType).member held rfl,
    (passes_lines inside.location).member held rfl, (passes_default [] calls).member held rfl]
  rfl

theorem passes_field (field : Field) : Passes checkField field.document field := by
  refine passes_record fun part held => ?_
  rw [(passes_text field.name).member held rfl, (passes_text field.typeText).member held rfl]
  rfl

theorem passes_type {type : TypeDefinition} {filePath : String}
    (inside : type.location.LiesIn filePath) :
    Passes (checkType filePath) type.document type := by
  refine passes_record fun part held => ?_
  have fields := passes_list fun field (_ : field ∈ type.fields) => passes_field field
  rw [(passes_text type.name).member held rfl, (passes_text type.qualifiedName).member held rfl,
    (passes_kind type.kind).member held rfl, (passes_visibility type.visibility).member held rfl,
    (passes_lines inside).member held rfl, (passes_default [] fields).member held rfl]
  rfl

theorem passes_impl {impl : ImplBlock} {filePath : String} (inside : impl.LiesIn filePath) :
    Passes (checkImpl filePath) impl.document impl := by
  refine passes_record fun part held => ?_
  have methods := passes_list fun method member => passes_method (inside.methods method member)
  rw [(passes_text impl.target).member held rfl,
    (passes_optionalText impl.traitName).member held rfl,
    (passes_lines inside.location).member held rfl, (passes_default [] methods).member held rfl]
  rfl

theorem passes_import (entry : Import) : Passes checkImport entry.document entry := by
  refine passes_record fun part held => ?_
  rw [(passes_text entry.path).member held rfl,
    (passes_optionalText entry.localName).member held rfl]
  rfl

theorem passes_unit {unit : SourceUnit} (storable : unit.Storable) :
    Passes checkUnit unit.document unit := by
  refine passes_record fun part held => ?_
  have imports := passes_list fun entry (_ : entry ∈ unit.imports) => passes_import entry
  have types := passes_list fun type member => passes_type (storable.types type member)
  have impls := passes_list fun impl member => passes_impl (storable.impls impl member)
  have file : (part.member "file").value = some (.string unit.filePath) := by
    rw [Part.member, held]
    rfl
  simp only [file]
  rw [(passes_nonEmpty storable.filePath).member held rfl,
    (passes_nonEmpty storable.modulePath).member held rfl,
    (passes_default [] imports).member held rfl, (passes_default [] types).member held rfl,
    (passes_default [] impls).member held rfl]
  rfl

end Passes

namespace Artifact

variable (format : Format)

theorem print_canonical (unit : SourceUnit) : print format unit.canonical = print format unit := by
  rw [print, unit.canonical_canonical, print]

theorem parse_print {unit : SourceUnit} (storable : unit.Storable)
    (survives : format.Survives unit.canonical.document) (path : String) :
    parse format path (print format unit) = .ok unit.canonical := by
  have document : format.parse (print format unit) = .ok unit.canonical.document := survives
  have checked : run checkUnit unit.canonical.document = .passed unit.canonical :=
    (passes_unit storable.canonical).run
  unfold parse
  rw [document]
  dsimp only
  rw [checked]

/-- An artifact gives its unit back in canonical order, which is all that a second artifact of
what was read can tell. -/
theorem round_trip :
    (∀ unit : SourceUnit, unit.canonical.canonical = unit.canonical) ∧
      ∀ unit : SourceUnit, unit.Storable → format.Survives unit.canonical.document →
        ∀ path, ∃ read, parse format path (print format unit) = .ok read ∧
          read = unit.canonical ∧ print format read = print format unit := by
  refine ⟨SourceUnit.canonical_canonical, ?_⟩
  intro unit storable survives path
  exact ⟨unit.canonical, parse_print format storable survives path, rfl,
    print_canonical format unit⟩

def wheelUnit : SourceUnit :=
  { filePath := "w", modulePath := "w"
    types :=
      [{ name := "Hub", qualifiedName := "Hub", kind := .struct, visibility := .everywhere
         fields := [{ name := "rim", typeText := "Rim" }]
         location := { filePath := "w", startLine := 3, endLine := 4 } }]
    impls := []
    imports := [{ path := "b", localName := none }, { path := "a", localName := some "c" }] }

theorem wheelUnit_storable : wheelUnit.Storable where
  filePath := by decide
  modulePath := by decide
  types type member := by
    rw [List.mem_singleton.mp member]
    exact ⟨rfl, by decide, by decide⟩
  impls impl member := absurd member List.not_mem_nil

theorem wheelUnit_survives : Yaml.format.Survives wheelUnit.canonical.document := by
  decide +kernel

theorem round_trip_wheelUnit :
    wheelUnit.Storable ∧ Yaml.format.Survives wheelUnit.canonical.document ∧
      wheelUnit.canonical ≠ wheelUnit ∧
      ∃ read, parse Yaml.format "w.yaml" (print Yaml.format wheelUnit) = .ok read ∧
        read = wheelUnit.canonical ∧ print Yaml.format read = print Yaml.format wheelUnit :=
  ⟨wheelUnit_storable, wheelUnit_survives, by decide,
    (round_trip Yaml.format).2 wheelUnit wheelUnit_storable wheelUnit_survives "w.yaml"⟩

end Artifact

end CrateAtlas
