import CrateAtlas.Proofs.Diff.Retouched
import CrateAtlas.Proofs.TypeText.Traits

/-!
Traits that are written with other spacing. Main statement: two ways to write a trait are one
reference exactly when they agree about the gaps that are kept, and where they do, a comparison
does not tell snapshots with the one from snapshots with the other.
-/

namespace CrateAtlas

/-- The blocks are the same up to what a comparison does not look at, except that the trait of the
one may be named by the one text and the trait of the other by the other. -/
structure ImplBlock.Renamed (name other : String) (before after : ImplBlock) : Prop where
  target : before.target = after.target
  traitName : before.traitName = after.traitName ∨
    before.traitName = some name ∧ after.traitName = some other
  methods : List.Forall₂ Method.Retouched before.methods after.methods

structure SourceUnit.Renamed (name other : String) (before after : SourceUnit) : Prop where
  filePath : before.filePath = after.filePath
  modulePath : before.modulePath = after.modulePath
  imports : before.imports = after.imports
  types : List.Forall₂ TypeDefinition.Retouched before.types after.types
  impls : List.Forall₂ (ImplBlock.Renamed name other) before.impls after.impls

structure Snapshot.Renamed (name other : String) (before after : Snapshot) : Prop where
  registry : before.registry = after.registry
  units : List.Forall₂ (SourceUnit.Renamed name other) before.units after.units

section Same

variable {name : String}

theorem ImplBlock.Renamed.retouched {before after : ImplBlock}
    (renamed : before.Renamed name name after) : before.Retouched after where
  target := renamed.target
  traitName := by
    rcases renamed.traitName with same | ⟨first, second⟩
    · exact same
    · rw [first, second]
  methods := renamed.methods

theorem SourceUnit.Renamed.retouched {before after : SourceUnit}
    (renamed : before.Renamed name name after) : before.Retouched after where
  filePath := renamed.filePath
  modulePath := renamed.modulePath
  imports := renamed.imports
  types := renamed.types
  impls := renamed.impls.imp fun _ _ impl => impl.retouched

theorem Snapshot.Renamed.retouched {before after : Snapshot}
    (renamed : before.Renamed name name after) : before.Retouched after where
  registry := renamed.registry
  units := renamed.units.imp fun _ _ unit => unit.retouched

end Same

namespace Diff

open OrderedMap TypeText

section Traits

variable {trait other : WrittenTrait}

/-- Traits that are written with the same tokens are one reference exactly when they agree about
having blanks wherever a gap is kept, and then a comparison finds nothing added, removed or modified
between snapshots of which the one has the one reference and the other the other. -/
theorem compare_of_respaced (same : trait.SameTokens other) :
    (traitRefOf trait.text = traitRefOf other.text ↔ SameGaps none trait.tokens other.tokens) ∧
      (SameGaps none trait.tokens other.tokens →
        ∀ root units, (units.map SourceUnit.filePath).Nodup →
          ∀ after, (Snapshot.create root units).Renamed (traitRefOf trait.text)
            (traitRefOf other.text) after → ∀ granularity,
              let result := compare (Snapshot.create root units) after granularity
              result.added = [] ∧ result.removed = [] ∧ result.modified = []) := by
  refine ⟨same.traitRefOf_eq_iff, ?_⟩
  intro gaps root units distinct after renamed granularity result
  rw [same.traitRefOf_eq_iff.mpr gaps] at renamed
  have settled := allUnchanged_retouched distinct renamed.retouched granularity
  exact ⟨settled.gather_eq_nil rfl, settled.gather_eq_nil rfl, settled.gather_eq_nil rfl⟩

def isWordText (text : String) : Bool :=
  !text.toList.isEmpty && text.toList.all fun character =>
    !Text.isBlank character && character ∉ ['<', '>', ',']

theorem isWordText_iff {text : String} :
    isWordText text ↔ text.toList ≠ [] ∧
      ∀ character ∈ text.toList, Text.isBlank character = false ∧ character ∉ ['<', '>', ','] := by
  simp [isWordText]

def wordOf (text : String) (isWord : isWordText text) : Lexeme :=
  .word text.toList (isWordText_iff.mp isWord).1 (isWordText_iff.mp isWord).2

def rowWord : Lexeme := wordOf "Row" (by decide)

def dynWord : Lexeme := wordOf "dyn" (by decide)

def listWord : Lexeme := wordOf "Vec" (by decide)

def itemWord : Lexeme := wordOf "Item" (by decide)

def equalsSign : Lexeme := wordOf "=" (by decide)

def markOf (character : Char) (known : ['<', '>', ','].contains character) : Lexeme :=
  .mark character (List.contains_iff_mem.mp known)

def comma : Lexeme := markOf ',' (by decide)

def opener : Lexeme := markOf '<' (by decide)

def closer : Lexeme := markOf '>' (by decide)

def streamOf (gap : Gap) (inner : List Spaced)
    (closed : anglesMatch 0 '<' (spacedText inner ++ gap.text)) : WrittenTrait where
  lead := gap
  root := none
  path :=
    { head := ⟨.ofName "flow" (by decide) (by decide) (by decide), .none⟩
      links := [⟨gap, gap, ⟨.ofName "Stream" (by decide) (by decide) (by decide), .none⟩⟩] }
  bare := ⟨rfl, by simp⟩
  opening := .angled gap
  inner := inner
  last := gap
  closed := closed
  trail := gap

def denseStream : WrittenTrait :=
  streamOf .none [⟨.none, listWord⟩, ⟨.none, opener⟩, ⟨.none, dynWord⟩, ⟨single, rowWord⟩,
    ⟨.none, closer⟩, ⟨.none, comma⟩, ⟨single, rowWord⟩] (by decide)

def wideStream : WrittenTrait :=
  streamOf single [⟨single, listWord⟩, ⟨single, opener⟩, ⟨single, dynWord⟩, ⟨single, rowWord⟩,
    ⟨single, closer⟩, ⟨single, comma⟩, ⟨.none, rowWord⟩] (by decide)

def rowUnit (traitName : String) (line : Int) : SourceUnit :=
  rootUnit [plainType "Row" "crate::Row"]
    [implOf "Row" (some traitName)
      [{ plainMethod "next" "fn next()" with
          location := { lineOne with startLine := line, endLine := line } }]] []

theorem renamed_rowUnit (name other : String) (line later : Int) :
    (rowUnit name line).Renamed name other (rowUnit other later) :=
  ⟨rfl, rfl, rfl, .cons (.refl _) .nil, .cons ⟨rfl, .inr ⟨rfl, rfl⟩, .cons ⟨rfl, rfl⟩ .nil⟩ .nil⟩

theorem renamed_rowSnapshots (name other : String) (line later : Int) :
    (Snapshot.create "" [rowUnit name line]).Renamed name other
      (Snapshot.create "" [rowUnit other later]) where
  registry := Snapshot.registry_eq_of_sites_perm (fun _ => .refl _) "" ""
  units := .cons (renamed_rowUnit ..) .nil

theorem compare_of_respaced_streams :
    let before := Snapshot.create "" [rowUnit (traitRefOf denseStream.text) 3]
    let after := Snapshot.create "" [rowUnit (traitRefOf wideStream.text) 7]
    denseStream.text = "flow::Stream<Vec<dyn Row>, Row>" ∧
      wideStream.text = " flow :: Stream < Vec < dyn Row > ,Row > " ∧
      denseStream.SameTokens wideStream ∧
      traitRefOf denseStream.text = traitRefOf wideStream.text ∧
      (compare before after .method).added = [] ∧ (compare before after .method).removed = [] ∧
      (compare before after .method).modified = [] := by
  intro before after
  have facts : denseStream.text = "flow::Stream<Vec<dyn Row>, Row>" ∧
      wideStream.text = " flow :: Stream < Vec < dyn Row > ,Row > " ∧
      denseStream.path.names = wideStream.path.names ∧
      SameGaps none denseStream.tokens wideStream.tokens := by
    decide +kernel
  obtain ⟨text, wideText, names, gaps⟩ := facts
  have same : denseStream.SameTokens wideStream :=
    ⟨by decide, names, by simp [denseStream, wideStream, streamOf]⟩
  have renamed := renamed_rowSnapshots (traitRefOf denseStream.text) (traitRefOf wideStream.text)
    3 7
  obtain ⟨reference, unchanged⟩ := compare_of_respaced same
  exact ⟨text, wideText, same, reference.mpr gaps,
    unchanged gaps "" [rowUnit (traitRefOf denseStream.text) 3] (List.nodup_singleton _) after
      renamed .method⟩

def itemStream (gap : Gap) (closed : anglesMatch 0 '<' (spacedText
    [⟨.none, itemWord⟩, ⟨gap, equalsSign⟩, ⟨gap, rowWord⟩])) : WrittenTrait :=
  streamOf .none [⟨.none, itemWord⟩, ⟨gap, equalsSign⟩, ⟨gap, rowWord⟩] (by simpa using closed)

def changes (name other : String) : List String × List String × List String :=
  let result := compare (Snapshot.create "" [rowUnit name 3]) (Snapshot.create "" [rowUnit other 3])
    .method
  (keys result.added, keys result.removed, keys result.modified)

/-- Blanks around an equals sign are kept, so the same trait without them is another one. -/
theorem compare_of_respaced_binding :
    let loose := itemStream single (by decide)
    let tight := itemStream .none (by decide)
    loose.SameTokens tight ∧ loose.text = "flow::Stream<Item = Row>" ∧
      tight.text = "flow::Stream<Item=Row>" ∧ traitRefOf loose.text ≠ traitRefOf tight.text ∧
      changes (traitRefOf loose.text) (traitRefOf tight.text) =
        (["crate::Row::Stream<Item=Row>::next"], ["crate::Row::Stream<Item = Row>::next"],
          ["crate::Row"]) := by
  intro loose tight
  have facts : loose.text = "flow::Stream<Item = Row>" ∧ tight.text = "flow::Stream<Item=Row>" ∧
      traitRefOf loose.text = "flow::Stream<Item = Row>" ∧
      traitRefOf tight.text = "flow::Stream<Item=Row>" := by
    decide +kernel
  obtain ⟨looseText, tightText, looseName, tightName⟩ := facts
  have same : loose.SameTokens tight :=
    ⟨by decide, by decide +kernel, by simp [loose, tight, itemStream, streamOf]⟩
  rw [looseName, tightName]
  refine ⟨same, looseText, tightText, ?_⟩
  decide +kernel

end Traits

end Diff

end CrateAtlas
