import CrateAtlas.Diff.Entity

/-!
Comparison of two snapshots: which entities were added, removed or modified, and how.
-/

namespace CrateAtlas.Diff

inductive Granularity where
  | type
  | method
  deriving DecidableEq, Repr

structure SetChange where
  added : List String
  removed : List String
  changed : List String
  deriving DecidableEq, Repr

structure ValueChange where
  before : String
  after : String
  deriving DecidableEq, Repr

structure ChangeDetail where
  kind : Option ValueChange
  visibility : Option ValueChange
  signature : Option ValueChange
  fields : SetChange
  methods : SetChange
  traits : SetChange
  deriving DecidableEq, Repr

structure Modification where
  before : Option Entity
  after : Option Entity
  changes : ChangeDetail
  deriving DecidableEq, Repr

/-- The outcome of a comparison. The records are keyed by identity; `skippedBefore` and
`skippedAfter` hold the types that a snapshot declares more than once. -/
structure Result where
  granularity : Granularity
  added : List (String × Option Entity)
  removed : List (String × Option Entity)
  modified : List (String × Modification)
  unchanged : List String
  skippedBefore : List DuplicateType
  skippedAfter : List DuplicateType
  deriving DecidableEq, Repr

def Granularity.label : Granularity → String
  | .type => "type"
  | .method => "method"

def SetChange.empty : SetChange := { added := [], removed := [], changed := [] }

def SetChange.isEmpty (change : SetChange) : Bool :=
  change.added.isEmpty && change.removed.isEmpty && change.changed.isEmpty

/-- Compares two records by name. A name that a record merely answers to is neither added
nor removed, and its value counts as changed. -/
def compareRecords (before after : List (String × String)) : SetChange :=
  let kept := (Record.names after).filter (Record.answersTo before)
  { added := Text.sortTexts ((Record.names after).filter fun name =>
      !Record.answersTo before name)
    removed := Text.sortTexts ((Record.names before).filter fun name =>
      !Record.answersTo after name)
    changed := Text.sortTexts (kept.filter fun name =>
      OrderedMap.get? name before ≠ OrderedMap.get? name after) }

def compareFields (before after : List Field) : SetChange :=
  let record (fields : List Field) :=
    Record.ofPairs (fields.map fun field => (field.name, field.typeText))
  compareRecords (record before) (record after)

def compareSets (before after : List String) : SetChange :=
  { added := Text.sortTexts (after.filter fun member => !before.contains member)
    removed := Text.sortTexts (before.filter fun member => !after.contains member)
    changed := [] }

def valueChange? (before after : String) : Option ValueChange :=
  if before = after then none else some { before := before, after := after }

def ChangeDetail.isEmpty (detail : ChangeDetail) : Bool :=
  detail.kind.isNone && detail.visibility.isNone && detail.signature.isNone &&
    detail.fields.isEmpty && detail.methods.isEmpty && detail.traits.isEmpty

def typeChanges (before after : TypeEntity) : ChangeDetail :=
  { kind := valueChange? before.kind.label after.kind.label
    visibility := valueChange? before.visibility.label after.visibility.label
    signature := none
    fields := compareFields before.fields after.fields
    methods := compareRecords before.methods after.methods
    traits := compareSets before.traits after.traits }

def compareTypes (before after : TypeEntity) : Option ChangeDetail :=
  let detail := typeChanges before after
  if detail.isEmpty then none else some detail

def compareMethods (before after : MethodEntity) : Option ChangeDetail :=
  (valueChange? before.signature after.signature).map fun change =>
    { kind := none
      visibility := none
      signature := some change
      fields := SetChange.empty
      methods := SetChange.empty
      traits := SetChange.empty }

inductive Verdict where
  | added (entity : Entity)
  | removed (entity : Entity)
  | modified (change : Modification)
  | unchanged

def verdicts (wrap : α → Entity) (compare : α → α → Option ChangeDetail)
    (before after : List (String × α)) : List (String × Verdict) :=
  (OrderedMap.distinct (OrderedMap.keys before ++ OrderedMap.keys after)).filterMap
    fun identity =>
      match OrderedMap.get? identity before, OrderedMap.get? identity after with
      | some old, some new =>
          match compare old new with
          | some changes =>
              some (identity, .modified
                { before := some (wrap old), after := some (wrap new), changes := changes })
          | none => some (identity, .unchanged)
      | none, some new => some (identity, .added (wrap new))
      | some old, none => some (identity, .removed (wrap old))
      | none, none => none

def gather (pick : Verdict → Option α) (found : List (String × Verdict)) :
    List (String × α) :=
  Record.sorted (found.foldl (fun record entry =>
    match pick entry.2 with
    | some value => Record.assign entry.1 value record
    | none => record) [])

def addedEntity? : Verdict → Option (Option Entity)
  | .added entity => some (some entity)
  | _ => none

def removedEntity? : Verdict → Option (Option Entity)
  | .removed entity => some (some entity)
  | _ => none

def modification? : Verdict → Option Modification
  | .modified change => some change
  | _ => none

def isUnchanged : Verdict → Bool
  | .unchanged => true
  | _ => false

def withoutMethods (types : List (String × TypeEntity)) : List (String × TypeEntity) :=
  types.map fun entry => (entry.1, { entry.2 with methods := [] })

def allVerdicts (granularity : Granularity) (before after : EntityIndex) :
    List (String × Verdict) :=
  match granularity with
  | .type => verdicts .type compareTypes before.types after.types
  | .method =>
      verdicts .type compareTypes (withoutMethods before.types) (withoutMethods after.types) ++
        verdicts .method compareMethods before.methods after.methods

def compare (before after : Snapshot) (granularity : Granularity) : Result :=
  let found := allVerdicts granularity (collectEntities before) (collectEntities after)
  { granularity := granularity
    added := gather addedEntity? found
    removed := gather removedEntity? found
    modified := gather modification? found
    unchanged := Text.sortTexts ((found.filter fun entry => isUnchanged entry.2).map Prod.fst)
    skippedBefore := before.duplicates
    skippedAfter := after.duplicates }

end CrateAtlas.Diff
