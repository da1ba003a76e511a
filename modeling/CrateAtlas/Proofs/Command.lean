import CrateAtlas.Command
import Mathlib.Tactic

/-!
How the faults of a command are reported. Main statements: every fault is reported as a failure of
the command, unless it is a value that has lost its words; a document loses them to a member that
takes the place of its wording.
-/

namespace CrateAtlas

section Wording

/-- A record whose wording is hidden by a member, and a list that such a record is in. -/
inductive Json.Unworded : Json → Prop
  | record {members : List (String × Json)} :
      "toString" ∈ OrderedMap.keys members → Unworded (.record members)
  | list {items : List Json} (item : Json) : item ∈ items → Unworded item → Unworded (.list items)

theorem Json.plainItems?_cons_eq_none (item : Json) (items : List Json) :
    Json.plainItems? (item :: items) = none ↔
      item.plainText? = none ∨ Json.plainItems? items = none := by
  cases item with
  | null => simp [plainItems?, plainText?]
  | _ =>
      rw [plainItems?]
      · cases plainText? _ <;> simp
      · exact nofun

mutual

theorem Json.plainText?_eq_none (document : Json) :
    document.plainText? = none ↔ document.Unworded := by
  cases document with
  | list items =>
      rw [plainText?, Option.map_eq_none_iff, plainItems?_eq_none items]
      constructor
      · rintro ⟨item, member, unworded⟩
        exact .list item member unworded
      · intro unworded
        cases unworded with
        | list item member unworded => exact ⟨item, member, unworded⟩
  | record members =>
      rw [plainText?]
      constructor
      · intro nothing
        split at nothing
        · rename_i hidden
          exact .record (List.contains_iff_mem.mp hidden)
        · exact absurd nothing nofun
      · intro unworded
        cases unworded with
        | record member => exact if_pos (List.contains_iff_mem.mpr member)
  | _ => exact iff_of_false nofun nofun

theorem Json.plainItems?_eq_none (items : List Json) :
    Json.plainItems? items = none ↔ ∃ item ∈ items, item.Unworded := by
  cases items with
  | nil => simp [plainItems?]
  | cons item items =>
      rw [plainItems?_cons_eq_none, List.exists_mem_cons_iff, plainText?_eq_none item,
        plainItems?_eq_none items]

end

theorem Json.words_eq_error {document : Json} {failure : Failure} :
    document.words = .error failure ↔ document.Unworded ∧ failure = .wordless := by
  rw [← plainText?_eq_none, words]
  cases document.plainText? <;> simp [eq_comm]

end Wording

section Reports

def errorText : Json → String
  | .string text => text
  | _ => ""

/-- How a fault is reported: what the runner worded stays, and of the rest a missing command comes
before one that was stopped, and that before any other failure. -/
inductive Reported (invocation : Invocation) : CommandFault → String → String → Prop
  | worded (detail errors : String) : Reported invocation (.worded detail errors) detail errors
  | missing (stopped errors : Json) :
      Reported invocation (.error (.string "ENOENT") stopped errors)
        (invocation.command ++
          " not found; install @mermaid-js/mermaid-cli or set render.command") ""
  | stopped (code errors : Json) : code ≠ .string "ENOENT" →
      Reported invocation (.error code (.bool true) errors)
        (invocation.command ++ " timed out after " ++
          (Number.ofInt invocation.timeout).render ++ "ms") (errorText errors)
  | failed (code stopped errors : Json) : code ≠ .string "ENOENT" → stopped ≠ .bool true →
      Reported invocation (.error code stopped errors) (invocation.command ++ " failed")
        (errorText errors)
  | thrown (text : String) :
      Reported invocation (.value (.ok text)) (invocation.command ++ " failed: " ++ text) ""

def LosesWords (fault : CommandFault) (failure : Failure) : Prop :=
  fault = .value (.error failure)

variable {invocation : Invocation} {fault : CommandFault} {detail errors : String}

theorem Reported.failure_eq (reported : Reported invocation fault detail errors) :
    fault.failure invocation = .backend detail errors := by
  cases reported with
  | worded => rfl
  | missing => rfl
  | stopped code errors notMissing =>
      rw [CommandFault.failure.eq_def]
      dsimp only
      split
      · exact absurd rfl notMissing
      · rfl
      · exact absurd rfl ‹_›
  | failed code stopped errors notMissing notStopped =>
      rw [CommandFault.failure.eq_def]
      dsimp only
      split
      · exact absurd rfl notMissing
      · exact absurd rfl notStopped
      · rfl
  | thrown text => rfl

theorem exists_reported (invocation : Invocation) (worded : ∀ failure, ¬LosesWords fault failure) :
    ∃ detail errors, Reported invocation fault detail errors := by
  cases fault with
  | worded detail errors => exact ⟨detail, errors, .worded detail errors⟩
  | value words =>
      cases words with
      | error failure => exact absurd rfl (worded failure)
      | ok text => exact ⟨_, _, .thrown text⟩
  | error code stopped errors =>
      by_cases missing : code = .string "ENOENT"
      · subst missing
        exact ⟨_, _, .missing stopped errors⟩
      by_cases late : stopped = .bool true
      · subst late
        exact ⟨_, _, .stopped code errors missing⟩
      · exact ⟨_, _, .failed code stopped errors missing late⟩

theorem failure_of_losesWords {failure : Failure} (lost : LosesWords fault failure) :
    fault.failure invocation = failure := by
  rw [lost, CommandFault.failure]

end Reports

end CrateAtlas
