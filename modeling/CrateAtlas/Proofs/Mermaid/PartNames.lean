import CrateAtlas.Proofs.Mermaid.Blocks
import Mathlib.Data.List.Nodup

/-!
The names of the parts of a split. Main statement: they are different exactly when no subgraph bears
a name that a count makes of the name of others.
-/

namespace CrateAtlas.Mermaid

open Text

section Counts

/-- The name of the first, second, … of several subgraphs with one name. -/
def counted (base : String) (count : Nat) : String :=
  if count = 1 then base else base ++ "_" ++ toString count

variable {left right base : String} {m n count : Nat}

theorem counted_one (base : String) : counted base 1 = base := if_pos rfl

theorem toString_injective : Function.Injective (toString : Nat → String) := by
  intro m n same
  have digits : Nat.toDigits 10 m = Nat.toDigits 10 n := by
    simpa using congrArg String.toList same
  have read := congrArg (Nat.ofDigitChars 10 · 0) digits
  simpa using read

theorem counted_injective (several : m ≠ 1) (many : n ≠ 1)
    (same : counted left m = counted right n) : left = right ∧ m = n := by
  -- Digits hold no underscore, so the last one parts the name from its count.
  have pieces (base : String) (count : Nat) : splitText '_' (base ++ "_" ++ toString count) =
      splitText '_' base ++ [toString count] := by
    have free : '_' ∉ (toString count).toList := by
      rw [Nat.toString_eq_repr, Nat.toList_repr]
      exact Nat.underscore_not_in_toDigits
    have characters : (base ++ "_" ++ toString count).toList =
        base.toList ++ '_' :: (toString count).toList := by simp
    rw [splitText, characters, splitOn_append_mark, splitOn_of_not_mem free, List.map_append,
      List.map_singleton, String.ofList_toList, splitText]
  rw [counted, counted, if_neg several, if_neg many] at same
  have halves := congrArg (splitText '_') same
  rw [pieces, pieces] at halves
  obtain ⟨bases, counts⟩ := List.append_inj' halves rfl
  exact ⟨splitText_injective '_' bases, toString_injective (List.cons.inj counts).1⟩

theorem partName_eq (taken : List String) (base : String) :
    partName taken base = counted base (taken.count base + 1) := by
  have length : (taken.filter (· = base)).length = taken.count base := by
    rw [List.count_eq_length_filter]
    rfl
  simp only [partName, counted, length]

end Counts

section Occurrences

variable {taken bases : List String} {base : String} {count : Nat}

def occurrences (taken : List String) : List String → List (String × Nat)
  | [] => []
  | base :: rest => (base, taken.count base + 1) :: occurrences (base :: taken) rest

theorem partNames_eq (taken bases : List String) :
    partNames taken bases = (occurrences taken bases).map fun found => counted found.1 found.2 := by
  induction bases generalizing taken with
  | nil => rfl
  | cons base rest ih => rw [partNames, occurrences, ih, partName_eq, List.map_cons]

theorem mem_occurrences :
    (base, count) ∈ occurrences taken bases ↔
      taken.count base < count ∧ count ≤ taken.count base + bases.count base := by
  induction bases generalizing taken with
  | nil =>
      simp [occurrences]
  | cons first rest ih =>
      rw [occurrences, List.mem_cons, ih, Prod.mk.injEq]
      by_cases same : base = first
      · subst same
        simp only [List.count_cons_self, true_and]
        omega
      · rw [List.count_cons_of_ne (Ne.symm same), List.count_cons_of_ne (Ne.symm same)]
        simp [same]

theorem mem_occurrences_nil :
    (base, count) ∈ occurrences [] bases ↔ 1 ≤ count ∧ count ≤ bases.count base := by
  rw [mem_occurrences, List.count_nil, Nat.zero_add]
  rfl

theorem nodup_occurrences (taken bases : List String) : (occurrences taken bases).Nodup := by
  induction bases generalizing taken with
  | nil => exact List.nodup_nil
  | cons first rest ih =>
      refine List.nodup_cons.mpr ⟨?_, ih _⟩
      rw [mem_occurrences, List.count_cons_self]
      omega

theorem mem_partNames {name : String} :
    name ∈ partNames [] bases ↔
      ∃ base count, 1 ≤ count ∧ count ≤ bases.count base ∧ name = counted base count := by
  rw [partNames_eq, List.mem_map]
  constructor
  · rintro ⟨⟨base, count⟩, found, rfl⟩
    obtain ⟨low, high⟩ := mem_occurrences_nil.mp found
    exact ⟨base, count, low, high, rfl⟩
  · rintro ⟨base, count, low, high, rfl⟩
    exact ⟨(base, count), mem_occurrences_nil.mpr ⟨low, high⟩, rfl⟩

theorem nodup_partNames_iff :
    (partNames [] bases).Nodup ↔
      ∀ base count, 2 ≤ count → count ≤ bases.count base → counted base count ∉ bases := by
  rw [partNames_eq, List.nodup_map_iff_inj_on (nodup_occurrences [] bases)]
  constructor
  · intro apart base count several high member
    have bare : (counted base count, 1) ∈ occurrences [] bases :=
      mem_occurrences_nil.mpr ⟨le_rfl, List.one_le_count_iff.mpr member⟩
    have same := apart _ (mem_occurrences_nil.mpr ⟨by omega, high⟩) _ bare (counted_one _).symm
    have single : count = 1 := (Prod.mk.inj same).2
    omega
  · rintro free ⟨left, m⟩ inLeft ⟨right, n⟩ inRight same
    obtain ⟨leftLow, leftHigh⟩ := mem_occurrences_nil.mp inLeft
    obtain ⟨rightLow, rightHigh⟩ := mem_occurrences_nil.mp inRight
    dsimp only at same
    by_cases first : m = 1
    · by_cases second : n = 1
      · rw [first, second, counted_one, counted_one] at same
        rw [first, second, same]
      · rw [first, counted_one] at same
        have member : left ∈ bases := List.one_le_count_iff.mp (by omega)
        exact absurd (same ▸ member) (free right n (by omega) rightHigh)
    · by_cases second : n = 1
      · rw [second, counted_one] at same
        have member : right ∈ bases := List.one_le_count_iff.mp (by omega)
        exact absurd (same ▸ member) (free left m (by omega) leftHigh)
      · obtain ⟨rfl, rfl⟩ := counted_injective first second same
        rfl

end Occurrences

section Splitting

/-- Parts are named after their blocks, the later ones of one name with a count. Their names are
different exactly when no block bears such a name with a count itself. -/
theorem part_names_distinct_iff {text : String} {parts : List Part}
    (splits : split text = .ok parts) :
    ∃ blocks, TopBlocks (linesOf text) blocks ∧
      (∀ name, name ∈ parts.map Part.name ↔
        ∃ base count, 1 ≤ count ∧ count ≤ ((filledBlocks blocks).map blockName).count base ∧
          name = counted base count) ∧
      ((parts.map Part.name).Nodup ↔
        ∀ base count, 2 ≤ count → count ≤ ((filledBlocks blocks).map blockName).count base →
          counted base count ∉ (filledBlocks blocks).map blockName) := by
  obtain ⟨blocks, top, names, _⟩ := parts_of_split splits
  rw [names]
  exact ⟨blocks, top, fun _ => mem_partNames, nodup_partNames_iff⟩

def wings : String :=
  "flowchart LR\nsubgraph Wing\nHall\nend\nsubgraph Yard\nend\nsubgraph Wing\nAttic\nend\n"

theorem part_names_distinct_of_wings :
    (∃ parts, split wings = .ok parts ∧ parts.map Part.name = ["Wing", "Wing_2"]) ∧
      ∃ blocks, TopBlocks (linesOf wings) blocks ∧
        ∀ base count, 2 ≤ count → count ≤ ((filledBlocks blocks).map blockName).count base →
          counted base count ∉ (filledBlocks blocks).map blockName := by
  have splits : split wings = .ok
      [⟨"Wing", "flowchart TB\n    subgraph Wing\n        Hall\n    end\n"⟩,
        ⟨"Wing_2", "flowchart TB\n    subgraph Wing\n        Attic\n    end\n"⟩] := by
    decide +kernel
  obtain ⟨blocks, top, _, distinct⟩ := part_names_distinct_iff splits
  exact ⟨⟨_, splits, rfl⟩, blocks, top, distinct.mp (by decide)⟩

/-- The second of two subgraphs gets the name that another one bears. -/
theorem split_repeats_name :
    ∃ parts, split ("flowchart TB\nsubgraph A\nx\nend\nsubgraph A_2\ny\nend\n" ++
        "subgraph A\nz\nend\n") = .ok parts ∧ ¬(parts.map Part.name).Nodup :=
  ⟨[⟨"A", "flowchart TB\n    subgraph A\n        x\n    end\n"⟩,
      ⟨"A_2", "flowchart TB\n    subgraph A_2\n        y\n    end\n"⟩,
      ⟨"A_2", "flowchart TB\n    subgraph A\n        z\n    end\n"⟩],
    by decide +kernel⟩

end Splitting

end CrateAtlas.Mermaid
