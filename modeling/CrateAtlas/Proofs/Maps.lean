import CrateAtlas.Proofs.Sorting
import CrateAtlas.Record
import Mathlib.Data.List.Induction

/-!
What a lookup finds in maps and records. Main statements: a lookup in a map that was filled
pair by pair finds the last pair of its key, and rearranging a map whose keys are distinct
changes no lookup.
-/

namespace CrateAtlas.OrderedMap

variable {κ : Type u} {α : Type v} {β : Type w}

@[simp] theorem keys_nil : keys ([] : List (κ × α)) = [] := rfl

@[simp] theorem keys_cons (entry : κ × α) (rest : List (κ × α)) :
    keys (entry :: rest) = entry.1 :: keys rest := rfl

theorem keys_append (left right : List (κ × α)) : keys (left ++ right) = keys left ++ keys right :=
  List.map_append

def mapValues (change : κ → α → Option β) (entries : List (κ × α)) : List (κ × β) :=
  entries.filterMap fun entry => (change entry.1 entry.2).map fun value => (entry.1, value)

theorem keys_mapValues_sublist (change : κ → α → Option β) (entries : List (κ × α)) :
    (keys (mapValues change entries)).Sublist (keys entries) := by
  induction entries with
  | nil => exact .slnil
  | cons entry rest ih =>
      simp only [mapValues, List.filterMap_cons]
      cases change entry.1 entry.2 with
      | none => exact .cons _ ih
      | some value => exact .cons_cons _ ih

theorem keys_map_values (change : α → β) (entries : List (κ × α)) :
    keys (entries.map fun entry => (entry.1, change entry.2)) = keys entries := by
  simp [keys]

def tabulate (value : κ → Option α) (list : List κ) : List (κ × α) :=
  list.filterMap fun key => (value key).map fun found => (key, found)

theorem keys_tabulate_sublist (value : κ → Option α) (list : List κ) :
    (keys (tabulate value list)).Sublist list := by
  induction list with
  | nil => exact .slnil
  | cons first rest ih =>
      simp only [tabulate, List.filterMap_cons]
      cases value first with
      | none => exact .cons _ ih
      | some found => exact .cons_cons _ ih

variable [DecidableEq κ]

@[simp] theorem get?_nil (key : κ) : get? key ([] : List (κ × α)) = none := rfl

@[simp] theorem get?_cons (key : κ) (entry : κ × α) (rest : List (κ × α)) :
    get? key (entry :: rest) = if entry.1 = key then some entry.2 else get? key rest := rfl

theorem mem_keys_iff {key : κ} {entries : List (κ × α)} :
    key ∈ keys entries ↔ ∃ value, get? key entries = some value := by
  induction entries with
  | nil => simp
  | cons entry rest ih =>
      by_cases same : entry.1 = key
      · simp [same]
      · simp [same, Ne.symm same, ih]

theorem get?_eq_none_iff {key : κ} {entries : List (κ × α)} :
    get? key entries = none ↔ key ∉ keys entries := by
  rw [mem_keys_iff]
  cases get? key entries <;> simp

theorem mem_keys_iff_isSome {key : κ} {entries : List (κ × α)} :
    key ∈ keys entries ↔ (get? key entries).isSome := by
  rw [mem_keys_iff, Option.isSome_iff_exists]

theorem mem_of_get? {key : κ} {value : α} {entries : List (κ × α)}
    (found : get? key entries = some value) : (key, value) ∈ entries := by
  induction entries with
  | nil => simp at found
  | cons entry rest ih =>
      rw [get?_cons] at found
      split at found
      · rename_i same
        have entryEq : entry = (key, value) := Prod.ext same (Option.some.inj found)
        simp [entryEq]
      · exact List.mem_cons_of_mem _ (ih found)

theorem get?_of_mem {key : κ} {value : α} {entries : List (κ × α)}
    (distinct : (keys entries).Nodup) (member : (key, value) ∈ entries) :
    get? key entries = some value := by
  induction entries with
  | nil => simp at member
  | cons entry rest ih =>
      obtain ⟨fresh, restDistinct⟩ := List.nodup_cons.mp distinct
      rw [get?_cons]
      rcases List.mem_cons.mp member with same | later
      · simp [← same]
      · have different : entry.1 ≠ key := by
          intro same
          rw [same] at fresh
          exact fresh (List.mem_map_of_mem later)
        rw [if_neg different]
        exact ih restDistinct later

theorem get?_of_unique {key : κ} {value : α} {entries : List (κ × α)}
    (member : (key, value) ∈ entries) (unique : ∀ other, (key, other) ∈ entries → other = value) :
    get? key entries = some value := by
  obtain ⟨found, lookup⟩ := mem_keys_iff.mp (List.mem_map_of_mem member : key ∈ keys entries)
  rw [lookup, unique found (mem_of_get? lookup)]

theorem get?_eq_some_iff_mem {key : κ} {value : α} {entries : List (κ × α)}
    (distinct : (keys entries).Nodup) :
    get? key entries = some value ↔ (key, value) ∈ entries :=
  ⟨mem_of_get?, get?_of_mem distinct⟩

theorem mem_keys_filter {entries : List (κ × α)} (distinct : (keys entries).Nodup)
    (keep : α → Bool) {key : κ} :
    key ∈ keys (entries.filter fun entry => keep entry.2) ↔
      ∃ value, get? key entries = some value ∧ keep value := by
  simp only [get?_eq_some_iff_mem distinct, keys, List.mem_map, List.mem_filter, Prod.exists]
  constructor
  · rintro ⟨_, value, ⟨member, kept⟩, rfl⟩
    exact ⟨value, member, kept⟩
  · rintro ⟨value, member, kept⟩
    exact ⟨key, value, ⟨member, kept⟩, rfl⟩

theorem mem_keys_filter_contains {entries : List (κ × α)} {kept : List κ} {key : κ} :
    key ∈ keys (entries.filter fun entry => kept.contains entry.1) ↔
      key ∈ keys entries ∧ key ∈ kept := by
  simp only [keys, List.mem_map, List.mem_filter, List.contains_iff_mem]
  constructor
  · rintro ⟨entry, ⟨member, held⟩, rfl⟩
    exact ⟨⟨entry, member, rfl⟩, held⟩
  · rintro ⟨⟨entry, member, rfl⟩, held⟩
    exact ⟨entry, ⟨member, held⟩, rfl⟩

theorem get?_append (key : κ) (left right : List (κ × α)) :
    get? key (left ++ right) = (get? key left).or (get? key right) := by
  induction left with
  | nil => simp
  | cons entry rest ih =>
      simp only [List.cons_append, get?_cons, ih]
      split <;> simp

theorem get?_eq_of_perm {left right : List (κ × α)} (perm : left.Perm right)
    (distinct : (keys left).Nodup) (key : κ) : get? key left = get? key right := by
  have rightDistinct : (keys right).Nodup := (perm.map Prod.fst).nodup distinct
  apply Option.ext
  intro value
  rw [get?_eq_some_iff_mem distinct, get?_eq_some_iff_mem rightDistinct]
  exact perm.mem_iff

theorem get?_put (key other : κ) (value : α) (entries : List (κ × α)) :
    get? other (put key value entries) =
      if key = other then some value else get? other entries := by
  induction entries with
  | nil => rfl
  | cons entry rest ih =>
      obtain ⟨stored, old⟩ := entry
      simp only [put]
      by_cases same : stored = key
      · subst stored
        simp only [if_true, get?_cons]
        split <;> rfl
      · simp only [same, if_false, get?_cons, ih]
        by_cases found : stored = other
        · simp [found, show key ≠ other by rintro rfl; exact same found]
        · simp [found]

theorem get?_without (key other : κ) (entries : List (κ × α)) :
    get? other (entries.filter fun entry => entry.1 ≠ key) =
      if key = other then none else get? other entries := by
  induction entries with
  | nil => simp
  | cons entry rest ih =>
      by_cases dropped : entry.1 = key
      · rw [List.filter_cons_of_neg (by simpa using dropped), ih, get?_cons, dropped]
        split <;> rfl
      · rw [List.filter_cons_of_pos (by simpa using dropped), get?_cons, ih, get?_cons]
        by_cases same : entry.1 = other
        · have kept : key ≠ other := fun asked => dropped (same.trans asked.symm)
          simp [same, kept]
        · simp [same]

theorem keys_put (key : κ) (value : α) (entries : List (κ × α)) :
    keys (put key value entries) =
      if key ∈ keys entries then keys entries else keys entries ++ [key] := by
  induction entries with
  | nil => simp [put]
  | cons entry rest ih =>
      obtain ⟨stored, old⟩ := entry
      by_cases same : stored = key
      · simp [put, same]
      · simp only [put, same, if_false, keys_cons, ih, List.mem_cons, Ne.symm same, false_or]
        split <;> rfl

theorem mem_keys_put {key name : κ} {value : α} {entries : List (κ × α)} :
    name ∈ keys (put key value entries) ↔ name ∈ keys entries ∨ name = key := by
  rw [keys_put]
  split
  · rename_i stored
    simp only [iff_self_or]
    rintro rfl
    exact stored
  · simp

theorem mem_of_mem_put {key : κ} {value : α} {entries : List (κ × α)} {entry : κ × α}
    (member : entry ∈ put key value entries) : entry ∈ entries ∨ entry = (key, value) := by
  induction entries with
  | nil => exact .inr (List.mem_singleton.mp member)
  | cons first rest ih =>
      simp only [put] at member
      split at member
      · rcases List.mem_cons.mp member with rfl | later
        · exact .inr rfl
        · exact .inl (List.mem_cons_of_mem first later)
      · rcases List.mem_cons.mp member with rfl | later
        · exact .inl List.mem_cons_self
        · exact (ih later).imp_left (List.mem_cons_of_mem first)

theorem nodup_keys_put {entries : List (κ × α)} (distinct : (keys entries).Nodup) (key : κ)
    (value : α) : (keys (put key value entries)).Nodup := by
  rw [keys_put]
  split
  · exact distinct
  · rename_i fresh
    rw [List.nodup_append]
    refine ⟨distinct, List.nodup_singleton key, ?_⟩
    intro stored member other single
    rw [List.mem_singleton.mp single]
    rintro rfl
    exact fresh member

def fill (pairs start : List (κ × α)) : List (κ × α) :=
  pairs.foldl (fun entries pair => put pair.1 pair.2 entries) start

theorem get?_fill (key : κ) (pairs start : List (κ × α)) :
    get? key (fill pairs start) = (get? key pairs.reverse).or (get? key start) := by
  induction pairs generalizing start with
  | nil => simp [fill]
  | cons pair rest ih =>
      have step : fill (pair :: rest) start = fill rest (put pair.1 pair.2 start) := rfl
      rw [step, ih, get?_put, List.reverse_cons, get?_append, Option.or_assoc]
      congr 1
      simp only [get?_cons, get?_nil]
      split <;> rfl

theorem nodup_keys_fill (pairs : List (κ × α)) {start : List (κ × α)}
    (distinct : (keys start).Nodup) : (keys (fill pairs start)).Nodup := by
  induction pairs generalizing start with
  | nil => exact distinct
  | cons pair rest ih => exact ih (nodup_keys_put distinct pair.1 pair.2)

theorem nodup_keys_filled (pairs : List (κ × α)) : (keys (fill pairs [])).Nodup :=
  nodup_keys_fill pairs List.nodup_nil

theorem mem_keys_fill {key : κ} {pairs : List (κ × α)} :
    key ∈ keys (fill pairs []) ↔ key ∈ keys pairs := by
  rw [mem_keys_iff_isSome, get?_fill, get?_nil, Option.or_none, ← mem_keys_iff_isSome]
  simp [keys]

theorem mem_of_mem_fill {entry : κ × α} {pairs : List (κ × α)} (member : entry ∈ fill pairs []) :
    entry ∈ pairs := by
  have found := get?_of_mem (nodup_keys_filled pairs) member
  rw [get?_fill, get?_nil, Option.or_none] at found
  exact List.mem_reverse.mp (mem_of_get? found)

theorem put_of_fresh {key : κ} {entries : List (κ × α)} (fresh : key ∉ keys entries)
    (value : α) : put key value entries = entries ++ [(key, value)] := by
  induction entries with
  | nil => rfl
  | cons entry rest ih =>
      obtain ⟨stored, old⟩ := entry
      simp only [keys_cons, List.mem_cons, not_or] at fresh
      simp only [put, if_neg (Ne.symm fresh.1), ih fresh.2, List.cons_append]

theorem fill_of_nodup {pairs start : List (κ × α)} (distinct : (keys (start ++ pairs)).Nodup) :
    fill pairs start = start ++ pairs := by
  induction pairs generalizing start with
  | nil => simp [fill]
  | cons pair rest ih =>
      have step : fill (pair :: rest) start = fill rest (put pair.1 pair.2 start) := rfl
      have fresh : pair.1 ∉ keys start := by
        rw [keys_append, keys_cons, List.nodup_append] at distinct
        intro member
        exact distinct.2.2 pair.1 member pair.1 (by simp) rfl
      rw [step, put_of_fresh fresh, ih (by simpa using distinct), List.append_assoc]
      rfl

theorem perm_of_get?_eq {left right : List (κ × α)} (leftDistinct : (keys left).Nodup)
    (rightDistinct : (keys right).Nodup) (agree : ∀ key, get? key left = get? key right) :
    left.Perm right := by
  rw [List.perm_ext_iff_of_nodup (.of_map _ leftDistinct) (.of_map _ rightDistinct)]
  rintro ⟨key, value⟩
  rw [← get?_eq_some_iff_mem leftDistinct, ← get?_eq_some_iff_mem rightDistinct, agree]

def fillNew (pairs start : List (κ × α)) : List (κ × α) :=
  pairs.foldl (fun entries pair => putNew pair.1 pair.2 entries) start

theorem get?_putNew (key other : κ) (value : α) (entries : List (κ × α)) :
    get? other (putNew key value entries) =
      (get? other entries).or (if key = other then some value else none) := by
  by_cases stored : has key entries = true
  · by_cases same : key = other
    · subst other
      obtain ⟨old, found⟩ := Option.isSome_iff_exists.mp stored
      simp [putNew, stored, found]
    · simp [putNew, stored, same]
  · simp [putNew, stored, get?_append]

theorem get?_fillNew (key : κ) (pairs start : List (κ × α)) :
    get? key (fillNew pairs start) = (get? key start).or (get? key pairs) := by
  induction pairs generalizing start with
  | nil => simp [fillNew]
  | cons pair rest ih =>
      have step : fillNew (pair :: rest) start = fillNew rest (putNew pair.1 pair.2 start) := rfl
      rw [step, ih, get?_putNew, Option.or_assoc, get?_cons]
      split <;> rfl

theorem nodup_keys_fillNew (pairs : List (κ × α)) {start : List (κ × α)}
    (distinct : (keys start).Nodup) : (keys (fillNew pairs start)).Nodup := by
  induction pairs generalizing start with
  | nil => exact distinct
  | cons pair rest ih =>
      refine ih ?_
      simp only [putNew]
      split
      · exact distinct
      · rename_i fresh
        rw [has, ← mem_keys_iff_isSome] at fresh
        rw [keys_append, List.nodup_append]
        refine ⟨distinct, List.nodup_singleton pair.1, ?_⟩
        intro stored member other single
        rw [List.mem_singleton.mp single]
        rintro rfl
        exact fresh member

theorem get?_mapValues (change : κ → α → Option β) {entries : List (κ × α)}
    (distinct : (keys entries).Nodup) (key : κ) :
    get? key (mapValues change entries) = (get? key entries).bind (change key) := by
  induction entries with
  | nil => rfl
  | cons entry rest ih =>
      obtain ⟨fresh, restDistinct⟩ := List.nodup_cons.mp distinct
      have tail := ih restDistinct
      simp only [mapValues, List.filterMap_cons] at tail ⊢
      by_cases same : entry.1 = key
      · subst key
        have missing : get? entry.1 rest = none := get?_eq_none_iff.mpr fresh
        rw [missing] at tail
        cases found : change entry.1 entry.2 with
        | none => simpa [found] using tail
        | some value => simp [found]
      · cases change entry.1 entry.2 with
        | none => simpa [same] using tail
        | some value => simpa [same] using tail

theorem get?_map_values (change : α → β) (key : κ) (entries : List (κ × α)) :
    get? key (entries.map fun entry => (entry.1, change entry.2)) =
      (get? key entries).map change := by
  induction entries with
  | nil => rfl
  | cons entry rest ih =>
      rw [List.map_cons, get?_cons, get?_cons, ih]
      split <;> rfl

theorem get?_reverse {entries : List (κ × α)} (distinct : (keys entries).Nodup) (key : κ) :
    get? key entries.reverse = get? key entries :=
  (get?_eq_of_perm (List.reverse_perm entries).symm distinct key).symm

theorem get?_tabulate (value : κ → Option α) (list : List κ) (key : κ) :
    get? key (tabulate value list) = if key ∈ list then value key else none := by
  induction list with
  | nil => rfl
  | cons first rest ih =>
      simp only [tabulate, List.filterMap_cons] at ih ⊢
      by_cases same : first = key
      · subst key
        cases found : value first with
        | none => simp [ih, found]
        | some _ => simp
      · cases value first with
        | none => simp [ih, Ne.symm same]
        | some _ => simp [ih, same, Ne.symm same]

@[simp] theorem mem_distinct {key : κ} {list : List κ} : key ∈ distinct list ↔ key ∈ list := by
  induction list with
  | nil => rfl
  | cons first rest ih =>
      by_cases same : key = first
      · simp [distinct, same]
      · simp [distinct, same, ih]

theorem nodup_distinct (list : List κ) : (distinct list).Nodup := by
  induction list with
  | nil => exact .nil
  | cons first rest ih =>
      refine List.nodup_cons.mpr ⟨by simp, ?_⟩
      exact List.filter_sublist.nodup ih

theorem distinct_of_nodup {list : List κ} (nodup : list.Nodup) : distinct list = list := by
  induction list with
  | nil => rfl
  | cons first rest ih =>
      obtain ⟨fresh, others⟩ := List.nodup_cons.mp nodup
      rw [distinct, ih others, List.filter_eq_self.mpr]
      intro key member
      exact decide_eq_true fun same => fresh (same ▸ member)

theorem distinct_concat (list : List κ) (key : κ) :
    distinct (list ++ [key]) = if key ∈ list then distinct list else distinct list ++ [key] := by
  induction list with
  | nil => rfl
  | cons first rest ih =>
      rw [List.cons_append, distinct, ih, distinct]
      by_cases held : key ∈ rest
      · simp [held]
      · rw [if_neg held]
        by_cases same : key = first
        · simp [same]
        · simp [held, same]

theorem keys_foldl_update (empty : α) (change : β → α → α) (pairs : List (κ × β)) :
    keys (pairs.foldl (fun entries pair => update pair.1 empty (change pair.2) entries) []) =
      distinct (keys pairs) := by
  induction pairs using List.reverseRecOn with
  | nil => rfl
  | append_singleton earlier pair ih =>
      rw [List.foldl_append, List.foldl_cons, List.foldl_nil, update, keys_put, ih, keys_append,
        keys_cons, keys_nil, distinct_concat]
      simp only [mem_distinct]

end CrateAtlas.OrderedMap

namespace CrateAtlas.Record

open OrderedMap

/-- The one name under which no assignment stores a value. -/
def unassignable : String := "__proto__"

theorem foldl_assign_eq_fill (pairs start : List (String × α)) :
    pairs.foldl (fun record pair => assign pair.1 pair.2 record) start =
      fill (pairs.filter fun pair => pair.1 ≠ unassignable) start := by
  induction pairs generalizing start with
  | nil => rfl
  | cons pair rest ih =>
      rw [List.foldl_cons, ih, List.filter_cons]
      by_cases refused : pair.1 = unassignable
      · simp [assign, refused, unassignable]
      · have stored : assign pair.1 pair.2 start = put pair.1 pair.2 start := if_neg refused
        simp [stored, refused, fill]

theorem sorted_perm (record : List (String × α)) : (sorted record).Perm record :=
  Text.sortBy_perm _ record

theorem get?_sorted {record : List (String × α)} (distinct : (keys record).Nodup)
    (name : String) : get? name (sorted record) = get? name record :=
  (get?_eq_of_perm (sorted_perm record).symm distinct name).symm

theorem ascending_keys_sorted {record : List (String × α)} (distinct : (keys record).Nodup) :
    Text.Ascending (keys (sorted record)) := by
  have transitive : Std.TransCmp fun left right : String × α =>
      Text.compareText left.1 right.1 := Text.transCmp_on Text.compareText Prod.fst
  exact Text.ascending_of_sorted (List.pairwise_map.mpr (Text.sorted_sortBy _ record))
    (((sorted_perm record).map Prod.fst).nodup_iff.mpr distinct)

theorem mem_names {name : String} {record : List (String × α)} :
    name ∈ names record ↔ name ∈ keys record := by
  simp only [names, listing, List.map_append, List.mem_append, List.mem_map, keys,
    Text.mem_sortBy, List.mem_filter]
  constructor
  · rintro (⟨pair, ⟨member, _⟩, rfl⟩ | ⟨pair, ⟨member, _⟩, rfl⟩) <;> exact ⟨pair, member, rfl⟩
  · rintro ⟨pair, member, rfl⟩
    cases index : index? pair.1 with
    | none => exact .inr ⟨pair, ⟨member, by simp [index]⟩, rfl⟩
    | some position => exact .inl ⟨pair, ⟨member, by simp [index]⟩, rfl⟩

theorem nodup_names {record : List (String × α)} (distinct : (keys record).Nodup) :
    (names record).Nodup := by
  have perm : (listing record).Perm record := by
    have parts := List.filter_append_perm (fun pair => (index? pair.1).isSome) record
    simp only [Option.not_isSome] at parts
    exact ((Text.sortBy_perm _ _).append_right _).trans parts
  exact (perm.map Prod.fst).nodup_iff.mpr distinct

theorem answersTo_iff {record : List (String × α)} {name : String} :
    answersTo record name = true ↔ name ∈ keys record ∨ name ∈ inheritedNames := by
  simp [answersTo, has, mem_keys_iff_isSome]

/-- A record of which no name is an inherited one. -/
def Uninherited (record : List (String × String)) : Prop :=
  ∀ name ∈ keys record, name ∉ inheritedNames

end CrateAtlas.Record
