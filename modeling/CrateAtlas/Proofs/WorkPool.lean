import CrateAtlas.WorkPool
import Mathlib.Data.List.Nodup
import Mathlib.Data.List.Perm.Subperm

/-!
Pools under every order in which their tasks finish. Main statement: items are started one after
another and each of them once, no more at a time than the limit allows, and when every task
succeeds the results stand in the order of the items, whichever task finishes first.
-/

namespace CrateAtlas.WorkPool

variable {α β ε : Type} {items : List α} {task : α → Except ε β} {pool : WorkPool ε β}
  {workers : Nat}

/-- The states that a pool runs through: any of the running tasks may be the next to finish. -/
inductive Reaches (items : List α) (task : α → Except ε β) (limit : Int) : WorkPool ε β → Prop
  | start : Reaches items task limit (start items limit)
  | finish {pool : WorkPool ε β} {place : Nat} : Reaches items task limit pool →
      place < pool.running.length → Reaches items task limit (finish items task place pool)

def Finished (pool : WorkPool ε β) (index : Nat) : Prop :=
  index < pool.next ∧ index ∉ pool.running

instance (pool : WorkPool ε β) (index : Nat) : Decidable (pool.Finished index) :=
  inferInstanceAs (Decidable (_ ∧ _))

structure Orderly (items : List α) (task : α → Except ε β) (workers : Nat)
    (pool : WorkPool ε β) : Prop where
  started : pool.started = List.range pool.next
  bound : pool.next ≤ items.length
  distinct : pool.running.Nodup
  below : ∀ index ∈ pool.running, index < pool.next
  crowd : pool.running.length ≤ workers
  peak : pool.peak ≤ workers
  size : pool.results.length = items.length
  results : ∀ index < items.length, pool.results[index]? =
    some (if pool.Finished index then items[index]?.bind fun item => (task item).toOption else none)
  spotless : pool.failure = none →
    ∀ index item, pool.Finished index → items[index]? = some item → (task item).isOk
  blame : ∀ fault, pool.failure = some fault → ∃ item ∈ items, task item = .error fault

/-- As long as nothing has failed, every worker has a task, or nothing is left to start. -/
def Busy (items : List α) (workers : Nat) (pool : WorkPool ε β) : Prop :=
  pool.failure = none → pool.next = items.length ∨ pool.running.length = workers

theorem Orderly.running_le (orderly : Orderly items task workers pool) :
    pool.running.length ≤ pool.next := by
  have inside : pool.running ⊆ List.range pool.next :=
    fun index member => List.mem_range.mpr (orderly.below index member)
  simpa using (orderly.distinct.subperm inside).length_le

theorem idle_orderly (items : List α) (task : α → Except ε β) (workers : Nat) :
    Orderly items task workers (idle items) where
  started := rfl
  bound := Nat.zero_le _
  distinct := .nil
  below := by simp [idle]
  crowd := Nat.zero_le _
  peak := Nat.zero_le _
  size := by simp [idle]
  results := by
    intro index inside
    simp [idle, Finished, inside]
  spotless := by simp [idle, Finished]
  blame := by simp [idle]

section Starting

theorem startNext_of_lt (more : pool.next < items.length) :
    startNext items pool =
      { pool with
        next := pool.next + 1
        running := pool.running ++ [pool.next]
        started := pool.started ++ [pool.next]
        peak := max pool.peak (pool.running.length + 1) } :=
  if_pos more

theorem finished_startNext (index : Nat) :
    (startNext items pool).Finished index ↔ pool.Finished index := by
  by_cases more : pool.next < items.length
  · simp only [Finished, startNext_of_lt more, List.mem_append, List.mem_singleton]
    constructor
    · rintro ⟨started, idle⟩
      have other : index ≠ pool.next := fun same => idle (.inr same)
      exact ⟨by omega, fun member => idle (.inl member)⟩
    · rintro ⟨started, idle⟩
      refine ⟨by omega, ?_⟩
      rintro (member | rfl)
      · exact idle member
      · omega
  · rw [startNext, if_neg more]

theorem Orderly.startNext (orderly : Orderly items task workers pool)
    (room : pool.running.length < workers) : Orderly items task workers (startNext items pool) := by
  by_cases more : pool.next < items.length
  · have finished : ∀ index, (WorkPool.startNext items pool).Finished index ↔
        pool.Finished index := finished_startNext
    rw [startNext_of_lt more] at finished ⊢
    constructor
    · simp only [orderly.started, List.range_succ]
    · exact more
    · refine List.nodup_append.mpr ⟨orderly.distinct, List.nodup_singleton _, ?_⟩
      rintro index member _ single rfl
      have earlier := orderly.below index member
      rw [List.mem_singleton] at single
      omega
    · intro index member
      rcases List.mem_append.mp member with before | single
      · exact Nat.lt_succ_of_lt (orderly.below index before)
      · rw [List.mem_singleton.mp single]
        exact Nat.lt_succ_self _
    · rw [List.length_append]
      exact room
    · exact Nat.max_le.mpr ⟨orderly.peak, room⟩
    · exact orderly.size
    · simpa only [finished] using orderly.results
    · simpa only [finished] using orderly.spotless
    · exact orderly.blame
  · rwa [WorkPool.startNext, if_neg more]

theorem busy_startNext (bound : pool.next ≤ items.length)
    (free : pool.failure = none →
      pool.next = items.length ∨ pool.running.length + 1 = workers) :
    Busy items workers (startNext items pool) := by
  by_cases more : pool.next < items.length
  · rw [startNext_of_lt more]
    intro clean
    rcases free clean with done | full
    · omega
    · exact .inr (List.length_append.trans full)
  · rw [startNext, if_neg more]
    exact fun _ => .inl (by omega)

theorem startWorkers_of_le (all : items.length ≤ pool.next) (count : Nat) :
    startWorkers items count pool = pool := by
  induction count with
  | zero => rfl
  | succ count ih => rw [startWorkers, startNext, if_neg (by omega), ih]

theorem startWorkers_orderly {count : Nat} (orderly : Orderly items task workers pool)
    (room : pool.running.length + count ≤ workers) :
    Orderly items task workers (startWorkers items count pool) ∧
      ((startWorkers items count pool).next = items.length ∨
        (startWorkers items count pool).running.length = pool.running.length + count) := by
  induction count generalizing pool with
  | zero => exact ⟨orderly, .inr rfl⟩
  | succ count ih =>
      by_cases more : pool.next < items.length
      · have grown : (startNext items pool).running.length = pool.running.length + 1 := by
          simp [startNext_of_lt more]
        have rest := ih (orderly.startNext (by omega)) (by omega)
        rw [startWorkers]
        exact ⟨rest.1, rest.2.imp_right fun length => by omega⟩
      · have bound := orderly.bound
        rw [startWorkers_of_le (by omega)]
        exact ⟨orderly, .inl (by omega)⟩

theorem start_orderly (items : List α) (task : α → Except ε β) (limit : Int) :
    Orderly items task (min limit.toNat items.length) (start items limit) ∧
      Busy items (min limit.toNat items.length) (start items limit : WorkPool ε β) := by
  have idle := idle_orderly items task (min limit.toNat items.length)
  have room : (WorkPool.idle items : WorkPool ε β).running.length + min limit.toNat items.length ≤
      min limit.toNat items.length := by
    simp [WorkPool.idle]
  obtain ⟨orderly, busy⟩ := startWorkers_orderly idle room
  exact ⟨orderly, fun _ => busy.imp_right fun length => length.trans (Nat.zero_add _)⟩

end Starting

section Finishing

def settle (place index : Nat) (answer : Except ε β) (pool : WorkPool ε β) : WorkPool ε β :=
  { pool with
    running := pool.running.eraseIdx place
    results :=
      match answer with
      | .ok result => pool.results.set index (some result)
      | .error _ => pool.results
    failure :=
      match answer with
      | .ok _ => pool.failure
      | .error fault => pool.failure.or (some fault) }

variable {place : Nat}

theorem Orderly.finish_eq (orderly : Orderly items task workers pool)
    (inside : place < pool.running.length) :
    ∃ item, items[pool.running[place]]? = some item ∧
      finish items task place pool =
        if (task item).isOk then
          WorkPool.startNext items (settle place pool.running[place] (task item) pool)
        else settle place pool.running[place] (task item) pool := by
  have earlier := orderly.below _ (List.getElem_mem inside)
  have known : pool.running[place] < items.length := Nat.lt_of_lt_of_le earlier orderly.bound
  refine ⟨items[pool.running[place]], List.getElem?_eq_getElem known, ?_⟩
  simp only [finish, List.getElem?_eq_getElem inside, List.getElem?_eq_getElem known,
    Option.map_some]
  cases answer : task items[pool.running[place]] with
  | ok result => simp [settle, Except.isOk, Except.toBool]
  | error fault => simp [settle, Except.isOk, Except.toBool]

theorem Orderly.finished_settle (orderly : Orderly items task workers pool)
    (inside : place < pool.running.length) (answer : Except ε β) (index : Nat) :
    (settle place pool.running[place] answer pool).Finished index ↔
      pool.Finished index ∨ index = pool.running[place] := by
  have earlier := orderly.below _ (List.getElem_mem inside)
  have left : index ∈ pool.running.eraseIdx place ↔
      index ≠ pool.running[place] ∧ index ∈ pool.running := by
    rw [← orderly.distinct.erase_getElem place inside]
    exact orderly.distinct.mem_erase_iff
  simp only [Finished, settle, left]
  by_cases same : index = pool.running[place]
  · simp [same, earlier]
  · simp [same]

theorem Orderly.results_settle (orderly : Orderly items task workers pool)
    (inside : place < pool.running.length) (answer : Except ε β) {index : Nat}
    (below : index < items.length) :
    (settle place pool.running[place] answer pool).results[index]? =
      if index = pool.running[place] then some answer.toOption else pool.results[index]? := by
  cases answer with
  | ok result =>
      have size := orderly.size
      by_cases same : index = pool.running[place]
      · subst same
        simp [settle, Except.toOption, size, below]
      · simp [settle, same, Ne.symm same]
  | error fault =>
      by_cases same : index = pool.running[place]
      · have unfinished : ¬ pool.Finished index :=
          fun finished => finished.2 (same ▸ List.getElem_mem inside)
        have before := orderly.results index below
        rw [if_neg unfinished] at before
        simpa [settle, same, Except.toOption] using before
      · simp [settle, same]

theorem Orderly.settle (orderly : Orderly items task workers pool)
    (inside : place < pool.running.length) {item : α}
    (own : items[pool.running[place]]? = some item) :
    Orderly items task workers (settle place pool.running[place] (task item) pool) := by
  have finished := orderly.finished_settle inside (task item)
  constructor
  · exact orderly.started
  · exact orderly.bound
  · exact orderly.distinct.sublist (List.eraseIdx_sublist _ _)
  · exact fun index member => orderly.below index (List.mem_of_mem_eraseIdx member)
  · exact Nat.le_trans (List.eraseIdx_sublist _ _).length_le orderly.crowd
  · exact orderly.peak
  · cases answer : task item with
    | ok result => simpa [WorkPool.settle] using orderly.size
    | error fault => exact orderly.size
  · intro index below
    rw [orderly.results_settle inside _ below]
    by_cases same : index = pool.running[place]
    · simp [finished, same, own]
    · simpa [finished, same] using orderly.results index below
  · intro clean index other
    rw [finished]
    cases answer : task item with
    | error fault => simp [WorkPool.settle, answer] at clean
    | ok result =>
        have before : pool.failure = none := by simpa [WorkPool.settle, answer] using clean
        rintro (done | rfl) stands
        · exact orderly.spotless before index other done stands
        · obtain rfl := Option.some.inj (own.symm.trans stands)
          rw [answer]
          rfl
  · intro fault met
    cases answer : task item with
    | ok result => exact orderly.blame fault (by simpa [WorkPool.settle, answer] using met)
    | error latest =>
        simp only [WorkPool.settle, answer, Option.or_eq_some_iff, Option.some.injEq] at met
        rcases met with earlier | ⟨_, rfl⟩
        · exact orderly.blame fault earlier
        · exact ⟨item, List.mem_of_getElem? own, answer⟩

theorem Orderly.finish (orderly : Orderly items task workers pool)
    (inside : place < pool.running.length) :
    Orderly items task workers (finish items task place pool) := by
  obtain ⟨item, own, finished⟩ := orderly.finish_eq inside
  have settled := orderly.settle inside own
  rw [finished]
  split
  · refine settled.startNext ?_
    have crowd := orderly.crowd
    simp only [WorkPool.settle, List.length_eraseIdx, if_pos inside]
    omega
  · exact settled

theorem Orderly.busy_finish (orderly : Orderly items task workers pool)
    (busy : Busy items workers pool) (inside : place < pool.running.length) :
    Busy items workers (WorkPool.finish items task place pool) := by
  obtain ⟨item, _, finished⟩ := orderly.finish_eq inside
  rw [finished]
  cases answer : task item with
  | error fault =>
      intro clean
      simp [WorkPool.settle, Except.isOk, Except.toBool] at clean
  | ok result =>
      have shorter : (pool.running.eraseIdx place).length + 1 = pool.running.length := by
        rw [List.length_eraseIdx, if_pos inside]
        omega
      exact busy_startNext orderly.bound fun clean => (busy clean).imp_right shorter.trans

def completed (pool : WorkPool ε β) : Nat :=
  pool.next - pool.running.length

theorem Orderly.completed_finish (orderly : Orderly items task workers pool)
    (inside : place < pool.running.length) :
    (WorkPool.finish items task place pool).completed = pool.completed + 1 := by
  obtain ⟨item, _, finished⟩ := orderly.finish_eq inside
  have started := orderly.running_le
  have taken : (WorkPool.settle place pool.running[place] (task item) pool).completed =
      pool.completed + 1 := by
    simp only [completed, WorkPool.settle, List.length_eraseIdx, if_pos inside]
    omega
  rw [finished]
  split
  · -- what is started anew runs, so that it counts on both sides
    rw [← taken]
    simp only [completed, WorkPool.startNext]
    split
    · simp only [List.length_append, List.length_singleton]
      omega
    · rfl
  · exact taken

end Finishing

section Runs

variable {limit : Int}

theorem Reaches.orderly (reached : Reaches items task limit pool) :
    Orderly items task (min limit.toNat items.length) pool ∧
      Busy items (min limit.toNat items.length) pool := by
  induction reached with
  | start => exact start_orderly items task limit
  | finish _ inside ih => exact ⟨ih.1.finish inside, ih.1.busy_finish ih.2 inside⟩

theorem finish_of_idle (idle : pool.running = []) (place : Nat) :
    finish items task place pool = pool := by
  simp [finish, idle]

theorem run_of_idle (idle : pool.running = []) (order : Nat → Nat) (steps : Nat) :
    run items task order steps pool = pool := by
  induction steps with
  | zero => rfl
  | succ steps ih => rw [run, finish_of_idle idle, ih]

theorem place_lt (running : pool.running ≠ []) (pick : Nat) :
    pick % pool.running.length < pool.running.length :=
  Nat.mod_lt _ (List.length_pos_iff.mpr running)

theorem Reaches.run (reached : Reaches items task limit pool) (order : Nat → Nat) (steps : Nat) :
    Reaches items task limit (run items task order steps pool) := by
  induction steps generalizing pool with
  | zero => exact reached
  | succ steps ih =>
      rw [WorkPool.run]
      by_cases idle : pool.running = []
      · rw [finish_of_idle idle]
        exact ih reached
      · exact ih (reached.finish (place_lt idle _))

theorem Orderly.running_run (orderly : Orderly items task workers pool) (order : Nat → Nat)
    {steps : Nat} (enough : items.length ≤ pool.completed + steps) :
    (WorkPool.run items task order steps pool).running = [] := by
  induction steps generalizing pool with
  | zero =>
      have bound := orderly.bound
      have started := orderly.running_le
      simp only [completed] at enough
      exact List.length_eq_zero_iff.mp (by rw [WorkPool.run]; omega)
  | succ steps ih =>
      by_cases idle : pool.running = []
      · rw [run_of_idle idle]
        exact idle
      · have inside := place_lt idle (order steps)
        have counted := orderly.completed_finish inside
        exact ih (orderly.finish inside) (by omega)

theorem Reaches.next_of_idle (reached : Reaches items task limit pool) (positive : 1 ≤ limit)
    (clean : pool.failure = none) (idle : pool.running = []) : pool.next = items.length := by
  obtain ⟨orderly, busy⟩ := reached.orderly
  have bound := orderly.bound
  rcases busy clean with done | full
  · exact done
  · rw [idle, List.length_nil] at full
    omega

theorem Orderly.results_of_idle (orderly : Orderly items task workers pool)
    (next : pool.next = items.length) (idle : pool.running = []) :
    pool.results = items.map fun item => (task item).toOption := by
  apply List.ext_getElem?
  intro index
  by_cases inside : index < items.length
  · have finished : pool.Finished index := ⟨by omega, by simp [idle]⟩
    rw [orderly.results index inside, if_pos finished, List.getElem?_eq_getElem inside,
      List.getElem?_map, List.getElem?_eq_getElem inside]
    rfl
  · have size := orderly.size
    rw [List.getElem?_eq_none (by omega), List.getElem?_eq_none (by simpa using inside)]

theorem Reaches.outcome_eq_ok (reached : Reaches items task limit pool) (positive : 1 ≤ limit)
    (idle : pool.running = []) {results : List (Option β)} :
    pool.outcome = .ok results ↔ (∀ item ∈ items, (task item).isOk) ∧
      results = items.map fun item => (task item).toOption := by
  have orderly := reached.orderly.1
  rw [outcome]
  cases failed : pool.failure with
  | none =>
      have next := reached.next_of_idle positive failed idle
      have allOk : ∀ item ∈ items, (task item).isOk := by
        intro item member
        obtain ⟨index, inside, rfl⟩ := List.mem_iff_getElem.mp member
        exact orderly.spotless failed index items[index] ⟨by omega, by simp [idle]⟩
          (List.getElem?_eq_getElem inside)
      rw [← orderly.results_of_idle next idle, Except.ok.injEq]
      exact ⟨fun same => ⟨allOk, same.symm⟩, fun facts => facts.2.symm⟩
  | some fault =>
      obtain ⟨item, member, broken⟩ := orderly.blame fault failed
      simp only [reduceCtorEq, false_iff, not_and]
      intro allOk
      have fine := allOk item member
      simp [broken, Except.isOk, Except.toBool] at fine

theorem map_eq_map_ok {values : List β} :
    items.map task = values.map Except.ok ↔ (∀ item ∈ items, (task item).isOk) ∧
      (items.map fun item => (task item).toOption) = values.map some := by
  induction items generalizing values with
  | nil => cases values <;> simp
  | cons first rest ih =>
      cases values with
      | nil => simp
      | cons value others =>
          simp only [List.map_cons, List.cons.injEq, ih, List.forall_mem_cons]
          cases task first with
          | ok result =>
              simp only [Except.ok.injEq, Except.toOption, Option.some.injEq]
              exact ⟨fun ⟨same, fine, restSame⟩ => ⟨⟨rfl, fine⟩, same, restSame⟩,
                fun ⟨⟨_, fine⟩, same, restSame⟩ => ⟨same, fine, restSame⟩⟩
          | error fault => simp [Except.isOk, Except.toBool]

/-- Work on a list succeeds exactly when every task does, in whatever order the tasks finish, and
gives their results in the order of the list. -/
theorem Reaches.outcome_eq_map_some (reached : Reaches items task limit pool)
    (positive : 1 ≤ limit) (idle : pool.running = []) {values : List β} :
    pool.outcome = .ok (values.map some) ↔ items.map task = values.map Except.ok := by
  rw [reached.outcome_eq_ok positive idle, map_eq_map_ok]
  exact and_congr_right fun _ => eq_comm

end Runs

/-- However its tasks finish, a pool starts the items in their order, each of them once, and no more
at a time than the limit allows. Every run comes to rest, and when all tasks succeed a pool at rest
has started every item and has the result of each item in its place. -/
theorem pool_keeps_order (items : List α) (task : α → Except ε β) {limit : Int}
    (positive : 1 ≤ limit) :
    (∀ pool, Reaches items task limit pool →
      pool.started = List.range pool.started.length ∧ pool.started.Nodup ∧
        (∀ index ∈ pool.started, index < items.length) ∧ pool.running ⊆ pool.started ∧
        pool.running.length ≤ min limit.toNat items.length ∧
        pool.peak ≤ min limit.toNat items.length) ∧
      (∀ order steps, Reaches items task limit (run items task order steps (start items limit))) ∧
      (∀ order steps, items.length ≤ steps →
        (run items task order steps (start items limit)).running = []) ∧
      ∀ result : α → β, (∀ item ∈ items, task item = .ok (result item)) →
        ∀ pool, Reaches items task limit pool → pool.running = [] →
          pool.started = List.range items.length ∧
            pool.outcome = .ok (items.map fun item => some (result item)) := by
  refine ⟨?_, fun order steps => Reaches.start.run order steps, ?_, ?_⟩
  · intro pool reached
    have orderly := reached.orderly.1
    have bound := orderly.bound
    refine ⟨?_, ?_, ?_, ?_, orderly.crowd, orderly.peak⟩
    · rw [orderly.started, List.length_range]
    · rw [orderly.started]
      exact List.nodup_range
    · intro index member
      rw [orderly.started, List.mem_range] at member
      omega
    · intro index member
      rw [orderly.started, List.mem_range]
      exact orderly.below index member
  · intro order steps enough
    exact (start_orderly items task limit).1.running_run order (by omega)
  · intro result succeeds pool reached idle
    have answers : items.map task = (items.map result).map Except.ok := by
      rw [List.map_map]
      exact List.map_congr_left succeeds
    have ended := (reached.outcome_eq_map_some positive idle).mpr answers
    have clean : pool.failure = none := by
      cases failed : pool.failure with
      | none => rfl
      | some fault => simp [outcome, failed] at ended
    rw [List.map_map] at ended
    refine ⟨?_, ended⟩
    rw [reached.orderly.1.started, reached.next_of_idle positive clean idle]

def halve (number : Nat) : Except String Nat :=
  if number % 2 = 0 then .ok (number / 2) else .error "odd"

/-- Two workers, and the younger of the running tasks always finishes first. -/
theorem pool_keeps_order_evens :
    (1 : Int) ≤ 2 ∧ (∀ item ∈ [8, 2, 6, 4], halve item = .ok (item / 2)) ∧
      (run [8, 2, 6, 4] halve (fun _ => 1) 4 (start [8, 2, 6, 4] 2)).started = [0, 1, 2, 3] ∧
      (run [8, 2, 6, 4] halve (fun _ => 1) 4 (start [8, 2, 6, 4] 2)).outcome =
        .ok [some 4, some 1, some 3, some 2] ∧
      (run [8, 2, 6, 4] halve (fun _ => 1) 4 (start [8, 2, 6, 4] 2)).peak ≤ 2 := by
  have succeeds : ∀ item ∈ [8, 2, 6, 4], halve item = .ok (item / 2) := by decide
  obtain ⟨safe, reached, rests, ends⟩ :=
    pool_keeps_order [8, 2, 6, 4] halve (show (1 : Int) ≤ 2 by decide)
  have last := reached (fun _ => 1) 4
  obtain ⟨started, ended⟩ := ends (· / 2) succeeds _ last (rests (fun _ => 1) 4 (by decide))
  obtain ⟨-, -, -, -, -, peak⟩ := safe _ last
  exact ⟨by decide, succeeds, started, ended, peak⟩

end CrateAtlas.WorkPool
