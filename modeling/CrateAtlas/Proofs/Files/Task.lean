import CrateAtlas.Files.Task

/-!
What comes of tasks. A task that succeeds does what its steps do one after another, and a list of
tasks leaves the tree that the last of them leaves. What every step keeps is kept by the task,
however it ends, and a task whose steps see the same on two trees answers alike on both.
-/

namespace CrateAtlas

namespace FileTask

variable {α β : Type} {before middle after : FileTree} {value : α}

def outcome (task : FileTask α) (before : FileTree) : Except Failure α × FileTree :=
  StateT.run (ExceptT.run task) before

/-- A task succeeds on a tree, gives a value and leaves a tree behind. -/
def Does (task : FileTask α) (before : FileTree) (value : α) (after : FileTree) : Prop :=
  outcome task before = (.ok value, after)

theorem Does.unique {task : FileTask α} {other : α} (does : Does task before value after)
    (again : Does task before other middle) : value = other ∧ after = middle := by
  have same := does.symm.trans again
  exact ⟨Except.ok.inj (Prod.ext_iff.mp same).1, (Prod.ext_iff.mp same).2⟩

theorem exists_does {task : FileTask α} (succeeds : (outcome task before).1.isOk) :
    ∃ value after, Does task before value after := by
  rcases answered : outcome task before with ⟨_ | value, after⟩
  · rw [answered] at succeeds
    exact absurd succeeds Bool.false_ne_true
  · exact ⟨value, after, answered⟩

theorem Does.iff {task : FileTask α} {other : α} (does : Does task before value after) :
    Does task before other middle ↔ other = value ∧ middle = after := by
  constructor
  · exact fun again => again.unique does
  · rintro ⟨rfl, rfl⟩
    exact does

theorem does_pure {other : α} :
    Does (pure value) before other after ↔ other = value ∧ after = before :=
  Does.iff rfl

theorem outcome_bind (task : FileTask α) (next : α → FileTask β) (before : FileTree) :
    outcome (task >>= next) before =
      match outcome task before with
      | (.ok value, middle) => outcome (next value) middle
      | (.error failure, middle) => (.error failure, middle) := by
  simp only [outcome, ExceptT.run_bind, StateT.run_bind]
  rcases StateT.run (ExceptT.run task) before with ⟨_ | value, middle⟩ <;> rfl

theorem does_bind {task : FileTask α} {next : α → FileTask β} {result : β} :
    Does (task >>= next) before result after ↔
      ∃ value middle, Does task before value middle ∧ Does (next value) middle result after := by
  simp only [Does, outcome_bind]
  rcases outcome task before with ⟨_ | found, between⟩
  · simp
  · constructor
    · intro does
      exact ⟨found, between, rfl, does⟩
    · rintro ⟨value, middle, same, does⟩
      simp only [Prod.mk.injEq, Except.ok.injEq] at same
      obtain ⟨rfl, rfl⟩ := same
      exact does

theorem does_get {found : FileTree} :
    Does get before found after ↔ found = before ∧ after = before :=
  Does.iff rfl

theorem not_does_throw {failure : Failure} : ¬ Does (throw failure) before value after := by
  intro does
  exact absurd (congrArg Prod.fst does) nofun

theorem does_ofExcept {answer : Except Failure α} :
    Does (ofExcept answer) before value after ↔ answer = .ok value ∧ after = before := by
  cases answer with
  | error failure => exact iff_of_false not_does_throw (by simp)
  | ok found =>
      refine does_pure.trans ?_
      rw [Except.ok.injEq, eq_comm]

theorem does_look {answer : FileTree → Except FileFault α} :
    Does (look answer) before value after ↔ answer before = .ok value ∧ after = before := by
  rw [look, does_bind]
  constructor
  · rintro ⟨_, _, got, does⟩
    obtain ⟨rfl, rfl⟩ := does_get.mp got
    split at does
    · rename_i found answered
      obtain ⟨rfl, rfl⟩ := does_pure.mp does
      exact ⟨answered, rfl⟩
    · exact absurd does not_does_throw
  · rintro ⟨answered, rfl⟩
    refine ⟨_, _, does_get.mpr ⟨rfl, rfl⟩, ?_⟩
    rw [answered]
    exact does_pure.mpr ⟨rfl, rfl⟩

theorem does_change {update : FileTree → Except FileFault FileTree} {done : Unit} :
    Does (change update) before done after ↔ update before = .ok after := by
  rw [change, does_bind]
  constructor
  · rintro ⟨tree, _, looked, does⟩
    obtain ⟨updated, rfl⟩ := does_look.mp looked
    obtain ⟨-, rfl⟩ := Does.unique does (show Does (set tree) _ () tree from rfl)
    exact updated
  · intro updated
    exact ⟨after, before, does_look.mpr ⟨updated, rfl⟩, rfl⟩

theorem does_forM_cons {task : α → FileTask Unit} {first : α} {rest : List α} {done : Unit} :
    Does ((first :: rest).forM task) before done after ↔
      ∃ middle, Does (task first) before () middle ∧ Does (rest.forM task) middle done after := by
  rw [show (first :: rest).forM task = (task first >>= fun _ => rest.forM task) from rfl, does_bind]
  exact ⟨fun ⟨_, middle, one, more⟩ => ⟨middle, one, more⟩,
    fun ⟨middle, one, more⟩ => ⟨(), middle, one, more⟩⟩

theorem does_mapM_nil {task : α → FileTask β} {results : List β} :
    Does ([].mapM task) before results after ↔ results = [] ∧ after = before :=
  does_pure

theorem does_mapM_cons {task : α → FileTask β} {first : α} {rest : List α} {results : List β} :
    Does ((first :: rest).mapM task) before results after ↔
      ∃ result others middle, results = result :: others ∧ Does (task first) before result middle ∧
        Does (rest.mapM task) middle others after := by
  simp only [List.mapM_cons, does_bind, does_pure]
  constructor
  · rintro ⟨result, middle, one, others, _, more, rfl, rfl⟩
    exact ⟨result, others, middle, rfl, one, more⟩
  · rintro ⟨result, others, middle, rfl, one, more⟩
    exact ⟨result, middle, one, others, after, more, rfl, rfl⟩

theorem does_mapM_concat {task : α → FileTask β} {front : List α} {last : α} {results : List β} :
    Does ((front ++ [last]).mapM task) before results after ↔
      ∃ others result middle, results = others ++ [result] ∧
        Does (front.mapM task) before others middle ∧ Does (task last) middle result after := by
  simp only [List.mapM_append, does_bind, does_mapM_cons, does_mapM_nil, does_pure]
  constructor
  · rintro ⟨others, middle, most, _, _, ⟨result, _, _, rfl, one, rfl, rfl⟩, rfl, rfl⟩
    exact ⟨others, result, middle, rfl, most, one⟩
  · rintro ⟨others, result, middle, rfl, most, one⟩
    exact ⟨others, middle, most, [result], after, ⟨result, [], after, rfl, one, rfl, rfl⟩, rfl, rfl⟩

section Outcomes

variable {left right : FileTree}

theorem outcome_throw (failure : Failure) (tree : FileTree) :
    outcome (throw failure : FileTask α) tree = (.error failure, tree) := rfl

theorem outcome_get (tree : FileTree) : outcome get tree = (.ok tree, tree) := rfl

theorem outcome_has (path : Path) (tree : FileTree) :
    outcome (has path) tree = (.ok (tree.has path), tree) := rfl

theorem outcome_ofExcept (answer : Except Failure α) (tree : FileTree) :
    outcome (ofExcept answer) tree = (answer, tree) := by
  cases answer <;> rfl

theorem outcome_look (answer : FileTree → Except FileFault α) (tree : FileTree) :
    outcome (look answer) tree = ((answer tree).mapError .file, tree) := by
  rw [look, outcome_bind, outcome_get]
  cases found : answer tree <;> simp only [found] <;> rfl

theorem outcome_change (update : FileTree → Except FileFault FileTree) (tree : FileTree) :
    outcome (change update) tree =
      match update tree with
      | .ok after => (.ok (), after)
      | .error fault => (.error (.file fault), tree) := by
  rw [change, outcome_bind, outcome_look]
  cases update tree <;> rfl

end Outcomes

section Moves

variable {relation : FileTree → FileTree → Prop} {task : FileTask α}

/-- However a task ends, the tree that it leaves is related to the one that it found. -/
def Moves (relation : FileTree → FileTree → Prop) (task : FileTask α) : Prop :=
  ∀ before, relation before (outcome task before).2

variable (reflexive : ∀ tree, relation tree tree)
  (transitive : ∀ first second third,
    relation first second → relation second third → relation first third)

include transitive in
theorem moves_bind_from {next : α → FileTask β} {before : FileTree}
    (first : relation before (outcome task before).2)
    (others : ∀ value middle, outcome task before = (.ok value, middle) →
      relation middle (outcome (next value) middle).2) :
    relation before (outcome (task >>= next) before).2 := by
  rw [outcome_bind]
  rcases done : outcome task before with ⟨_ | value, middle⟩
  · rwa [done] at first
  · rw [done] at first
    exact transitive before middle _ first (others value middle done)

include transitive in
theorem moves_bind {next : α → FileTask β} (first : Moves relation task)
    (others : ∀ value, Moves relation (next value)) : Moves relation (task >>= next) :=
  fun before => moves_bind_from transitive (first before) fun value middle _ => others value middle

include reflexive

theorem moves_pure (value : α) : Moves relation (pure value) :=
  reflexive

theorem moves_change {update : FileTree → Except FileFault FileTree}
    (updates : ∀ before after, update before = .ok after → relation before after) :
    Moves relation (change update) := by
  intro before
  rw [outcome_change]
  cases updated : update before with
  | ok after => exact updates before after updated
  | error fault => exact reflexive before

include transitive

theorem moves_forM {task : α → FileTask Unit} {items : List α}
    (each : ∀ item ∈ items, Moves relation (task item)) : Moves relation (items.forM task) := by
  induction items with
  | nil => exact moves_pure reflexive ()
  | cons item rest ih =>
      exact moves_bind transitive (each item List.mem_cons_self) fun _ =>
        ih fun other member => each other (List.mem_cons_of_mem item member)

theorem moves_mapM {task : α → FileTask β} {items : List α}
    (each : ∀ item ∈ items, Moves relation (task item)) : Moves relation (items.mapM task) := by
  induction items with
  | nil => exact moves_pure reflexive []
  | cons item rest ih =>
      rw [List.mapM_cons]
      refine moves_bind transitive (each item List.mem_cons_self) fun result => ?_
      refine moves_bind transitive ?_ fun others => moves_pure reflexive (result :: others)
      exact ih fun other member => each other (List.mem_cons_of_mem item member)

end Moves

section Answering

variable {left right : FileTree} {task : FileTask α} {next : α → FileTask β}

/-- The task answers alike on both trees, and leaves them as they are. -/
def AnswersAlike (left right : FileTree) (task : FileTask α) : Prop :=
  ∃ answer, outcome task left = (answer, left) ∧ outcome task right = (answer, right)

theorem alike_ofExcept (answer : Except Failure α) : AnswersAlike left right (ofExcept answer) :=
  ⟨answer, outcome_ofExcept answer left, outcome_ofExcept answer right⟩

theorem alike_pure (value : α) : AnswersAlike left right (pure value) :=
  alike_ofExcept (.ok value)

theorem alike_throw (failure : Failure) :
    AnswersAlike left right (throw failure : FileTask α) :=
  alike_ofExcept (.error failure)

theorem alike_bind (first : AnswersAlike left right task)
    (others : ∀ value, outcome task left = (.ok value, left) →
      AnswersAlike left right (next value)) :
    AnswersAlike left right (task >>= next) := by
  obtain ⟨_ | value, here, there⟩ := first
  · rename_i failure
    exact ⟨.error failure, by rw [outcome_bind, here], by rw [outcome_bind, there]⟩
  · obtain ⟨answer, more, again⟩ := others value here
    exact ⟨answer, by rw [outcome_bind, here, ← more], by rw [outcome_bind, there, ← again]⟩

theorem alike_get {next : FileTree → FileTask α} (same : next left = next right)
    (others : AnswersAlike left right (next left)) : AnswersAlike left right (get >>= next) := by
  obtain ⟨answer, here, there⟩ := others
  refine ⟨answer, by rw [outcome_bind, outcome_get, ← here], ?_⟩
  rw [outcome_bind, outcome_get, ← there, same]

theorem alike_ask {answer : FileTree → Except Failure α} (same : answer left = answer right) :
    AnswersAlike left right (ask answer) :=
  alike_get (congrArg ofExcept same) (alike_ofExcept (answer left))

theorem alike_has {path : Path} (same : left.has path = right.has path) :
    AnswersAlike left right (has path) :=
  ⟨_, outcome_has path left, same ▸ outcome_has path right⟩

theorem alike_mapM {task : α → FileTask β} {items : List α}
    (each : ∀ item ∈ items, AnswersAlike left right (task item)) :
    AnswersAlike left right (items.mapM task) := by
  induction items with
  | nil => exact alike_pure []
  | cons item rest ih =>
      rw [List.mapM_cons]
      refine alike_bind (each item List.mem_cons_self) fun result _ => ?_
      refine alike_bind ?_ fun others _ => alike_pure (result :: others)
      exact ih fun other member => each other (List.mem_cons_of_mem item member)

end Answering

end FileTask

end CrateAtlas
