/-!
Pools that run a task on every item of a list, a bounded number at a time. A worker that
finishes an item starts the next one; results stand in the order of the items, whatever the
order in which the running tasks finish.
-/

namespace CrateAtlas

/-- The state of a pool; items are known by their positions. -/
structure WorkPool (ε β : Type) where
  next : Nat
  running : List Nat
  started : List Nat
  peak : Nat
  results : List (Option β)
  failure : Option ε
  deriving DecidableEq, Repr

namespace WorkPool

variable {α β ε : Type}

def idle (items : List α) : WorkPool ε β :=
  { next := 0
    running := []
    started := []
    peak := 0
    results := List.replicate items.length none
    failure := none }

def startNext (items : List α) (pool : WorkPool ε β) : WorkPool ε β :=
  if pool.next < items.length then
    { pool with
      next := pool.next + 1
      running := pool.running ++ [pool.next]
      started := pool.started ++ [pool.next]
      peak := max pool.peak (pool.running.length + 1) }
  else pool

def startWorkers (items : List α) : Nat → WorkPool ε β → WorkPool ε β
  | 0, pool => pool
  | workers + 1, pool => startWorkers items workers (startNext items pool)

def start (items : List α) (limit : Int) : WorkPool ε β :=
  startWorkers items (min limit.toNat items.length) (idle items)

def finish (items : List α) (task : α → Except ε β) (place : Nat) (pool : WorkPool ε β) :
    WorkPool ε β :=
  match pool.running[place]? with
  | none => pool
  | some index =>
      let rest := { pool with running := pool.running.eraseIdx place }
      match items[index]?.map task with
      | none => rest
      | some (.ok result) =>
          startNext items { rest with results := rest.results.set index (some result) }
      | some (.error failure) => { rest with failure := rest.failure.or (some failure) }

/-- Runs until every task is finished; `order` picks the one that finishes next among those
that run. -/
def run (items : List α) (task : α → Except ε β) (order : Nat → Nat) :
    Nat → WorkPool ε β → WorkPool ε β
  | 0, pool => pool
  | steps + 1, pool =>
      run items task order steps
        (finish items task (order steps % pool.running.length) pool)

def runAll (items : List α) (limit : Int) (task : α → Except ε β) : WorkPool ε β :=
  run items task (fun _ => 0) items.length (start items limit)

def outcome (pool : WorkPool ε β) : Except ε (List (Option β)) :=
  match pool.failure with
  | some failure => .error failure
  | none => .ok pool.results

def mapAll (items : List α) (limit : Int) (task : α → Except ε β) : Except ε (List β) :=
  (runAll items limit task).outcome.map fun results => results.filterMap id

end WorkPool

end CrateAtlas
