/-!
# Batches of tasks

Several tasks are worked on at once, up to a limit, and their results are gathered in the order of
the tasks.  The first task to fail cancels the batch: tasks that have not begun to work yet give up,
and the batch fails with the first failure.

The order in which tasks make progress is open.  A batch is therefore a state that moves: the next
task is started when a place is free, or a started task takes its next step.  A schedule is a list of
moves, of which the impossible ones do nothing.  `Batch.run` uses the plainest schedule, one task
after the other.

A task first looks whether the batch has been cancelled, then works, and leaves its place at the end.
A failure is recorded before the batch is cancelled, and the batch is cancelled before the failing
task leaves its place.
-/

set_option autoImplicit false

namespace RvCodec

namespace Batch

/-- What a started task does next. -/
inductive Phase where
  /-- It looks whether the batch has been cancelled. -/
  | looking
  | working
  /-- It has recorded a failure and cancels the batch. -/
  | failing
  | leaving
  deriving DecidableEq, Repr

inductive Move where
  | start
  /-- A started task takes its next step. -/
  | advance (task : Nat)
  deriving DecidableEq, Repr

structure State (ε α : Type) where
  next : Nat
  /-- The started tasks that hold a place. -/
  running : List (Nat × Phase)
  results : List (Option α)
  failure : Option ε
  /-- The tasks are told to give up. -/
  cancelled : Bool

namespace State

variable {ε α : Type}

/-- A batch of so many tasks before anything has happened. -/
def initial (size : Nat) : State ε α := ⟨0, [], List.replicate size none, none, false⟩

/-- All tasks have been started and have left. -/
def isDone (s : State ε α) (size : Nat) : Bool := s.next == size && s.running.isEmpty

def phase? (s : State ε α) (task : Nat) : Option Phase :=
  (s.running.find? (·.1 = task)).map (·.2)

def enter (s : State ε α) (task : Nat) (phase : Phase) : State ε α :=
  { s with running := s.running.map fun r => if r.1 = task then (task, phase) else r }

/-- The state with a failure of a task recorded, if it is the first one. -/
def record (s : State ε α) (task : Nat) (e : ε) : State ε α :=
  { s with failure := s.failure.or (some e) }.enter task .failing

/-- One step of a started task, whose work has this outcome. -/
def advance (cancellation : ε) (s : State ε α) (task : Nat) (outcome : Except ε α) : State ε α :=
  match s.phase? task with
  | none => s
  | some .looking => if s.cancelled then s.record task cancellation else s.enter task .working
  | some .working =>
    match outcome with
    | .ok a => { s with results := s.results.set task (some a) }.enter task .leaving
    | .error e => s.record task e
  | some .failing => { s with cancelled := true }.enter task .leaving
  | some .leaving => { s with running := s.running.filter (·.1 ≠ task) }

/-- A move, when the tasks have these outcomes and so many of them may hold a place. -/
def move (limit : Nat) (cancellation : ε) (tasks : List (Except ε α)) (s : State ε α) :
    Move → State ε α
  | .start =>
    if s.next < tasks.length && s.running.length < limit then
      { s with next := s.next + 1, running := s.running ++ [(s.next, .looking)] }
    else s
  | .advance task =>
    match tasks[task]? with
    | some outcome => s.advance cancellation task outcome
    | none => s

/-- The state after a schedule. -/
def follow (limit : Nat) (cancellation : ε) (tasks : List (Except ε α)) (s : State ε α)
    (schedule : List Move) : State ε α :=
  schedule.foldl (move limit cancellation tasks) s

def outcome (s : State ε α) : Except ε (List α) :=
  match s.failure with
  | some e => .error e
  | none => .ok (s.results.filterMap id)

end State

variable {ε α : Type}

/-- The number of places for a configured number of jobs: at least one. -/
def places (jobs : Int) : Nat := (max jobs 1).toNat

/-- The schedule that finishes each task before the next one is started. -/
def sequential (size : Nat) : List Move :=
  (List.range size).flatMap fun task =>
    [.start, .advance task, .advance task, .advance task, .advance task]

def run (jobs : Int) (cancellation : ε) (tasks : List (Except ε α)) : Except ε (List α) :=
  ((State.initial tasks.length).follow (places jobs) cancellation tasks
    (sequential tasks.length)).outcome

end Batch

end RvCodec
