import RvCodec.Batch
import RvCodec.Proofs.Outcomes

/-!
# Batches under every schedule

The tasks of a batch share the list of results, the first failure and the mark
of cancellation, and any of them may move next.  What comes out does not depend
on that: when the batch is done, it has the results of all its tasks in their
order, or the failure of one of them (`gathers_of_isDone`).

`Step` lists what a batch can do.  Two things are carried through every step.
`Orderly` keeps the places: no task holds two of them.  `Faithful` keeps the
record: a result is the result of its task, a failure is the failure of some
task, and a task that has its work behind it has left the one or the other.  A
task that gives up because of the cancellation is no exception, since the batch
is only cancelled after a failure has been recorded.
-/

set_option autoImplicit false

namespace RvCodec.Batch

variable {ε α : Type} {limit : Nat} {cancellation : ε} {tasks : List (Except ε α)}

/-! ## Steps -/

/-- What a batch does next. -/
inductive Step (limit : Nat) (cancellation : ε) (tasks : List (Except ε α)) (s : State ε α) :
    State ε α → Prop where
  | start (waiting : s.next < tasks.length) (free : s.running.length < limit) :
      Step limit cancellation tasks s
        { s with next := s.next + 1, running := s.running ++ [(s.next, .looking)] }
  | begin {task : Nat} (holds : (task, .looking) ∈ s.running) :
      Step limit cancellation tasks s (s.enter task .working)
  | giveUp {task : Nat} (holds : (task, .looking) ∈ s.running) (told : s.cancelled = true) :
      Step limit cancellation tasks s (s.record task cancellation)
  | succeed {task : Nat} {a : α} (holds : (task, .working) ∈ s.running)
      (outcome : tasks[task]? = some (.ok a)) :
      Step limit cancellation tasks s
        ({ s with results := s.results.set task (some a) }.enter task .leaving)
  | fail {task : Nat} {e : ε} (holds : (task, .working) ∈ s.running)
      (outcome : tasks[task]? = some (.error e)) :
      Step limit cancellation tasks s (s.record task e)
  | cancel {task : Nat} (holds : (task, .failing) ∈ s.running) :
      Step limit cancellation tasks s ({ s with cancelled := true }.enter task .leaving)
  | leave {task : Nat} (holds : (task, .leaving) ∈ s.running) :
      Step limit cancellation tasks s
        { s with running := s.running.filter fun r => r.1 ≠ task }

namespace State

variable {s : State ε α} {task : Nat}

theorem mem_of_phase? {phase : Phase} (found : s.phase? task = some phase) :
    (task, phase) ∈ s.running := by
  obtain ⟨r, first, rfl⟩ := Option.map_eq_some_iff.mp found
  have same : r.1 = task := by simpa using List.find?_some first
  rw [← same]
  exact List.mem_of_find?_eq_some first

/-- A task that is advanced takes a step, unless it holds no place. -/
theorem advance_cases {outcome : Except ε α} (given : tasks[task]? = some outcome) :
    (s.phase? task = none ∧ s.advance cancellation task outcome = s) ∨
      Step limit cancellation tasks s (s.advance cancellation task outcome) := by
  cases found : s.phase? task with
  | none => exact .inl ⟨rfl, by simp only [advance, found]⟩
  | some phase =>
    have holds := mem_of_phase? found
    refine .inr ?_
    cases phase with
    | looking =>
      simp only [advance, found]
      split
      · next told => exact .giveUp holds told
      · exact .begin holds
    | working =>
      cases outcome with
      | ok a =>
        simp only [advance, found]
        exact .succeed holds given
      | error e =>
        simp only [advance, found]
        exact .fail holds given
    | failing =>
      simp only [advance, found]
      exact .cancel holds
    | leaving =>
      simp only [advance, found]
      exact .leave holds

theorem move_start (waiting : s.next < tasks.length) (free : s.running.length < limit) :
    s.move limit cancellation tasks .start =
      { s with next := s.next + 1, running := s.running ++ [(s.next, .looking)] } := by
  simp [move, waiting, free]

/-- **A move is a step or does nothing.** -/
theorem move_cases (limit : Nat) (cancellation : ε) (tasks : List (Except ε α)) (s : State ε α)
    (m : Move) :
    s.move limit cancellation tasks m = s ∨
      Step limit cancellation tasks s (s.move limit cancellation tasks m) := by
  cases m with
  | start =>
    simp only [move]
    split
    · next possible =>
      obtain ⟨waiting, free⟩ := (Bool.and_eq_true _ _).mp possible
      exact .inr (.start (of_decide_eq_true waiting) (of_decide_eq_true free))
    · exact .inl rfl
  | advance task =>
    simp only [move]
    cases given : tasks[task]? with
    | none => exact .inl rfl
    | some outcome => exact (advance_cases given).imp And.right id

/-! ## Places -/

theorem mem_enter {phase phase' : Phase} {k : Nat} :
    (k, phase') ∈ (s.enter task phase).running ↔
      (k = task ∧ phase' = phase ∧ ∃ before, (task, before) ∈ s.running) ∨
        (k ≠ task ∧ (k, phase') ∈ s.running) := by
  simp only [enter, List.mem_map]
  constructor
  · intro entry
    obtain ⟨⟨k', before⟩, member, same⟩ := entry
    dsimp only at same
    split at same
    · next here =>
      obtain ⟨rfl, rfl⟩ := Prod.mk.inj same
      exact .inl ⟨rfl, rfl, before, here ▸ member⟩
    · next elsewhere =>
      obtain ⟨rfl, rfl⟩ := Prod.mk.inj same
      exact .inr ⟨elsewhere, member⟩
  · intro entry
    rcases entry with ⟨rfl, rfl, before, member⟩ | ⟨elsewhere, member⟩
    · exact ⟨(k, before), member, if_pos rfl⟩
    · exact ⟨(k, phase'), member, if_neg elsewhere⟩

theorem map_fst_enter (phase : Phase) :
    (s.enter task phase).running.map Prod.fst = s.running.map Prod.fst := by
  rw [enter, List.map_map]
  refine List.map_congr_left ?_
  intro r _
  dsimp only [Function.comp_apply]
  split
  · next same => exact same.symm
  · rfl

/-- The started tasks that hold a place are told apart by their numbers. -/
structure Orderly (tasks : List (Except ε α)) (s : State ε α) : Prop where
  size : s.results.length = tasks.length
  started : s.next ≤ tasks.length
  nodup : (s.running.map Prod.fst).Nodup
  below : ∀ k ∈ s.running.map Prod.fst, k < s.next

theorem initial_orderly : (initial tasks.length : State ε α).Orderly tasks where
  size := List.length_replicate
  started := Nat.zero_le _
  nodup := List.nodup_nil
  below k member := by cases member

namespace Orderly

theorem phase_unique (orderly : s.Orderly tasks) {phase phase' : Phase}
    (first : (task, phase) ∈ s.running) (second : (task, phase') ∈ s.running) :
    phase = phase' :=
  congrArg Prod.snd (List.inj_on_of_nodup_map orderly.nodup first second rfl)

/-- Only the numbers of the tasks that hold places matter. -/
theorem of_numbers {s' : State ε α} (orderly : s.Orderly tasks)
    (size : s'.results.length = s.results.length) (next : s'.next = s.next)
    (numbers : s'.running.map Prod.fst = s.running.map Prod.fst) : s'.Orderly tasks where
  size := size.trans orderly.size
  started := next ▸ orderly.started
  nodup := numbers ▸ orderly.nodup
  below := by
    rw [numbers, next]
    exact orderly.below

end Orderly

end State

theorem Step.orderly {s s' : State ε α} (step : Step limit cancellation tasks s s')
    (orderly : s.Orderly tasks) : s'.Orderly tasks := by
  cases step with
  | start waiting free =>
    refine ⟨orderly.size, waiting, ?_, ?_⟩
    · rw [List.map_append, List.map_singleton]
      refine List.nodup_append.mpr ⟨orderly.nodup, List.nodup_singleton _, ?_⟩
      intro k member k' last
      rw [List.mem_singleton.mp last]
      exact Nat.ne_of_lt (orderly.below k member)
    · intro k member
      rw [List.map_append, List.map_singleton, List.mem_append, List.mem_singleton] at member
      rcases member with earlier | rfl
      · exact Nat.lt_succ_of_lt (orderly.below k earlier)
      · exact Nat.lt_succ_self _
  | begin holds => exact orderly.of_numbers rfl rfl (State.map_fst_enter _)
  | giveUp holds told => exact orderly.of_numbers rfl rfl (State.map_fst_enter _)
  | succeed holds outcome =>
    exact orderly.of_numbers List.length_set rfl (State.map_fst_enter _)
  | fail holds outcome => exact orderly.of_numbers rfl rfl (State.map_fst_enter _)
  | cancel holds => exact orderly.of_numbers rfl rfl (State.map_fst_enter _)
  | @leave task holds =>
    have fewer : (s.running.filter fun r => r.1 ≠ task).Sublist s.running := List.filter_sublist
    refine ⟨orderly.size, orderly.started, orderly.nodup.sublist (fewer.map _), ?_⟩
    intro k member
    exact orderly.below k ((fewer.map _).subset member)

/-! ## The record -/

namespace State

/-- What the batch has recorded comes from its tasks, and nothing is missing of the tasks that have
left or are about to leave. -/
structure Faithful (tasks : List (Except ε α)) (s : State ε α) : Prop where
  sound : ∀ (k : Nat) (a : α), s.results[k]? = some (some a) → tasks[k]? = some (.ok a)
  failed : ∀ e, s.failure = some e → Except.error e ∈ tasks
  failing : ∀ k, (k, Phase.failing) ∈ s.running → s.failure.isSome = true
  told : s.cancelled = true → s.failure.isSome = true
  accounted : ∀ k < s.next, (∀ phase, (k, phase) ∈ s.running → phase = .leaving) →
    s.failure.isSome = true ∨ ∃ a, s.results[k]? = some (some a)

theorem initial_faithful : (initial tasks.length : State ε α).Faithful tasks where
  sound k a result := by simp [initial, List.getElem?_replicate] at result
  failed e failure := by cases failure
  failing k holds := by cases holds
  told cancelled := by cases cancelled
  accounted k started := by cases started

variable {s : State ε α} {task : Nat}

/-- Tasks other than the one that moves stay accounted for. -/
theorem Faithful.accounted_elsewhere (faithful : s.Faithful tasks) {phase : Phase} {k : Nat}
    (elsewhere : k ≠ task) (started : k < s.next)
    (past : ∀ phase', (k, phase') ∈ (s.enter task phase).running → phase' = .leaving) :
    s.failure.isSome = true ∨ ∃ a, s.results[k]? = some (some a) := by
  refine faithful.accounted k started ?_
  intro phase' member
  exact past phase' (mem_enter.mpr (.inr ⟨elsewhere, member⟩))

/-- A task that does not enter the phase of failing adds no failure. -/
theorem Faithful.failing_elsewhere (faithful : s.Faithful tasks) {phase : Phase}
    (other : phase ≠ .failing) (k : Nat) (holds : (k, .failing) ∈ (s.enter task phase).running) :
    s.failure.isSome = true := by
  rcases mem_enter.mp holds with ⟨_, entered, _⟩ | ⟨_, member⟩
  · exact absurd entered.symm other
  · exact faithful.failing k member

/-- A task that is about to leave is accounted for. -/
theorem Faithful.accounted_leaving (faithful : s.Faithful tasks) (orderly : s.Orderly tasks)
    (holds : (task, .leaving) ∈ s.running) :
    s.failure.isSome = true ∨ ∃ a, s.results[task]? = some (some a) := by
  refine faithful.accounted task (orderly.below task (List.mem_map_of_mem holds)) ?_
  intro phase member
  exact orderly.phase_unique member holds

/-- A failure of a task may be recorded; once there is one, every task is accounted for. -/
theorem Faithful.record (faithful : s.Faithful tasks) {e : ε}
    (given : s.failure = none → Except.error e ∈ tasks) : (s.record task e).Faithful tasks where
  sound := faithful.sound
  failed e' failure := by
    cases before : s.failure with
    | none =>
      simp only [State.record, enter, before, Option.none_or] at failure
      obtain rfl := Option.some.inj failure
      exact given before
    | some first =>
      simp only [State.record, enter, before, Option.some_or] at failure
      obtain rfl := Option.some.inj failure
      exact faithful.failed first before
  failing _ _ := by simp [State.record, enter]
  told _ := by simp [State.record, enter]
  accounted _ _ _ := .inl (by simp [State.record, enter])

end State

/-- **A step keeps the record faithful.** -/
theorem Step.faithful {s s' : State ε α} (step : Step limit cancellation tasks s s')
    (orderly : s.Orderly tasks) (faithful : s.Faithful tasks) : s'.Faithful tasks := by
  cases step with
  | start waiting free =>
    refine ⟨faithful.sound, faithful.failed, ?_, faithful.told, ?_⟩
    · intro k holds
      rcases List.mem_append.mp holds with earlier | last
      · exact faithful.failing k earlier
      · cases List.mem_singleton.mp last
    intro k started past
    have earlier : k ≠ s.next := by
      intro last
      cases past .looking (by rw [last]; exact List.mem_concat_self)
    have before : k < s.next := Nat.lt_of_le_of_ne (Nat.le_of_lt_succ started) earlier
    refine faithful.accounted k before ?_
    intro phase member
    exact past phase (List.mem_append_left _ member)
  | @begin task holds =>
    refine ⟨faithful.sound, faithful.failed, faithful.failing_elsewhere (by decide),
      faithful.told, ?_⟩
    intro k started past
    by_cases here : k = task
    · cases past .working (State.mem_enter.mpr (.inl ⟨here, rfl, _, holds⟩))
    · exact faithful.accounted_elsewhere here started past
  | giveUp holds told =>
    -- The cancellation is not recorded: there is a failure already.
    refine faithful.record ?_
    intro nothing
    have some := faithful.told told
    rw [nothing] at some
    cases some
  | @succeed task a holds outcome =>
    have inside : task < s.results.length := by
      rw [orderly.size]
      exact (List.getElem?_eq_some_iff.mp outcome).1
    refine ⟨?_, faithful.failed, faithful.failing_elsewhere (by decide), faithful.told, ?_⟩
    · intro k b result
      by_cases here : k = task
      · subst here
        rw [State.enter, List.getElem?_set_self inside] at result
        obtain rfl := Option.some.inj (Option.some.inj result)
        exact outcome
      · rw [State.enter, List.getElem?_set_ne (Ne.symm here)] at result
        exact faithful.sound k b result
    · intro k started past
      by_cases here : k = task
      · subst here
        exact .inr ⟨a, List.getElem?_set_self inside⟩
      · refine (faithful.accounted_elsewhere here started past).imp id ?_
        intro recorded
        obtain ⟨b, result⟩ := recorded
        exact ⟨b, (List.getElem?_set_ne (Ne.symm here)).trans result⟩
  | fail holds outcome =>
    refine faithful.record ?_
    intro _
    exact List.mem_of_getElem? outcome
  | @cancel task holds =>
    refine ⟨faithful.sound, faithful.failed, faithful.failing_elsewhere (by decide), ?_, ?_⟩
    · intro _
      exact faithful.failing task holds
    · intro k started past
      exact .inl (faithful.failing task holds)
  | @leave task holds =>
    refine ⟨faithful.sound, faithful.failed, ?_, faithful.told, ?_⟩
    · intro k member
      exact faithful.failing k (List.mem_of_mem_filter member)
    intro k started past
    by_cases here : k = task
    · subst here
      exact faithful.accounted_leaving orderly holds
    · refine faithful.accounted k started ?_
      intro phase member
      exact past phase (List.mem_filter.mpr ⟨member, decide_eq_true here⟩)

/-! ## Whole schedules -/

namespace State

variable {s : State ε α}

theorem follow_cons (m : Move) (schedule : List Move) :
    s.follow limit cancellation tasks (m :: schedule) =
      (s.move limit cancellation tasks m).follow limit cancellation tasks schedule := rfl

theorem follow_append (first second : List Move) :
    s.follow limit cancellation tasks (first ++ second) =
      (s.follow limit cancellation tasks first).follow limit cancellation tasks second :=
  List.foldl_append

/-- What every step keeps is kept by every schedule. -/
theorem follow_induction (kept : State ε α → Prop)
    (steps : ∀ s s', Step limit cancellation tasks s s' → kept s → kept s') (start : kept s)
    (schedule : List Move) : kept (s.follow limit cancellation tasks schedule) := by
  induction schedule generalizing s with
  | nil => exact start
  | cons m schedule ih =>
    rw [follow_cons]
    rcases move_cases limit cancellation tasks s m with same | step
    · rw [same]
      exact ih start
    · exact ih (steps s _ step start)

/-- **Under every schedule the places are in order and the record is faithful.** -/
theorem follow_invariant (schedule : List Move) :
    ((initial tasks.length).follow limit cancellation tasks schedule).Orderly tasks ∧
      ((initial tasks.length).follow limit cancellation tasks schedule).Faithful tasks := by
  refine follow_induction (fun s => s.Orderly tasks ∧ s.Faithful tasks) ?_
    ⟨initial_orderly, initial_faithful⟩ schedule
  intro s s' step before
  exact ⟨step.orderly before.1, step.faithful before.1 before.2⟩

end State

/-! ## What a batch that is done has gathered -/

/-- The outcome is that of the tasks: all their results in order, or the failure of one of them. -/
structure Gathers (tasks : List (Except ε α)) (outcome : Except ε (List α)) : Prop where
  succeeds : (∃ results, outcome = .ok results) ↔ ∀ task ∈ tasks, ∃ a, task = .ok a
  results : ∀ results, outcome = .ok results →
    List.Forall₂ (fun task a => task = .ok a) tasks results
  failure : ∀ e, outcome = .error e → .error e ∈ tasks

theorem Gathers.of_ok {results : List α}
    (all : List.Forall₂ (fun task a => task = .ok a) tasks results) :
    Gathers tasks (.ok results) where
  succeeds := by
    refine iff_of_true ⟨results, rfl⟩ ?_
    intro task member
    obtain ⟨a, _, same⟩ := Outcome.exists_of_mem_left all member
    exact ⟨a, same⟩
  results results' same := by
    obtain rfl := Except.ok.inj same
    exact all
  failure e same := by cases same

theorem Gathers.of_error {e : ε} (member : .error e ∈ tasks) : Gathers tasks (.error e) where
  succeeds := by
    constructor
    · intro succeeded
      obtain ⟨_, impossible⟩ := succeeded
      cases impossible
    · intro all
      obtain ⟨_, impossible⟩ := all _ member
      cases impossible
  results results same := by cases same
  failure e' same := by
    obtain rfl := Except.error.inj same
    exact member

/-- Results that are all there are gathered without a gap. -/
theorem forall₂_filterMap {slots : List (Option α)}
    (all : List.Forall₂ (fun task slot => ∃ a, slot = some a ∧ task = .ok a) tasks slots) :
    List.Forall₂ (fun task a => task = .ok a) tasks (slots.filterMap id) := by
  induction all with
  | nil => exact .nil
  | cons head _ ih =>
    obtain ⟨a, rfl, same⟩ := head
    exact .cons same ih

/-- **A batch that is done has gathered the outcomes of its tasks.** -/
theorem State.Faithful.gathers {s : State ε α} (faithful : s.Faithful tasks)
    (orderly : s.Orderly tasks) (done : s.isDone tasks.length = true) :
    Gathers tasks s.outcome := by
  obtain ⟨started, left⟩ := (Bool.and_eq_true _ _).mp done
  have all : s.next = tasks.length := by simpa using started
  have none_running : s.running = [] := by simpa using left
  unfold outcome
  cases failure : s.failure with
  | some e => exact .of_error (faithful.failed e failure)
  | none =>
    refine .of_ok (forall₂_filterMap (List.forall₂_iff_get.mpr ⟨orderly.size.symm, ?_⟩))
    intro k inTasks inResults
    have recorded := faithful.accounted k (all ▸ inTasks) (by simp [none_running])
    rw [failure] at recorded
    obtain ⟨a, result⟩ := recorded.resolve_left (by simp)
    have task := faithful.sound k a result
    rw [List.getElem?_eq_getElem inTasks] at task
    rw [List.getElem?_eq_getElem inResults] at result
    exact ⟨a, Option.some.inj result, Option.some.inj task⟩

/-- **Under every schedule a batch that is done has gathered the outcomes of its tasks.** -/
theorem gathers_of_isDone {schedule : List Move}
    (done : ((State.initial tasks.length).follow limit cancellation tasks schedule).isDone
      tasks.length = true) :
    Gathers tasks
      ((State.initial tasks.length).follow limit cancellation tasks schedule).outcome := by
  obtain ⟨orderly, faithful⟩ := State.follow_invariant schedule
  exact faithful.gathers orderly done

-- The second and the third task give up before they work; the failure stays that of the first.
example :
    let s := (State.initial 3).follow 2 "given up" [.error "first", .ok 7, .error "third"]
      [.start, .advance 0, .start, .advance 0, .advance 0, .advance 1, .advance 0, .start,
        .advance 2, .advance 1, .advance 1, .advance 2, .advance 2]
    s.isDone 3 = true ∧ s.outcome = .error "first" :=
  ⟨rfl, rfl⟩

end RvCodec.Batch
