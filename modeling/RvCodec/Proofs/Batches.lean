import RvCodec.Cli.Command
import RvCodec.Proofs.Schedules

/-!
# Files converted in a batch

Every step of a batch brings its end nearer (`Step.stepsLeft_lt`), and as long
as the batch is not done there is a step (`Orderly.exists_step`).  So every
schedule of steps comes to an end, and it ends with a batch that is done.  The
schedule that takes one task after the other is one of them.

The conversion of several files is such a batch, with the conversion of each
file as a task.  Together they come out as each of them does on its own.
-/

set_option autoImplicit false

namespace RvCodec.Batch

variable {ε α : Type} {limit : Nat} {cancellation : ε} {tasks : List (Except ε α)}

/-! ## Every schedule of steps ends -/

/-- The steps that a task in this phase takes at most before it is gone. -/
def Phase.stepsLeft : Phase → Nat
  | looking => 4
  | working => 3
  | failing => 2
  | leaving => 1

namespace State

/-- The steps that a batch of so many tasks takes at most before it is done. -/
def stepsLeft (s : State ε α) (size : Nat) : Nat :=
  5 * (size - s.next) + (s.running.map fun r => r.2.stepsLeft).sum

variable {s : State ε α} {task : Nat}

/-- A task that holds a place is the only one with its number. -/
theorem Orderly.split (orderly : s.Orderly tasks) {phase : Phase}
    (holds : (task, phase) ∈ s.running) :
    ∃ before after, s.running = before ++ (task, phase) :: after ∧
      (∀ r ∈ before, r.1 ≠ task) ∧ ∀ r ∈ after, r.1 ≠ task := by
  obtain ⟨before, after, shape⟩ := List.append_of_mem holds
  have nodup := orderly.nodup
  rw [shape, List.map_append, List.map_cons] at nodup
  obtain ⟨_, later, apart⟩ := List.nodup_append.mp nodup
  refine ⟨before, after, shape, ?_, ?_⟩
  · intro r member
    exact apart _ (List.mem_map_of_mem member) _ List.mem_cons_self
  · intro r member same
    have twice : r.1 ∈ after.map Prod.fst := List.mem_map_of_mem member
    rw [same] at twice
    exact (List.nodup_cons.mp later).1 twice

/-- Entering a phase with fewer steps left brings the end nearer. -/
theorem Orderly.stepsLeft_enter (orderly : s.Orderly tasks) {phase phase' : Phase}
    (holds : (task, phase) ∈ s.running) (fewer : phase'.stepsLeft < phase.stepsLeft) (size : Nat) :
    (s.enter task phase').stepsLeft size < s.stepsLeft size := by
  obtain ⟨before, after, shape, apart, apart'⟩ := orderly.split holds
  have same (part : List (Nat × Phase)) (others : ∀ r ∈ part, r.1 ≠ task) :
      part.map (fun r => if r.1 = task then (task, phase') else r) = part := by
    refine (List.map_congr_left ?_).trans (List.map_id _)
    intro r member
    exact if_neg (others r member)
  simp only [stepsLeft, enter, shape, List.map_append, List.map_cons, same before apart,
    same after apart', ↓reduceIte, List.sum_append, List.sum_cons]
  omega

theorem Orderly.stepsLeft_leave (orderly : s.Orderly tasks) {phase : Phase}
    (holds : (task, phase) ∈ s.running) (positive : 0 < phase.stepsLeft) (size : Nat) :
    { s with running := s.running.filter fun r => r.1 ≠ task }.stepsLeft size <
      s.stepsLeft size := by
  obtain ⟨before, after, shape, apart, apart'⟩ := orderly.split holds
  have same (part : List (Nat × Phase)) (others : ∀ r ∈ part, r.1 ≠ task) :
      part.filter (fun r => r.1 ≠ task) = part :=
    List.filter_eq_self.mpr fun r member => decide_eq_true (others r member)
  have rest : (before ++ (task, phase) :: after).filter (fun r => r.1 ≠ task) =
      before ++ after := by
    rw [List.filter_append, List.filter_cons_of_neg (by simp), same before apart, same after apart']
  simp only [stepsLeft, shape, rest, List.map_append, List.map_cons, List.sum_append, List.sum_cons]
  omega

end State

/-- **Every step brings the end nearer.** -/
theorem Step.stepsLeft_lt {s s' : State ε α} (step : Step limit cancellation tasks s s')
    (orderly : s.Orderly tasks) : s'.stepsLeft tasks.length < s.stepsLeft tasks.length := by
  cases step with
  | start waiting free =>
    simp only [State.stepsLeft, List.map_append, List.map_singleton, List.sum_append,
      List.sum_singleton, Phase.stepsLeft]
    omega
  | begin holds => exact orderly.stepsLeft_enter holds (by decide) _
  | giveUp holds told => exact orderly.stepsLeft_enter holds (by decide) _
  | succeed holds outcome => exact orderly.stepsLeft_enter holds (by decide) _
  | fail holds outcome => exact orderly.stepsLeft_enter holds (by decide) _
  | cancel holds => exact orderly.stepsLeft_enter holds (by decide) _
  | leave holds => exact orderly.stepsLeft_leave holds (by decide) _

namespace State

variable {s : State ε α} {task : Nat}

/-- **A batch that is not done can take a step.**  It starts a task if nothing else is going on. -/
theorem Orderly.exists_step (orderly : s.Orderly tasks) (room : 0 < limit)
    (unfinished : s.isDone tasks.length = false) :
    ∃ m, Step limit cancellation tasks s (s.move limit cancellation tasks m) := by
  cases shape : s.running with
  | nil =>
    have waiting : s.next < tasks.length := by
      refine Nat.lt_of_le_of_ne orderly.started ?_
      intro all
      simp [isDone, shape, all] at unfinished
    have free : s.running.length < limit := by
      rw [shape]
      exact room
    refine ⟨.start, ?_⟩
    rw [move_start waiting free]
    exact .start waiting free
  | cons r rest =>
    obtain ⟨k, phase⟩ := r
    have holds : (k, phase) ∈ s.running := by
      rw [shape]
      exact List.mem_cons_self
    have below : k < tasks.length :=
      Nat.lt_of_lt_of_le (orderly.below k (List.mem_map_of_mem holds)) orderly.started
    have given := List.getElem?_eq_getElem below
    refine ⟨.advance k, ?_⟩
    rw [move, given]
    refine (advance_cases given).resolve_left ?_
    intro idle
    simp [phase?, shape] at idle

/-- Every move of the schedule is a step. -/
def Proceeds (limit : Nat) (cancellation : ε) (tasks : List (Except ε α)) :
    State ε α → List Move → Prop
  | _, [] => True
  | s, m :: schedule =>
    Step limit cancellation tasks s (s.move limit cancellation tasks m) ∧
      Proceeds limit cancellation tasks (s.move limit cancellation tasks m) schedule

theorem proceeds_concat {schedule : List Move} {m : Move} :
    s.Proceeds limit cancellation tasks (schedule ++ [m]) ↔
      s.Proceeds limit cancellation tasks schedule ∧
        Step limit cancellation tasks (s.follow limit cancellation tasks schedule)
          ((s.follow limit cancellation tasks schedule).move limit cancellation tasks m) := by
  induction schedule generalizing s with
  | nil => simp [Proceeds, follow]
  | cons m' schedule ih =>
    rw [List.cons_append, Proceeds, Proceeds, ih, and_assoc]
    rfl

/-- The steps taken and those that are left are not more than those there were. -/
theorem Orderly.length_le {schedule : List Move} (orderly : s.Orderly tasks)
    (proceeds : s.Proceeds limit cancellation tasks schedule) :
    schedule.length + (s.follow limit cancellation tasks schedule).stepsLeft tasks.length ≤
      s.stepsLeft tasks.length := by
  induction schedule generalizing s with
  | nil => simp [follow]
  | cons m schedule ih =>
    obtain ⟨step, rest⟩ := proceeds
    have nearer := step.stepsLeft_lt orderly
    have later := ih (step.orderly orderly) rest
    rw [follow_cons, List.length_cons]
    omega

end State

/-- **Every schedule of steps ends, and only when the batch is done.** -/
theorem proceeds_ends (room : 0 < limit) {schedule : List Move}
    (proceeds : (State.initial tasks.length).Proceeds limit cancellation tasks schedule) :
    schedule.length ≤ 5 * tasks.length ∧
      (((State.initial tasks.length).follow limit cancellation tasks schedule).isDone
          tasks.length = true ∨
        ∃ m, (State.initial tasks.length).Proceeds limit cancellation tasks (schedule ++ [m])) := by
  constructor
  · have bound := State.initial_orderly.length_le proceeds
    simp only [State.stepsLeft, State.initial, Nat.sub_zero, List.map_nil, List.sum_nil,
      Nat.add_zero] at bound
    omega
  · refine (Bool.eq_false_or_eq_true _).imp id ?_
    intro unfinished
    obtain ⟨orderly, _⟩ := State.follow_invariant schedule
    obtain ⟨m, step⟩ := orderly.exists_step room unfinished
    exact ⟨m, State.proceeds_concat.mpr ⟨proceeds, step⟩⟩

/-! ## One task after the other -/

namespace State

variable {s : State ε α} {task : Nat}

/-- At most this task holds a place, with so many steps left. -/
def Alone (s : State ε α) (task n : Nat) : Prop :=
  s.running = [] ∨ ∃ phase : Phase, s.running = [(task, phase)] ∧ phase.stepsLeft ≤ n

theorem Alone.empty (alone : s.Alone task 0) : s.running = [] := by
  rcases alone with empty | ⟨phase, _, gone⟩
  · exact empty
  · cases phase <;> cases gone

theorem Alone.enter {phase phase' : Phase} (shape : s.running = [(task, phase)]) {n : Nat}
    (left : phase.stepsLeft ≤ n + 1) (fewer : phase'.stepsLeft < phase.stepsLeft) :
    (s.enter task phase').Alone task n := by
  refine .inr ⟨phase', ?_, by omega⟩
  simp [State.enter, shape]

/-- A task that is alone moves on, and no other is started. -/
theorem Alone.advance {n : Nat} (alone : s.Alone task (n + 1)) (cancellation : ε)
    (outcome : Except ε α) :
    (s.advance cancellation task outcome).Alone task n ∧
      (s.advance cancellation task outcome).next = s.next := by
  rcases alone with empty | ⟨phase, shape, left⟩
  · have idle : s.phase? task = none := by simp [phase?, empty]
    simp only [State.advance, idle]
    exact ⟨.inl empty, trivial⟩
  · have found : s.phase? task = some phase := by simp [phase?, shape]
    cases phase with
    | looking =>
      simp only [State.advance, found]
      split
      · exact ⟨Alone.enter shape left (by decide), rfl⟩
      · exact ⟨Alone.enter shape left (by decide), rfl⟩
    | working =>
      cases outcome with
      | ok a =>
        simp only [State.advance, found]
        exact ⟨Alone.enter shape left (by decide), rfl⟩
      | error e =>
        simp only [State.advance, found]
        exact ⟨Alone.enter shape left (by decide), rfl⟩
    | failing =>
      simp only [State.advance, found]
      exact ⟨Alone.enter shape left (by decide), rfl⟩
    | leaving =>
      simp only [State.advance, found]
      exact ⟨.inl (by simp [shape]), trivial⟩

/-- A round starts the next task and sees it through to its end. -/
theorem follow_round (room : 0 < limit) (empty : s.running = []) (next : s.next = task)
    (waiting : task < tasks.length) :
    (s.follow limit cancellation tasks
        [.start, .advance task, .advance task, .advance task, .advance task]).running = [] ∧
      (s.follow limit cancellation tasks
        [.start, .advance task, .advance task, .advance task, .advance task]).next = task + 1 := by
  have started : (s.move limit cancellation tasks .start).Alone task 4 ∧
      (s.move limit cancellation tasks .start).next = task + 1 := by
    rw [move_start (by rw [next]; exact waiting) (by rw [empty]; exact room), next, empty]
    exact ⟨.inr ⟨.looking, rfl, Nat.le_refl 4⟩, rfl⟩
  have advanced (s : State ε α) (n : Nat)
      (before : s.Alone task (n + 1) ∧ s.next = task + 1) :
      (s.move limit cancellation tasks (.advance task)).Alone task n ∧
        (s.move limit cancellation tasks (.advance task)).next = task + 1 := by
    rw [move, List.getElem?_eq_getElem waiting]
    obtain ⟨alone, unchanged⟩ := before.1.advance cancellation tasks[task]
    exact ⟨alone, unchanged.trans before.2⟩
  obtain ⟨alone, last⟩ :=
    advanced _ 0 (advanced _ 1 (advanced _ 2 (advanced _ 3 started)))
  exact ⟨alone.empty, last⟩

theorem follow_sequential (cancellation : ε) (room : 0 < limit) {n : Nat}
    (some : n ≤ tasks.length) :
    ((initial tasks.length).follow limit cancellation tasks (sequential n)).running = [] ∧
      ((initial tasks.length).follow limit cancellation tasks (sequential n)).next = n := by
  induction n with
  | zero => exact ⟨rfl, rfl⟩
  | succ n ih =>
    obtain ⟨empty, next⟩ := ih (Nat.le_of_succ_le some)
    have split : sequential (n + 1) = sequential n ++
        [.start, .advance n, .advance n, .advance n, .advance n] := by
      rw [sequential, List.range_succ, List.flatMap_append, List.flatMap_singleton]
      rfl
    rw [split, follow_append]
    exact follow_round room empty next some

end State

theorem places_pos (jobs : Int) : 0 < places jobs := by
  unfold places
  omega

theorem run_gathers (jobs : Int) (cancellation : ε) (tasks : List (Except ε α)) :
    Gathers tasks (run jobs cancellation tasks) := by
  refine gathers_of_isDone ?_
  obtain ⟨empty, next⟩ := State.follow_sequential cancellation (places_pos jobs)
    (Nat.le_refl tasks.length)
  simp [State.isDone, empty, next]

end RvCodec.Batch

namespace RvCodec.Cli

/-! ## Files converted together -/

/-- The file can be read, and its text converted to this on its own. -/
def ConvertsTo (d : Direction) (opts : Options) (file : String × Except FileFault String)
    (c : Conversion) : Prop :=
  ∃ source, file.2 = .ok source ∧ convert d source opts = .ok c

/-- The file cannot be read, or its text cannot be converted, and this is reported of it. -/
inductive FailsWith (d : Direction) (opts : Options) (file : String × Except FileFault String) :
    Failure → Prop where
  | reading {fault : FileFault} (unread : file.2 = .error fault) :
      FailsWith d opts file (.report s!"failed to read {file.1}: {fault.message}")
  | converting {source : String} {e : Error} (read : file.2 = .ok source)
      (unconverted : convert d source opts = .error e) :
      FailsWith d opts file (.report s!"{file.1}: {e.message}")

variable {d : Direction} {opts : Options} {file : String × Except FileFault String}

theorem convertFile_eq_ok {c : Conversion} :
    convertFile d opts file.1 file.2 = .ok c ↔ ConvertsTo d opts file c := by
  obtain ⟨path, contents⟩ := file
  unfold convertFile ConvertsTo
  cases contents with
  | error fault => simp
  | ok source =>
    cases converted : convert d source opts with
    | error e => simp [converted]
    | ok c' => simp [converted]

theorem failsWith_of_convertFile {f : Failure}
    (failed : convertFile d opts file.1 file.2 = .error f) : FailsWith d opts file f := by
  obtain ⟨path, contents⟩ := file
  unfold convertFile at failed
  cases contents with
  | error fault =>
    obtain rfl := Except.error.inj failed
    exact .reading rfl
  | ok source =>
    cases converted : convert d source opts with
    | ok c => simp [converted] at failed
    | error e =>
      simp only [converted] at failed
      obtain rfl := Except.error.inj failed
      exact .converting rfl converted

/-- What is reported of a file has a colon, which the report of a cancellation has not. -/
theorem FailsWith.ne_cancellation {f : Failure} (fails : FailsWith d opts file f) :
    f ≠ .report "context canceled" := by
  have colon : ':' ∈ f.message.toList := by
    cases fails <;> simp [Failure.message, toString]
  intro same
  rw [same] at colon
  simp [Failure.message] at colon

/-- The files come out together as each of them does on its own. -/
structure ConvertsTogether (d : Direction) (opts : Options)
    (files : List (String × Except FileFault String)) (outcome : Except Failure (List Conversion)) :
    Prop where
  succeeds : (∃ results, outcome = .ok results) ↔ ∀ file ∈ files, ∃ c, ConvertsTo d opts file c
  results : ∀ results, outcome = .ok results → List.Forall₂ (ConvertsTo d opts) files results
  failure : ∀ f, outcome = .error f →
    f ≠ .report "context canceled" ∧ ∃ file ∈ files, FailsWith d opts file f

/-- The tasks of a batch that converts these files. -/
def conversions (d : Direction) (opts : Options)
    (files : List (String × Except FileFault String)) : List (Except Failure Conversion) :=
  files.map fun file => convertFile d opts file.1 file.2

theorem ConvertsTogether.of_gathers {files : List (String × Except FileFault String)}
    {outcome : Except Failure (List Conversion)}
    (gathers : Batch.Gathers (conversions d opts files) outcome) :
    ConvertsTogether d opts files outcome where
  succeeds := by
    rw [gathers.succeeds, conversions, List.forall_mem_map]
    simp only [convertFile_eq_ok]
  results results same := by
    have each := List.forall₂_map_left_iff.mp (gathers.results results same)
    exact each.imp fun _ _ converted => convertFile_eq_ok.mp converted
  failure f same := by
    obtain ⟨file, member, failed⟩ := List.mem_map.mp (gathers.failure f same)
    have fails := failsWith_of_convertFile failed
    exact ⟨fails.ne_cancellation, file, member, fails⟩

/-- **Files are converted together as they are one by one.**  However their tasks take turns, they
come to an end, and then the batch has the conversions of all files in their order, or what is
reported of one of them. -/
theorem convertFiles_every_schedule (d : Direction) (opts : Options) (jobs : Int)
    (files : List (String × Except FileFault String)) :
    let limit := Batch.places jobs
    let cancellation := Failure.report "context canceled"
    let tasks := conversions d opts files
    let batch := Batch.State.initial files.length
    (∀ schedule, batch.Proceeds limit cancellation tasks schedule →
      schedule.length ≤ 5 * files.length ∧
        ((batch.follow limit cancellation tasks schedule).isDone files.length = true ∨
          ∃ m, batch.Proceeds limit cancellation tasks (schedule ++ [m]))) ∧
    (∀ schedule, (batch.follow limit cancellation tasks schedule).isDone files.length = true →
      ConvertsTogether d opts files (batch.follow limit cancellation tasks schedule).outcome) ∧
    ConvertsTogether d opts files (convertFiles d opts jobs files) := by
  have size : (conversions d opts files).length = files.length := List.length_map _
  dsimp only
  rw [← size]
  refine ⟨?_, ?_, ?_⟩
  · intro schedule proceeds
    exact Batch.proceeds_ends (Batch.places_pos jobs) proceeds
  · intro schedule done
    exact .of_gathers (Batch.gathers_of_isDone done)
  · exact .of_gathers (Batch.run_gathers jobs _ (conversions d opts files))

end RvCodec.Cli
