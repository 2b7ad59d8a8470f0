import RvCodec.Proofs.Widths

/-!
# Calls to a tracker

A tracker lives through a sequence of calls.  Some of them it accepts, and what
it holds then depends on these alone: it is what the accepted requirements lead
to when nothing else is ever called (`Sound`).  This one equation is kept by
every call and gives the rest.  Without a fixed width, the two bounds are the
greatest lower bound and the least upper bound that were accepted.  With a fixed
width nothing changes at all.

That a refused call changes nothing is not a matter of course for an object that
is changed in place, so the calls are made in place here, one assignment after
the other, and `requireInPlace_eq` compares them with `Tracker.require`.

The widths that a tracker admits determine it (`eq_of_admits`), and those of
several requirements do not depend on their order.  So if one order is accepted,
then every order is, and all of them end with the same tracker
(`requireAll_congr_mem`).
-/

set_option autoImplicit false

namespace RvCodec

/-! ## The bounds of requirements -/

namespace Requirement

/-- The greatest width that one of the requirements needs, or zero. -/
def lowest (rs : List Requirement) : Nat := (rs.map (·.lo)).max?.getD 0

/-- The least upper bound that one of the requirements sets, if any does. -/
def highest (rs : List Requirement) : Xlen := (rs.filterMap (·.hi)).min?

/-- The bounds leave a width. -/
def Consistent (rs : List Requirement) : Prop := ∀ c ∈ highest rs, lowest rs ≤ c

end Requirement

theorem Xlen.least_assoc (a b c : Xlen) : least (least a b) c = least a (least b c) := by
  cases a <;> cases b <;> cases c <;> simp [least, Nat.min_assoc]

attribute [ext] Tracker

namespace Tracker

open Requirement

variable {mode : Xlen} {t t' : Tracker} {rs ss : List Requirement}

theorem narrowAll_detected (t : Tracker) (rs : List Requirement) :
    (t.narrowAll rs).detected = (rs.map (·.lo)).foldl max t.detected := by
  induction rs generalizing t with
  | nil => rfl
  | cons r rs ih => exact ih (t.narrow r)

theorem narrowAll_ceiling (t : Tracker) (rs : List Requirement) :
    (t.narrowAll rs).ceiling = Xlen.least t.ceiling (highest rs) := by
  induction rs generalizing t with
  | nil => cases ceiling : t.ceiling <;> simp [narrowAll, highest, Xlen.least, ceiling]
  | cons r rs ih =>
    have step : highest (r :: rs) = Xlen.least r.hi (highest rs) := by
      cases bound : r.hi with
      | none => simp [highest, Xlen.least, bound]
      | some h =>
        rw [highest, List.filterMap_cons_some bound, List.min?_cons, ← highest]
        cases highest rs <;> rfl
    rw [step, ← Xlen.least_assoc]
    exact ih (t.narrow r)

/-- The interval of requirements lies between their bounds. -/
theorem narrowAll_start (mode : Xlen) (rs : List Requirement) :
    (start mode).narrowAll rs = ⟨mode, lowest rs, highest rs⟩ := by
  have detected := narrowAll_detected (start mode) rs
  have ceiling := narrowAll_ceiling (start mode) rs
  rw [List.foldl_max] at detected
  exact Tracker.ext ((start mode).narrowAll_mode rs) (detected.trans (Nat.zero_max _)) ceiling

theorem possible_iff_consistent :
    (⟨mode, lowest rs, highest rs⟩ : Tracker).Possible ↔ Consistent rs :=
  and_iff_right (Nat.le_refl _)

/-! ## Orders -/

/-- **The widths that a tracker admits determine it**, if there are any. -/
theorem eq_of_admits (sameMode : t.mode = t'.mode) (possible : t.Possible) (possible' : t'.Possible)
    (same : ∀ x, t.Admits x ↔ t'.Admits x) : t = t' := by
  have detected : t.detected = t'.detected :=
    Nat.le_antisymm ((same _).mpr possible').1 ((same _).mp possible).1
  -- Both trackers admit what lies between the detected width and any bound of either.
  have between (x : Nat) (above : t.detected ≤ x) :
      (∀ c ∈ t.ceiling, x ≤ c) ↔ ∀ c ∈ t'.ceiling, x ≤ c := by
    have admitted := same x
    rwa [Admits, Admits, and_iff_right above, and_iff_right (detected ▸ above)] at admitted
  refine Tracker.ext sameMode detected ?_
  cases ceiling : t.ceiling with
  | none =>
    cases ceiling' : t'.ceiling with
    | none => rfl
    | some c' =>
      have higher := (between (max t.detected (c' + 1)) (Nat.le_max_left _ _)).mp
        (by simp [ceiling]) c' ceiling'
      omega
  | some c =>
    have bounded := (between c (possible.2 c ceiling)).mp (by simp [ceiling])
    cases ceiling' : t'.ceiling with
    | none =>
      have higher := (between (c + 1) (by have := possible.2 c ceiling; omega)).mpr
        (by simp [ceiling']) c ceiling
      omega
    | some c' =>
      have bounded' := (between c' (detected ▸ possible'.2 c' ceiling')).mpr (by simp [ceiling'])
      rw [Nat.le_antisymm (bounded c' ceiling') (bounded' c ceiling)]

/-- **The order of requirements does not matter**, nor how often each of them is made. -/
theorem requireAll_congr_mem (same : ∀ r, r ∈ rs ↔ r ∈ ss)
    (run : (start mode).requireAll rs = .ok t) : (start mode).requireAll ss = .ok t := by
  cases mode with
  | some x =>
    rw [requireAll_fixed rfl] at run ⊢
    exact ⟨run.1, fun r member => run.2 r ((same r).mpr member)⟩
  | none =>
    have start := start_possible none
    obtain ⟨rfl, possible⟩ := (requireAll_auto rfl start rs).mp run
    have admits (x : Nat) : ((Tracker.start none).narrowAll rs).Admits x ↔
        ((Tracker.start none).narrowAll ss).Admits x := by
      simp only [admits_narrowAll, same]
    have possible' := possible_of_admits ((admits _).mp possible)
    refine (requireAll_auto rfl start ss).mpr ⟨?_, possible⟩
    exact eq_of_admits ((narrowAll_mode _ rs).trans (narrowAll_mode _ ss).symm) possible possible'
      admits

/-! ## Calls in place -/

/-- Takes in a requirement in place, one assignment after the other. -/
def requireInPlace (r : Requirement) : EStateM Fault Tracker Unit := do
  let t ← get
  match t.mode with
  | some mode =>
    if mode < r.lo then throw (.widthTooSmall r.name r.lo mode)
    if let some h := r.hi then
      if h < mode then throw (.widthTooLarge r.name h mode)
  | none =>
    let detected := if t.detected < r.lo then r.lo else t.detected
    let ceiling :=
      match r.hi, t.ceiling with
      | none, c => c
      | some h, none => some h
      | some h, some c => if h < c then some h else some c
    if let some c := ceiling then
      if c < detected then throw (.widthConflict r.name r.lo c detected)
    modify fun t => { t with detected }
    modify fun t => { t with ceiling }

/-- **A refused requirement leaves the tracker as it was.** -/
theorem requireInPlace_eq (t : Tracker) (r : Requirement) :
    requireInPlace r t =
      match t.require r.name r.lo r.hi with
      | .ok t' => .ok () t'
      | .error fault => .error fault t := by
  obtain ⟨mode, detected, ceiling⟩ := t
  obtain ⟨name, lo, hi⟩ := r
  simp only [requireInPlace, require, bind, get, getThe, MonadStateOf.get, EStateM.bind,
    EStateM.get]
  cases mode with
  | some x =>
    simp only [refusal]
    split
    · rfl
    · cases hi with
      | none => rfl
      | some h =>
        dsimp only
        split <;> rfl
  | none =>
    have greater : (if detected < lo then lo else detected) = max detected lo := by
      rw [Nat.max_def]
      grind
    have lesser : (match hi, ceiling with
        | none, c => c
        | some h, none => some h
        | some h, some c => if h < c then some h else some c) = Xlen.least ceiling hi := by
      cases hi <;> cases ceiling <;> grind [Xlen.least]
    simp only [greater, lesser]
    cases Xlen.least ceiling hi with
    | none => rfl
    | some c =>
      dsimp only
      split <;> rfl

/-- A call to a tracker. -/
inductive Call where
  /-- An instruction is in use. -/
  | require (i : Instruction)
  /-- A width within these bounds is needed. -/
  | requireRange (r : Requirement)
  /-- The question whether an instruction could be used. -/
  | allows (i : Instruction)

namespace Call

/-- What the call requires, if it requires anything. -/
def requirement? : Call → Option Requirement
  | require i => some i.requirement
  | requireRange r => some r
  | allows _ => none

/-- Makes the call.  A requirement that is accepted is answered with yes. -/
def make : Call → EStateM Fault Tracker Bool
  | require i => do
    requireInPlace i.requirement
    return true
  | requireRange r => do
    requireInPlace r
    return true
  | allows i => return (← get).allowsInstruction i

/-- The tracker does not refuse the call. -/
def Accepted (call : Call) (t : Tracker) : Prop := ∃ answer t', call.make t = .ok answer t'

theorem make_allows (i : Instruction) (t : Tracker) :
    (allows i).make t = .ok (t.allowsInstruction i) t := rfl

theorem make_of_requirement {call : Call} {r : Requirement} (required : call.requirement? = some r)
    (t : Tracker) :
    call.make t =
      match t.require r.name r.lo r.hi with
      | .ok t' => .ok true t'
      | .error fault => .error fault t := by
  have same : call.make = (do requireInPlace r; return true) := by
    cases call <;> cases required <;> rfl
  rw [same]
  simp only [bind, EStateM.bind, requireInPlace_eq]
  cases t.require r.name r.lo r.hi <;> rfl

theorem accepted_iff {call : Call} {r : Requirement} (required : call.requirement? = some r) :
    call.Accepted t ↔ ∃ t', t.require r.name r.lo r.hi = .ok t' := by
  unfold Accepted
  rw [make_of_requirement required]
  cases t.require r.name r.lo r.hi <;> simp

end Call

/-! ## Sequences of calls -/

/-- A tracker with the requirements that it has accepted. -/
structure History where
  tracker : Tracker
  accepted : List Requirement

namespace History

/-- What a call leaves behind, be it accepted or not. -/
def after (h : History) (call : Call) : History :=
  match call.make h.tracker with
  | .ok _ t => ⟨t, h.accepted ++ call.requirement?.toList⟩
  | .error _ t => ⟨t, h.accepted⟩

/-- What calls leave behind, made one after the other on a new tracker. -/
def run (mode : Xlen) (calls : List Call) : History := calls.foldl after ⟨start mode, []⟩

theorem after_of_none {h : History} {call : Call} (asked : call.requirement? = none) :
    h.after call = h := by
  cases call with
  | allows i => rw [after, Call.make_allows, asked, Option.toList_none, List.append_nil]
  | require i | requireRange r => cases asked

theorem after_of_requirement {h : History} {call : Call} {r : Requirement}
    (required : call.requirement? = some r) :
    h.after call =
      match h.tracker.require r.name r.lo r.hi with
      | .ok t => ⟨t, h.accepted ++ [r]⟩
      | .error _ => h := by
  rw [after, Call.make_of_requirement required, required]
  cases h.tracker.require r.name r.lo r.hi <;> rfl

/-- A call changes nothing, or its requirement is accepted. -/
theorem after_cases (h : History) (call : Call) :
    h.after call = h ∨ ∃ r t, call.requirement? = some r ∧
      h.tracker.require r.name r.lo r.hi = .ok t ∧ h.after call = ⟨t, h.accepted ++ [r]⟩ := by
  cases required : call.requirement? with
  | none => exact .inl (after_of_none required)
  | some r =>
    rw [after_of_requirement required]
    cases answer : h.tracker.require r.name r.lo r.hi with
    | error fault => exact .inl rfl
    | ok t => exact .inr ⟨r, t, rfl, answer, rfl⟩

theorem after_refused {h : History} {call : Call} (refused : ¬ call.Accepted h.tracker) :
    h.after call = h := by
  obtain same | ⟨r, t, required, accepted, -⟩ := h.after_cases call
  · exact same
  · exact absurd ((Call.accepted_iff required).mpr ⟨t, accepted⟩) refused

/-- The tracker is what the accepted requirements lead to. -/
def Sound (mode : Xlen) (h : History) : Prop := (start mode).requireAll h.accepted = .ok h.tracker

theorem Sound.after {h : History} (sound : h.Sound mode) (call : Call) :
    (h.after call).Sound mode := by
  obtain same | ⟨r, t, -, accepted, next⟩ := h.after_cases call
  · rwa [same]
  · rw [next, Sound, requireAll_append, sound]
    exact Outcome.bind_eq_ok.mpr ⟨h.tracker, rfl, Outcome.bind_eq_ok.mpr ⟨t, accepted, rfl⟩⟩

theorem sound_run (mode : Xlen) (calls : List Call) : (run mode calls).Sound mode :=
  List.foldlRecOn calls History.after rfl fun _ sound call _ => sound.after call

/-- Requirements that can be made one after the other are all accepted. -/
theorem foldl_after_eq {h : History} {calls : List Call}
    (accepted : h.tracker.requireAll (calls.filterMap Call.requirement?) = .ok t) :
    calls.foldl after h = ⟨t, h.accepted ++ calls.filterMap Call.requirement?⟩ := by
  induction calls generalizing h with
  | nil =>
    obtain rfl : h.tracker = t := by simpa [requireAll] using accepted
    simp
  | cons call calls ih =>
    rw [List.foldl_cons]
    cases required : call.requirement? with
    | none =>
      rw [List.filterMap_cons_none required] at accepted ⊢
      rw [after_of_none required]
      exact ih accepted
    | some r =>
      rw [List.filterMap_cons_some required] at accepted ⊢
      obtain ⟨t₁, first, rest⟩ := Outcome.bind_eq_ok.mp accepted
      rw [after_of_requirement required, first, ih rest, List.append_assoc, List.singleton_append]

theorem run_eq {calls : List Call}
    (accepted : (start mode).requireAll (calls.filterMap Call.requirement?) = .ok t) :
    run mode calls = ⟨t, calls.filterMap Call.requirement?⟩ := by
  rw [run, foldl_after_eq accepted, List.nil_append]

/-- Every requirement of the calls is accepted. -/
def AcceptsAll (mode : Xlen) (calls : List Call) : Prop :=
  (run mode calls).accepted = calls.filterMap Call.requirement?

theorem acceptsAll_iff {calls : List Call} :
    AcceptsAll mode calls ↔
      ∃ t, (start mode).requireAll (calls.filterMap Call.requirement?) = .ok t := by
  constructor
  · intro accepted
    have sound := sound_run mode calls
    rw [Sound, accepted] at sound
    exact ⟨_, sound⟩
  · rintro ⟨t, accepted⟩
    rw [AcceptsAll, run_eq accepted]

end History

open History

/-- What holds of a tracker at any time. -/
structure Keeps (mode : Xlen) (h : History) : Prop where
  /-- Without a fixed width, the tracker holds the bounds of what it has accepted, the bounds leave
  a width, and a call is accepted when they still do so with what it requires. -/
  auto : mode = none → h.tracker.detected = lowest h.accepted ∧
    h.tracker.ceiling = highest h.accepted ∧ Consistent h.accepted ∧
    ∀ (call : Call), ∀ r ∈ call.requirement?,
      call.Accepted h.tracker ↔ Consistent (h.accepted ++ [r])
  /-- With a fixed width, the tracker is as new, and a call is accepted when the width lies within
  what it requires. -/
  fixed : ∀ x, mode = some x → h.tracker = start mode ∧
    ∀ (call : Call), ∀ r ∈ call.requirement?,
      call.Accepted h.tracker ↔ r.lo ≤ x ∧ ∀ top ∈ r.hi, x ≤ top
  /-- A call with a requirement gives what the tracker's own function for it gives. -/
  required : ∀ (call : Call), ∀ r ∈ call.requirement?,
    call.make h.tracker =
      match h.tracker.require r.name r.lo r.hi with
      | .ok t => .ok true t
      | .error fault => .error fault h.tracker
  /-- A call that is refused changes nothing. -/
  refused : ∀ call : Call, ¬ call.Accepted h.tracker → h.after call = h
  /-- A question changes nothing. -/
  asked : ∀ i, h.after (.allows i) = h

theorem accepted_auto (auto : t.mode = none) {call : Call} {r : Requirement}
    (required : call.requirement? = some r) : call.Accepted t ↔ (t.narrow r).Possible := by
  rw [Call.accepted_iff required]
  simp only [require_auto auto, exists_eq_left]

theorem accepted_fixed {x : Nat} (fixed : t.mode = some x) {call : Call} {r : Requirement}
    (required : call.requirement? = some r) : call.Accepted t ↔ r.Holds x := by
  rw [Call.accepted_iff required]
  simp only [require_fixed fixed, exists_eq_left]

theorem History.Sound.keeps {h : History} (sound : h.Sound mode) : Keeps mode h := by
  refine ⟨?_, ?_, fun call r required => Call.make_of_requirement required _,
    fun _ => after_refused, fun _ => after_of_none rfl⟩
  · rintro rfl
    obtain ⟨same, possible⟩ := (requireAll_auto rfl (start_possible none) _).mp sound
    have interval := same.trans (narrowAll_start none h.accepted)
    rw [interval] at possible ⊢
    refine ⟨rfl, rfl, possible_iff_consistent.mp possible, ?_⟩
    intro call r required
    -- Taking in one more requirement is taking in the longer list.
    have longer : (start none).narrowAll (h.accepted ++ [r]) =
        ((start none).narrowAll h.accepted).narrow r := List.foldl_append
    rw [narrowAll_start, narrowAll_start] at longer
    rw [accepted_auto rfl required, ← longer, possible_iff_consistent]
  · rintro x rfl
    obtain ⟨same, -⟩ := (requireAll_fixed rfl _).mp sound
    rw [same]
    exact ⟨rfl, fun call r required => accepted_fixed rfl required⟩

/-- **A tracker keeps the interval of what it has accepted**, whatever is called and in whatever
order.  Requirements that are accepted in one order are accepted in every order, and lead to the
same width. -/
theorem calls_keep_interval (mode : Xlen) (calls : List Call) :
    Keeps mode (.run mode calls) ∧
    ∀ others : List Call,
      (∀ r, r ∈ calls.filterMap Call.requirement? ↔ r ∈ others.filterMap Call.requirement?) →
      (AcceptsAll mode calls ↔ AcceptsAll mode others) ∧
      (AcceptsAll mode calls →
        (run mode calls).tracker.resolved = (run mode others).tracker.resolved) := by
  refine ⟨(sound_run mode calls).keeps, ?_⟩
  intro others same
  refine ⟨?_, ?_⟩
  · rw [acceptsAll_iff, acceptsAll_iff]
    exact exists_congr fun t =>
      ⟨requireAll_congr_mem same, requireAll_congr_mem fun r => (same r).symm⟩
  · intro accepted
    obtain ⟨t, accepted⟩ := acceptsAll_iff.mp accepted
    rw [run_eq accepted, run_eq (requireAll_congr_mem same accepted)]

-- The second requirement is refused and forgotten: the third one is met by the first alone.
example : (run none [.requireRange ⟨"addw", 64, none⟩, .requireRange ⟨"c.jal", 32, some 32⟩,
    .requireRange ⟨"c.ld", 64, some 128⟩]).tracker = ⟨none, 64, some 128⟩ := by decide

end Tracker

end RvCodec
