import RvCodec.Encoding
import RvCodec.Options
import RvCodec.Proofs.Outcomes

/-!
# Intervals of register widths

A tracker without a fixed width keeps an interval.  Taking in a requirement
intersects the interval with the widths that the requirement allows, and is
refused exactly when nothing is left.  So a whole run of requirements succeeds
exactly when some width meets all of them, whatever their order, and the least
such width is the one that the tracker ends with.

A tracker with a fixed width never changes and accepts a requirement exactly
when the width meets it.  The two kinds of tracker are therefore tied together
by one relation: the widths that the first admits are those at which the second
succeeds (`requireAll_auto`, `requireAll_fixed`, `admits_narrowAll`).

Assembling and disassembling hand a tracker from step to step.  That such a run
requires what its steps require is said once, for any kind of step (`run_eq_ok`).
-/

set_option autoImplicit false

namespace RvCodec

/-- A demand on the width of the registers. -/
structure Requirement where
  /-- The instruction that demands it. -/
  name : String
  lo : Nat
  hi : Xlen
  deriving DecidableEq, Repr

/-- The width meets the demand. -/
def Requirement.Holds (r : Requirement) (x : Nat) : Prop := r.lo ≤ x ∧ ∀ h ∈ r.hi, x ≤ h

/-- The widths that meet the demand, whoever demands it. -/
def Requirement.bounds (r : Requirement) : Nat × Xlen := (r.lo, r.hi)

/-- A width lies below the lesser of two bounds when it lies below both. -/
theorem Xlen.le_least {a b : Xlen} {x : Nat} :
    (∀ c ∈ Xlen.least a b, x ≤ c) ↔ (∀ c ∈ a, x ≤ c) ∧ ∀ c ∈ b, x ≤ c := by
  cases a with
  | none => simp [Xlen.least]
  | some a =>
    cases b with
    | none => simp [Xlen.least]
    | some b =>
      simp only [Xlen.least, Option.mem_some_iff, forall_eq']
      exact Nat.le_min

namespace Tracker

/-! ## One requirement -/

/-- The width lies in the interval of what the tracker has seen. -/
def Admits (t : Tracker) (x : Nat) : Prop := t.detected ≤ x ∧ ∀ c ∈ t.ceiling, x ≤ c

/-- Some width is left. -/
def Possible (t : Tracker) : Prop := t.Admits t.detected

/-- The interval that a requirement leaves. -/
def narrow (t : Tracker) (r : Requirement) : Tracker :=
  { t with detected := max t.detected r.lo, ceiling := Xlen.least t.ceiling r.hi }

theorem start_possible (mode : Xlen) : (start mode).Possible :=
  ⟨Nat.le_refl _, fun _ none => by cases none⟩

theorem possible_of_admits {t : Tracker} {x : Nat} (admits : t.Admits x) : t.Possible :=
  ⟨Nat.le_refl _, fun c ceiling => Nat.le_trans admits.1 (admits.2 c ceiling)⟩

theorem admits_narrow (t : Tracker) (r : Requirement) (x : Nat) :
    (t.narrow r).Admits x ↔ t.Admits x ∧ r.Holds x := by
  unfold Admits Requirement.Holds narrow
  rw [Xlen.le_least, Nat.max_le]
  constructor
  · rintro ⟨⟨above, lower⟩, below, upper⟩
    exact ⟨⟨above, below⟩, lower, upper⟩
  · rintro ⟨⟨above, below⟩, lower, upper⟩
    exact ⟨⟨above, lower⟩, below, upper⟩

/-- Without a fixed width, a requirement is accepted when it leaves a width. -/
theorem require_auto {t t' : Tracker} (auto : t.mode = none) (r : Requirement) :
    t.require r.name r.lo r.hi = .ok t' ↔ t' = t.narrow r ∧ t'.Possible := by
  obtain ⟨mode, detected, ceiling⟩ := t
  obtain rfl : mode = none := auto
  unfold require narrow
  dsimp only
  cases Xlen.least ceiling r.hi with
  | none =>
    have possible : (⟨none, max detected r.lo, none⟩ : Tracker).Possible :=
      ⟨Nat.le_refl _, fun _ bound => by cases bound⟩
    simp only [Except.ok.injEq]
    constructor
    · rintro rfl
      exact ⟨rfl, possible⟩
    · rintro ⟨rfl, -⟩
      rfl
  | some c =>
    have possible : (⟨none, max detected r.lo, some c⟩ : Tracker).Possible ↔
        ¬ c < max detected r.lo := by
      simp [Possible, Admits]
    by_cases empty : c < max detected r.lo
    · simp only [empty, ↓reduceIte, reduceCtorEq, false_iff]
      rintro ⟨rfl, left⟩
      exact possible.mp left empty
    · simp only [empty, ↓reduceIte, Except.ok.injEq]
      constructor
      · rintro rfl
        exact ⟨rfl, possible.mpr empty⟩
      · rintro ⟨rfl, -⟩
        rfl

theorem refusal_eq_none (mode : Nat) (r : Requirement) :
    refusal mode r.name r.lo r.hi = none ↔ r.Holds mode := by
  unfold refusal Requirement.Holds
  by_cases narrow : mode < r.lo
  · simp only [narrow, ↓reduceIte, reduceCtorEq, false_iff]
    omega
  · cases r.hi with
    | none => simp [narrow]; omega
    | some h => simp [narrow]; omega

/-- Under a fixed width, a requirement is accepted when the width meets it. -/
theorem require_fixed {t t' : Tracker} {x : Nat} (fixed : t.mode = some x) (r : Requirement) :
    t.require r.name r.lo r.hi = .ok t' ↔ t' = t ∧ r.Holds x := by
  unfold require
  rw [fixed]
  dsimp only
  cases answer : refusal x r.name r.lo r.hi with
  | none =>
    have holds := (refusal_eq_none x r).mp answer
    simp only [Except.ok.injEq, holds, and_true, eq_comm]
  | some fault =>
    have fails : ¬ r.Holds x := fun holds => by simp [(refusal_eq_none x r).mpr holds] at answer
    simp [fails]

theorem require_mode {t t' : Tracker} {r : Requirement}
    (accepted : t.require r.name r.lo r.hi = .ok t') : t'.mode = t.mode := by
  cases mode : t.mode with
  | none =>
    obtain ⟨rfl, -⟩ := (require_auto mode r).mp accepted
    exact mode
  | some x =>
    obtain ⟨rfl, -⟩ := (require_fixed mode r).mp accepted
    exact mode

/-! ## Many requirements -/

/-- Takes in requirements in order. -/
def requireAll : Tracker → List Requirement → Except Fault Tracker
  | t, [] => .ok t
  | t, r :: rs => do
    let t ← t.require r.name r.lo r.hi
    requireAll t rs

/-- The interval that requirements leave. -/
def narrowAll (t : Tracker) (rs : List Requirement) : Tracker := rs.foldl narrow t

theorem requireAll_append (t : Tracker) (rs ss : List Requirement) :
    t.requireAll (rs ++ ss) = t.requireAll rs >>= fun t' => t'.requireAll ss := by
  induction rs generalizing t with
  | nil => rfl
  | cons r rs ih =>
    simp only [List.cons_append, requireAll]
    cases t.require r.name r.lo r.hi with
    | error fault => rfl
    | ok t' => exact ih t'

theorem requireAll_mode {t t' : Tracker} {rs : List Requirement}
    (accepted : t.requireAll rs = .ok t') : t'.mode = t.mode := by
  induction rs generalizing t with
  | nil => cases accepted; rfl
  | cons r rs ih =>
    obtain ⟨next, first, rest⟩ := Outcome.bind_eq_ok.mp accepted
    rw [ih rest, require_mode first]

theorem admits_narrowAll (t : Tracker) (rs : List Requirement) (x : Nat) :
    (t.narrowAll rs).Admits x ↔ t.Admits x ∧ ∀ r ∈ rs, r.Holds x := by
  induction rs generalizing t with
  | nil => simp [narrowAll]
  | cons r rs ih =>
    have step := ih (t.narrow r)
    rw [admits_narrow] at step
    simp only [narrowAll, List.foldl_cons, List.mem_cons, forall_eq_or_imp] at step ⊢
    rw [step, and_assoc]

theorem narrowAll_mode (t : Tracker) (rs : List Requirement) :
    (t.narrowAll rs).mode = t.mode := by
  induction rs generalizing t with
  | nil => rfl
  | cons r rs ih => exact ih (t.narrow r)

/-- **A run without a fixed width** succeeds when some width is left, and keeps the interval of
the widths that meet every requirement. -/
theorem requireAll_auto {t t' : Tracker} (auto : t.mode = none) (possible : t.Possible)
    (rs : List Requirement) :
    t.requireAll rs = .ok t' ↔ t' = t.narrowAll rs ∧ t'.Possible := by
  induction rs generalizing t with
  | nil =>
    simp only [requireAll, narrowAll, List.foldl_nil, Except.ok.injEq]
    constructor
    · rintro rfl
      exact ⟨rfl, possible⟩
    · rintro ⟨rfl, -⟩
      rfl
  | cons r rs ih =>
    rw [requireAll, Outcome.bind_eq_ok]
    simp only [require_auto auto]
    constructor
    · rintro ⟨_, ⟨rfl, left⟩, rest⟩
      exact (ih (t := t.narrow r) auto left).mp rest
    · rintro ⟨result, left⟩
      -- A width that is left at the end is left after the first requirement.
      have earlier : (t.narrow r).Possible := by
        rw [result] at left
        exact possible_of_admits ((admits_narrowAll (t.narrow r) rs _).mp left).1
      exact ⟨t.narrow r, ⟨rfl, earlier⟩, (ih (t := t.narrow r) auto earlier).mpr ⟨result, left⟩⟩

/-- **A run under a fixed width** succeeds when the width meets every requirement, and changes
nothing. -/
theorem requireAll_fixed {t t' : Tracker} {x : Nat} (fixed : t.mode = some x)
    (rs : List Requirement) : t.requireAll rs = .ok t' ↔ t' = t ∧ ∀ r ∈ rs, r.Holds x := by
  induction rs with
  | nil => simp [requireAll, eq_comm]
  | cons r rs ih =>
    rw [requireAll, Outcome.bind_eq_ok]
    simp only [require_fixed fixed, List.mem_cons, forall_eq_or_imp]
    constructor
    · rintro ⟨_, ⟨rfl, holds⟩, rest⟩
      exact ⟨(ih.mp rest).1, holds, (ih.mp rest).2⟩
    · rintro ⟨rfl, holds, rest⟩
      exact ⟨t', ⟨rfl, holds⟩, ih.mpr ⟨rfl, rest⟩⟩

/-- It does not matter who requires a width. -/
theorem requireAll_congr {t t' : Tracker} {rs ss : List Requirement}
    (same : List.Forall₂ (fun r s => r.bounds = s.bounds) rs ss) :
    t.requireAll rs = .ok t' ↔ t.requireAll ss = .ok t' := by
  induction same generalizing t with
  | nil => rfl
  | @cons r s rs ss head _ ih =>
    have step (t₁ : Tracker) :
        t.require r.name r.lo r.hi = .ok t₁ ↔ t.require s.name s.lo s.hi = .ok t₁ := by
      obtain ⟨lo, hi⟩ := Prod.mk.inj head
      cases mode : t.mode with
      | none => rw [require_auto mode, require_auto mode, narrow, narrow, lo, hi]
      | some x =>
        rw [require_fixed mode, require_fixed mode, Requirement.Holds, Requirement.Holds, lo, hi]
    simp only [requireAll, Outcome.bind_eq_ok, step, ih]

/-! ## Runs of steps -/

/-- **A run requires what its steps require.**  If every step that starts in the given mode relates
what it takes to what it gives and takes in requirements, then so does a run that hands the tracker
from step to step. -/
theorem run_eq_ok {ε α β : Type} (step : Tracker → α → Except ε (β × Tracker))
    (run : Tracker → List α → Except ε (List β × Tracker)) {R : α → β → Prop}
    {required : β → List Requirement} {mode : Xlen} (nil : ∀ t, run t [] = .ok ([], t))
    (cons : ∀ t t' a as bs, run t (a :: as) = .ok (bs, t') ↔
      ∃ b t₁ rest, step t a = .ok (b, t₁) ∧ run t₁ as = .ok (rest, t') ∧ b :: rest = bs)
    (spec : ∀ t t' a b, t.mode = mode →
      (step t a = .ok (b, t') ↔ R a b ∧ t.requireAll (required b) = .ok t'))
    {t t' : Tracker} (start : t.mode = mode) {as : List α} {bs : List β} :
    run t as = .ok (bs, t') ↔
      List.Forall₂ R as bs ∧ t.requireAll (bs.flatMap required) = .ok t' := by
  induction as generalizing t bs with
  | nil =>
    rw [nil, List.forall₂_nil_left_iff]
    simp only [Except.ok.injEq, Prod.mk.injEq]
    constructor
    · rintro ⟨rfl, rfl⟩
      exact ⟨rfl, rfl⟩
    · rintro ⟨rfl, accepted⟩
      exact ⟨rfl, by simpa [requireAll] using accepted⟩
  | cons a as ih =>
    rw [cons, List.forall₂_cons_left_iff]
    constructor
    · rintro ⟨b, t₁, rest, stepped, later, rfl⟩
      obtain ⟨related, first⟩ := (spec t t₁ a b start).mp stepped
      obtain ⟨all, second⟩ := (ih ((requireAll_mode first).trans start)).mp later
      refine ⟨⟨b, rest, related, all, rfl⟩, ?_⟩
      rw [List.flatMap_cons, requireAll_append, first]
      exact second
    · rintro ⟨⟨b, rest, related, all, rfl⟩, accepted⟩
      rw [List.flatMap_cons, requireAll_append, Outcome.bind_eq_ok] at accepted
      obtain ⟨t₁, first, second⟩ := accepted
      exact ⟨b, t₁, rest, (spec t t₁ a b start).mpr ⟨related, first⟩,
        (ih ((requireAll_mode first).trans start)).mpr ⟨all, second⟩, rfl⟩

end Tracker

/-! ## What an encoding requires -/

namespace Instruction

/-- The widths at which the instruction exists. -/
def requirement (i : Instruction) : Requirement := ⟨i.name, i.requiredXlen, i.maxXlen⟩

/-- What an operand's value requires: a wide shift amount needs wide registers. -/
def operandRequirements (i : Instruction) : Operand → Value → List Requirement
  | .immediate _, .number v => (i.shiftXlen v).toList.map fun need => ⟨i.name, need, none⟩
  | _, _ => []

end Instruction

/-- What an encoding requires, the instruction first and then its operands in order. -/
def Encoding.requirements (e : Encoding) : List Requirement :=
  e.instruction.requirement ::
    (List.zipWith e.instruction.operandRequirements e.instruction.operands e.values).flatten

/-- Under a fixed width, an instruction is allowed when the width is one at which it exists. -/
theorem Tracker.allowsInstruction_fixed {t : Tracker} {x : Nat} (fixed : t.mode = some x)
    {i : Instruction} : t.allowsInstruction i = true ↔ i.requirement.Holds x := by
  unfold allowsInstruction allows
  rw [fixed]
  dsimp only
  rw [Option.isNone_iff_eq_none]
  exact refusal_eq_none x ⟨"", i.requiredXlen, i.maxXlen⟩

theorem Tracker.allowsInstruction_auto {t : Tracker} (auto : t.mode = none) (i : Instruction) :
    t.allowsInstruction i = true := by
  unfold allowsInstruction allows
  rw [auto]

/-- An instruction whose requirement was met is allowed. -/
theorem Tracker.allowsInstruction_of_requireAll {t t' : Tracker} {rs : List Requirement}
    (required : t.requireAll rs = .ok t') {i : Instruction} (member : i.requirement ∈ rs) :
    t.allowsInstruction i = true := by
  cases mode : t.mode with
  | none => exact allowsInstruction_auto mode i
  | some x =>
    exact (allowsInstruction_fixed mode).mpr (((requireAll_fixed mode rs).mp required).2 _ member)

theorem Tracker.requireShift_eq (t : Tracker) (i : Instruction) (v : Int) (upper : Bool) :
    t.requireShift i v = t.requireAll (i.operandRequirements (.immediate upper) (.number v)) := by
  simp only [requireShift, Instruction.operandRequirements]
  cases i.shiftXlen v with
  | none => rfl
  | some need =>
    simp only [Option.toList_some, List.map_cons, List.map_nil, requireAll]
    cases t.require i.name need none with
    | error fault => rfl
    | ok t' => rfl

/-- Shift amounts need 64 or 128 bits, if they need anything. -/
theorem Instruction.shiftXlen_bounds {i : Instruction} {v : Int} {need : Nat}
    (needed : i.shiftXlen v = some need) : 32 ≤ need ∧ need ≤ 128 := by
  unfold shiftXlen at needed
  split at needed
  · cases needed
  · split at needed <;> cases needed <;> decide

end RvCodec
