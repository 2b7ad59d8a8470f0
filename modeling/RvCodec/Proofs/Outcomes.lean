import Mathlib

/-!
# Successful outcomes

A computation that may fail succeeds exactly when its parts do.  The statements
here take a success apart into the successes it is made of, so that no later
proof has to look inside a chain of steps.  Lists that are gone through in step
are compared element by element.
-/

set_option autoImplicit false

namespace RvCodec.Outcome

variable {ε α β γ : Type}

theorem bind_eq_ok {x : Except ε α} {f : α → Except ε β} {b : β} :
    (x >>= f) = .ok b ↔ ∃ a, x = .ok a ∧ f a = .ok b := by
  cases x with
  | error e => simp [bind, Except.bind]
  | ok a => simp [bind, Except.bind]

/-- A computation in two steps fails when the first one does, or the second one after it. -/
theorem bind_eq_error {x : Except ε α} {f : α → Except ε β} {e : ε} :
    (x >>= f) = .error e ↔ x = .error e ∨ ∃ a, x = .ok a ∧ f a = .error e := by
  cases x with
  | error e' => simp [bind, Except.bind]
  | ok a => simp [bind, Except.bind]

theorem map_eq_ok {x : Except ε α} {f : α → β} {b : β} :
    f <$> x = .ok b ↔ ∃ a, x = .ok a ∧ f a = b := by
  cases x with
  | error e => simp [Functor.map, Except.map]
  | ok a => simp [Functor.map, Except.map]

theorem map_eq_error {x : Except ε α} {f : α → β} {e : ε} : f <$> x = .error e ↔ x = .error e := by
  cases x with
  | error e' => simp [Functor.map, Except.map]
  | ok a => simp [Functor.map, Except.map]

theorem pure_eq_ok {a b : α} : (pure a : Except ε α) = .ok b ↔ a = b := by
  simp [pure, Except.pure]

/-- Where a fault is reported does not matter to a success. -/
theorem mapError_eq_ok {δ : Type} {x : Except ε α} {f : ε → δ} {a : α} :
    x.mapError f = .ok a ↔ x = .ok a := by
  cases x with
  | error e => simp [Except.mapError]
  | ok b => simp [Except.mapError]

/-- An outcome without its fault, which can be compared by evaluation. -/
theorem eq_ok_of_toOption {x : Except ε α} {a : α} (some : x.toOption = some a) : x = .ok a := by
  cases x with
  | error e => cases some
  | ok b => exact congrArg _ (Option.some.inj some)

/-- A guard lets a computation succeed when its condition does not hold. -/
theorem guard_eq_ok {c : Prop} [Decidable c] {e : ε} {f : γ → Except ε β} {x : Except ε β} {b : β} :
    (if c then throw e >>= f else x) = .ok b ↔ ¬ c ∧ x = .ok b := by
  by_cases holds : c <;> simp [holds, bind, Except.bind, throw, throwThe, MonadExceptOf.throw]

/-! ## Lists of outcomes -/

/-- A computation on every element succeeds when it does on each. -/
theorem mapM_eq_ok {f : α → Except ε β} {xs : List α} {ys : List β} :
    xs.mapM f = .ok ys ↔ List.Forall₂ (fun x y => f x = .ok y) xs ys := by
  induction xs generalizing ys with
  | nil => rw [List.mapM_nil, pure_eq_ok, List.forall₂_nil_left_iff, eq_comm]
  | cons x xs ih =>
    simp only [List.mapM_cons, bind_eq_ok, pure_eq_ok, ih, List.forall₂_cons_left_iff]
    constructor
    · rintro ⟨y, head, ys, tail, rfl⟩
      exact ⟨y, ys, head, tail, rfl⟩
    · rintro ⟨y, ys, head, tail, rfl⟩
      exact ⟨y, head, ys, tail, rfl⟩

/-- The outcomes of a function on a list are determined by the list. -/
theorem forall₂_unique {f : α → Except ε β} {xs : List α} {ys zs : List β}
    (first : List.Forall₂ (fun x y => f x = .ok y) xs ys)
    (second : List.Forall₂ (fun x y => f x = .ok y) xs zs) : ys = zs := by
  induction first generalizing zs with
  | nil => cases second; rfl
  | cons head _ ih =>
    cases second with
    | cons head' tail' =>
      rw [head] at head'
      obtain rfl := Except.ok.inj head'
      rw [ih tail']

/-- A relation between lists weakens where it holds. -/
theorem forall₂_imp_of_mem {R S : α → β → Prop} {xs : List α} {ys : List β}
    (all : List.Forall₂ R xs ys) (weaken : ∀ x ∈ xs, ∀ y, R x y → S x y) :
    List.Forall₂ S xs ys := by
  induction all with
  | nil => exact .nil
  | cons head _ ih =>
    exact .cons (weaken _ List.mem_cons_self _ head)
      (ih fun x member => weaken x (List.mem_cons_of_mem _ member))

theorem forall₂_imp_of_mem_right {R S : α → β → Prop} {xs : List α} {ys : List β}
    (all : List.Forall₂ R xs ys) (weaken : ∀ y ∈ ys, ∀ x, R x y → S x y) :
    List.Forall₂ S xs ys :=
  (forall₂_imp_of_mem (R := flip R) (S := flip S) (List.Forall₂.flip all) weaken).flip

/-- What stands in the second list is related to something in the first. -/
theorem exists_of_mem_right {R : α → β → Prop} {xs : List α} {ys : List β}
    (all : List.Forall₂ R xs ys) {y : β} (member : y ∈ ys) : ∃ x ∈ xs, R x y := by
  induction all with
  | nil => cases member
  | cons head _ ih =>
    obtain rfl | later := List.mem_cons.mp member
    · exact ⟨_, List.mem_cons_self, head⟩
    · obtain ⟨x, inside, related⟩ := ih later
      exact ⟨x, List.mem_cons_of_mem _ inside, related⟩

/-- What stands in the first list is related to something in the second. -/
theorem exists_of_mem_left {R : α → β → Prop} {xs : List α} {ys : List β}
    (all : List.Forall₂ R xs ys) {x : α} (member : x ∈ xs) : ∃ y ∈ ys, R x y :=
  exists_of_mem_right (R := flip R) (List.Forall₂.flip all) member

/-- Related elements can be picked one by one. -/
theorem exists_forall₂ {R : α → β → Prop} {xs : List α} (each : ∀ x ∈ xs, ∃ y, R x y) :
    ∃ ys, List.Forall₂ R xs ys := by
  induction xs with
  | nil => exact ⟨[], .nil⟩
  | cons x xs ih =>
    obtain ⟨y, head⟩ := each x List.mem_cons_self
    obtain ⟨ys, tail⟩ := ih fun x' member => each x' (List.mem_cons_of_mem _ member)
    exact ⟨y :: ys, .cons head tail⟩

/-- A relation to the combinations of two lists is a relation between the two lists. -/
theorem forall₂_zipWith {δ : Type} {R : γ → δ → Prop} {f : α → γ} {g : α → β → δ} {xs : List α}
    {ys : List β} (length : xs.length = ys.length) :
    List.Forall₂ R (xs.map f) (List.zipWith g xs ys) ↔
      List.Forall₂ (fun x y => R (f x) (g x y)) xs ys := by
  induction xs generalizing ys with
  | nil =>
    cases ys with
    | nil => simp
    | cons y ys => simp at length
  | cons x xs ih =>
    cases ys with
    | nil => simp at length
    | cons y ys => simp [ih (Nat.succ.inj length)]

end RvCodec.Outcome
