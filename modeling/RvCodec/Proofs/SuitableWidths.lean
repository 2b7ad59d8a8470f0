import RvCodec.Proofs.LeastWidth

/-!
# The widths that suit a run

A tracker is one way to keep track of the widths that a run allows.  What it
keeps is a set: the widths that meet every requirement, and of these only the
configured one if there is one.  A run succeeds exactly when the set has an
element, and then reports the least one (`requireAll_iff`).

Once a run is described by its set, the order and the grouping of its
requirements are gone.  The set depends only on which requirements there are
(`suits_congr`), and the set of two runs together is the intersection of their
sets (`suits_append`).  Since the sets have no gaps, the least width of two runs
together is the greater one of their least widths (`isLeast_inter`).
-/

set_option autoImplicit false

namespace RvCodec

/-- The widths at which the requirements are met: the configured one, or any from 32 bits on. -/
def Suits (mode : Xlen) (rs : List Requirement) : Set Nat :=
  {x | (∀ r ∈ rs, r.Holds x) ∧ mode.elim (32 ≤ x) (x = ·)}

variable {mode : Xlen} {rs ss : List Requirement}

theorem suits_append : Suits mode (rs ++ ss) = Suits mode rs ∩ Suits mode ss := by
  ext x
  constructor
  · rintro ⟨holds, configured⟩
    exact ⟨⟨fun r member => holds r (List.mem_append_left _ member), configured⟩,
      fun r member => holds r (List.mem_append_right _ member), configured⟩
  · rintro ⟨⟨first, configured⟩, second, -⟩
    refine ⟨?_, configured⟩
    intro r member
    rcases List.mem_append.mp member with inFirst | inSecond
    · exact first r inFirst
    · exact second r inSecond

/-- Only the bounds of the requirements matter, not who makes them, in what order or how often. -/
theorem suits_subset (covered : ∀ s ∈ ss, ∃ r ∈ rs, r.bounds = s.bounds) :
    Suits mode rs ⊆ Suits mode ss := by
  rintro x ⟨holds, configured⟩
  refine ⟨?_, configured⟩
  intro s member
  obtain ⟨r, inside, same⟩ := covered s member
  obtain ⟨lo, hi⟩ := Prod.mk.inj same
  have met := holds r inside
  rwa [Requirement.Holds, lo, hi] at met

theorem suits_congr (same : ∀ r, r ∈ rs ↔ r ∈ ss) : Suits mode rs = Suits mode ss := by
  apply Set.Subset.antisymm
  · exact suits_subset fun s member => ⟨s, (same s).mpr member, rfl⟩
  · exact suits_subset fun r member => ⟨r, (same r).mp member, rfl⟩

/-! ## No gaps -/

theorem Requirement.Holds.between {r : Requirement} {low x high : Nat} (first : r.Holds low)
    (last : r.Holds high) (above : low ≤ x) (below : x ≤ high) : r.Holds x :=
  ⟨first.1.trans above, fun h top => below.trans (last.2 h top)⟩

theorem suits_ordConnected (mode : Xlen) (rs : List Requirement) :
    (Suits mode rs).OrdConnected := by
  refine ⟨?_⟩
  rintro low ⟨first, lowest⟩ high ⟨last, highest⟩ x ⟨above, below⟩
  refine ⟨fun r member => (first r member).between (last r member) above below, ?_⟩
  cases mode with
  | none => exact Nat.le_trans lowest above
  | some n =>
    obtain rfl : low = n := lowest
    obtain rfl : high = low := highest
    exact Nat.le_antisymm below above

/-- The least element of two sets without gaps together is the greater one of their least
elements. -/
theorem isLeast_inter {S T : Set Nat} (first : S.OrdConnected) (second : T.OrdConnected)
    {m n k : Nat} (leastS : IsLeast S m) (leastT : IsLeast T n) (least : IsLeast (S ∩ T) k) :
    k = max m n := by
  obtain ⟨⟨inS, inT⟩, lower⟩ := least
  have above : max m n ≤ k := Nat.max_le.mpr ⟨leastS.2 inS, leastT.2 inT⟩
  have both : max m n ∈ S ∩ T :=
    ⟨first.out leastS.1 inS ⟨Nat.le_max_left m n, above⟩,
      second.out leastT.1 inT ⟨Nat.le_max_right m n, above⟩⟩
  exact Nat.le_antisymm (lower both) above

/-- Where some width suits, some width is the least one. -/
theorem exists_isLeast_suits {x : Nat} (suits : x ∈ Suits mode rs) :
    ∃ n, IsLeast (Suits mode rs) n :=
  ⟨_, Nat.sInf_mem ⟨x, suits⟩, fun _ member => Nat.sInf_le member⟩

/-! ## Upper bounds -/

/-- Only the instruction itself sets an upper bound. -/
theorem Encoding.bound_of_mem_requirements {e : Encoding} {r : Requirement}
    (member : r ∈ e.requirements) {h : Nat} (bound : h ∈ r.hi) : h ∈ e.instruction.maxXlen := by
  rcases mem_requirements member with rfl | ⟨v, need, -, rfl⟩
  · exact bound
  · cases bound

/-! ## Trackers -/

/-- **A run succeeds when some width suits, and reports the least one.** -/
theorem Tracker.requireAll_iff (bounds : ∀ r ∈ rs, 32 ≤ r.lo ∧ r.lo ≤ 128) {n : Nat} :
    (∃ t, (start mode).requireAll rs = .ok t ∧ n = t.resolved) ↔ IsLeast (Suits mode rs) n := by
  cases mode with
  | some x =>
    constructor
    · rintro ⟨t, run, rfl⟩
      obtain ⟨rfl, holds⟩ := (requireAll_fixed rfl rs).mp run
      exact ⟨⟨holds, rfl⟩, fun y suits => suits.2.ge⟩
    · rintro ⟨⟨holds, rfl⟩, -⟩
      exact ⟨_, (requireAll_fixed rfl rs).mpr ⟨rfl, holds⟩, rfl⟩
  | none =>
    have reports {t : Tracker} (run : (start none).requireAll rs = .ok t) :
        IsLeast (Suits none rs) t.resolved := by
      obtain ⟨⟨lower, upper, holds⟩, least⟩ := resolved_isLeast bounds run
      refine ⟨⟨holds, lower⟩, ?_⟩
      rintro x ⟨meets, wide⟩
      by_cases usual : x ≤ 255
      · exact least ⟨wide, usual, meets⟩
      · omega
    constructor
    · rintro ⟨t, run, rfl⟩
      exact reports run
    · intro least
      have admitted : ((start none).narrowAll rs).Admits n :=
        (admits_narrowAll _ rs n).mpr ⟨start_admits none n, least.1.1⟩
      have run := (requireAll_auto rfl (start_possible none) rs).mpr
        ⟨rfl, possible_of_admits admitted⟩
      exact ⟨_, run, least.unique (reports run)⟩

end RvCodec
