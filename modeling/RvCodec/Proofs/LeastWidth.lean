import RvCodec.Proofs.WrittenLines

/-!
# The narrowest width

When the width of the registers is not fixed, assembling finds one out.  It
succeeds exactly when some fixed width works, gives the same words as every such
width, and reports the least of them (`assemble_auto`).

A text denotes the same encodings at every width, so that only their
requirements are compared: the interval that the tracker keeps is the set of the
widths that meet all of them.
-/

set_option autoImplicit false

namespace RvCodec

/-! ## The interval of a whole run -/

namespace Tracker

theorem start_admits (mode : Xlen) (x : Nat) : (start mode).Admits x :=
  ⟨Nat.zero_le x, fun _ none => by cases none⟩

/-- The lower end of the interval is where it was, or one of the requirements. -/
theorem detected_narrowAll (t : Tracker) (rs : List Requirement) :
    (t.narrowAll rs).detected = t.detected ∨ ∃ r ∈ rs, (t.narrowAll rs).detected = r.lo := by
  induction rs generalizing t with
  | nil => exact .inl rfl
  | cons r rs ih =>
    obtain kept | ⟨r', member, same⟩ := ih (t.narrow r)
    · obtain old | new : max t.detected r.lo = t.detected ∨ max t.detected r.lo = r.lo := by omega
      · exact .inl (kept.trans old)
      · exact .inr ⟨r, List.mem_cons_self, kept.trans new⟩
    · exact .inr ⟨r', List.mem_cons_of_mem _ member, same⟩

/-- The widths from 32 to 255 bits that meet every requirement. -/
def Works (rs : List Requirement) : Set Nat := {x | 32 ≤ x ∧ x ≤ 255 ∧ ∀ r ∈ rs, r.Holds x}

variable {rs : List Requirement} (bounds : ∀ r ∈ rs, 32 ≤ r.lo ∧ r.lo ≤ 128)
include bounds

/-- **The width that is found out is the least one that works.** -/
theorem resolved_isLeast {t : Tracker} (run : (start none).requireAll rs = .ok t) :
    IsLeast (Works rs) t.resolved := by
  obtain ⟨rfl, possible⟩ := (requireAll_auto rfl (start_possible none) rs).mp run
  have admitted (x : Nat) : ((start none).narrowAll rs).Admits x ↔ ∀ r ∈ rs, r.Holds x := by
    simp [admits_narrowAll, start_admits]
  have mode : ((start none).narrowAll rs).mode = none := narrowAll_mode _ rs
  obtain zero | ⟨r, member, same⟩ := detected_narrowAll (start none) rs
  · -- Nothing was required, since every requirement is at least 32.
    have empty : rs = [] := by
      apply List.eq_nil_iff_forall_not_mem.mpr
      intro r member
      have lower := ((admitted _).mp possible r member).1
      have bound := (bounds r member).1
      rw [zero] at lower
      exact absurd (Nat.le_trans bound lower) (by decide)
    subst empty
    exact ⟨⟨by decide, by decide, by simp⟩, fun x works => works.1⟩
  · have bound := bounds r member
    have resolved :
        ((start none).narrowAll rs).resolved = ((start none).narrowAll rs).detected := by
      unfold Tracker.resolved
      rw [mode]
      dsimp only
      rw [if_neg (by omega)]
    rw [resolved]
    refine ⟨⟨by omega, by omega, (admitted _).mp possible⟩, fun x works => ?_⟩
    exact ((admitted x).mpr works.2.2).1

theorem exists_requireAll_auto :
    (∃ t, (start none).requireAll rs = .ok t) ↔ (Works rs).Nonempty := by
  constructor
  · rintro ⟨t, run⟩
    exact ⟨_, (resolved_isLeast bounds run).1⟩
  · rintro ⟨x, -, -, works⟩
    refine ⟨_, (requireAll_auto rfl (start_possible none) rs).mpr ⟨rfl, ?_⟩⟩
    exact possible_of_admits ((admits_narrowAll _ rs x).mpr ⟨start_admits none x, works⟩)

end Tracker

/-! ## Requirements of encodings -/

/-- An encoding requires what its instruction requires and what its shift amounts require. -/
theorem Encoding.mem_requirements {e : Encoding} {r : Requirement} (member : r ∈ e.requirements) :
    r = e.instruction.requirement ∨ ∃ v need, e.instruction.shiftXlen v = some need ∧
      r = ⟨e.instruction.name, need, none⟩ := by
  rcases List.mem_cons.mp member with own | inOperands
  · exact .inl own
  · right
    obtain ⟨group, inGroups, inGroup⟩ := List.mem_flatten.mp inOperands
    obtain ⟨k, inside, same⟩ := List.mem_iff_getElem.mp inGroups
    rw [List.getElem_zipWith] at same
    rw [← same] at inGroup
    unfold Instruction.operandRequirements at inGroup
    split at inGroup
    · next v _ _ =>
      obtain ⟨need, needed, rfl⟩ := List.mem_map.mp inGroup
      exact ⟨v, need, Option.mem_toList.mp needed, rfl⟩
    · cases inGroup

theorem Encoding.requirements_bounds {e : Encoding}
    (inTable : e.instruction ∈ Table.default.instructions) :
    ∀ r ∈ e.requirements, 32 ≤ r.lo ∧ r.lo ≤ 128 := by
  intro r member
  rcases mem_requirements member with rfl | ⟨v, need, needed, rfl⟩
  · exact (Table.default_sound _ inTable).usual
  · exact Instruction.shiftXlen_bounds needed

theorem Assembly.requirements_bounds {source : String} {opts : Options} {a : Assembly}
    (denote : Assembler.SourceDenotes opts source a.blocks) :
    ∀ r ∈ a.requirements, 32 ≤ r.lo ∧ r.lo ≤ 128 := by
  intro r member
  obtain ⟨e, inProgram, member⟩ := List.mem_flatMap.mp member
  exact Encoding.requirements_bounds (denote.legal inProgram).member r member

/-! ## Programs -/

section Programs

variable {source : String} {opts : Options} {a b : Assembly} {x : Nat}

/-- Assembling at any width goes by what the text denotes and the widths that it requires. -/
theorem assemble_withXlen (y : Xlen) :
    assemble source { opts with xlen := y } = .ok a ↔
      Assembler.SourceDenotes opts source a.blocks ∧
      ∃ t, (Tracker.start y).requireAll a.requirements = .ok t ∧ a.xlen = t.resolved ∧
        a.mode = .ofXlen y := by
  rw [assemble_eq_ok, Assembler.SourceDenotes.withXlen]
  rfl

/-- A fixed width works when it meets what the text requires. -/
theorem exists_assemble_fixed (denote : Assembler.SourceDenotes opts source a.blocks) :
    (∃ b, assemble source { opts with xlen := some x } = .ok b) ↔
      ∀ r ∈ a.requirements, r.Holds x := by
  constructor
  · rintro ⟨b, assembled⟩
    obtain ⟨denote', t, run, -⟩ := (assemble_withXlen _).mp assembled
    have same : b.requirements = a.requirements := by
      rw [Assembly.requirements, Assembly.requirements, Assembly.encodings, Assembly.encodings,
        denote'.unique denote]
    rw [same] at run
    exact ((Tracker.requireAll_fixed rfl _).mp run).2
  · intro holds
    exact ⟨⟨a.blocks, (Tracker.start (some x)).resolved, .fixed⟩, (assemble_withXlen _).mpr
      ⟨denote, _, (Tracker.requireAll_fixed rfl _).mpr ⟨rfl, holds⟩, rfl, rfl⟩⟩

/-- The fixed widths from 32 to 255 bits at which the text can be assembled. -/
theorem works_iff (denote : Assembler.SourceDenotes opts source a.blocks) :
    {x | 32 ≤ x ∧ x ≤ 255 ∧ ∃ b, assemble source { opts with xlen := some x } = .ok b} =
      Tracker.Works a.requirements := by
  ext x
  simp only [Set.mem_ofPred_eq, Tracker.Works, exists_assemble_fixed denote]

end Programs

/-- **Without a fixed width, assembling finds the narrowest width that works.**  It succeeds exactly
when some fixed width from 32 to 255 bits does, gives the same words as every such width, and
reports the least of them. -/
theorem assemble_auto (source : String) (opts : Options) :
    ((∃ a, assemble source { opts with xlen := none } = .ok a) ↔
      ∃ x, 32 ≤ x ∧ x ≤ 255 ∧ ∃ b, assemble source { opts with xlen := some x } = .ok b) ∧
    ∀ a, assemble source { opts with xlen := none } = .ok a →
      (∀ x b, 32 ≤ x → x ≤ 255 → assemble source { opts with xlen := some x } = .ok b →
        b.words = a.words) ∧
      IsLeast {x | 32 ≤ x ∧ x ≤ 255 ∧ ∃ b, assemble source { opts with xlen := some x } = .ok b}
        a.xlen := by
  refine ⟨⟨?_, ?_⟩, ?_⟩
  · rintro ⟨a, assembled⟩
    obtain ⟨denote, t, run, -⟩ := (assemble_withXlen _).mp assembled
    have works := (Tracker.resolved_isLeast (Assembly.requirements_bounds denote) run).1
    rw [← works_iff denote] at works
    exact ⟨_, works⟩
  · rintro ⟨x, lower, upper, b, assembled⟩
    obtain ⟨denote, t, run, -⟩ := (assemble_withXlen _).mp assembled
    have holds := ((Tracker.requireAll_fixed rfl _).mp run).2
    obtain ⟨t', run'⟩ := (Tracker.exists_requireAll_auto (Assembly.requirements_bounds denote)).mpr
      ⟨x, lower, upper, holds⟩
    exact ⟨⟨b.blocks, t'.resolved, .auto⟩,
      (assemble_withXlen _).mpr ⟨denote, t', run', rfl, rfl⟩⟩
  · intro a assembled
    obtain ⟨denote, t, run, width, -⟩ := (assemble_withXlen _).mp assembled
    constructor
    · intro x b _ _ assembled'
      have denote' := ((assemble_withXlen _).mp assembled').1
      rw [Assembly.words, Assembly.words, Assembly.encodings, Assembly.encodings,
        denote'.unique denote]
    · rw [works_iff denote, width]
      exact Tracker.resolved_isLeast (Assembly.requirements_bounds denote) run

/-- A shift by 40 needs 64 bits, and no width between 32 and 64 will do. -/
theorem assemble_auto_shift :
    IsLeast {x | 32 ≤ x ∧ x ≤ 255 ∧
      ∃ b, assemble "slli a0, a0, 40" { ({} : Options) with xlen := some x } = .ok b} 64 := by
  have evaluated : (assemble "slli a0, a0, 40" {}).toOption.map (·.xlen) = some 64 := by
    decide +kernel
  obtain ⟨a, assembled, xlen⟩ := Option.map_eq_some_iff.mp evaluated
  rw [← xlen]
  exact ((assemble_auto "slli a0, a0, 40" {}).2 a (Outcome.eq_ok_of_toOption assembled)).2

end RvCodec
