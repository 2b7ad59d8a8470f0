import RvCodec.Proofs.TableIndices

/-!
# Ambiguous instructions

Two instructions are ambiguous when they are looked up under one key, the order
of candidates does not put one of them first, and some word belongs to both.  The
table looks for such pairs by comparing masks and constant bits only.

That this finds the shared words rests on the constant bits of an instruction
lying within its mask, however its fields overlap.  The constant bits of both
together are then a word of both, unless they disagree in a bit that both masks
have (`exists_covers_iff`).

The pairs of a list without repetitions are met once, in the order of the list
(`countP_pairs`), and a pair has one key to be met under.  So
`ambiguities_exact` can say not only which pairs are reported, but that each of
them is reported once.
-/

set_option autoImplicit false

namespace RvCodec

/-! ## Shared words -/

/-- **Two instructions share a word exactly when no constant bit tells them apart.** -/
theorem Instruction.exists_covers_iff (a b : Instruction) :
    (∃ w, a.covers w = true ∧ b.covers w = true) ↔
      (a.test ^^^ b.test) &&& a.mask &&& b.mask = 0 := by
  simp only [WellFormed.covers_iff]
  constructor
  · rintro ⟨w, first, second⟩
    rw [← first, ← second]
    refine Word.eq_of_bits fun k _ => ?_
    simp only [BitVec.getLsbD_and, BitVec.getLsbD_xor, BitVec.ofNat_eq_ofNat, BitVec.getLsbD_zero]
    cases a.mask.getLsbD k <;> cases b.mask.getLsbD k <;> simp
  · intro agree
    -- In each bit of both masks the constant bits are the same.
    have bits (k : Nat) : a.mask.getLsbD k = true → b.mask.getLsbD k = true →
        a.test.getLsbD k = b.test.getLsbD k := by
      intro inA inB
      have bit := congrArg (·.getLsbD k) agree
      simpa [inA, inB] using bit
    have within (i : Instruction) (k : Nat) : i.test.getLsbD k = true →
        i.mask.getLsbD k = true := by
      intro set
      have bit := congrArg (·.getLsbD k) i.test_and_mask
      simpa [set] using bit
    refine ⟨a.test ||| b.test, Word.eq_of_bits fun k _ => ?_, Word.eq_of_bits fun k _ => ?_⟩
    all_goals
      rw [BitVec.getLsbD_and, BitVec.getLsbD_or]
      grind

/-- The instructions could both claim some word, and nothing but their place in the table puts one
of them first. -/
structure Instruction.Ambiguous (a b : Instruction) : Prop where
  key : a.key = b.key
  xlen : a.requiredXlen = b.requiredXlen
  specificity : a.specificity = b.specificity
  shared : ∃ w, a.covers w = true ∧ b.covers w = true

theorem Instruction.Ambiguous.symm {a b : Instruction} (ambiguous : a.Ambiguous b) :
    b.Ambiguous a := by
  obtain ⟨key, xlen, specificity, w, first, second⟩ := ambiguous
  exact ⟨key.symm, xlen.symm, specificity.symm, w, second, first⟩

namespace Table

theorem clash_iff {a b : Instruction} (key : a.key = b.key) :
    clash a b = true ↔ a.Ambiguous b := by
  simp only [clash, Bool.and_eq_true, beq_iff_eq, ← Instruction.exists_covers_iff]
  constructor
  · rintro ⟨⟨xlen, specificity⟩, shared⟩
    exact ⟨key, xlen, specificity, shared⟩
  · rintro ⟨-, xlen, specificity, shared⟩
    exact ⟨⟨xlen, specificity⟩, shared⟩

/-! ## Pairs of a list -/

section Pairs

variable {α : Type} {l : List α} {p : α × α} {a b : α}

theorem mem_of_mem_pairs (member : p ∈ pairs l) : p.1 ∈ l ∧ p.2 ∈ l := by
  induction l with
  | nil => cases member
  | cons c rest ih =>
    rw [pairs, List.mem_append, List.mem_map] at member
    obtain ⟨d, inside, rfl⟩ | later := member
    · exact ⟨List.mem_cons_self, List.mem_cons_of_mem _ inside⟩
    · exact ⟨List.mem_cons_of_mem _ (ih later).1, List.mem_cons_of_mem _ (ih later).2⟩

theorem ne_of_mem_pairs (distinct : l.Nodup) (member : p ∈ pairs l) : p.1 ≠ p.2 := by
  induction l with
  | nil => cases member
  | cons c rest ih =>
    obtain ⟨new, distinct⟩ := List.nodup_cons.mp distinct
    rw [pairs, List.mem_append, List.mem_map] at member
    obtain ⟨d, inside, rfl⟩ | later := member
    · intro (same : c = d)
      exact new (same ▸ inside)
    · exact ih distinct later

variable [DecidableEq α]

/-- The pair consists of these two, in either order. -/
def joins (a b : α) (p : α × α) : Bool := p = (a, b) || p = (b, a)

theorem joins_comm (a b : α) : joins a b = joins b a := by
  funext p
  exact Bool.or_comm _ _

/-- An element makes one pair with each that comes after it, and none is met again. -/
theorem countP_pairs_cons {rest : List α} (new : a ∉ rest) (distinct : rest.Nodup)
    (inB : b ∈ rest) : (pairs (a :: rest)).countP (joins a b) = 1 := by
  have different : a ≠ b := fun same => new (same ▸ inB)
  have first : (rest.map (a, ·)).countP (joins a b) = rest.count b := by
    rw [List.countP_map]
    refine List.countP_congr fun d _ => ?_
    simp [joins, different]
  have later : (pairs rest).countP (joins a b) = 0 := by
    refine List.countP_eq_zero.mpr fun p member joined => ?_
    obtain ⟨inside, inside'⟩ := mem_of_mem_pairs member
    obtain rfl | rfl : p = (a, b) ∨ p = (b, a) := by simpa [joins] using joined
    · exact new inside
    · exact new inside'
  rw [pairs, List.countP_append, first, later, List.count_eq_one_of_mem distinct inB]

/-- **Any two elements of a list without repetitions are paired once.** -/
theorem countP_pairs (distinct : l.Nodup) (inA : a ∈ l) (inB : b ∈ l) (different : a ≠ b) :
    (pairs l).countP (joins a b) = 1 := by
  induction l with
  | nil => cases inA
  | cons c rest ih =>
    obtain ⟨new, others⟩ := List.nodup_cons.mp distinct
    obtain rfl | laterA := List.mem_cons.mp inA
    · exact countP_pairs_cons new others ((List.mem_cons.mp inB).resolve_left different.symm)
    obtain rfl | laterB := List.mem_cons.mp inB
    · rw [joins_comm]
      exact countP_pairs_cons new others laterA
    have first : (rest.map (c, ·)).countP (joins a b) = 0 := by
      refine List.countP_eq_zero.mpr fun p member joined => ?_
      obtain ⟨d, -, rfl⟩ := List.mem_map.mp member
      obtain same | same : (c, d) = (a, b) ∨ (c, d) = (b, a) := by simpa [joins] using joined
      · exact new ((Prod.mk.inj same).1 ▸ laterA)
      · exact new ((Prod.mk.inj same).1 ▸ laterB)
    rw [pairs, List.countP_append, first, ih others laterA laterB, Nat.zero_add]

end Pairs

/-! ## Reports -/

/-- The report is about these two instructions, in either order. -/
def Ambiguity.concerns (m : Ambiguity) (a b : Instruction) : Bool := joins a b (m.first, m.second)

/-- The reports about the instructions of one key. -/
def ambiguitiesOf (t : Table) (k : Key) : List Ambiguity :=
  ((pairs (t.candidates k)).filter fun p => clash p.1 p.2).map fun p => ⟨p.1, p.2, k⟩

theorem ambiguities_eq (t : Table) : t.ambiguities = t.keys.flatMap t.ambiguitiesOf := rfl

section Reports

variable {t : Table} (distinct : t.instructions.Nodup)
include distinct

/-- What is reported is an ambiguity between two instructions of the table. -/
theorem mem_ambiguitiesOf {k : Key} {m : Ambiguity} (member : m ∈ t.ambiguitiesOf k) :
    m.key = k ∧ (m.first ∈ t.instructions ∧ m.first.key = k) ∧
      (m.second ∈ t.instructions ∧ m.second.key = k) ∧ m.first ≠ m.second ∧
      m.first.Ambiguous m.second := by
  obtain ⟨p, inPairs, rfl⟩ := List.mem_map.mp member
  obtain ⟨inPairs, clashes⟩ := List.mem_filter.mp inPairs
  obtain ⟨first, second⟩ := mem_of_mem_pairs inPairs
  rw [mem_candidates] at first second
  have different := ne_of_mem_pairs (candidates_nodup distinct k) inPairs
  exact ⟨rfl, first, second, different,
    (clash_iff (first.2.trans second.2.symm)).mp clashes⟩

theorem countP_ambiguitiesOf {a b : Instruction} (inA : a ∈ t.instructions)
    (inB : b ∈ t.instructions) (different : a ≠ b) (ambiguous : a.Ambiguous b) :
    (t.ambiguitiesOf a.key).countP (·.concerns a b) = 1 := by
  have every : ∀ p ∈ pairs (t.candidates a.key), joins a b p = true → clash p.1 p.2 = true := by
    intro p _ joined
    obtain rfl | rfl : p = (a, b) ∨ p = (b, a) := by simpa [joins] using joined
    · exact (clash_iff ambiguous.key).mpr ambiguous
    · exact (clash_iff ambiguous.key.symm).mpr ambiguous.symm
  calc (t.ambiguitiesOf a.key).countP (·.concerns a b)
      = (pairs (t.candidates a.key)).countP fun p => joins a b p && clash p.1 p.2 := by
        rw [ambiguitiesOf, List.countP_map, List.countP_filter]
        rfl
    _ = (pairs (t.candidates a.key)).countP (joins a b) :=
        List.countP_congr fun p member => by
          simpa using every p member
    _ = 1 := countP_pairs (candidates_nodup distinct _) (mem_candidates.mpr ⟨inA, rfl⟩)
        (mem_candidates.mpr ⟨inB, ambiguous.key.symm⟩) different

theorem countP_ambiguities {a b : Instruction} (inA : a ∈ t.instructions)
    (inB : b ∈ t.instructions) (different : a ≠ b) (ambiguous : a.Ambiguous b) :
    t.ambiguities.countP (·.concerns a b) = 1 := by
  rw [ambiguities_eq, countP_flatMap_keys (mem_keys.mpr ⟨a, inA, rfl⟩)]
  · exact countP_ambiguitiesOf distinct inA inB different ambiguous
  · intro k other
    refine List.countP_eq_zero.mpr fun m member concerned => ?_
    obtain ⟨-, first, second, -⟩ := mem_ambiguitiesOf distinct member
    obtain ⟨rfl, -⟩ | ⟨-, rfl⟩ : m.first = a ∧ m.second = b ∨ m.first = b ∧ m.second = a := by
      simpa [Ambiguity.concerns, joins] using concerned
    · exact other first.2.symm
    · exact other second.2.symm

end Reports

/-- **The reported ambiguities are the real ones.**  Two instructions of a table are reported
exactly when they are ambiguous, each pair once and with its key. -/
theorem ambiguities_exact {groups : List Group} {t : Table} (built : ofGroups groups = .ok t)
    (a b : Instruction) :
    ((∃ m ∈ t.ambiguities, m.concerns a b = true) ↔
      (a ∈ t.instructions ∧ b ∈ t.instructions ∧ a ≠ b) ∧ a.Ambiguous b) ∧
    ((a ∈ t.instructions ∧ b ∈ t.instructions ∧ a ≠ b) ∧ a.Ambiguous b →
      t.ambiguities.countP (·.concerns a b) = 1) ∧
    ∀ m ∈ t.ambiguities, m.first.key = m.key ∧ m.second.key = m.key := by
  have distinct : t.instructions.Nodup := (ofGroups_eq_ok.mp built).2.of_map
  have once : (a ∈ t.instructions ∧ b ∈ t.instructions ∧ a ≠ b) ∧ a.Ambiguous b →
      t.ambiguities.countP (·.concerns a b) = 1 := by
    rintro ⟨⟨inA, inB, different⟩, ambiguous⟩
    exact countP_ambiguities distinct inA inB different ambiguous
  have real (m : Ambiguity) (member : m ∈ t.ambiguities) :
      ∃ k, m ∈ t.ambiguitiesOf k := by
    obtain ⟨k, -, inside⟩ := List.mem_flatMap.mp member
    exact ⟨k, inside⟩
  refine ⟨⟨?_, fun ambiguous => ?_⟩, once, fun m member => ?_⟩
  · rintro ⟨m, member, concerned⟩
    obtain ⟨k, inside⟩ := real m member
    obtain ⟨-, first, second, different, ambiguous⟩ := mem_ambiguitiesOf distinct inside
    obtain ⟨rfl, rfl⟩ | ⟨rfl, rfl⟩ : m.first = a ∧ m.second = b ∨ m.first = b ∧ m.second = a := by
      simpa [Ambiguity.concerns, joins] using concerned
    · exact ⟨⟨first.1, second.1, different⟩, ambiguous⟩
    · exact ⟨⟨second.1, first.1, different.symm⟩, ambiguous.symm⟩
  · exact List.countP_pos_iff.mp (by rw [once ambiguous]; decide)
  · obtain ⟨k, inside⟩ := real m member
    obtain ⟨key, first, second, -⟩ := mem_ambiguitiesOf distinct inside
    exact ⟨first.2.trans key.symm, second.2.trans key.symm⟩

/-- Three additions to a register, of which the last one is told apart by its function bits. -/
def additions : List Instruction :=
  [Catalogue.regImm "one" Catalogue.opImm 0, Catalogue.regImm "two" Catalogue.opImm 0,
    Catalogue.regImm "three" Catalogue.opImm 1]

/-- The first two are reported once, and the third is not. -/
theorem ambiguities_exact_additions :
    ofGroups [⟨.base, "", additions⟩] = .ok ⟨additions⟩ ∧
    (Table.mk additions).ambiguities.countP (·.concerns (Catalogue.regImm "one" Catalogue.opImm 0)
      (Catalogue.regImm "two" Catalogue.opImm 0)) = 1 ∧
    ¬ ∃ m ∈ (Table.mk additions).ambiguities,
      m.concerns (Catalogue.regImm "one" Catalogue.opImm 0)
        (Catalogue.regImm "three" Catalogue.opImm 1) = true := by
  have built : ofGroups [⟨.base, "", additions⟩] = .ok ⟨additions⟩ := rfl
  refine ⟨built, (ambiguities_exact built _ _).2.1 ?_, fun reported => ?_⟩
  · exact ⟨⟨by simp [additions], by simp [additions], by decide⟩, rfl, rfl, rfl, 0x13, by decide,
      by decide⟩
  · obtain ⟨-, ambiguous⟩ := (ambiguities_exact built _ _).1.mp reported
    exact absurd ((Instruction.exists_covers_iff _ _).mp ambiguous.shared) (by decide)

end Table

end RvCodec
