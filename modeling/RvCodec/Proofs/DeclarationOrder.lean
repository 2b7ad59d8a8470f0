import RvCodec.Proofs.Ambiguities
import RvCodec.Proofs.Classification

/-!
# The order of declarations

Candidates of one rank are tried in the order in which they were declared.  So
two tables with the same instructions may have different lists of candidates,
and it is a question whether that shows in what words are read as.

It shows only where a word belongs to two candidates of one rank, which is what
an ambiguity is.  In a table without ambiguities the order of candidates is
strict on those that one word belongs to (`eq_of_precedes`), and a strict order
leaves one way to sort them (`claimants_congr`).  The candidates that a word does
not belong to are passed over in a search, so the same instruction is chosen too,
or the same fault is reported (`choose_congr_order`).
-/

set_option autoImplicit false

namespace RvCodec

namespace Table

variable {t t' : Table}

/-! ## Tables without ambiguities -/

theorem not_ambiguous (distinct : t.instructions.Nodup) (unambiguous : t.ambiguities = [])
    {a b : Instruction} (inA : a ∈ t.instructions) (inB : b ∈ t.instructions) (different : a ≠ b) :
    ¬ a.Ambiguous b := by
  intro ambiguous
  have once := countP_ambiguities distinct inA inB different ambiguous
  rw [unambiguous] at once
  cases once

/-- **A table reports no ambiguity exactly when no two of its instructions are ambiguous.** -/
theorem ambiguities_eq_nil_iff (distinct : t.instructions.Nodup) :
    t.ambiguities = [] ↔ t.instructions.Pairwise fun a b => ¬ a.Ambiguous b := by
  constructor
  · intro none
    exact List.Pairwise.imp_of_mem (not_ambiguous distinct none) distinct
  · intro apart
    refine List.eq_nil_iff_forall_not_mem.mpr fun m member => ?_
    obtain ⟨k, -, inside⟩ := List.mem_flatMap.mp member
    obtain ⟨-, first, second, different, ambiguous⟩ := mem_ambiguitiesOf distinct inside
    have symmetric : Std.Symm fun a b : Instruction => ¬ a.Ambiguous b :=
      ⟨fun _ _ apart ambiguous => apart ambiguous.symm⟩
    exact apart.forall first.1 second.1 different ambiguous

/-- Ambiguities do not depend on the order of declarations. -/
theorem ambiguities_congr (distinct : t.instructions.Nodup)
    (order : t.instructions.Perm t'.instructions) :
    t.ambiguities = [] ↔ t'.ambiguities = [] := by
  rw [ambiguities_eq_nil_iff distinct, ambiguities_eq_nil_iff (order.nodup_iff.mp distinct)]
  exact order.pairwise_iff fun apart ambiguous => apart ambiguous.symm

/-! ## The candidates that a word belongs to -/

/-- The candidates of a word that it is a word of, in the order in which they are tried. -/
def claimants (t : Table) (w : Word) : List Instruction :=
  (t.candidates (Key.ofWord w)).filter (·.covers w)

theorem mem_claimants {w : Word} {i : Instruction} :
    i ∈ t.claimants w ↔ (i ∈ t.instructions ∧ i.key = Key.ofWord w) ∧ i.covers w = true := by
  rw [claimants, List.mem_filter, mem_candidates]

theorem candidates_perm_congr (order : t.instructions.Perm t'.instructions) (k : Key) :
    (t.candidates k).Perm (t'.candidates k) :=
  (t.candidates_perm k).trans ((order.filter _).trans (t'.candidates_perm k).symm)

/-- Without ambiguities, the order of candidates is strict on those that one word belongs to. -/
theorem eq_of_precedes (distinct : t.instructions.Nodup) (unambiguous : t.ambiguities = [])
    {w : Word} {a b : Instruction} (inA : a ∈ t.claimants w) (inB : b ∈ t.claimants w)
    (first : precedes a b = true) (second : precedes b a = true) : a = b := by
  obtain ⟨⟨inTable, key⟩, covered⟩ := mem_claimants.mp inA
  obtain ⟨⟨inTable', key'⟩, covered'⟩ := mem_claimants.mp inB
  rw [precedes_iff] at first second
  by_contra different
  exact not_ambiguous distinct unambiguous inTable inTable' different
    ⟨key.trans key'.symm, by omega, by omega, w, covered, covered'⟩

/-- **Without ambiguities, the order of declarations does not show in the candidates of a word**
that it belongs to. -/
theorem claimants_congr (distinct : t.instructions.Nodup) (unambiguous : t.ambiguities = [])
    (order : t.instructions.Perm t'.instructions) (w : Word) : t.claimants w = t'.claimants w := by
  have perm : (t.claimants w).Perm (t'.claimants w) := (candidates_perm_congr order _).filter _
  refine List.Perm.eq_of_pairwise ?_ ((t.candidates_sorted _).filter _)
    ((t'.candidates_sorted _).filter _) perm
  intro a b inA inB first second
  exact eq_of_precedes distinct unambiguous inA (perm.mem_iff.mpr inB) first second

end Table

/-! ## The choice -/

namespace Disassembler

variable {opts : Options} {tracker : Tracker} {w : Word}

/-- A search passes over the candidates that the word does not belong to. -/
theorem search_filter_covers (s : Search) (candidates : List Instruction) :
    search opts tracker w s (candidates.filter (·.covers w)) =
      search opts tracker w s candidates := by
  induction candidates generalizing s with
  | nil => rfl
  | cons i rest ih =>
    cases covered : i.covers w with
    | false =>
      rw [List.filter_cons_of_neg (by simp [covered]), ih, search]
      simp [covered]
    | true =>
      rw [List.filter_cons_of_pos (by simp [covered]), search, search]
      simp only [ih]

/-- Without ambiguities, the order of declarations does not show in the choice of an instruction. -/
theorem choose_congr_order {t t' : Table} (distinct : t.instructions.Nodup)
    (unambiguous : t.ambiguities = []) (order : t.instructions.Perm t'.instructions) :
    choose t opts tracker w = choose t' opts tracker w := by
  have same := Table.claimants_congr distinct unambiguous order w
  have empty : t.candidates (Key.ofWord w) = [] ↔ t'.candidates (Key.ofWord w) = [] := by
    rw [← List.length_eq_zero_iff, ← List.length_eq_zero_iff,
      (Table.candidates_perm_congr order _).length_eq]
  unfold choose
  split
  · next none => rw [empty.mp none]
  · next some =>
    split
    · next none => exact absurd (empty.mpr none) some
    · rw [← search_filter_covers, ← search_filter_covers {} (t'.candidates _)]
      exact congrArg _ same

end Disassembler

namespace Table

/-- **A table without ambiguities does not depend on the order of declarations.**  Instructions with
distinct names make a table in any order and under any grouping, and if one of these tables reports
no ambiguity, then neither do the others: every word has the same candidates that it belongs to, in
the same order, and is read as the same instruction. -/
theorem declaration_order_free {groups groups' : List Group} {t : Table}
    (built : ofGroups groups = .ok t) (unambiguous : t.ambiguities = [])
    (order : (groups.flatMap (·.instructions)).Perm (groups'.flatMap (·.instructions))) :
    ∃ t', ofGroups groups' = .ok t' ∧ t'.ambiguities = [] ∧ ∀ w,
      t.claimants w = t'.claimants w ∧
      ∀ opts tracker, Disassembler.choose t opts tracker w =
        Disassembler.choose t' opts tracker w := by
  obtain ⟨listed, names⟩ := ofGroups_eq_ok.mp built
  have distinct : t.instructions.Nodup := names.of_map
  rw [listed] at order
  refine ⟨⟨groups'.flatMap (·.instructions)⟩, ?_, ?_, fun w => ⟨?_, fun opts tracker => ?_⟩⟩
  · exact ofGroups_eq_ok.mpr ⟨rfl, ((order.map _).nodup_iff).mp names⟩
  · exact (ambiguities_congr distinct order).mp unambiguous
  · exact claimants_congr distinct unambiguous order w
  · exact Disassembler.choose_congr_order distinct unambiguous order

/-- The supported instructions are not ambiguous. -/
theorem default_unambiguous : default.ambiguities = [] := by
  -- Constant bits come first here, since they tell most pairs apart and are quick to compare.
  have apart : default.instructions.Pairwise fun a b => a.key.toNat = b.key.toNat →
      (a.test ^^^ b.test) &&& a.mask &&& b.mask ≠ 0 ∨ a.requiredXlen ≠ b.requiredXlen ∨
        a.specificity ≠ b.specificity := by
    refine Pairs.pairwise_of_check (n := 8) ?_
    decide +kernel
  refine (ambiguities_eq_nil_iff default_nodup).mpr (apart.imp fun {a b} told ambiguous => ?_)
  obtain bits | xlen | specificity := told (congrArg _ ambiguous.key)
  · exact bits ((Instruction.exists_covers_iff a b).mp ambiguous.shared)
  · exact xlen ambiguous.xlen
  · exact specificity ambiguous.specificity

/-- The extensions may be declared the other way round. -/
theorem declaration_order_free_reversed :
    ∃ t, ofGroups Catalogue.groups.reverse = .ok t ∧ t.ambiguities = [] ∧ ∀ w,
      default.claimants w = t.claimants w ∧
      ∀ opts tracker, Disassembler.choose default opts tracker w =
        Disassembler.choose t opts tracker w :=
  declaration_order_free ofGroups_groups default_unambiguous
    ((List.reverse_perm _).symm.flatMap_right _)

end Table

end RvCodec
