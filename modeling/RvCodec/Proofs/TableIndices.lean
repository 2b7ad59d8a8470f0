import RvCodec.Proofs.Indexing

/-!
# The indices of a table

A table is asked in three ways: for an instruction with a name, for the keys in
use, and for the candidates of a key.  All three answers are views of one list,
and `Consistent` says how they fit together for a list of arbitrary
instructions, whatever their widths and constant bits are.

The candidates of the keys in use are the whole list, each instruction once and
under its own key (`flatMap_keys_perm`).  Within a key the order is that of a
stable sort.  A sort moves no two instructions past each other that it does not
tell apart, so that those of one rank stay as they were given
(`candidates_filter_ranked`).

`ofGroups_consistent` adds when there is a table at all: unless two instructions
share a name.
-/

set_option autoImplicit false

namespace RvCodec

namespace Table

/-! ## Names -/

theorem count_of_firstDuplicate? {seen names : List String} {name : String}
    (found : firstDuplicate? seen names = some name) :
    1 ≤ names.count name ∧ (name ∈ seen ∨ 2 ≤ names.count name) := by
  induction names generalizing seen with
  | nil => cases found
  | cons first names ih =>
    rw [firstDuplicate?] at found
    split at found
    · next again =>
      obtain rfl : first = name := by simpa using found
      rw [List.count_cons_self]
      exact ⟨by omega, .inl (List.contains_iff_mem.mp again)⟩
    · obtain ⟨once, before | twice⟩ := ih found
      · obtain rfl | earlier := List.mem_cons.mp before
        · rw [List.count_cons_self]
          exact ⟨by omega, .inr (by omega)⟩
        · have more := List.count_le_count_cons (a := name) (b := first) (l := names)
          exact ⟨by omega, .inl earlier⟩
      · have more := List.count_le_count_cons (a := name) (b := first) (l := names)
        exact ⟨by omega, .inr (by omega)⟩

/-- The name that a refusal complains of occurs at least twice. -/
theorem count_of_ofGroups_error {groups : List Group} {d : DuplicateName}
    (refused : ofGroups groups = .error d) :
    2 ≤ ((groups.flatMap (·.instructions)).map (·.name)).count d.name := by
  unfold ofGroups at refused
  dsimp only at refused
  split at refused
  · next name found =>
    obtain rfl : name = d.name := by
      rw [← Except.error.inj refused]
    exact (count_of_firstDuplicate? found).2.resolve_left (by simp)
  · cases refused

/-- **There is a table unless two instructions share a name.** -/
theorem ofGroups_eq_error {groups : List Group} :
    (∃ d, ofGroups groups = .error d) ↔
      ∃ name, 2 ≤ ((groups.flatMap (·.instructions)).map (·.name)).count name := by
  constructor
  · rintro ⟨d, refused⟩
    exact ⟨d.name, count_of_ofGroups_error refused⟩
  · rintro ⟨name, twice⟩
    cases built : ofGroups groups with
    | error d => exact ⟨d, rfl⟩
    | ok t =>
      obtain ⟨listed, distinct⟩ := ofGroups_eq_ok.mp built
      rw [listed] at twice
      have once := List.nodup_iff_count_le_one.mp distinct name
      omega

section Lookup

variable {t : Table} (distinct : (t.instructions.map (·.name)).Nodup)
include distinct

theorem lookup_eq_ok {name : String} {i : Instruction} :
    t.lookup name = .ok i ↔ i ∈ t.instructions ∧ i.name = name := by
  unfold lookup find?
  cases found : t.instructions.find? (·.name = name) with
  | none =>
    simp only [reduceCtorEq, false_iff, not_and]
    intro inTable
    simpa using List.find?_eq_none.mp found i inTable
  | some j =>
    have inTable' := List.mem_of_find?_eq_some found
    have named' : j.name = name := by simpa using List.find?_some found
    simp only [Except.ok.injEq]
    constructor
    · rintro rfl
      exact ⟨inTable', named'⟩
    · rintro ⟨inTable, named⟩
      exact List.inj_on_of_nodup_map distinct inTable' inTable (named'.trans named.symm)

end Lookup

theorem lookup_eq_error {t : Table} {name : String} (none : ∀ i ∈ t.instructions, i.name ≠ name) :
    t.lookup name = .error (.unsupportedInstruction name) := by
  have missing : t.find? name = .none := by
    refine List.find?_eq_none.mpr fun i inTable => ?_
    simpa using none i inTable
  rw [lookup, missing]

/-! ## Keys -/

theorem mem_keys {t : Table} {k : Key} : k ∈ t.keys ↔ ∃ i ∈ t.instructions, i.key = k := by
  have listed : k ∈ (List.range 256).map (BitVec.ofNat 8) :=
    List.mem_map.mpr ⟨k.toNat, List.mem_range.mpr k.isLt, by simp⟩
  simp [keys, listed]

/-- The keys in use ascend. -/
theorem keys_ascending (t : Table) : t.keys.Pairwise (· < ·) := by
  refine List.Pairwise.filter _ (List.pairwise_map.mpr ?_)
  refine List.Pairwise.imp_of_mem ?_ List.pairwise_lt_range
  intro m n inRange inRange' less
  have small := List.mem_range.mp inRange
  have small' := List.mem_range.mp inRange'
  simp only [BitVec.lt_def, BitVec.toNat_ofNat]
  omega

theorem keys_nodup (t : Table) : t.keys.Nodup := t.keys_ascending.imp BitVec.ne_of_lt

/-- What occurs under one key only is counted there. -/
theorem countP_flatMap_keys {t : Table} {α : Type} {p : α → Bool} {f : Key → List α} {k : Key}
    (used : k ∈ t.keys) (elsewhere : ∀ k', k' ≠ k → (f k').countP p = 0) :
    (t.keys.flatMap f).countP p = (f k).countP p := by
  rw [List.countP_flatMap,
    List.sum_map_eq_nsmul_single k (List.countP p ∘ f) fun k' other _ => elsewhere k' other,
    List.count_eq_one_of_mem t.keys_nodup used, one_smul, Function.comp]

/-! ## Candidates -/

theorem candidates_perm (t : Table) (k : Key) :
    (t.candidates k).Perm (t.instructions.filter (·.key = k)) := List.mergeSort_perm _ _

/-- A list that is sorted into compartments is still all there. -/
theorem flatMap_filter_perm {α κ : Type} [DecidableEq α] [DecidableEq κ] {keys : List κ}
    (distinct : keys.Nodup) {key : α → κ} {l : List α} (covered : ∀ a ∈ l, key a ∈ keys) :
    (keys.flatMap fun k => l.filter (key · = k)).Perm l := by
  refine List.perm_iff_count.mpr fun a => ?_
  by_cases member : a ∈ l
  · have elsewhere (k : κ) (other : k ≠ key a) : (l.filter (key · = k)).count a = 0 := by
      refine List.count_eq_zero.mpr fun inside => other ?_
      exact (of_decide_eq_true (List.mem_filter.mp inside).2).symm
    rw [List.count_flatMap, Function.comp_def,
      List.sum_map_eq_nsmul_single (key a) _ fun k other _ => elsewhere k other,
      List.count_eq_one_of_mem distinct (covered a member), one_smul]
    exact List.count_filter (by simp)
  · rw [List.count_eq_zero.mpr member, List.count_eq_zero]
    intro inside
    obtain ⟨k, -, inCompartment⟩ := List.mem_flatMap.mp inside
    exact member (List.mem_of_mem_filter inCompartment)

/-- **The candidates of the keys in use are the instructions of the table.** -/
theorem flatMap_keys_perm (t : Table) : (t.keys.flatMap t.candidates).Perm t.instructions := by
  have covered : ∀ i ∈ t.instructions, i.key ∈ t.keys := fun i inTable =>
    mem_keys.mpr ⟨i, inTable, rfl⟩
  have sorted : (t.keys.flatMap t.candidates).Perm
      (t.keys.flatMap fun k => t.instructions.filter (·.key = k)) :=
    List.Perm.flatMap_left _ fun k _ => t.candidates_perm k
  exact sorted.trans (flatMap_filter_perm t.keys_nodup covered)

theorem precedes_iff {a b : Instruction} :
    precedes a b = true ↔ b.requiredXlen < a.requiredXlen ∨
      a.requiredXlen = b.requiredXlen ∧ b.specificity ≤ a.specificity := by
  simp [precedes]

/-- The candidates come in the order in which they are tried. -/
theorem candidates_sorted (t : Table) (k : Key) : (t.candidates k).Pairwise (precedes · ·) :=
  @List.pairwise_mergeSort _ precedes (fun _ _ _ => precedes_trans) precedes_total _

/-- The instruction needs registers of this width and has this many constant bits. -/
def ranked (x n : Nat) (i : Instruction) : Bool := i.requiredXlen = x && i.specificity = n

/-- The order of candidates does not tell instructions of one rank apart. -/
theorem precedes_of_ranked {x n : Nat} {a b : Instruction} (first : ranked x n a = true)
    (second : ranked x n b = true) : precedes a b = true := by
  simp only [ranked, Bool.and_eq_true, decide_eq_true_eq] at first second
  rw [precedes_iff]
  omega

/-- **Candidates of one rank keep the order of the table.** -/
theorem candidates_filter_ranked (t : Table) (k : Key) (x n : Nat) :
    (t.candidates k).filter (ranked x n) =
      (t.instructions.filter (·.key = k)).filter (ranked x n) := by
  have alike : ((t.instructions.filter (·.key = k)).filter (ranked x n)).Pairwise
      (precedes · ·) := by
    refine List.pairwise_of_forall_mem_list fun a inA b inB => ?_
    exact precedes_of_ranked (List.mem_filter.mp inA).2 (List.mem_filter.mp inB).2
  -- A sorted part of a list is still a part of it after sorting.
  have kept := (@List.sublist_mergeSort _ precedes _ (fun _ _ _ => precedes_trans) precedes_total
    _ alike List.filter_sublist).filter (ranked x n)
  rw [List.filter_filter] at kept
  simp only [Bool.and_self] at kept
  have same := ((t.candidates_perm k).filter (ranked x n)).length_eq
  exact (kept.eq_of_length same.symm).symm

/-! ## All of it -/

/-- What a table answers is what it was built from. -/
structure Consistent (t : Table) (all : List Instruction) : Prop where
  listed : t.instructions = all
  found : ∀ name i, t.lookup name = .ok i ↔ i ∈ all ∧ i.name = name
  unknown : ∀ name, (∀ i ∈ all, i.name ≠ name) →
    ∃ fault, t.lookup name = .error fault ∧ fault.kind = .unsupportedInstruction
  used : ∀ k, k ∈ t.keys ↔ ∃ i ∈ all, i.key = k
  ascending : t.keys.Pairwise (· < ·)
  keyed : ∀ k i, i ∈ t.candidates k ↔ i ∈ all ∧ i.key = k
  gathered : (t.keys.flatMap t.candidates).Perm all
  ordered : ∀ k, (t.candidates k).Pairwise fun a b => b.requiredXlen < a.requiredXlen ∨
    a.requiredXlen = b.requiredXlen ∧ b.specificity ≤ a.specificity
  stable : ∀ k x n, (t.candidates k).filter (ranked x n) =
    (all.filter (·.key = k)).filter (ranked x n)
  tested : ∀ i ∈ all, i.test &&& i.mask = i.test

/-- **Any instructions make a table with consistent indices, unless two of them share a name.**
The name that is complained of is one that they share. -/
theorem ofGroups_consistent (groups : List Group) :
    let all := groups.flatMap (·.instructions)
    ((∃ d, ofGroups groups = .error d) ↔ ∃ name, 2 ≤ (all.map (·.name)).count name) ∧
    (∀ d, ofGroups groups = .error d → 2 ≤ (all.map (·.name)).count d.name) ∧
    ∀ t, ofGroups groups = .ok t → t.Consistent all := by
  refine ⟨ofGroups_eq_error, fun _ => count_of_ofGroups_error, ?_⟩
  intro t built
  obtain ⟨listed, distinct⟩ := ofGroups_eq_ok.mp built
  rw [listed]
  exact {
    listed := rfl
    found := fun _ _ => lookup_eq_ok distinct
    unknown := fun _ none => ⟨_, lookup_eq_error none, rfl⟩
    used := fun _ => mem_keys
    ascending := t.keys_ascending
    keyed := fun _ _ => mem_candidates
    gathered := t.flatMap_keys_perm
    ordered := fun k => (t.candidates_sorted k).imp precedes_iff.mp
    stable := t.candidates_filter_ranked
    tested := fun i _ => i.test_and_mask }

/-- The supported instructions make a table, and a group that is given twice does not. -/
theorem ofGroups_consistent_catalogue :
    (ofGroups Catalogue.groups = .ok default ∧
      default.Consistent (Catalogue.groups.flatMap (·.instructions))) ∧
    ∃ d, ofGroups [⟨.compressed, "", [misdeclared]⟩, ⟨.compressed, "", [misdeclared]⟩] =
      .error d := by
  refine ⟨⟨ofGroups_groups, (ofGroups_consistent Catalogue.groups).2.2 _ ofGroups_groups⟩, ?_⟩
  exact (ofGroups_consistent _).1.mpr ⟨"misdeclared", by decide⟩

end Table

end RvCodec
