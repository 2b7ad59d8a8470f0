import RvCodec.Assembler
import RvCodec.Proofs.Encodings
import RvCodec.Proofs.Tokens

/-!
# The default table

What the proofs need to know about the instructions themselves is collected
here.  Every instruction is sound (`default_sound`): it is well formed, has
widths in order, has at most its last operand optional and has a token for a
name.  No two mnemonics are the same (`default_mnemonics_nodup`), so that a
mnemonic determines its instruction and its ordering.

Both are decided by evaluation.  There are too many pairs to go through one by
one, so a list is first split by a number, such as one computed from the bytes
of a name.
-/

set_option autoImplicit false

namespace RvCodec

/-! ## Pairs with equal codes -/

namespace Pairs

variable {α : Type} {code : α → Nat} {R : α → α → Prop} [DecidableRel R]

/-- Decides a relation for the pairs of a list with equal codes, after splitting the list by the low
bits of the codes. -/
def check (code : α → Nat) (R : α → α → Prop) [DecidableRel R] : Nat → List α → Bool
  | 0, l => decide (l.Pairwise R)
  | n + 1, l =>
    check code R n (l.filter fun a => (code a).testBit n) &&
      check code R n (l.filter fun a => !(code a).testBit n)

theorem pairwise_of_check {n : Nat} {l : List α} (checked : check code R n l = true) :
    l.Pairwise fun a b => code a = code b → R a b := by
  induction n generalizing l with
  | zero =>
    have holds : l.Pairwise R := of_decide_eq_true checked
    refine holds.imp ?_
    intro a b related _
    exact related
  | succ n ih =>
    obtain ⟨ones, zeros⟩ := (Bool.and_eq_true _ _).mp checked
    rw [List.pairwise_iff_forall_sublist]
    intro a b pair same
    -- Elements with equal codes stay together when the list is split.
    cases bit : (code a).testBit n with
    | true =>
      have kept := pair.filter fun a => (code a).testBit n
      simp only [List.filter_cons, ← same, bit, ↓reduceIte, List.filter_nil] at kept
      exact List.pairwise_iff_forall_sublist.mp (ih ones) kept same
    | false =>
      have kept := pair.filter fun a => !(code a).testBit n
      simp only [List.filter_cons, ← same, bit, Bool.not_false, ↓reduceIte, List.filter_nil] at kept
      exact List.pairwise_iff_forall_sublist.mp (ih zeros) kept same

end Pairs

/-! ## Every instruction -/

/-- The instruction is one that a table may hold. -/
structure Instruction.Sound (i : Instruction) : Prop where
  wellFormed : i.WellFormed
  /-- The least width is one of the usual ones. -/
  usual : 32 ≤ i.requiredXlen ∧ i.requiredXlen ≤ 128
  /-- The widths are in order. -/
  ordered : ∀ h ∈ i.maxXlen, i.requiredXlen ≤ h
  /-- Only the last operand is optional or takes several tokens. -/
  trailing : ∀ o ∈ i.operands.dropLast, o.isOptional = false ∧ o ≠ .vtype
  named : i.name.toByteArray.data.toList ≠ []
  /-- The name is made of the bytes of a token. -/
  bytes : i.name.toByteArray.data.toList.all (Text.isTokenCode ·.toNat) = true

instance (i : Instruction) : Decidable i.Sound :=
  decidable_of_iff (i.WellFormed ∧ (32 ≤ i.requiredXlen ∧ i.requiredXlen ≤ 128) ∧
      (∀ h ∈ i.maxXlen, i.requiredXlen ≤ h) ∧
      (∀ o ∈ i.operands.dropLast, o.isOptional = false ∧ o ≠ .vtype) ∧
      i.name.toByteArray.data.toList ≠ [] ∧
      i.name.toByteArray.data.toList.all (Text.isTokenCode ·.toNat) = true)
    ⟨fun ⟨a, b, c, d, e, f⟩ => ⟨a, b, c, d, e, f⟩, fun ⟨a, b, c, d, e, f⟩ => ⟨a, b, c, d, e, f⟩⟩

theorem Instruction.Sound.isToken {i : Instruction} (sound : i.Sound) : Text.IsToken i.name :=
  .of_bytes sound.named sound.bytes

namespace Table

/-- **Every instruction of the default table is sound.** -/
theorem default_sound : ∀ i ∈ default.instructions, i.Sound := by decide +kernel

theorem default_wellFormed {i : Instruction} (inTable : i ∈ default.instructions) : i.WellFormed :=
  (default_sound i inTable).wellFormed

end Table

/-! ## Mnemonics -/

/-- A number for a name. -/
def nameCode (name : String) : Nat :=
  name.toByteArray.data.toList.foldl (fun n b => 31 * n + b.toNat) 0

namespace Instruction

/-- The mnemonics of an instruction, one for each ordering. -/
def mnemonics (i : Instruction) : List String :=
  i.orders.map fun order => i.name ++ MemoryOrder.ending order

end Instruction

namespace Table

/-- **No two mnemonics are the same**, those of the pseudo-instructions included. -/
theorem default_mnemonics_nodup :
    ("li" :: Pseudo.rules.map (·.name) ++ default.instructions.flatMap (·.mnemonics)).Nodup := by
  have checked : Pairs.check nameCode (· ≠ ·) 9
      ("li" :: Pseudo.rules.map (·.name) ++ default.instructions.flatMap (·.mnemonics)) = true := by
    decide +kernel
  exact (Pairs.pairwise_of_check checked).imp fun distinct same => distinct (by rw [same]) same

theorem name_mem_mnemonics (i : Instruction) : i.name ∈ i.mnemonics := by
  refine List.mem_map.mpr ⟨0, ?_, ?_⟩
  · unfold Instruction.orders
    split <;> simp
  · exact String.append_empty

/-- A mnemonic determines its instruction. -/
theorem eq_of_mem_mnemonics {i j : Instruction} (inTable : i ∈ default.instructions)
    (inTable' : j ∈ default.instructions) {m : String} (member : m ∈ i.mnemonics)
    (member' : m ∈ j.mnemonics) : i = j := by
  have nodup := (List.nodup_append.mp default_mnemonics_nodup).2.1
  have disjoint := (List.nodup_flatMap.mp nodup).2
  by_contra different
  have symmetric : Std.Symm (Function.onFun List.Disjoint Instruction.mnemonics) :=
    ⟨fun _ _ apart _ first second => apart second first⟩
  exact disjoint.forall inTable inTable' different member member'

theorem default_nodup : default.instructions.Nodup := by
  have nodup := (List.nodup_append.mp default_mnemonics_nodup).2.1
  refine (List.nodup_flatMap.mp nodup).2.imp ?_
  rintro i _ apart rfl
  exact apart (name_mem_mnemonics i) (name_mem_mnemonics i)

/-- A mnemonic is not that of a pseudo-instruction. -/
theorem mnemonic_not_pseudo {i : Instruction} (inTable : i ∈ default.instructions) {m : String}
    (member : m ∈ i.mnemonics) : m ≠ "li" ∧ ∀ rule ∈ Pseudo.rules, rule.name ≠ m := by
  have apart := (List.nodup_append.mp default_mnemonics_nodup).2.2
  have listed := List.mem_flatMap.mpr ⟨i, inTable, member⟩
  constructor
  · rintro rfl
    exact apart "li" List.mem_cons_self _ listed rfl
  · rintro rule inRules rfl
    exact apart _ (List.mem_cons_of_mem _ (List.mem_map_of_mem inRules)) _ listed rfl

/-- An instruction is found by its name. -/
theorem find?_name {i : Instruction} (inTable : i ∈ default.instructions) :
    default.find? i.name = some i := by
  have found : (default.find? i.name).isSome = true :=
    List.find?_isSome.mpr ⟨i, inTable, decide_eq_true rfl⟩
  obtain ⟨j, found⟩ := Option.isSome_iff_exists.mp found
  have same : j.name = i.name := by simpa using List.find?_some found
  have inTable' := List.mem_of_find?_eq_some found
  have equal : j = i :=
    eq_of_mem_mnemonics inTable' inTable (name_mem_mnemonics j) (same ▸ name_mem_mnemonics i)
  rw [found, equal]

end Table

/-- What stands before an ending. -/
theorem Text.beforeEnd?_append (stem ending : List Char) :
    beforeEnd? ending (stem ++ ending) = some stem := by
  unfold beforeEnd?
  rw [if_pos (List.isSuffixOf_iff_suffix.mpr (List.suffix_append _ _))]
  simp

/-- An ordering ending is split off again. -/
theorem MemoryOrder.split_ending (name : String) {order : Word} (member : order ∈ [1, 2, 3]) :
    split (name ++ ending order) = (name, order) := by
  -- The endings are tried from the longest on, and none is the end of a longer one.
  have release (cs : List Char) :
      splitEnding endings (cs ++ ['.', 'r', 'l']) = some (cs, 1) := by
    have first : Text.beforeEnd? ['.', 'a', 'q', 'r', 'l'] (cs ++ ['.', 'r', 'l']) = none := by
      simp [Text.beforeEnd?, List.isSuffixOf]
    have second : Text.beforeEnd? ['.', 'a', 'q'] (cs ++ ['.', 'r', 'l']) = none := by
      simp [Text.beforeEnd?, List.isSuffixOf]
    simp [splitEnding, endings, first, second, Text.beforeEnd?_append]
  have acquire (cs : List Char) :
      splitEnding endings (cs ++ ['.', 'a', 'q']) = some (cs, 2) := by
    have first : Text.beforeEnd? ['.', 'a', 'q', 'r', 'l'] (cs ++ ['.', 'a', 'q']) = none := by
      simp [Text.beforeEnd?, List.isSuffixOf]
    simp [splitEnding, endings, first, Text.beforeEnd?_append]
  have both (cs : List Char) :
      splitEnding endings (cs ++ ['.', 'a', 'q', 'r', 'l']) = some (cs, 3) := by
    simp [splitEnding, endings, Text.beforeEnd?_append]
  unfold split
  rw [String.toList_append]
  obtain rfl | rfl | rfl : order = 1 ∨ order = 2 ∨ order = 3 := by simpa using member
  · rw [show (ending 1).toList = ['.', 'r', 'l'] by decide, release]
    exact congrArg (·, 1) String.ofList_toList
  · rw [show (ending 2).toList = ['.', 'a', 'q'] by decide, acquire]
    exact congrArg (·, 2) String.ofList_toList
  · rw [show (ending 3).toList = ['.', 'a', 'q', 'r', 'l'] by decide, both]
    exact congrArg (·, 3) String.ofList_toList

/-- Whatever is split off is an ordering. -/
theorem MemoryOrder.split_mem (name : String) : (split name).2 ∈ ([0, 1, 2, 3] : List Word) := by
  unfold split
  split
  · next stem bits found =>
    unfold splitEnding endings at found
    grind [splitEnding]
  · simp

/-- **A mnemonic names its instruction and ordering.** -/
theorem Assembler.resolve_mnemonic {i : Instruction} (inTable : i ∈ Table.default.instructions)
    {order : Word} (allowed : order ∈ i.orders) :
    resolve Table.default (i.name ++ MemoryOrder.ending order) = .ok (i, order) := by
  by_cases plain : order = 0
  · subst plain
    rw [show MemoryOrder.ending 0 = "" by decide, String.append_empty, resolve,
      Table.find?_name inTable]
  · have atomic : i.isAtomic = true := by
      by_contra notAtomic
      simp only [Instruction.orders, notAtomic, ↓reduceIte, List.mem_singleton] at allowed
      exact plain allowed
    have ordered : order ∈ ([1, 2, 3] : List Word) := by
      simp only [Instruction.orders, atomic, ↓reduceIte] at allowed
      exact (List.mem_cons.mp allowed).resolve_left plain
    -- With an ending, the mnemonic is not the name of an instruction.
    have unnamed : Table.default.find? (i.name ++ MemoryOrder.ending order) = none := by
      apply List.find?_eq_none.mpr
      intro j inTable' same
      have name : j.name = i.name ++ MemoryOrder.ending order := of_decide_eq_true same
      have member : j.name ∈ i.mnemonics := name ▸ List.mem_map_of_mem allowed
      obtain rfl := Table.eq_of_mem_mnemonics inTable' inTable (Table.name_mem_mnemonics j) member
      have empty : MemoryOrder.ending order = "" := by
        have lengths := congrArg String.length name
        rw [String.length_append] at lengths
        exact String.length_eq_zero_iff.mp (by omega)
      have endings : MemoryOrder.ending 1 ≠ "" ∧ MemoryOrder.ending 2 ≠ "" ∧
          MemoryOrder.ending 3 ≠ "" := by decide
      obtain rfl | rfl | rfl : order = 1 ∨ order = 2 ∨ order = 3 := by simpa using ordered
      · exact endings.1 empty
      · exact endings.2.1 empty
      · exact endings.2.2 empty
    unfold resolve
    rw [unnamed, MemoryOrder.split_ending _ ordered]
    simp only [plain, ↓reduceIte, Table.find?_name inTable, atomic]

/-! ## Statements that stand for themselves -/

/-- The number of operands that have to be written. -/
def Instruction.arity (i : Instruction) : Nat :=
  i.operands.length - i.operands.countP (·.isOptional)

/-- The instructions with short forms have more operands than their short forms. -/
theorem Table.default_shortForms : ∀ form ∈ [("fence", 0), ("jal", 1), ("jalr", 2)],
    ∃ i ∈ default.instructions, i.name = form.1 ∧ form.2 < i.arity := by
  decide +kernel

/-- **A written instruction is not a pseudo-instruction.** -/
theorem Pseudo.expand_mnemonic {i : Instruction} (inTable : i ∈ Table.default.instructions)
    {m : String} (member : m ∈ i.mnemonics) {operands : List String}
    (enough : i.arity ≤ operands.length) : expand ⟨m, operands⟩ = .ok [⟨m, operands⟩] := by
  obtain ⟨notConstant, notRule⟩ := Table.mnemonic_not_pseudo inTable member
  have longer : ∀ form ∈ [("fence", 0), ("jal", 1), ("jalr", 2)], m = form.1 →
      form.2 < operands.length := by
    rintro form inForms rfl
    obtain ⟨j, inTable', name, arity⟩ := Table.default_shortForms form inForms
    obtain rfl := Table.eq_of_mem_mnemonics inTable inTable' member
      (name ▸ Table.name_mem_mnemonics j)
    omega
  have fence := longer ("fence", 0) (by simp)
  have jal := longer ("jal", 1) (by simp)
  have jalr := longer ("jalr", 2) (by simp)
  have notShort : shortForm? ⟨m, operands⟩ = none := by
    unfold shortForm?
    dsimp only
    split
    · rw [if_neg]
      intro same
      exact absurd (fence same) (by simp)
    · rw [if_neg, if_neg]
      · intro same
        exact absurd (jalr same) (by simp)
      · intro same
        exact absurd (jal same) (by simp)
    · rw [if_neg]
      intro same
      exact absurd (jalr same) (by simp)
    · rfl
  have noRule : rules.find? (·.name = m) = none :=
    List.find?_eq_none.mpr fun rule inRules same => notRule rule inRules (of_decide_eq_true same)
  simp only [expand, expand?, notConstant, ↓reduceIte, notShort, noRule, Option.map_none,
    Option.getD_none]

end RvCodec
