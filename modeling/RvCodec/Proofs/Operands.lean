import RvCodec.Encoding
import RvCodec.Options
import RvCodec.Proofs.Immediates

/-!
# Operands in words

An operand keeps its value in some bits of the word, its mask.  It is sized when
its fields lie inside the word and have as many bits as its kind needs, and a
value fits when the operand can hold it.  A sized operand and a fitting value
belong together: what is placed is taken back (`Sized.take_place`), and what is
taken is placed on the bits it came from (`Sized.place_take`).

Which operands of a word are reserved is the same question as which values fit:
a fitting value is never reserved (`Fits.not_reserved`).
-/

set_option autoImplicit false

namespace RvCodec

/-! ## Masks and sizes -/

namespace BaseRegister

/-- The word bits of a base register. -/
def mask : BaseRegister → Word
  | integer f | shortInteger f => f.mask
  | stackPointer => 0

/-- The field has the size of a register number. -/
def Sized : BaseRegister → Prop
  | integer f => f.Valid ∧ f.size = 5
  | shortInteger f => f.Valid ∧ f.size = 3
  | stackPointer => True

instance (b : BaseRegister) : Decidable b.Sized := by
  cases b <;> unfold Sized <;> infer_instance

end BaseRegister

/-- The integer register exists in the variant in use. -/
def Options.HasRegister (opts : Options) (r : Word) : Prop :=
  r.toNat < if opts.embedded then 16 else 32

theorem Options.HasRegister.lt {opts : Options} {r : Word} (has : opts.HasRegister r) :
    r.toNat < 32 := by
  unfold HasRegister at has
  split at has <;> omega

namespace Operand

/-- The word bits of an operand. -/
def mask (i : Instruction) : Operand → Word
  | integer f _ _ | float f | vector f | shortInteger f | shortFloat f | address f => f.mask
  | csr f | smallNumber f | fenceSet f | roundingMode f | vectorMask f => f.mask
  | vtype | immediate _ => i.immediate.layout.wordMask
  | memory base => i.immediate.layout.wordMask ||| base.mask
  | stackPointer | mergeMask | unassigned => 0

/-- The operand's fields lie inside the word and have as many bits as its kind needs. -/
def Sized (i : Instruction) : Operand → Prop
  | integer f _ _ | float f | vector f | address f | smallNumber f => f.Valid ∧ f.size = 5
  | shortInteger f | shortFloat f | roundingMode f => f.Valid ∧ f.size = 3
  | csr f => f.Valid ∧ f.size = 12
  | fenceSet f => f.Valid ∧ f.size = 4
  | vectorMask f => f.Valid ∧ f.size = 1
  | immediate upper =>
    i.immediate.WellFormed ∧
      (upper = true → i.immediate.range.unsigned = false ∧ i.immediate.range.bits ≤ 20)
  | memory base =>
    i.immediate.WellFormed ∧ i.immediate.nonZero = false ∧ base.Sized ∧
      i.immediate.layout.wordMask &&& base.mask = 0
  | vtype =>
    i.immediate.WellFormed ∧ i.immediate.nonZero = false ∧ i.immediate.range.unsigned = true ∧
      i.immediate.low = 0 ∧ 8 ≤ i.immediate.range.bits
  | stackPointer | mergeMask => True
  | unassigned => False

instance (i : Instruction) (o : Operand) : Decidable (o.Sized i) := by
  cases o <;> unfold Sized <;> infer_instance

end Operand

/-! ## Fitting values -/

/-- The base register's field can hold the value. -/
def BaseRegister.Fits (opts : Options) (r : Word) : BaseRegister → Prop
  | integer _ => opts.HasRegister r
  | shortInteger _ => r.toNat < 8
  | stackPointer => r = 0

/-- The operand can hold the value. -/
def Operand.Fits (opts : Options) (i : Instruction) : Operand → Value → Prop
  | integer _ notZero notStack, .field r =>
    opts.HasRegister r ∧ (notZero = true → r ≠ 0) ∧ (notStack = true → r ≠ 2)
  | address _, .field r => opts.HasRegister r
  | float _, .field r | vector _, .field r | smallNumber _, .field r => r.toNat < 32
  | shortInteger _, .field r | shortFloat _, .field r => r.toNat < 8
  | csr _, .field n => n.toNat < 4096
  | fenceSet _, .field set => set.toNat < 16
  | roundingMode _, .field mode => (RoundingMode.name? mode).isSome = true
  | vectorMask _, .field unmasked => unmasked.toNat < 2
  | immediate _, .number v => i.immediate.check v = .ok ()
  | memory base, .memory offset r => i.immediate.check offset = .ok () ∧ base.Fits opts r
  | vtype, .field v => v.toNat < 2 ^ i.immediate.range.bits
  | stackPointer, .nothing | mergeMask, .nothing => True
  | _, _ => False

theorem RoundingMode.lt_of_isSome {mode : Word} (named : (name? mode).isSome = true) :
    mode.toNat < 8 := by
  simp only [name?, Option.isSome_map, List.find?_isSome, decide_eq_true_eq] at named
  obtain ⟨entry, member, same⟩ := named
  have bound : ∀ entry ∈ table, entry.1 < 8 := by decide
  exact same ▸ bound entry member

namespace BaseRegister

variable {opts : Options} {base : BaseRegister}

theorem place_and_mask (base : BaseRegister) (v : Word) :
    base.place v &&& base.mask = base.place v := by
  cases base with
  | integer f => exact f.put_and_mask v
  | shortInteger f => exact f.put_and_mask v
  | stackPointer => simp [place]

theorem Sized.place_take (sized : base.Sized) (w : Word) :
    base.place (base.take w) = w &&& base.mask := by
  cases base with
  | integer f => exact sized.1.put_get w
  | shortInteger f => exact sized.1.put_get w
  | stackPointer => simp [place, mask]

theorem Sized.take_place (sized : base.Sized) {v w : Word} (fits : base.Fits opts v)
    (kept : w &&& base.mask = base.place v) : base.take w = v := by
  cases base with
  | integer f => exact sized.1.get_eq (by rw [sized.2]; exact fits.lt) kept
  | shortInteger f => exact sized.1.get_eq (by rw [sized.2]; exact fits) kept
  | stackPointer => exact fits.symm

end BaseRegister

namespace Operand

variable {opts : Options} {i : Instruction} {o : Operand}

/-- A vector type is a number that passes the check. -/
theorem Sized.check_vtype (sized : vtype.Sized i) {v : Word}
    (fits : v.toNat < 2 ^ i.immediate.range.bits) : i.immediate.check v.toNat = .ok () := by
  obtain ⟨wf, zero, unsigned, low, -⟩ := sized
  refine (Immediate.check_eq_ok_iff _).mpr ⟨?_, ?_, ?_⟩
  · rw [ImmRange.contains_unsigned unsigned (by have := wf.bits_le; omega)]
    exact ⟨Int.natCast_nonneg _, by exact_mod_cast fits⟩
  · rw [wf.align_eq, low]
    exact Int.emod_one _
  · simp [zero]

/-- Nothing is placed outside the mask. -/
theorem Sized.place_and_mask (sized : o.Sized i) {v : Value} (fits : o.Fits opts i v) :
    o.place i v &&& o.mask i = o.place i v := by
  cases o with
  | vtype =>
    cases v with
    | field v => exact Layout.pack_and_wordMask sized.1.layout.valid v
    | _ => exact fits.elim
  | immediate upper =>
    cases v with
    | number v => exact Layout.pack_and_wordMask sized.1.layout.valid (Word.ofInt v)
    | _ => exact fits.elim
  | memory base =>
    cases v with
    | memory offset r =>
      have offsetPart := Layout.pack_and_wordMask sized.1.layout.valid (Word.ofInt offset)
      exact Word.or_and_or offsetPart (base.place_and_mask r)
    | _ => exact fits.elim
  | stackPointer | mergeMask => simp [place]
  | unassigned => exact sized.elim
  | _ =>
    cases v with
    | field v => exact BitRange.put_and_mask _ v
    | _ => exact fits.elim

/-- **What is taken is placed on the bits it came from.** -/
theorem Sized.place_take (sized : o.Sized i) (w : Word) :
    o.place i (o.take i w) = w &&& o.mask i := by
  cases o with
  | vtype =>
    obtain ⟨wf, -⟩ := sized
    exact wf.pack_decode w
  | immediate upper => exact sized.1.pack_decode w
  | memory base =>
    obtain ⟨wf, -, baseSized, -⟩ := sized
    simp only [place, take, mask]
    rw [wf.pack_decode, baseSized.place_take, ← BitVec.and_or_distrib_left]
  | stackPointer | mergeMask => simp [place, mask]
  | unassigned => exact sized.elim
  | _ => exact sized.1.put_get w

/-- **What is placed is taken back.** -/
theorem Sized.take_place (sized : o.Sized i) {v : Value} {w : Word} (fits : o.Fits opts i v)
    (kept : w &&& o.mask i = o.place i v) : o.take i w = v := by
  cases o with
  | vtype =>
    cases v with
    | field v =>
      have number : i.immediate.layout.pack v = i.immediate.layout.pack (Word.ofInt v.toNat) := by
        rw [Word.ofInt_toNat]
      rw [take, sized.1.decode_eq (kept.trans number) (sized.check_vtype fits), Word.ofInt_toNat]
    | _ => exact fits.elim
  | immediate upper =>
    cases v with
    | number v => rw [take, sized.1.decode_eq kept fits]
    | _ => exact fits.elim
  | memory base =>
    cases v with
    | memory offset r =>
      obtain ⟨wf, -, baseSized, apart⟩ := sized
      have offsetWithin := Layout.pack_and_wordMask wf.layout.valid (Word.ofInt offset)
      obtain ⟨offsetKept, baseKept⟩ :=
        Word.and_eq_of_or apart offsetWithin (base.place_and_mask r) kept
      rw [take, wf.decode_eq offsetKept fits.1, baseSized.take_place fits.2 baseKept]
    | _ => exact fits.elim
  | stackPointer | mergeMask =>
    cases v with
    | nothing => rfl
    | _ => exact fits.elim
  | unassigned => exact sized.elim
  | integer f notZero notStack =>
    cases v with
    | field v => exact congrArg Value.field (sized.1.get_eq (by rw [sized.2]; exact fits.1.lt) kept)
    | _ => exact fits.elim
  | address f =>
    cases v with
    | field v => exact congrArg Value.field (sized.1.get_eq (by rw [sized.2]; exact fits.lt) kept)
    | _ => exact fits.elim
  | roundingMode f =>
    cases v with
    | field v =>
      have bound := RoundingMode.lt_of_isSome fits
      exact congrArg Value.field (sized.1.get_eq (by rw [sized.2]; exact bound) kept)
    | _ => exact fits.elim
  | _ =>
    cases v with
    | field v => exact congrArg Value.field (sized.1.get_eq (by rw [sized.2]; exact fits) kept)
    | _ => exact fits.elim

/-! ## Reserved operands -/

/-- A value that fits is not reserved. -/
theorem Fits.not_reserved {w : Word} (fits : o.Fits opts i (o.take i w)) :
    i.reservedOperand? w o = none := by
  cases o with
  | integer f notZero notStack =>
    obtain ⟨-, nonzero, notStackPointer⟩ := fits
    unfold Instruction.reservedOperand?
    grind
  | immediate upper =>
    obtain ⟨-, -, nonzero⟩ := (Immediate.check_eq_ok_iff _).mp fits
    unfold Instruction.reservedOperand?
    grind
  | roundingMode f =>
    obtain ⟨name, named⟩ := Option.isSome_iff_exists.mp fits
    simp [Instruction.reservedOperand?, named]
  | _ => rfl

end Operand

end RvCodec
