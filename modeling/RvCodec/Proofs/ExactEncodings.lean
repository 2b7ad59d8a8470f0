import RvCodec.Proofs.Restrictions

/-!
# Encoding is exact

A word is put together from constant bits, scattered immediates and fields, and
nothing checks that the pieces keep out of each other's way.  They do: whatever
the operands of an instruction were read from, the word gives each of them back.

For the immediates this is a bijection (`Immediate.RoundTrips`).  The numbers
that can be encoded are the multiples of the alignment in the range of the
field, each of them is read back, and every word holds such a number in the bits
of the layout.

For a whole instruction the comparison is with the written tokens
(`Operand.Holds`): a register field holds the number of the register that was
written, a mask field says whether a mask was written, and the immediate of the
word is the number that was written.  `encoding_exact` states this together with
what the other direction needs to know of the word: that it is one of the
instruction's, is not reserved and, for a 16-bit instruction, is a 16-bit word
other than zero.
-/

set_option autoImplicit false

namespace RvCodec

open Assembler

/-! ## Immediates -/

namespace Immediate

/-- The number lies in the range of the field and is a multiple of what the layout counts in. -/
structure Represents (f : Immediate) (v : Int) : Prop where
  inRange : if f.range.unsigned then 0 ≤ v ∧ v < 2 ^ f.range.bits
    else -2 ^ (f.range.bits - 1) ≤ v ∧ v < 2 ^ (f.range.bits - 1)
  aligned : f.layout.align ∣ v

/-- Encoding and decoding are inverse to each other, between the numbers that the field represents
and the word bits of its layout; a reserved zero is only decoded. -/
structure RoundTrips (f : Immediate) : Prop where
  encodes : ∀ v, (∃ w, f.encode v = .ok w) ↔ f.Represents v ∧ (f.nonZero = true → v ≠ 0)
  decode_encode : ∀ v w, f.encode v = .ok w → f.decode w = v
  represents_decode : ∀ w, f.Represents (f.decode w)
  encode_decode : ∀ w, ¬ (f.nonZero = true ∧ f.decode w = 0) →
    f.encode (f.decode w) = .ok (w &&& f.layout.wordMask)

variable {f : Immediate}

theorem encode_eq_ok {v : Int} {w : Word} :
    f.encode v = .ok w ↔ f.check v = .ok () ∧ f.layout.pack (Word.ofInt v) = w := by
  simp only [encode, Outcome.bind_eq_ok, Outcome.pure_eq_ok]
  constructor
  · intro encoded
    obtain ⟨_, checked, packed⟩ := encoded
    exact ⟨checked, packed⟩
  · intro both
    exact ⟨(), both⟩

namespace WellFormed

theorem contains_iff (wf : f.WellFormed) (v : Int) :
    f.range.contains v = true ↔
      if f.range.unsigned then 0 ≤ v ∧ v < 2 ^ f.range.bits
      else -2 ^ (f.range.bits - 1) ≤ v ∧ v < 2 ^ (f.range.bits - 1) := by
  have low := wf.low_lt
  have bits := wf.bits_le
  cases sign : f.range.unsigned with
  | true => exact ImmRange.contains_unsigned sign (by omega) v
  | false => exact ImmRange.contains_signed sign (by omega) (by omega) v

theorem check_iff (wf : f.WellFormed) (v : Int) :
    f.check v = .ok () ↔ f.Represents v ∧ (f.nonZero = true → v ≠ 0) := by
  rw [check_eq_ok_iff, wf.contains_iff, ← Int.dvd_iff_emod_eq_zero]
  constructor
  · intro passes
    obtain ⟨inRange, aligned, nonzero⟩ := passes
    exact ⟨⟨inRange, aligned⟩, nonzero⟩
  · intro represented
    obtain ⟨⟨inRange, aligned⟩, nonzero⟩ := represented
    exact ⟨inRange, aligned, nonzero⟩

/-- **A well-formed immediate is encoded and decoded bijectively.** -/
theorem roundTrips (wf : f.WellFormed) : f.RoundTrips where
  encodes v := by
    rw [← wf.check_iff]
    simp only [encode_eq_ok]
    constructor
    · intro encoded
      obtain ⟨_, checked, _⟩ := encoded
      exact checked
    · intro checked
      exact ⟨_, checked, rfl⟩
  decode_encode v w encoded := by
    obtain ⟨checked, packed⟩ := encode_eq_ok.mp encoded
    refine wf.decode_eq ?_ checked
    rw [← packed, Layout.pack_and_wordMask wf.layout.valid]
  represents_decode w := by
    refine ⟨(wf.contains_iff _).mp (wf.contains_decode w), ?_⟩
    rw [wf.align_eq]
    exact wf.dvd_decode w
  encode_decode w notReserved := by
    refine encode_eq_ok.mpr ⟨wf.check_decode ?_, wf.pack_decode w⟩
    intro nonzero zero
    exact notReserved ⟨nonzero, zero⟩

end WellFormed

end Immediate

/-- The immediates of all instructions are well formed, those included that are not written as an
operand of their own. -/
theorem Table.default_immediates : ∀ i ∈ default.instructions,
    i.immediate.isPresent = true → i.immediate.WellFormed := by
  decide +kernel

/-- **The immediates of the table are encoded and decoded bijectively.** -/
theorem Table.default_immediates_roundTrip {i : Instruction} (inTable : i ∈ default.instructions)
    (present : i.immediate.isPresent = true) : i.immediate.RoundTrips :=
  (default_immediates i inTable present).roundTrips

/-- The stack adjustment is scattered over five slices, is signed, counts in sixteens and reserves
zero. -/
theorem Table.default_immediates_roundTrip_stackAdjust : ∃ i ∈ default.instructions,
    i.name = "c.addi16sp" ∧ i.immediate.isPresent = true ∧ i.immediate.RoundTrips := by
  have listed : ∃ i ∈ default.instructions,
      i.name = "c.addi16sp" ∧ i.immediate.isPresent = true := by decide +kernel
  obtain ⟨i, inTable, name, present⟩ := listed
  exact ⟨i, inTable, name, present, default_immediates_roundTrip inTable present⟩

/-! ## Operands as they were written -/

/-- The base register of the word is the one that was written. -/
def BaseRegister.Holds (opts : Options) (w : Word) (token : String) : BaseRegister → Prop
  | integer f => Register.parseInteger opts.embedded token = .ok (f.get w)
  | shortInteger f => Register.parseInteger opts.embedded token = .ok (f.get w + 8)
  | stackPointer => Register.parseInteger opts.embedded token = .ok 2

/-- The word holds the operand that was written in this token, which is empty for an operand that
was left out.  A field of three bits holds the number of a register less eight; an operand that is
not encoded is the one it has to be. -/
def Operand.Holds (opts : Options) (i : Instruction) (w : Word) (token : String) :
    Operand → Prop
  | integer f _ _ => Register.parseInteger opts.embedded token = .ok (f.get w)
  | float f => Register.parse .float token = .ok (f.get w)
  | vector f => Register.parse .vector token = .ok (f.get w)
  | shortInteger f => Register.parseInteger opts.embedded token = .ok (f.get w + 8)
  | shortFloat f => Register.parse .float token = .ok (f.get w + 8)
  | stackPointer => Register.parseInteger opts.embedded token = .ok 2
  | immediate upper => ∃ written, Number.parse token = .ok written ∧
      i.immediate.decode w = if upper then foldUpper written else written
  | memory base => ∃ offset register,
      Pseudo.splitMemory token = .ok (offset, register) ∧
      (if offset = "" then i.immediate.decode w = 0
        else Number.parse offset = .ok (i.immediate.decode w)) ∧
      base.Holds opts w register
  | address f => ∃ offset register, Pseudo.splitMemory token = .ok (offset, register) ∧
      (offset = "" ∨ offset = "0") ∧
      Register.parseInteger opts.embedded register = .ok (f.get w)
  | csr f => Csr.parse token = .ok (f.get w)
  | smallNumber f => Number.parse token = .ok (f.get w).toNat
  | fenceSet f => FenceSet.parse token = .ok (f.get w)
  | roundingMode f =>
    if token = "" then f.get w = RoundingMode.dynamic
    else RoundingMode.parse token = .ok (f.get w)
  | vectorMask f =>
    if token = "" then f.get w = 1
    else Text.lower token = "v0.t" ∧ f.get w = 0
  | mergeMask => Text.lower token = "v0"
  | vtype => ∃ v, VType.parse (Source.tokens token) i.immediate.range.bits = .ok v ∧ i.immediate.decode w = v.toNat
  | unassigned => False

/-! ## What was read is held -/

section Reading

variable {opts : Options} {i : Instruction} {w : Word} {token : String}

theorem Register.parse_of_shorten {file : RegisterFile} {s : String} {r v : Word}
    (shortened : shorten file s r = .ok v) : r = v + 8 := by
  obtain ⟨-, rfl⟩ := shorten_eq_ok.mp shortened
  exact (BitVec.sub_add_cancel r 8).symm

theorem Assembler.parseInteger_of_readStackPointer {u : Unit}
    (read : readStackPointer opts token = .ok u) :
    Register.parseInteger opts.embedded token = .ok 2 := by
  obtain ⟨r, parsed, rest⟩ := Outcome.bind_eq_ok.mp read
  by_cases stack : r = 2
  · rw [parsed, stack]
  · rw [if_pos stack] at rest
    cases rest

theorem BaseRegister.holds_of_readBase {base : BaseRegister}
    (read : readBase opts token base = .ok (base.take w)) : base.Holds opts w token := by
  cases base with
  | integer f => exact read
  | shortInteger f =>
    obtain ⟨r, parsed, shortened⟩ := Outcome.bind_eq_ok.mp read
    rw [Holds, parsed, Register.parse_of_shorten shortened]
    rfl
  | stackPointer =>
    obtain ⟨_, stack, _⟩ := Outcome.bind_eq_ok.mp read
    exact parseInteger_of_readStackPointer stack

/-- An unsigned number that is cut to a word was the word's number. -/
theorem Word.toNat_ofInt_of_bounds {v : Int} (lower : 0 ≤ v) (upper : v < 2 ^ 32) :
    ((Word.ofInt v).toNat : Int) = v := by
  rw [Word.toNat_ofInt, Int.emod_eq_of_lt lower upper]

/-- **A word from which the value that was read is taken holds the operand that was written.** -/
theorem Operand.holds_of_readValue {o : Operand} (sized : o.Sized i)
    (read : readValue opts i token o = .ok (o.take i w)) : o.Holds opts i w token := by
  cases o with
  | integer f notZero notStack =>
    obtain ⟨r, parsed, value⟩ := Outcome.map_eq_ok.mp read
    obtain rfl := Value.field.inj value
    exact (readInteger_eq_ok.mp parsed).1
  | float f =>
    obtain ⟨r, parsed, value⟩ := Outcome.map_eq_ok.mp read
    obtain rfl := Value.field.inj value
    exact parsed
  | vector f =>
    obtain ⟨r, parsed, value⟩ := Outcome.map_eq_ok.mp read
    obtain rfl := Value.field.inj value
    exact parsed
  | shortInteger f =>
    obtain ⟨v, parsed, value⟩ := Outcome.map_eq_ok.mp read
    obtain rfl := Value.field.inj value
    obtain ⟨r, named, shortened⟩ := Outcome.bind_eq_ok.mp parsed
    rw [Holds, named, Register.parse_of_shorten shortened]
  | shortFloat f =>
    obtain ⟨v, parsed, value⟩ := Outcome.map_eq_ok.mp read
    obtain rfl := Value.field.inj value
    obtain ⟨r, named, shortened⟩ := Outcome.bind_eq_ok.mp parsed
    rw [Holds, named, Register.parse_of_shorten shortened]
  | stackPointer =>
    obtain ⟨_, stack, _⟩ := Outcome.bind_eq_ok.mp read
    exact parseInteger_of_readStackPointer stack
  | immediate upper =>
    obtain ⟨written, parsed, rest⟩ := Outcome.bind_eq_ok.mp read
    obtain ⟨_, _, number⟩ := Outcome.bind_eq_ok.mp rest
    exact ⟨written, parsed, (Value.number.inj (Outcome.pure_eq_ok.mp number)).symm⟩
  | memory base =>
    obtain ⟨⟨offset, register⟩, split, rest⟩ := Outcome.bind_eq_ok.mp read
    obtain ⟨v, offsetRead, rest⟩ := Outcome.bind_eq_ok.mp rest
    obtain ⟨r, baseRead, value⟩ := Outcome.bind_eq_ok.mp rest
    obtain ⟨rfl, rfl⟩ := Value.memory.inj (Outcome.pure_eq_ok.mp value)
    refine ⟨offset, register, split, ?_, BaseRegister.holds_of_readBase baseRead⟩
    obtain ⟨parsed, -⟩ := readOffset_eq_ok.mp offsetRead
    by_cases empty : offset = ""
    · rw [if_pos (by simp [empty])] at parsed
      rw [if_pos empty]
      exact (Outcome.pure_eq_ok.mp parsed).symm
    · rw [if_neg (by simpa using empty)] at parsed
      rw [if_neg empty]
      exact parsed
  | address f =>
    obtain ⟨⟨offset, register⟩, split, rest⟩ := Outcome.bind_eq_ok.mp read
    obtain ⟨allowed, rest⟩ := Outcome.guard_eq_ok.mp rest
    obtain ⟨r, parsed, value⟩ := Outcome.map_eq_ok.mp rest
    obtain rfl := Value.field.inj value
    have absent : offset = "" ∨ offset = "0" :=
      (not_and_or.mp allowed).imp Decidable.of_not_not Decidable.of_not_not
    exact ⟨offset, register, split, absent, parsed⟩
  | csr f =>
    obtain ⟨n, parsed, value⟩ := Outcome.map_eq_ok.mp read
    obtain rfl := Value.field.inj value
    exact parsed
  | smallNumber f =>
    obtain ⟨v, parsed, value⟩ := Outcome.bind_eq_ok.mp read
    have kept : Word.ofInt v = f.get w := Value.field.inj (Outcome.pure_eq_ok.mp value)
    obtain ⟨parsed, contained⟩ := Number.parseIn_eq_ok.mp parsed
    have bounds : 0 ≤ v ∧ v < 2 ^ 5 :=
      (ImmRange.contains_unsigned (r := ⟨5, true⟩) rfl (by decide) v).mp contained
    rw [Holds, parsed, ← kept, Word.toNat_ofInt_of_bounds bounds.1 (by omega)]
  | fenceSet f =>
    obtain ⟨set, parsed, value⟩ := Outcome.map_eq_ok.mp read
    obtain rfl := Value.field.inj value
    exact parsed
  | roundingMode f =>
    by_cases omitted : token = ""
    · subst omitted
      rw [Holds, if_pos rfl]
      exact (Value.field.inj (Except.ok.inj read)).symm
    · rw [readValue_roundingMode omitted] at read
      obtain ⟨mode, parsed, value⟩ := Outcome.map_eq_ok.mp read
      obtain rfl := Value.field.inj value
      rw [Holds, if_neg omitted]
      exact parsed
  | vectorMask f =>
    by_cases omitted : token = ""
    · subst omitted
      rw [Holds, if_pos rfl]
      exact (Value.field.inj (Except.ok.inj read)).symm
    · rw [readValue_vectorMask omitted] at read
      rw [Holds, if_neg omitted]
      split at read
      · next masked => exact ⟨masked, (Value.field.inj (Except.ok.inj read)).symm⟩
      · cases read
  | mergeMask =>
    simp only [readValue, readPlain] at read
    split at read
    · next named => exact named
    · cases read
  | vtype =>
    obtain ⟨v, parsed, value⟩ := Outcome.map_eq_ok.mp read
    have kept : v = Word.ofInt (i.immediate.decode w) := Value.field.inj value
    obtain ⟨wf, -, unsigned, -⟩ := sized
    have bits := wf.bits_le
    have contained := (ImmRange.contains_unsigned unsigned (by omega) _).mp (wf.contains_decode w)
    have wider : (2 ^ i.immediate.range.bits : Int) ≤ 2 ^ 32 := by
      exact_mod_cast Nat.pow_le_pow_right (by decide : 0 < 2) bits
    refine ⟨v, parsed, ?_⟩
    rw [kept, Word.toNat_ofInt_of_bounds contained.1 (by omega)]
  | unassigned => exact sized.elim

end Reading

/-! ## Whole instructions -/

/-- What fits the variant with fewer registers fits the one with all of them. -/
theorem Operand.Fits.unrestricted {opts : Options} {i : Instruction} {o : Operand} {v : Value}
    (fits : o.Fits opts i v) : o.Fits opts.unrestricted i v := by
  cases o with
  | integer f notZero notStack =>
    cases v with
    | field r => exact ⟨fits.1.lt, fits.2⟩
    | _ => exact fits
  | address f =>
    cases v with
    | field r => exact Options.HasRegister.lt fits
    | _ => exact fits
  | memory base =>
    cases v with
    | memory offset r =>
      refine ⟨fits.1, ?_⟩
      cases base with
      | integer f => exact Options.HasRegister.lt fits.2
      | shortInteger f => exact fits.2
      | stackPointer => exact fits.2
    | _ => exact fits
  | _ => cases v <;> exact fits

namespace Encoding

/-- The word of the encoding says exactly what was written in the tokens. -/
structure Exact (opts : Options) (tokens : List String) (e : Encoding) : Prop where
  covered : e.instruction.covers e.word = true
  free : e.instruction.reserved? e.word = none
  short : e.instruction.isShort = true → e.word ≠ 0 ∧ e.word.toNat < 2 ^ 16
  /-- Every operand is the one that was written in the token bound to it. -/
  operands : ∃ bound, bind e.instruction e.instruction.operands tokens = .ok bound ∧
    List.Forall₂ (fun o written => o.Holds opts e.instruction e.word written)
      e.instruction.operands bound
  /-- The ordering bits are those of the mnemonic's ending. -/
  order : e.instruction.isAtomic = true → MemoryOrder.get e.word = e.order ∧
    ∀ name, resolve Table.default name = .ok (e.instruction, e.order) →
      name = e.instruction.name ++ MemoryOrder.ending (MemoryOrder.get e.word)

variable {opts : Options} {e : Encoding}

/-- The word of a legal encoding of a 16-bit instruction has 16 bits, not all of them zero. -/
theorem Legal.word_of_short (legal : e.Legal opts) (wf : e.instruction.WellFormed)
    (short : e.instruction.isShort = true) : e.word ≠ 0 ∧ e.word.toNat < 2 ^ 16 := by
  have screened := legal.screen wf
  have half : e.word.down 16 = 0 := by
    refine Disassembler.down_of_screen screened ?_
    rw [wf.isShort_of_covers (legal.covers wf), short]
  constructor
  · intro zero
    rw [zero] at screened
    cases screened
  · have shifted := congrArg BitVec.toNat half
    simp only [Word.down, Nat.reduceLT, ↓reduceIte, BitVec.toNat_ushiftRight,
      Nat.shiftRight_eq_div_pow, BitVec.ofNat_eq_ofNat, BitVec.toNat_ofNat, Nat.zero_mod] at shifted
    omega

/-- The operands of a word that were read from bound tokens are held in the word. -/
theorem Legal.operands_hold (legal : e.Legal opts) {opts' : Options} {tokens bound : List String}
    (binds : bind e.instruction e.instruction.operands tokens = .ok bound)
    (reads : List.Forall₂ (fun p v => readValue opts' e.instruction p.2 p.1 = .ok v)
      (e.instruction.operands.zip bound) e.values) :
    List.Forall₂ (fun o written => o.Holds opts' e.instruction e.word written)
      e.instruction.operands bound := by
  have wf := Table.default_wellFormed legal.member
  have length := bind_length binds
  have taken : e.values =
      (e.instruction.operands.zip bound).map fun p => p.1.take e.instruction e.word := by
    have values := congrArg Encoding.values (legal.ofWord_word wf)
    conv_lhs => rw [← values, ofWord, ← List.map_fst_zip (Nat.le_of_eq length.symm)]
    exact List.map_map
  rw [taken, List.forall₂_map_right_iff, List.forall₂_same] at reads
  refine List.forall₂_iff_zip.mpr ⟨length.symm, ?_⟩
  intro o written inZip
  have sized := wf.sized o (List.of_mem_zip inZip).1
  exact Operand.holds_of_readValue sized (reads _ inZip)

end Encoding

/-! ## Mnemonics -/

theorem Text.append_of_beforeEnd? {ending cs stem : List Char}
    (found : beforeEnd? ending cs = some stem) : stem ++ ending = cs := by
  unfold beforeEnd? at found
  split at found
  · next isEnding =>
    obtain rfl := Option.some.inj found
    obtain ⟨start, rfl⟩ := List.isSuffixOf_iff_suffix.mp isEnding
    simp
  · cases found

/-- The parts of a mnemonic make it up. -/
theorem MemoryOrder.append_ending_split (name : String) :
    (split name).1 ++ ending (split name).2 = name := by
  unfold split
  split
  · next stem bits found =>
    have whole : stem ++ (ending bits).toList = name.toList := by
      simp only [splitEnding, endings] at found
      split at found
      · next front => cases found; exact Text.append_of_beforeEnd? front
      · split at found
        · next front => cases found; exact Text.append_of_beforeEnd? front
        · split at found
          · next front => cases found; exact Text.append_of_beforeEnd? front
          · cases found
    rw [← String.toList_inj, String.toList_append, String.toList_ofList, whole]
  · have none : ending 0 = "" := by decide
    exact (congrArg (name ++ ·) none).trans String.append_empty

theorem Table.mem_of_find? {table : Table} {name : String} {i : Instruction}
    (found : table.find? name = some i) : i ∈ table.instructions ∧ i.name = name :=
  ⟨List.mem_of_find?_eq_some found, by simpa using List.find?_some found⟩

/-- A mnemonic is the instruction's name with the ending of its ordering. -/
theorem Assembler.name_of_resolve {name : String} {i : Instruction} {order : Word}
    (resolved : resolve Table.default name = .ok (i, order)) :
    name = i.name ++ MemoryOrder.ending order := by
  have whole := MemoryOrder.append_ending_split name
  unfold resolve at resolved
  split at resolved
  · next found =>
    cases resolved
    rw [(Table.mem_of_find? found).2]
    exact String.append_empty.symm
  · dsimp only at resolved
    split at resolved
    · cases resolved
    · split at resolved
      · next found =>
        split at resolved
        · cases resolved
          rw [(Table.mem_of_find? found).2, whole]
        · cases resolved
      · cases resolved

/-! ## The law -/

/-- **Encoding is exact.**  Whenever the operands of an instruction of the table are read, the word
is one of the instruction's, is not reserved, keeps to 16 bits if the instruction does, and holds
every operand and the ordering as they were written. -/
theorem encoding_exact {opts : Options} {i : Instruction} {order : Word} {t t' : Tracker}
    {tokens : List String} {values : List Value} (inTable : i ∈ Table.default.instructions)
    (allowed : order ∈ i.orders) (read : readValues opts i t tokens = .ok (values, t')) :
    (⟨i, order, values⟩ : Encoding).Exact opts tokens := by
  obtain ⟨bound, binds, rest⟩ := Outcome.bind_eq_ok.mp read
  obtain ⟨reads, -⟩ := readOperands_eq_ok.mp rest
  have wf := Table.default_wellFormed inTable
  have fits := fits_of_readValues wf binds reads
  -- Which extensions are switched on does not matter to the word, so all of them may be.
  have legal : (⟨i, order, values⟩ : Encoding).Legal opts.unrestricted :=
    ⟨inTable, opts.enables_unrestricted i.ext, allowed, fits.imp fun _ _ => .unrestricted⟩
  have same := congrArg Encoding.order (legal.ofWord_word wf)
  refine ⟨legal.covers wf, legal.reserved wf, legal.word_of_short wf,
    ⟨bound, binds, legal.operands_hold binds reads⟩, ?_⟩
  intro atomic
  simp only [Encoding.ofWord, atomic, ↓reduceIte] at same
  refine ⟨same, ?_⟩
  intro name resolved
  rw [same]
  exact name_of_resolve resolved

set_option maxRecDepth 20000 in
/-- The upper half of the immediate's range is folded, and an atomic instruction keeps its ordering
beside its three registers. -/
theorem encoding_exact_cases :
    (∃ i ∈ Table.default.instructions, i.name = "c.lui" ∧
      (⟨i, 0, [.field 10, .number (-1)]⟩ : Encoding).Exact {} ["A0", "0xfffff"]) ∧
    ∃ i ∈ Table.default.instructions, i.name = "amoadd.w" ∧
      (⟨i, 3, [.field 10, .field 11, .field 12]⟩ : Encoding).Exact {} ["a0", "a1", "(a2)"] := by
  have evaluated : (((Table.default.find? "c.lui").bind fun i =>
        (readValues {} i (.start none) ["A0", "0xfffff"]).toOption.map (·.1, i.orders)),
      ((Table.default.find? "amoadd.w").bind fun i =>
        (readValues {} i (.start none) ["a0", "a1", "(a2)"]).toOption.map (·.1, i.orders))) =
      (some ([.field 10, .number (-1)], [0]),
        some ([.field 10, .field 11, .field 12], [0, 1, 2, 3])) := by cbv
  simp only [Prod.mk.injEq, Option.bind_eq_some_iff, Option.map_eq_some_iff] at evaluated
  obtain ⟨⟨i, found, ⟨_, t⟩, read, rfl, orders⟩, second⟩ := evaluated
  obtain ⟨j, found', ⟨_, t'⟩, read', rfl, orders'⟩ := second
  obtain ⟨inTable, name⟩ := Table.mem_of_find? found
  obtain ⟨inTable', name'⟩ := Table.mem_of_find? found'
  refine ⟨⟨i, inTable, name, ?_⟩, j, inTable', name', ?_⟩
  · exact encoding_exact inTable (by simp [orders]) (Outcome.eq_ok_of_toOption read)
  · exact encoding_exact inTable' (by simp [orders']) (Outcome.eq_ok_of_toOption read')

end RvCodec
