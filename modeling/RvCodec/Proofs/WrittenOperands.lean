import RvCodec.Disassembler
import RvCodec.Proofs.Assembling
import RvCodec.Proofs.Spellings

/-!
# Reading and writing operands

Reading an operand gives a value that fits (`fits_of_readValue`), and so does
taking it from a word where it is not reserved and can be written
(`Sized.fits_take`).  A value that fits is written in tokens that read back as
the value (`Fits.spelling`).  So the values that fit are exactly those that can
be written and read.

A written operand is one token.  Only a vector type may take several, and only
an optional operand that has its default takes none.
-/

set_option autoImplicit false

namespace RvCodec

open Text

/-! ## What is read fits -/

section Reading

variable {opts : Options} {i : Instruction} {token : String}

theorem Assembler.readInteger_eq_ok {notZero notStack : Bool} {r : Word} :
    readInteger opts notZero notStack token = .ok r ↔
      Register.parseInteger opts.embedded token = .ok r ∧ (notZero = true → r ≠ 0) ∧
        (notStack = true → r ≠ 2) := by
  simp only [readInteger, Outcome.bind_eq_ok, Outcome.guard_eq_ok, Outcome.pure_eq_ok,
    Bool.and_eq_true, beq_iff_eq, not_and]
  constructor
  · rintro ⟨_, parsed, nonzero, notStack, rfl⟩
    exact ⟨parsed, nonzero, notStack⟩
  · rintro ⟨parsed, nonzero, notStack⟩
    exact ⟨r, parsed, nonzero, notStack, rfl⟩

theorem Assembler.readBase_fits {base : BaseRegister} {r : Word}
    (read : readBase opts token base = .ok r) : base.Fits opts r := by
  cases base with
  | integer f => exact Register.hasRegister_of_parse read
  | shortInteger f =>
    obtain ⟨_, -, shortened⟩ := Outcome.bind_eq_ok.mp read
    exact Register.shorten_lt shortened
  | stackPointer =>
    obtain ⟨_, -, zero⟩ := Outcome.bind_eq_ok.mp read
    exact (Outcome.pure_eq_ok.mp zero).symm

theorem Assembler.readOffset_eq_ok {v : Int} :
    readOffset i token = .ok v ↔
      (if token.isEmpty then pure 0 else Number.parse token) = .ok v ∧
        i.immediate.check v = .ok () := by
  simp only [readOffset]
  split <;> simp only [Outcome.bind_eq_ok, Outcome.pure_eq_ok]
  · constructor
    · rintro ⟨_, rfl, _, checked, rfl⟩
      exact ⟨rfl, checked⟩
    · rintro ⟨rfl, checked⟩
      exact ⟨0, rfl, (), checked, rfl⟩
  · constructor
    · rintro ⟨_, parsed, _, checked, rfl⟩
      exact ⟨parsed, checked⟩
    · rintro ⟨parsed, checked⟩
      exact ⟨v, parsed, (), checked, rfl⟩

/-- A rounding mode that is not omitted is read. -/
theorem Assembler.readValue_roundingMode {f : BitRange} (written : token ≠ "") :
    readValue opts i token (.roundingMode f) = .field <$> RoundingMode.parse token :=
  if_neg (by simpa using written)

/-- A mask that is not omitted is `v0.t`. -/
theorem Assembler.readValue_vectorMask {f : BitRange} (written : token ≠ "") :
    readValue opts i token (.vectorMask f) =
      if Text.lower token = "v0.t" then .ok (.field 0) else .error (.badMask token) :=
  if_neg (by simpa using written)

/-- **What is read fits.** -/
theorem Assembler.fits_of_readValue {o : Operand} {v : Value} (sized : o.Sized i)
    (read : readValue opts i token o = .ok v) : o.Fits opts i v := by
  cases o with
  | integer f notZero notStack =>
    obtain ⟨r, parsed, rfl⟩ := Outcome.map_eq_ok.mp read
    obtain ⟨parsed, allowed⟩ := readInteger_eq_ok.mp parsed
    exact ⟨Register.hasRegister_of_parse parsed, allowed⟩
  | float f =>
    obtain ⟨r, parsed, rfl⟩ := Outcome.map_eq_ok.mp read
    exact Register.parse_lt parsed
  | vector f =>
    obtain ⟨r, parsed, rfl⟩ := Outcome.map_eq_ok.mp read
    exact Register.parse_lt parsed
  | shortInteger f =>
    obtain ⟨r, parsed, rfl⟩ := Outcome.map_eq_ok.mp read
    obtain ⟨_, -, shortened⟩ := Outcome.bind_eq_ok.mp parsed
    exact Register.shorten_lt shortened
  | shortFloat f =>
    obtain ⟨r, parsed, rfl⟩ := Outcome.map_eq_ok.mp read
    obtain ⟨_, -, shortened⟩ := Outcome.bind_eq_ok.mp parsed
    exact Register.shorten_lt shortened
  | stackPointer =>
    obtain ⟨_, -, nothing⟩ := Outcome.bind_eq_ok.mp read
    obtain rfl := Outcome.pure_eq_ok.mp nothing
    trivial
  | immediate upper =>
    obtain ⟨written, -, rest⟩ := Outcome.bind_eq_ok.mp read
    obtain ⟨_, checked, number⟩ := Outcome.bind_eq_ok.mp rest
    obtain rfl := Outcome.pure_eq_ok.mp number
    exact checked
  | memory base =>
    obtain ⟨parts, -, rest⟩ := Outcome.bind_eq_ok.mp read
    obtain ⟨offset, offsetRead, rest⟩ := Outcome.bind_eq_ok.mp rest
    obtain ⟨r, baseRead, value⟩ := Outcome.bind_eq_ok.mp rest
    obtain rfl := Outcome.pure_eq_ok.mp value
    exact ⟨(readOffset_eq_ok.mp offsetRead).2, readBase_fits baseRead⟩
  | address f =>
    obtain ⟨parts, -, rest⟩ := Outcome.bind_eq_ok.mp read
    obtain ⟨-, rest⟩ := Outcome.guard_eq_ok.mp rest
    obtain ⟨r, parsed, rfl⟩ := Outcome.map_eq_ok.mp rest
    exact Register.hasRegister_of_parse parsed
  | csr f =>
    obtain ⟨n, parsed, rfl⟩ := Outcome.map_eq_ok.mp read
    exact Csr.parse_lt parsed
  | smallNumber f =>
    obtain ⟨n, parsed, value⟩ := Outcome.bind_eq_ok.mp read
    obtain rfl := Outcome.pure_eq_ok.mp value
    exact Word.toNat_ofInt_lt (by decide) (Number.parseIn_eq_ok.mp parsed).2
  | fenceSet f =>
    obtain ⟨set, parsed, rfl⟩ := Outcome.map_eq_ok.mp read
    exact FenceSet.parse_lt parsed
  | roundingMode f =>
    unfold readValue readPlain at read
    dsimp only at read
    split at read
    · cases read
      exact (by decide : (RoundingMode.name? RoundingMode.dynamic).isSome = true)
    · obtain ⟨mode, parsed, rfl⟩ := Outcome.map_eq_ok.mp read
      exact RoundingMode.isSome_of_parse parsed
  | vectorMask f =>
    unfold readValue readPlain at read
    dsimp only at read
    split at read
    · cases read
      exact (by decide : (1 : Word).toNat < 2)
    · split at read
      · cases read
        exact (by decide : (0 : Word).toNat < 2)
      · cases read
  | mergeMask =>
    unfold readValue readPlain at read
    dsimp only at read
    split at read
    · cases read
      trivial
    · cases read
  | vtype =>
    obtain ⟨v, parsed, rfl⟩ := Outcome.map_eq_ok.mp read
    obtain ⟨wf, -, -, -, wide⟩ := sized
    exact VType.parse_lt wide wf.bits_le parsed
  | unassigned => exact sized.elim

end Reading

/-! ## What is taken and written fits -/

section Taking

variable {opts : Options} {i : Instruction} {w : Word}

theorem Disassembler.hasRegister_of_write {r : Word} {text : String}
    (written : writeInteger opts w r = .ok text) (small : r.toNat < 32) : opts.HasRegister r := by
  unfold writeInteger at written
  unfold Options.HasRegister
  split at written
  · cases written
  · next present =>
    rw [Bool.and_eq_true, decide_eq_true_eq, BitVec.lt_def] at present
    split
    · next embedded =>
      have bound : ¬ (15#32).toNat < r.toNat := fun beyond => present ⟨embedded, beyond⟩
      simp at bound
      omega
    · exact small

theorem BaseRegister.Sized.fits_take {base : BaseRegister} (sized : base.Sized) {text : String}
    (written : Disassembler.writeBase opts w (base.take w) base = .ok text) :
    base.Fits opts (base.take w) := by
  cases base with
  | integer f =>
    have small := sized.1.get_lt w
    rw [sized.2] at small
    exact Disassembler.hasRegister_of_write written small
  | shortInteger f =>
    have small := sized.1.get_lt w
    rwa [sized.2] at small
  | stackPointer => rfl

/-- **What is taken fits**, if it is not reserved and can be written. -/
theorem Operand.Sized.fits_take {o : Operand} (sized : o.Sized i)
    (free : i.reservedOperand? w o = none) {part : Option String}
    (written : Disassembler.writeOperand opts i w o (o.take i w) = .ok part) :
    o.Fits opts i (o.take i w) := by
  cases o with
  | integer f notZero notStack =>
    obtain ⟨text, register, -⟩ := Outcome.map_eq_ok.mp written
    have small := sized.1.get_lt w
    rw [sized.2] at small
    unfold Instruction.reservedOperand? at free
    exact ⟨Disassembler.hasRegister_of_write register small, by grind, by grind⟩
  | address f =>
    obtain ⟨text, register, -⟩ := Outcome.bind_eq_ok.mp written
    have small := sized.1.get_lt w
    rw [sized.2] at small
    exact Disassembler.hasRegister_of_write register small
  | immediate upper =>
    apply sized.1.check_decode
    intro nonzero zero
    simp [Instruction.reservedOperand?, nonzero, zero] at free
  | memory base =>
    obtain ⟨wf, zero, baseSized, -⟩ := sized
    obtain ⟨text, register, -⟩ := Outcome.bind_eq_ok.mp written
    exact ⟨wf.check_decode (by simp [zero]), baseSized.fits_take register⟩
  | roundingMode f =>
    unfold Instruction.reservedOperand? at free
    have named : (RoundingMode.name? (f.get w)).isSome = true := by
      by_contra unnamed
      simp_all
    exact named
  | vtype =>
    obtain ⟨wf, -, unsigned, -⟩ := sized
    have holds := wf.contains_decode w
    rw [show i.immediate.range = ⟨i.immediate.range.bits, true⟩ by rw [← unsigned]] at holds
    exact Word.toNat_ofInt_lt wf.bits_le holds
  | stackPointer | mergeMask => trivial
  | unassigned => exact sized.elim
  | _ =>
    have small := sized.1.get_lt w
    rw [sized.2] at small
    exact small

end Taking

/-! ## What fits is written and read back -/

/-- The number of tokens that an operand takes. -/
def Operand.Takes (o : Operand) (tokens : List String) : Prop :=
  if o = .vtype then tokens ≠ [] else if o.isOptional then tokens.length ≤ 1 else tokens.length = 1

theorem Operand.takes_singleton (o : Operand) (token : String) : o.Takes [token] := by
  unfold Takes
  split
  · simp
  · split <;> simp

/-- What is written for the tokens of an operand. -/
def Operand.joined (tokens : List String) : Option String :=
  if tokens = [] then none else some (", ".intercalate tokens)

/-- The token that is bound to an operand which was written in these tokens. -/
def Operand.rejoined (tokens : List String) : String := ",".intercalate tokens

/-- The tokens that an operand's value is written in. -/
structure Operand.Spelling (opts : Options) (i : Instruction) (w : Word) (o : Operand) (v : Value)
    (tokens : List String) : Prop where
  written : Disassembler.writeOperand opts i w o v = .ok (joined tokens)
  clean : ∀ token ∈ tokens, IsToken token
  takes : o.Takes tokens
  read : Assembler.readValue opts i (rejoined tokens) o = .ok v

namespace Operand

variable {opts : Options} {i : Instruction} {w : Word} {o : Operand} {v : Value}

theorem Spelling.single (text : String)
    (written : Disassembler.writeOperand opts i w o v = .ok (some text)) (token : IsToken text)
    (read : Assembler.readValue opts i text o = .ok v) : o.Spelling opts i w v [text] where
  written := by simpa [joined] using written
  clean := by simpa using token
  takes := o.takes_singleton text
  read := by rwa [rejoined, String.intercalate_singleton]

/-- Checked immediates are far from the ends of the 64-bit numbers. -/
theorem parse_checked (wf : i.immediate.WellFormed) {v : Int}
    (checked : i.immediate.check v = .ok ()) (base : NumberBase) : Number.parse (Number.text v base) = .ok v := by
  obtain ⟨lower, upper⟩ := wf.bounds checked
  exact Number.parse_text (by omega) (by omega) base

theorem writeInteger_of_hasRegister {r : Word} (has : opts.HasRegister r) :
    Disassembler.writeInteger opts w r = .ok (Register.text .integer r) := by
  unfold Disassembler.writeInteger
  rw [if_neg]
  rw [Bool.and_eq_true, decide_eq_true_eq, BitVec.lt_def]
  rintro ⟨on, beyond⟩
  simp only [Options.HasRegister, on, ↓reduceIte] at has
  simp at beyond
  omega

theorem readStackPointer_text (opts : Options) :
    Assembler.readStackPointer opts (Register.text .integer 2) = .ok () := by
  have has : opts.HasRegister 2 := by unfold Options.HasRegister; split <;> decide
  rw [Assembler.readStackPointer, Register.parseInteger_text has]
  rfl

/-- The upper twenty bits stand for the number they were cut from. -/
theorem foldUpper_emod {v : Int} (lower : -2 ^ 19 ≤ v) (upper : v < 2 ^ 19) :
    Assembler.foldUpper (v % 0x100000) = v := by
  unfold Assembler.foldUpper
  split <;> omega

/-- The base register of a memory operand and how it is written. -/
theorem base_spelling {base : BaseRegister} {r : Word} (fits : base.Fits opts r) :
    ∃ text, Disassembler.writeBase opts w r base = .ok text ∧
      (∃ r', text = Register.text .integer r') ∧ Assembler.readBase opts text base = .ok r := by
  cases base with
  | integer f =>
    exact ⟨_, writeInteger_of_hasRegister fits, ⟨r, rfl⟩, Register.parseInteger_text fits⟩
  | shortInteger f =>
    exact ⟨_, rfl, ⟨Register.lengthen r, rfl⟩, Register.parseShortInteger_text opts fits⟩
  | stackPointer =>
    obtain rfl : r = 0 := fits
    exact ⟨_, rfl, ⟨2, rfl⟩, by rw [Assembler.readBase, readStackPointer_text]; rfl⟩

theorem isToken_paren {offset text : String}
    (offsetChars : ∀ c ∈ offset.toList, isTokenChar c = true) (token : IsToken text) : IsToken (offset ++ "(" ++ text ++ ")") := by
  refine .of_chars ?_ ?_
  · simp
  · intro c member
    simp only [String.toList_append, List.mem_append] at member
    obtain ((inOffset | opening) | inText) | closing := member
    · exact offsetChars c inOffset
    · obtain rfl : c = '(' := by simpa using opening
      decide
    · exact token.chars c inText
    · obtain rfl : c = ')' := by simpa using closing
      decide

theorem immediate_spelling {upper : Bool} {v : Int} (sized : (immediate upper).Sized i)
    (checked : i.immediate.check v = .ok ()) (w : Word) :
    ∃ tokens, (immediate upper).Spelling opts i w (.number v) tokens := by
  obtain ⟨wf, narrow⟩ := sized
  refine ⟨_, .single _ rfl (Number.isToken_text _ _) ?_⟩
  simp only [Assembler.readValue]
  cases upper with
  | false =>
    rw [if_neg (by decide), parse_checked wf checked]
    simp [bind, Except.bind, checked, pure, Except.pure]
  | true =>
    -- The bits that are cut off are those that the sign fills.
    obtain ⟨signed, bits⟩ := narrow rfl
    obtain ⟨lower, higher⟩ := wf.signed_bounds signed checked
    have wider : (2 ^ (i.immediate.range.bits - 1) : Int) ≤ 2 ^ 19 := by
      exact_mod_cast Nat.pow_le_pow_right (by decide : 0 < 2)
        (by omega : i.immediate.range.bits - 1 ≤ 19)
    rw [if_pos rfl, Number.parse_text (by omega) (by omega)]
    simp only [bind, Except.bind, ↓reduceIte]
    rw [foldUpper_emod (by omega) (by omega)]
    simp [checked, pure, Except.pure]

theorem memory_spelling {base : BaseRegister} {offset : Int} {r : Word}
    (wf : i.immediate.WellFormed) (checked : i.immediate.check offset = .ok ())
    (fits : base.Fits opts r) (w : Word) :
    ∃ tokens, (memory base).Spelling opts i w (.memory offset r) tokens := by
  obtain ⟨text, written, ⟨r', rfl⟩, read⟩ := base_spelling (w := w) fits
  have offsetToken := Number.isToken_text offset opts.base
  have token := Register.isToken_text .integer r'
  refine ⟨_, .single (Number.text offset opts.base ++ "(" ++ Register.text .integer r' ++ ")") ?_
    (isToken_paren offsetToken.chars token) ?_⟩
  · simp only [Disassembler.writeOperand, written]
    rfl
  · have offsetChars : ∀ c ∈ (Number.text offset opts.base).toList, c ≠ '(' ∧ c ≠ ')' := by
      intro c member
      exact (Number.isNumberChar_of_mem_text member).not_paren
    have split := Pseudo.splitMemory_append offsetChars
      (fun c member => (Register.char_of_mem_text member).2) token.nonempty
    have offsetRead : Assembler.readOffset i (Number.text offset opts.base) = .ok offset := by
      refine Assembler.readOffset_eq_ok.mpr ⟨?_, checked⟩
      rw [if_neg (by simpa using offsetToken.nonempty), parse_checked wf checked]
    simp only [Assembler.readValue, Assembler.readPlain, split, bind, Except.bind,
      offsetRead, read]
    rfl

theorem address_spelling {f : BitRange} {r : Word} (has : opts.HasRegister r) (w : Word) :
    ∃ tokens, (address f).Spelling opts i w (.field r) tokens := by
  have token := Register.isToken_text .integer r
  refine ⟨_, .single ("" ++ "(" ++ Register.text .integer r ++ ")") ?_
    (isToken_paren (by simp) token) ?_⟩
  · simp only [Disassembler.writeOperand, writeInteger_of_hasRegister has]
    rfl
  · have split : Pseudo.splitMemory ("" ++ "(" ++ Register.text .integer r ++ ")") =
        .ok ("", Register.text .integer r) :=
      Pseudo.splitMemory_append (by simp) (fun c member => (Register.char_of_mem_text member).2)
        token.nonempty
    simp only [Assembler.readValue, Assembler.readPlain, split, bind, Except.bind]
    exact Outcome.map_eq_ok.mpr ⟨r, Register.parseInteger_text has, rfl⟩

theorem vtype_spelling {v : Word} (wf : i.immediate.WellFormed)
    (fits : v.toNat < 2 ^ i.immediate.range.bits) (w : Word) :
    ∃ tokens, vtype.Spelling opts i w (.field v) tokens := by
  obtain ⟨tokens, nonempty, clean, same, parsed⟩ := VType.parse_text wf.bits_le fits opts.base
  have parsed : VType.parse (Source.tokens (rejoined tokens)) i.immediate.range.bits = .ok v := by
    rwa [rejoined, Source.separates_comma.tokens_join clean]
  refine ⟨tokens, ?_, clean, ?_, Outcome.map_eq_ok.mpr ⟨v, parsed, rfl⟩⟩
  · rw [joined, if_neg nonempty, ← same]
    rfl
  · rw [Takes, if_pos rfl]
    exact nonempty

/-- The dynamic rounding mode is not written. -/
theorem roundingMode_spelling {f : BitRange} {mode : Word}
    (fits : (RoundingMode.name? mode).isSome = true) (w : Word) :
    ∃ tokens, (roundingMode f).Spelling opts i w (.field mode) tokens := by
  by_cases dynamic : mode = RoundingMode.dynamic
  · subst dynamic
    exact ⟨[], rfl, by simp, by simp [Takes, isOptional], rfl⟩
  · obtain ⟨name, named⟩ := Option.isSome_iff_exists.mp fits
    obtain ⟨token, parsed⟩ := RoundingMode.parse_name named
    refine ⟨_, .single name ?_ token ?_⟩
    · rw [Disassembler.writeOperand, if_neg dynamic, named]
    · have written : name ≠ "" := by simpa using token.nonempty
      rw [Assembler.readValue_roundingMode written]
      exact Outcome.map_eq_ok.mpr ⟨mode, parsed, rfl⟩

/-- The absence of a mask is not written. -/
theorem vectorMask_spelling {f : BitRange} {unmasked : Word} (small : unmasked.toNat < 2)
    (w : Word) : ∃ tokens, (vectorMask f).Spelling opts i w (.field unmasked) tokens := by
  by_cases masked : unmasked = 0
  · subst masked
    exact ⟨_, .single _ rfl (by decide) (Outcome.eq_ok_of_toOption (by cbv))⟩
  · obtain rfl : unmasked = 1 := by
      apply BitVec.eq_of_toNat_eq
      have nonzero : unmasked.toNat ≠ 0 := fun zero => masked (BitVec.eq_of_toNat_eq zero)
      have one : (1 : Word).toNat = 1 := rfl
      omega
    exact ⟨[], rfl, by simp, by simp [Takes, isOptional], rfl⟩

/-- **A value that fits is written in tokens that read back as the value.** -/
theorem Fits.spelling (sized : o.Sized i) (fits : o.Fits opts i v) (w : Word) :
    ∃ tokens, o.Spelling opts i w v tokens := by
  cases o with
  | unassigned => exact sized.elim
  | stackPointer =>
    cases v with
    | nothing =>
      refine ⟨_, .single _ rfl (Register.isToken_text _ _) ?_⟩
      simp only [Assembler.readValue, Assembler.readPlain, readStackPointer_text]
      rfl
    | _ => exact fits.elim
  | mergeMask =>
    cases v with
    | nothing => exact ⟨_, .single _ rfl (by decide) (Outcome.eq_ok_of_toOption (by cbv))⟩
    | _ => exact fits.elim
  | immediate upper =>
    cases v with
    | number v => exact immediate_spelling sized fits w
    | _ => exact fits.elim
  | memory base =>
    cases v with
    | memory offset r => exact memory_spelling sized.1 fits.1 fits.2 w
    | _ => exact fits.elim
  | address f =>
    cases v with
    | field r => exact address_spelling fits w
    | _ => exact fits.elim
  | vtype =>
    cases v with
    | field v => exact vtype_spelling sized.1 fits w
    | _ => exact fits.elim
  | roundingMode f =>
    cases v with
    | field mode => exact roundingMode_spelling fits w
    | _ => exact fits.elim
  | vectorMask f =>
    cases v with
    | field unmasked => exact vectorMask_spelling fits w
    | _ => exact fits.elim
  | integer f notZero notStack =>
    cases v with
    | field r =>
      obtain ⟨has, allowed⟩ := fits
      have parsed := Assembler.readInteger_eq_ok.mpr ⟨Register.parseInteger_text has, allowed⟩
      refine ⟨_, .single _ ?_ (Register.isToken_text .integer r)
        (Outcome.map_eq_ok.mpr ⟨r, parsed, rfl⟩)⟩
      rw [Disassembler.writeOperand, writeInteger_of_hasRegister has]
      rfl
    | _ => exact fits.elim
  | float f =>
    cases v with
    | field r =>
      exact ⟨_, .single _ rfl (Register.isToken_text .float r)
        (Outcome.map_eq_ok.mpr ⟨r, Register.parse_text .float fits, rfl⟩)⟩
    | _ => exact fits.elim
  | vector f =>
    cases v with
    | field r =>
      exact ⟨_, .single _ rfl (Register.isToken_text .vector r)
        (Outcome.map_eq_ok.mpr ⟨r, Register.parse_text .vector fits, rfl⟩)⟩
    | _ => exact fits.elim
  | shortInteger f =>
    cases v with
    | field r =>
      exact ⟨_, .single _ rfl (Register.isToken_text .integer _)
        (Outcome.map_eq_ok.mpr ⟨r, Register.parseShortInteger_text opts fits, rfl⟩)⟩
    | _ => exact fits.elim
  | shortFloat f =>
    cases v with
    | field r =>
      exact ⟨_, .single _ rfl (Register.isToken_text .float _)
        (Outcome.map_eq_ok.mpr ⟨r, Register.parseShortFloat_text fits, rfl⟩)⟩
    | _ => exact fits.elim
  | csr f =>
    cases v with
    | field n =>
      exact ⟨_, .single _ rfl (Csr.isToken_text n opts.base)
        (Outcome.map_eq_ok.mpr ⟨n, Csr.parse_text fits opts.base, rfl⟩)⟩
    | _ => exact fits.elim
  | smallNumber f =>
    cases v with
    | field n =>
      have small : (⟨5, true⟩ : ImmRange).contains n.toNat = true :=
        ImmRange.contains_toNat (by decide) fits
      have parsed := Number.parseIn_eq_ok.mpr ⟨Number.parse_word n opts.base, small⟩
      refine ⟨_, .single _ rfl (Number.isToken_text _ opts.base)
        (Outcome.bind_eq_ok.mpr ⟨n.toNat, parsed, ?_⟩)⟩
      rw [Word.ofInt_toNat]
      rfl
    | _ => exact fits.elim
  | fenceSet f =>
    cases v with
    | field set =>
      exact ⟨_, .single _ rfl (FenceSet.parse_text fits).1
        (Outcome.map_eq_ok.mpr ⟨set, (FenceSet.parse_text fits).2, rfl⟩)⟩
    | _ => exact fits.elim

end Operand

end RvCodec
