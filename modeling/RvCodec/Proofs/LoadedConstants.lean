import RvCodec.Proofs.Constants

/-!
# Loaded constants at 64 bits

What `li` leaves in its register is known only once its words are executed.  A
machine with registers of 64 bits that knows the two instructions in question is
enough for this (`Registers.execute`).

At 64 bits the load of the upper bits extends the sign of its 32 bits, and the
addition then carries into all 64 bits.  If the upper part is negative and the
lower one is negative too, their sum can leave the 32 bits downwards.  This
happens where rounding up has turned the greatest upper part that is not
negative into the least one, which is for the last 2048 constants below 2^31:
there the register is 2^32 less than it should be (`Pseudo.Splits.sum_eq`,
`li_executed`).  Everywhere else it holds the constant's 32 bits with their sign
extended.
-/

set_option autoImplicit false

namespace RvCodec

/-! ## A machine -/

/-- The contents of the integer registers, which have 64 bits. -/
def Registers := BitVec 5 → BitVec 64

namespace Registers

/-- Reads a register; the first one is always zero. -/
def get (regs : Registers) (r : BitVec 5) : BitVec 64 := if r = 0 then 0 else regs r

/-- Writes a register. -/
def set (regs : Registers) (r : BitVec 5) (v : BitVec 64) : Registers :=
  fun q => if q = r then v else regs q

variable (regs : Registers)

theorem get_zero : regs.get 0 = 0 := if_pos rfl

theorem get_set_self {r : BitVec 5} (nonzero : r ≠ 0) (v : BitVec 64) :
    (regs.set r v).get r = v := by
  rw [get, if_neg nonzero, set, if_pos rfl]

theorem get_set_other {r q : BitVec 5} (other : q ≠ r) (v : BitVec 64) :
    (regs.set r v).get q = regs.get q := by
  simp [get, set, other]

/-- Executes a load of the upper bits or an addition of a small number; no other word. -/
def execute (w : Word) : Option Registers :=
  if w.extractLsb' 0 7 = 0b0110111#7 then
    some (regs.set (w.extractLsb' 7 5) ((w.extractLsb' 12 20 ++ 0#12).signExtend 64))
  else if w.extractLsb' 0 7 = 0b0010011#7 ∧ w.extractLsb' 12 3 = 0b000#3 then
    some (regs.set (w.extractLsb' 7 5)
      (regs.get (w.extractLsb' 15 5) + (w.extractLsb' 20 12).signExtend 64))
  else none

/-- Executes words in order. -/
def run (ws : List Word) : Option Registers := ws.foldlM execute regs

theorem run_nil : regs.run [] = some regs := rfl

variable {regs}

theorem run_cons {regs' : Registers} {w : Word} {ws : List Word}
    (step : regs.execute w = some regs') : regs.run (w :: ws) = regs'.run ws := by
  rw [run, List.foldlM_cons, step]
  rfl

end Registers

namespace Constants

/-! ## One step -/

theorem execute_luiWord (regs : Registers) (rd : Word) (imm : Int) :
    regs.execute (luiWord rd imm) =
      some (regs.set (rd.setWidth 5) ((BitVec.ofInt 20 imm ++ 0#12).signExtend 64)) := by
  have opcode : (luiWord rd imm).extractLsb' 0 7 = 0b0110111#7 :=
    BitVec.extractLsb'_append_eq_right
  have destination : (luiWord rd imm).extractLsb' 7 5 = rd.setWidth 5 :=
    (BitVec.extractLsb'_append_eq_of_le (by decide)).trans BitVec.extractLsb'_append_eq_right
  have upper : (luiWord rd imm).extractLsb' 12 20 = BitVec.ofInt 20 imm :=
    (BitVec.extractLsb'_append_eq_of_le (by decide)).trans BitVec.extractLsb'_append_eq_left
  rw [Registers.execute, if_pos opcode, destination, upper]

theorem execute_addiWord (regs : Registers) (rd rs1 : Word) (imm : Int) :
    regs.execute (addiWord rd rs1 imm) = some (regs.set (rd.setWidth 5)
      (regs.get (rs1.setWidth 5) + (BitVec.ofInt 12 imm).signExtend 64)) := by
  -- Each field is what remains once the fields below it are cut off.
  have above (start len : Nat) (beyond : 7 ≤ start) : (addiWord rd rs1 imm).extractLsb' start len =
      BitVec.extractLsb' (start - 7) len
        (BitVec.ofInt 12 imm ++ rs1.setWidth 5 ++ 0b000#3 ++ rd.setWidth 5) :=
    BitVec.extractLsb'_append_eq_of_le beyond
  have opcode : (addiWord rd rs1 imm).extractLsb' 0 7 = 0b0010011#7 :=
    BitVec.extractLsb'_append_eq_right
  have destination : (addiWord rd rs1 imm).extractLsb' 7 5 = rd.setWidth 5 :=
    (above 7 5 (by decide)).trans BitVec.extractLsb'_append_eq_right
  have funct : (addiWord rd rs1 imm).extractLsb' 12 3 = 0b000#3 := by
    rw [above 12 3 (by decide), BitVec.extractLsb'_append_eq_of_le (by decide)]
    exact BitVec.extractLsb'_append_eq_right
  have source : (addiWord rd rs1 imm).extractLsb' 15 5 = rs1.setWidth 5 := by
    rw [above 15 5 (by decide), BitVec.extractLsb'_append_eq_of_le (by decide),
      BitVec.extractLsb'_append_eq_of_le (by decide)]
    exact BitVec.extractLsb'_append_eq_right
  have lower : (addiWord rd rs1 imm).extractLsb' 20 12 = BitVec.ofInt 12 imm := by
    rw [above 20 12 (by decide), BitVec.extractLsb'_append_eq_of_le (by decide),
      BitVec.extractLsb'_append_eq_of_le (by decide)]
    exact BitVec.extractLsb'_append_eq_left
  rw [Registers.execute, opcode, if_neg (by decide), if_pos ⟨rfl, funct⟩, destination, source,
    lower]

end Constants

/-! ## The sum of the two parts -/

namespace Pseudo

/-- The 32 bits of a number as a signed number, but for the last 2048 numbers below 2^31, to which
2^32 is missing. -/
def loaded (v : Int) : Int :=
  let b := Int.bmod v 0x100000000
  if 0x7ffff800 ≤ b then b - 0x100000000 else b

theorem loaded_of_small {v : Int} (small : -2048 ≤ v ∧ v ≤ 2047) : loaded v = v := by
  rw [loaded, Int.bmod_def]
  split <;> split <;> omega

/-- The upper part is read as a signed number, and so the sum of the parts can be too small. -/
theorem Splits.sum_eq {v upper lower : Int} (splits : Splits v upper lower) :
    2 ^ 12 * Int.bmod upper (2 ^ 20) + lower = loaded v := by
  obtain ⟨nonneg, below, least, greatest, same⟩ := splits
  unfold Int.ModEq at same
  rw [loaded, Int.bmod_def, Int.bmod_def]
  split <;> split <;> omega

end Pseudo

namespace Constants

/-- The constant's 32 bits with their sign extended. -/
def extended (v : Int) : BitVec 64 := (BitVec.ofInt 32 v).signExtend 64

theorem ofInt_loaded {v : Int} (fits : -2 ^ 31 ≤ v ∧ v ≤ 2 ^ 32 - 1) :
    BitVec.ofInt 64 (Pseudo.loaded v) = if 0x7ffff800 ≤ v ∧ v ≤ 0x7fffffff then
      extended v - 0x100000000#64 else extended v := by
  have extended_eq : extended v = BitVec.ofInt 64 (Int.bmod v 0x100000000) := by
    rw [extended, BitVec.signExtend, BitVec.toInt_ofInt]
  have band : 0x7ffff800 ≤ Int.bmod v 0x100000000 ↔ 0x7ffff800 ≤ v ∧ v ≤ 0x7fffffff := by
    rw [Int.bmod_def]
    split <;> omega
  rw [extended_eq, Pseudo.loaded]
  simp only [band]
  split
  · have missing : BitVec.ofInt 64 (-0x100000000) = -0x100000000#64 := by decide
    rw [Int.sub_eq_add_neg, BitVec.ofInt_add, missing, BitVec.sub_eq_add_neg]
  · rfl

theorem signExtend_small {v : Int} (small : -2048 ≤ v ∧ v ≤ 2047) :
    (BitVec.ofInt 12 v).signExtend 64 = BitVec.ofInt 64 v := by
  have wrapped : Int.bmod v (2 ^ 12) = v := by
    rw [Int.bmod_def]
    split <;> omega
  rw [BitVec.signExtend, BitVec.toInt_ofInt, wrapped]

theorem signExtend_upper (upper : Int) :
    (BitVec.ofInt 20 upper ++ 0#12).signExtend 64 =
      BitVec.ofInt 64 (2 ^ 12 * Int.bmod upper (2 ^ 20)) := by
  rw [BitVec.signExtend, BitVec.toInt_append_zero, BitVec.toInt_ofInt]

/-! ## Runs -/

/-- One register holds the value and the others are as they were. -/
structure Loads (regs regs' : Registers) (r : BitVec 5) (value : BitVec 64) : Prop where
  value : regs'.get r = value
  others : ∀ q, q ≠ r → regs'.get q = regs.get q

variable {r : Word} {v : Int}

theorem run_small (regs : Registers) (nonzero : r.setWidth 5 ≠ 0)
    (small : -2048 ≤ v ∧ v ≤ 2047) :
    ∃ regs', regs.run [addiWord r 0 v] = some regs' ∧
      Loads regs regs' (r.setWidth 5) (BitVec.ofInt 64 (Pseudo.loaded v)) := by
  have step := execute_addiWord regs r 0 v
  have source : regs.get (BitVec.setWidth 5 (0 : Word)) = 0 := regs.get_zero
  rw [source, zero_add, signExtend_small small] at step
  refine ⟨_, (Registers.run_cons step).trans (Registers.run_nil _), ?_, ?_⟩
  · rw [Pseudo.loaded_of_small small]
    exact regs.get_set_self nonzero _
  · exact fun q other => regs.get_set_other other _

theorem run_split (regs : Registers) (nonzero : r.setWidth 5 ≠ 0) {upper lower : Int}
    (splits : Pseudo.Splits v upper lower) :
    ∃ regs', regs.run [luiWord r upper, addiWord r r lower] = some regs' ∧
      Loads regs regs' (r.setWidth 5) (BitVec.ofInt 64 (Pseudo.loaded v)) := by
  have first := execute_luiWord regs r upper
  rw [signExtend_upper] at first
  have second := execute_addiWord (regs.set (r.setWidth 5)
    (BitVec.ofInt 64 (2 ^ 12 * Int.bmod upper (2 ^ 20)))) r r lower
  rw [Registers.get_set_self _ nonzero, signExtend_small ⟨splits.lower_ge, splits.lower_le⟩,
    ← BitVec.ofInt_add, splits.sum_eq] at second
  refine ⟨_, (Registers.run_cons first).trans
    ((Registers.run_cons second).trans (Registers.run_nil _)), ?_, ?_⟩
  · exact Registers.get_set_self _ nonzero _
  · intro q other
    rw [Registers.get_set_other _ other, Registers.get_set_other _ other]

/-! ## Lines -/

theorem of_denotes_addi {opts : Options} {rd rs1 : String} {imm : Int} {e : Encoding}
    (small : -2048 ≤ imm ∧ imm ≤ 2047)
    (denotes : Assembler.Denotes opts ⟨"addi", [rd, rs1, Text.decimal imm]⟩ e) :
    ∃ r s, Register.parseInteger opts.embedded rd = .ok r ∧
      Register.parseInteger opts.embedded rs1 = .ok s ∧ e = addiEncoding r s imm := by
  obtain ⟨r, s, n, register, register', parsed, -, rfl⟩ :=
    (Assembler.denotes_regsImm_iff addi_mem rfl rfl).mp denotes
  rw [Number.parse_decimal (by omega) (by omega)] at parsed
  obtain rfl := Except.ok.inj parsed
  exact ⟨r, s, register, register', rfl⟩

theorem of_denotes_lui {opts : Options} {rd : String} {imm : Int} {e : Encoding}
    (fits : 0 ≤ imm ∧ imm < 2 ^ 20)
    (denotes : Assembler.Denotes opts ⟨"lui", [rd, Text.decimal imm]⟩ e) :
    ∃ r, Register.parseInteger opts.embedded rd = .ok r ∧ e = luiEncoding r imm := by
  obtain ⟨r, n, register, parsed, -, rfl⟩ :=
    (Assembler.denotes_regImm_iff lui_mem rfl rfl).mp denotes
  rw [Number.parse_decimal (by omega) (by omega)] at parsed
  obtain rfl := Except.ok.inj parsed
  exact ⟨r, register, rfl⟩

/-- A register other than the zero register has another number in five bits, too. -/
theorem setWidth_ne_zero {opts : Options} {rd : String} {r : Word}
    (register : Register.parseInteger opts.embedded rd = .ok r) (other : r ≠ 0) :
    r.setWidth 5 ≠ 0 := by
  have bound := (Register.hasRegister_of_parse register).lt
  intro same
  apply other
  apply BitVec.eq_of_toNat_eq
  have low := congrArg BitVec.toNat same
  rw [BitVec.toNat_setWidth, Nat.mod_eq_of_lt bound] at low
  simpa using low

/-- What a line with `li` denotes is one of the two ways to load its constant. -/
theorem of_lineDenotes {opts : Options} {text rd literal : String} {es : List Encoding}
    (said : Assembler.statement? text = some ⟨"li", [rd, literal]⟩)
    (denotes : Assembler.LineDenotes opts text es) :
    ∃ r v, Register.parseInteger opts.embedded rd = .ok r ∧ Number.parse literal = .ok v ∧
      (-2 ^ 31 ≤ v ∧ v ≤ 2 ^ 32 - 1) ∧
      ((-2048 ≤ v ∧ v ≤ 2047) ∧ es = [addiEncoding r 0 v] ∨
        ∃ upper lower, Pseudo.Splits v upper lower ∧
          es = [luiEncoding r upper, addiEncoding r r lower]) := by
  obtain ⟨ss, expands, each⟩ := denotes
  rw [said, Option.elim_some] at expands
  have expands : Pseudo.loadConstant rd literal = .ok ss := expands
  obtain ⟨v, parsed, -⟩ := Outcome.bind_eq_ok.mp expands
  by_cases fits : -2 ^ 31 ≤ v ∧ v ≤ 2 ^ 32 - 1
  swap
  · simp [Pseudo.loadConstant_wide parsed rd fits] at expands
  by_cases small : -2048 ≤ v ∧ v ≤ 2047
  · rw [Pseudo.loadConstant_small parsed rd small] at expands
    obtain rfl := Except.ok.inj expands
    obtain ⟨⟩ | ⟨denotes, ⟨⟩⟩ := each
    obtain ⟨r, s, register, zero, rfl⟩ := of_denotes_addi small denotes
    rw [parseInteger_zero] at zero
    obtain rfl := Except.ok.inj zero
    exact ⟨r, v, register, parsed, fits, .inl ⟨small, rfl⟩⟩
  · obtain ⟨upper, lower, splits, split⟩ := Pseudo.loadConstant_split parsed rd small fits
    rw [split] at expands
    obtain rfl := Except.ok.inj expands
    obtain ⟨⟩ | ⟨denotes, ⟨⟩ | ⟨denotes', ⟨⟩⟩⟩ := each
    obtain ⟨r, register, rfl⟩ := of_denotes_lui ⟨splits.upper_nonneg, splits.upper_lt⟩ denotes
    obtain ⟨s, q, first, second, rfl⟩ := of_denotes_addi ⟨splits.lower_ge, splits.lower_le⟩ denotes'
    obtain rfl : r = s := by simpa using register.symm.trans first
    obtain rfl : r = q := by simpa using register.symm.trans second
    exact ⟨r, v, register, parsed, fits, .inr ⟨upper, lower, splits, rfl⟩⟩

end Constants

open Constants

/-- **`li` at 64 bits.**  Each accepted `li` can be executed.  It changes no other register, and its
own one is left with the constant's 32 bits and their sign extended, unless the constant is one of
the last 2048 below 2^31: then the register is 2^32 less than that. -/
theorem li_executed {source : String} {opts : Options} {a : Assembly} {line : Source.Line}
    {block : List Encoding} {rd literal : String} (assembled : assemble source opts = .ok a)
    (member : (line, block) ∈ (Source.lines source).zip a.blocks)
    (said : Assembler.statement? line.text = some ⟨"li", [rd, literal]⟩) :
    ∃ r v, Register.parseInteger opts.embedded rd = .ok r ∧ Number.parse literal = .ok v ∧
      (-2 ^ 31 ≤ v ∧ v ≤ 2 ^ 32 - 1) ∧
      (r ≠ 0 → ∀ regs : Registers, ∃ regs', regs.run (block.map (·.word)) = some regs' ∧
        Loads regs regs' (r.setWidth 5)
          (if 0x7ffff800 ≤ v ∧ v ≤ 0x7fffffff then extended v - 0x100000000#64
            else extended v)) := by
  obtain ⟨lines, -⟩ := assemble_eq_ok.mp assembled
  have denotes := (List.forall₂_iff_zip.mp lines).2 member
  obtain ⟨r, v, register, parsed, fits, ways⟩ := of_lineDenotes said denotes
  refine ⟨r, v, register, parsed, fits, ?_⟩
  intro other regs
  have nonzero := setWidth_ne_zero register other
  rw [← ofInt_loaded fits]
  obtain ⟨small, rfl⟩ | ⟨upper, lower, splits, rfl⟩ := ways
  · rw [List.map_singleton, word_addiEncoding]
    exact run_small regs nonzero small
  · rw [List.map_cons, List.map_singleton, word_luiEncoding, word_addiEncoding]
    exact run_split regs nonzero splits

/-- The greatest constant that does not end up 2^32 too small. -/
theorem li_executed_greatest :
    ∃ a block, assemble "nop\nLI a0, 0x7fff_f7ff" { xlen := some 64 } = .ok a ∧
      a.blocks.getLast? = some block ∧ ∀ regs : Registers, ∃ regs',
        regs.run (block.map (·.word)) = some regs' ∧ Loads regs regs' 10 0x7ffff7ff#64 := by
  have lines : Source.lines "nop\nLI a0, 0x7fff_f7ff" =
      [⟨1, "nop"⟩, ⟨2, "LI a0, 0x7fff_f7ff"⟩] := by decide +kernel
  have said : Assembler.statement? "LI a0, 0x7fff_f7ff" = some ⟨"li", ["a0", "0x7fff_f7ff"]⟩ := by
    decide +kernel
  have evaluated : (assemble "nop\nLI a0, 0x7fff_f7ff" { xlen := some 64 }).toOption.map
      (·.blocks.length) = some 2 := by decide +kernel
  obtain ⟨a, assembled, two⟩ := Option.map_eq_some_iff.mp evaluated
  obtain ⟨first, block, blocks⟩ := List.length_eq_two.mp two
  have assembled := Outcome.eq_ok_of_toOption assembled
  have member : ((⟨2, "LI a0, 0x7fff_f7ff"⟩ : Source.Line), block) ∈
      (Source.lines "nop\nLI a0, 0x7fff_f7ff").zip a.blocks := by
    rw [lines, blocks]
    exact List.mem_cons_of_mem _ List.mem_cons_self
  obtain ⟨r, v, register, number, -, loads⟩ := li_executed assembled member said
  have a0 : Register.parseInteger false "a0" = .ok 10 := by decide
  have literal : Number.parse "0x7fff_f7ff" = .ok 0x7ffff7ff := by decide
  obtain rfl : 10 = r := by simpa [a0] using register
  obtain rfl : 0x7ffff7ff = v := by simpa [literal] using number
  have value : extended 0x7ffff7ff = 0x7ffff7ff#64 := by decide
  rw [if_neg (by decide), value] at loads
  exact ⟨a, block, assembled, by rw [blocks]; rfl, loads (by decide)⟩

/-- The greatest signed constant of 32 bits is not loaded at 64 bits. -/
theorem li_greatest_not_loaded :
    ∃ a, assemble "li a0, 0x7fffffff" { xlen := some 64 } = .ok a ∧ ∀ regs : Registers, ∃ regs',
      regs.run a.words = some regs' ∧ regs'.get 10 = 0xffffffff7fffffff#64 ∧
        regs'.get 10 ≠ extended 0x7fffffff := by
  have evaluated : (assemble "li a0, 0x7fffffff" { xlen := some 64 }).toOption.map (·.words) =
      some [luiWord 10 0x80000, addiWord 10 10 (-1)] := by decide +kernel
  obtain ⟨a, assembled, words⟩ := Option.map_eq_some_iff.mp evaluated
  refine ⟨a, Outcome.eq_ok_of_toOption assembled, ?_⟩
  intro regs
  have splits : Pseudo.Splits 0x7fffffff 0x80000 (-1) :=
    ⟨by decide, by decide, by decide, by decide, by decide⟩
  have nonzero : BitVec.setWidth 5 (10 : Word) ≠ 0 := by decide
  obtain ⟨regs', done, loads⟩ := run_split regs nonzero splits
  have value : BitVec.ofInt 64 (Pseudo.loaded 0x7fffffff) = 0xffffffff7fffffff#64 := by decide
  have held : regs'.get 10 = 0xffffffff7fffffff#64 := loads.value.trans value
  refine ⟨regs', by rw [words, done], held, ?_⟩
  rw [held]
  decide

end RvCodec
