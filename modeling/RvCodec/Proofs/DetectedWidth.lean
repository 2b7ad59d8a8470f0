import RvCodec.Proofs.Linewise

/-!
# Reading again at the width that was found out

Without a fixed width every instruction takes part in the choice, and the widest
ones come first; under a fixed width the instructions that do not exist at the
width are left out.  So fixing a width can change what a word is read as.

It changes nothing at the width that was found out.  Every chosen instruction
exists at this width, whatever the other words required, and leaving out
candidates before it does not make it lose its place (`Reads.fixed`).
Therefore disassembling at the width that was found out gives the same lines
(`disassemble_detected`).
-/

set_option autoImplicit false

namespace RvCodec

namespace Disassembler

/-- The first element with a property stays the first one when the property is narrowed, as long as
it keeps the property. -/
theorem find?_of_narrower {p q : Instruction → Bool} {candidates : List Instruction}
    {i : Instruction} (found : candidates.find? p = some i)
    (narrower : ∀ j, q j = true → p j = true) (kept : q i = true) :
    candidates.find? q = some i := by
  obtain ⟨-, before, after, split, none⟩ := List.find?_eq_some_iff_append.mp found
  refine List.find?_eq_some_iff_append.mpr ⟨kept, before, after, split, ?_⟩
  intro j member
  by_contra qualified
  have refused := none j member
  simp [narrower j (by simpa using qualified)] at refused

variable {opts : Options} {w : Word}

theorem qualifies_fixed (auto : opts.xlen = none) {x : Nat} {i : Instruction} :
    qualifies { opts with xlen := some x } (.start (some x)) w i = true ↔
      qualifies opts opts.tracker w i = true ∧ i.requirement.Holds x := by
  have every := Tracker.allowsInstruction_auto (t := opts.tracker) auto i
  have fixed := Tracker.allowsInstruction_fixed (t := .start (some x)) rfl (i := i)
  simp only [qualifies_iff, decodes_iff, every, fixed]
  constructor
  · rintro ⟨⟨covered, holds, free⟩, enabled⟩
    exact ⟨⟨⟨covered, trivial, free⟩, enabled⟩, holds⟩
  · rintro ⟨⟨⟨covered, -, free⟩, enabled⟩, holds⟩
    exact ⟨⟨covered, holds, free⟩, enabled⟩

/-- The configured width is not looked at when an operand is written. -/
theorem writeOperand_withXlen (x : Xlen) :
    writeOperand { opts with xlen := x } = writeOperand opts := by
  funext i w operand v
  cases operand with
  | memory base =>
    cases v with
    | memory offset r => cases base <;> rfl
    | _ => rfl
  | _ => cases v <;> rfl

/-- **A word is read in the same way at every width at which its instruction exists.** -/
theorem Reads.fixed (auto : opts.xlen = none) {r : Reading} (reads : Reads opts w r) {x : Nat}
    (holds : r.instruction.requirement.Holds x) : Reads { opts with xlen := some x } w r := by
  obtain ⟨word, screened, chosen, parts, written, text⟩ := reads
  refine ⟨word, screened, ?_, parts, ?_, text⟩
  · have qualified := List.find?_some chosen
    exact find?_of_narrower chosen (fun j kept => ((qualifies_fixed auto).mp kept).1)
      ((qualifies_fixed auto).mpr ⟨qualified, holds⟩)
  · rw [writeOperand_withXlen]
    exact written

end Disassembler

/-- **The width that disassembling finds out reproduces the reading.**  Disassembling the same text
with this width fixed succeeds, gives the same lines and reports the width. -/
theorem disassemble_detected {source : String} {opts : Options} {d : Disassembly}
    (auto : opts.xlen = none) (disassembled : disassemble source opts = .ok d) :
    ∃ d', disassemble source { opts with xlen := some d.xlen } = .ok d' ∧ d'.lines = d.lines ∧
      d'.output = d.output ∧ d'.xlen = d.xlen := by
  obtain ⟨⟨lines, ⟨holds, -⟩, -⟩, -⟩ := disassemble_iff.mp disassembled
  refine ⟨⟨d.blocks, d.xlen, .fixed⟩, ?_, rfl, rfl, rfl⟩
  refine disassemble_iff.mpr ⟨⟨?_, ⟨holds, rfl⟩, ?_⟩, rfl⟩
  · refine Outcome.forall₂_imp_of_mem_right lines ?_
    intro block inBlocks text lineReads
    refine Outcome.forall₂_imp_of_mem_right lineReads ?_
    rintro r inBlock token ⟨w, parsed, reads⟩
    have required : r.instruction.requirement ∈
        requiredBy Disassembler.Reading.encoding d.blocks :=
      List.mem_flatMap.mpr ⟨r, List.mem_flatten.mpr ⟨block, inBlocks, inBlock⟩, List.mem_cons_self⟩
    exact ⟨w, parsed, reads.fixed auto (holds _ required)⟩
  · intro y suits
    exact suits.2.ge

set_option maxRecDepth 20000 in
/-- A word that would be a `c.jal` at 32 bits is read as a `c.addiw` again at 64. -/
theorem disassemble_detected_pair :
    ∃ d, disassemble "0x2085, 1" { xlen := some 64 } = .ok d ∧
      d.lines = ["c.addiw x1, 1", "c.nop"] ∧ d.output = "c.addiw x1, 1\nc.nop" ∧ d.xlen = 64 := by
  have evaluated : (disassemble "0x2085, 1" {}).toOption.map
      (fun d => (d.lines, d.output, d.xlen)) =
      some (["c.addiw x1, 1", "c.nop"], "c.addiw x1, 1\nc.nop", 64) := by cbv
  obtain ⟨d, disassembled, columns⟩ := Option.map_eq_some_iff.mp evaluated
  simp only [Prod.mk.injEq] at columns
  obtain ⟨lines, output, xlen⟩ := columns
  rw [← lines, ← output, ← xlen]
  exact disassemble_detected rfl (Outcome.eq_ok_of_toOption disassembled)

end RvCodec
