import RvCodec.Proofs.ReadBack

/-!
# Restrictions by options

The embedded variant takes sixteen registers away, and the floating-point
extensions can be switched off one by one.  A restriction takes programs away
and changes none: what a restricted run gives, the run without restrictions
gives too.

For assembling this is one relation between the two runs (`Restricts`), which
every step keeps and which also says why the restricted run may fail where the
other one does not.

Disassembling is different, since an extension that is switched off takes its
instructions out of the search, and the word goes to the next candidate.  The
candidate that was taken out would have to be wider than the one that is read
then.  But an instruction gives way to a wider one only among the 16-bit
instructions, and there none of the wider ones belongs to a floating-point
extension (`Table.default_unmixed`).
-/

set_option autoImplicit false

namespace RvCodec

open Assembler Disassembler

/-- The options with all registers and all extensions. -/
def Options.unrestricted (opts : Options) : Options :=
  { opts with embedded := false, noSingle := false, noDouble := false, noQuad := false }

theorem Options.enables_unrestricted (opts : Options) (e : Extension) :
    opts.unrestricted.enables e = true := by
  simp [enables, unrestricted]

/-- Only floating-point extensions are switched off. -/
theorem Options.isFloat_of_not_enables {opts : Options} {e : Extension}
    (off : opts.enables e ≠ true) : e.isFloat = true := by
  by_contra other
  refine off ?_
  simp only [Extension.isFloat, Bool.or_eq_true, decide_eq_true_eq, not_or] at other
  simp [enables, other]

/-! ## Restricted computations -/

/-- The fault says that a register or an instruction may not be used. -/
def Fault.Withholds (fault : Fault) : Prop :=
  fault.kind = .invalidRegister ∨ fault.kind = .unsupportedInstruction

/-- The first computation is a restriction of the second: it gives the same or, where the second one
succeeds, fails for one of the reasons. -/
structure Restricts {ε α : Type} (reason : ε → Prop) (x y : Except ε α) : Prop where
  keeps : ∀ a, x = .ok a → y = .ok a
  refuses : ∀ e a, x = .error e → y = .ok a → reason e

namespace Restricts

variable {ε α β : Type} {reason : ε → Prop}

theorem refl (x : Except ε α) : Restricts reason x x where
  keeps _ same := same
  refuses e a failed succeeded := by
    rw [failed] at succeeded
    cases succeeded

theorem bind {x y : Except ε α} {f g : α → Except ε β} (first : Restricts reason x y)
    (rest : ∀ a, Restricts reason (f a) (g a)) : Restricts reason (x >>= f) (y >>= g) where
  keeps b given := by
    obtain ⟨a, got, later⟩ := Outcome.bind_eq_ok.mp given
    exact Outcome.bind_eq_ok.mpr ⟨a, first.keeps a got, (rest a).keeps b later⟩
  refuses e b failed given := by
    obtain ⟨a, got, later⟩ := Outcome.bind_eq_ok.mp given
    cases start : x with
    | error e' =>
      rw [start] at failed
      obtain rfl : e' = e := Except.error.inj failed
      exact first.refuses e' a start got
    | ok a' =>
      obtain rfl : a' = a := Except.ok.inj ((first.keeps a' start).symm.trans got)
      rw [start] at failed
      exact (rest a').refuses e b failed later

theorem map {x y : Except ε α} (f : α → β) (first : Restricts reason x y) :
    Restricts reason (f <$> x) (f <$> y) := by
  rw [map_eq_pure_bind, map_eq_pure_bind]
  exact first.bind fun a => refl _

theorem mapError {δ : Type} {reason' : δ → Prop} {x y : Except ε α} {f : ε → δ}
    (first : Restricts reason x y) (passes : ∀ e, reason e → reason' (f e)) :
    Restricts reason' (x.mapError f) (y.mapError f) where
  keeps a given := Outcome.mapError_eq_ok.mpr (first.keeps a (Outcome.mapError_eq_ok.mp given))
  refuses e a failed given := by
    cases start : x with
    | error e' =>
      rw [start] at failed
      obtain rfl : f e' = e := Except.error.inj failed
      exact passes e' (first.refuses e' a start (Outcome.mapError_eq_ok.mp given))
    | ok a' =>
      rw [start] at failed
      cases failed

/-- A check in front of a computation restricts it. -/
theorem guard {c : Prop} [Decidable c] {e : ε} (x : Except ε α) (given : reason e) :
    Restricts reason (if c then .error e else x) x := by
  by_cases holds : c
  · rw [if_pos holds]
    refine ⟨?_, ?_⟩
    · intro a same
      cases same
    · intro e' a failed _
      obtain rfl := Except.error.inj failed
      exact given
  · rw [if_neg holds]
    exact refl x

end Restricts

/-! ## Assembling -/

namespace Assembler

variable {opts : Options} {i : Instruction}

theorem parseInteger_restricts (embedded : Bool) (token : String) :
    Restricts Fault.Withholds (Register.parseInteger embedded token)
      (Register.parseInteger false token) :=
  .bind (.refl _) fun r => .guard (pure r) (.inl rfl)

theorem parseShortInteger_restricts (embedded : Bool) (token : String) :
    Restricts Fault.Withholds (Register.parseShortInteger embedded token)
      (Register.parseShortInteger false token) :=
  .bind (parseInteger_restricts embedded token) fun _ => .refl _

theorem readStackPointer_restricts (token : String) :
    Restricts Fault.Withholds (readStackPointer opts token)
      (readStackPointer opts.unrestricted token) :=
  .bind (parseInteger_restricts opts.embedded token) fun _ => .refl _

theorem readBase_restricts (token : String) (base : BaseRegister) :
    Restricts Fault.Withholds (readBase opts token base)
      (readBase opts.unrestricted token base) := by
  cases base with
  | integer f => exact parseInteger_restricts opts.embedded token
  | shortInteger f => exact parseShortInteger_restricts opts.embedded token
  | stackPointer => exact .bind (readStackPointer_restricts token) fun _ => .refl _

theorem readPlain_restricts (token : String) (operand : Operand) :
    Restricts Fault.Withholds (readPlain opts i token operand)
      (readPlain opts.unrestricted i token operand) := by
  cases operand with
  | integer f notZero notStack =>
    exact .map _ (.bind (parseInteger_restricts opts.embedded _) fun _ => .refl _)
  | shortInteger f => exact .map _ (parseShortInteger_restricts opts.embedded _)
  | stackPointer => exact .bind (readStackPointer_restricts _) fun _ => .refl _
  | memory base =>
    exact .bind (.refl _) fun ⟨_, register⟩ =>
      .bind (.refl _) fun _ => .bind (readBase_restricts register base) fun _ => .refl _
  | address f =>
    rw [readPlain, readPlain]
    refine .bind (.refl _) ?_
    rintro ⟨offset, register⟩
    have named := (parseInteger_restricts opts.embedded register).map Value.field
    dsimp only
    split
    · exact .bind (.refl _) fun _ => named
    · exact named
  | _ => exact .refl _

theorem readOperand_restricts (t : Tracker) (token : String) (operand : Operand) :
    Restricts Fault.Withholds (readOperand opts i t token operand)
      (readOperand opts.unrestricted i t token operand) := by
  cases operand with
  | immediate upper => exact .refl _
  | _ => exact .bind (readPlain_restricts token _) fun _ => .refl _

theorem readOperands_restricts (t : Tracker) (operands : List Operand) (bound : List String) :
    Restricts Fault.Withholds (readOperands opts i t operands bound)
      (readOperands opts.unrestricted i t operands bound) := by
  induction operands generalizing t bound with
  | nil => exact .refl _
  | cons operand operands ih =>
    cases bound with
    | nil => exact .refl _
    | cons token bound =>
      exact .bind (readOperand_restricts t token operand) fun ⟨_, t'⟩ =>
        .bind (ih t' bound) fun _ => .refl _

theorem checkEnabled_restricts (i : Instruction) :
    Restricts Fault.Withholds (opts.checkEnabled i) (opts.unrestricted.checkEnabled i) := by
  unfold Options.checkEnabled
  rw [opts.enables_unrestricted, if_pos rfl, ← ite_not]
  exact .guard (.ok ()) (.inr rfl)

theorem readInstruction_restricts (t : Tracker) (s : Statement) :
    Restricts Fault.Withholds (readInstruction opts t s)
      (readInstruction opts.unrestricted t s) :=
  .bind (.refl _) fun ⟨i, _⟩ => .bind (checkEnabled_restricts i) fun _ => .bind (.refl _) fun t' =>
    .bind (.bind (.refl _) fun bound => readOperands_restricts t' i.operands bound) fun _ => .refl _

theorem readInstructions_restricts (t : Tracker) (ss : List Statement) :
    Restricts Fault.Withholds (readInstructions opts t ss)
      (readInstructions opts.unrestricted t ss) := by
  induction ss generalizing t with
  | nil => exact .refl _
  | cons s ss ih =>
    exact .bind (readInstruction_restricts t s) fun ⟨_, t'⟩ => .bind (ih t') fun _ => .refl _

theorem readLine_restricts (t : Tracker) (text : String) :
    Restricts Fault.Withholds (readLine opts t text) (readLine opts.unrestricted t text) := by
  unfold readLine
  cases statement? text with
  | none => exact .refl _
  | some s => exact .bind (.refl _) fun ss => readInstructions_restricts t ss

theorem readLines_restricts (t : Tracker) (lines : List Source.Line) :
    Restricts (fun e : Error => e.fault.Withholds) (readLines opts t lines)
      (readLines opts.unrestricted t lines) := by
  induction lines generalizing t with
  | nil => exact .refl _
  | cons line lines ih =>
    have equation (opts : Options) : readLines opts t (line :: lines) =
        (readLine opts t line.text).mapError (⟨line.number, ·⟩) >>= fun r =>
          readLines opts r.2 lines >>= fun rest => pure (r.1 :: rest.1, rest.2) := by
      rw [readLines]
      cases readLine opts t line.text with
      | error fault => rfl
      | ok r => rfl
    rw [equation, equation]
    exact .bind ((readLine_restricts t line.text).mapError fun _ given => given) fun r =>
      .bind (ih r.2) fun _ => .refl _

end Assembler

theorem assemble_restricts (source : String) (opts : Options) :
    Restricts (fun e : Error => e.fault.Withholds) (assemble source opts)
      (assemble source opts.unrestricted) :=
  .bind (readLines_restricts opts.tracker (Source.lines source)) fun _ => .refl _

/-! ## Disassembling -/

/-- Only 16-bit instructions have an upper bound, and no floating-point one of these needs wide
registers. -/
theorem Table.default_unmixed : ∀ i ∈ default.instructions,
    (i.maxXlen ≠ none → i.isShort = true) ∧
      (i.isShort = true → i.ext.isFloat = true → i.requiredXlen ≤ 32) := by
  decide +kernel

namespace Disassembler

variable {opts : Options} {w : Word}

/-- No floating-point instruction is wider than another instruction that can be read from the
word. -/
theorem Supersedes.not_isFloat {wider i : Instruction} (supersedes : Supersedes opts w wider i)
    (inTable : i ∈ Table.default.instructions) (covered : i.covers w = true) :
    wider.ext.isFloat ≠ true := by
  intro float
  obtain ⟨wide, -⟩ := supersedes.widths inTable
  obtain ⟨member, ⟨h, top, -⟩, accepted⟩ := supersedes
  have covered' := (decodes_iff.mp (qualifies_iff.mp accepted).1).1
  have short : i.isShort = true := (Table.default_unmixed i inTable).1 (by rw [top]; simp)
  have short' : wider.isShort = true := by
    rwa [← (Table.default_wellFormed member).isShort_of_covers covered',
      (Table.default_wellFormed inTable).isShort_of_covers covered]
  have narrow := (Table.default_unmixed wider member).2 short' float
  omega

/-- **The choice stays when all extensions are switched on.** -/
theorem choice_unrestricted {i : Instruction} (half : isShort w = true → w.down 16 = 0)
    (found : (Table.default.candidates (Key.ofWord w)).find? (qualifies opts opts.tracker w) =
      some i) :
    (Table.default.candidates (Key.ofWord w)).find?
      (qualifies opts.unrestricted opts.unrestricted.tracker w) = some i := by
  have inTable := (Table.mem_candidates.mp (List.mem_of_find?_eq_some found)).1
  obtain ⟨decoded, enabled⟩ := qualifies_iff.mp (List.find?_some found)
  have accepted : qualifies opts.unrestricted opts.unrestricted.tracker w i = true :=
    qualifies_iff.mpr ⟨decoded, opts.enables_unrestricted i.ext⟩
  by_cases shared : w = 1
  · subst shared
    obtain ⟨-, j, inTable', found'⟩ := exists_choice inTable accepted
    have names : j.name = i.name := (choice_shared found').trans (choice_shared found).symm
    have same : some j = some i := by
      rw [← Table.find?_name inTable', names, Table.find?_name inTable]
    rw [found', same]
  · refine choice_eq half shared inTable accepted ?_
    intro _ wider supersedes
    have covered := (decodes_iff.mp decoded).1
    -- What takes the place of `i` is switched on, so that it was in the search before.
    have on : opts.enables wider.ext = true := by
      by_contra off
      exact supersedes.not_isFloat inTable covered (Options.isFloat_of_not_enables off)
    obtain ⟨member, below, accepted'⟩ := supersedes
    have before : Supersedes opts w wider i :=
      ⟨member, below, qualifies_iff.mpr ⟨(qualifies_iff.mp accepted').1, on⟩⟩
    obtain ⟨wide, unbounded⟩ := before.widths inTable
    have same : some i = some wider := found.symm.trans (choice_of_supersedes before inTable half)
    obtain rfl := Option.some.inj same
    exact not_supersedes unbounded before

theorem writeInteger_restricts (w r : Word) :
    Restricts Fault.Withholds (writeInteger opts w r) (writeInteger opts.unrestricted w r) :=
  .guard (.ok (Register.text .integer r)) (.inl rfl)

theorem writeBase_restricts (w r : Word) (base : BaseRegister) :
    Restricts Fault.Withholds (writeBase opts w r base)
      (writeBase opts.unrestricted w r base) := by
  cases base with
  | integer f => exact writeInteger_restricts w r
  | shortInteger f => exact .refl _
  | stackPointer => exact .refl _

theorem writeOperand_restricts (i : Instruction) (w : Word) (operand : Operand) (v : Value) :
    Restricts Fault.Withholds (writeOperand opts i w operand v)
      (writeOperand opts.unrestricted i w operand v) := by
  cases v with
  | nothing => cases operand <;> exact .refl _
  | number n => cases operand <;> exact .refl _
  | memory offset r =>
    cases operand with
    | memory base => exact .bind (writeBase_restricts w r base) fun _ => .refl _
    | _ => exact .refl _
  | field r =>
    cases operand with
    | integer f notZero notStack => exact .map _ (writeInteger_restricts w r)
    | address f => exact .bind (writeInteger_restricts w r) fun _ => .refl _
    | _ => exact .refl _

theorem Reads.unrestricted {r : Reading} (reads : Reads opts w r) :
    Reads opts.unrestricted w r where
  word := reads.word
  screened := reads.screened
  chosen := choice_unrestricted (down_of_screen reads.screened) reads.chosen
  written := by
    obtain ⟨parts, all, text⟩ := reads.written
    refine ⟨parts, all.imp ?_, text⟩
    intro p part written
    exact (writeOperand_restricts r.encoding.instruction w p.1 p.2).keeps part written

end Disassembler

theorem disassemble_unrestricted {source : String} {opts : Options} {d : Disassembly}
    (disassembled : disassemble source opts = .ok d) :
    disassemble source opts.unrestricted = .ok d := by
  obtain ⟨reads, widths⟩ := disassemble_eq_ok.mp disassembled
  refine disassemble_eq_ok.mpr ⟨reads.imp ?_, widths⟩
  intro line block lineReads
  refine List.Forall₂.imp ?_ lineReads
  rintro token r ⟨w, parsed, reads⟩
  exact ⟨w, parsed, reads.unrestricted⟩

/-! ## Both programs -/

/-- **Restrictions take programs away and change none.**  What can be assembled or disassembled
under restrictions gives the same without them.  A text that cannot be assembled because of a
restriction is refused for a register or an instruction. -/
theorem restrictions_remove {source : String} {opts : Options} :
    (∀ a, assemble source opts = .ok a → assemble source opts.unrestricted = .ok a) ∧
      (∀ d, disassemble source opts = .ok d → disassemble source opts.unrestricted = .ok d) ∧
      ∀ e a, assemble source opts = .error e → assemble source opts.unrestricted = .ok a →
        e.fault.kind = .invalidRegister ∨ e.fault.kind = .unsupportedInstruction :=
  ⟨(assemble_restricts source opts).keeps, fun _ => disassemble_unrestricted,
    (assemble_restricts source opts).refuses⟩

set_option maxRecDepth 20000 in
/-- The word 0x6082 is a `c.flwsp` at 32 bits, but is read as the wider `c.ldsp` with and without
the extension of the former. -/
theorem restrictions_remove_cases :
    (∃ a, assemble "li a0, 5" ⟨none, true, .hex, true, true, true⟩ = .ok a ∧
      assemble "li a0, 5" {} = .ok a) ∧
    (∃ d, disassemble "0x6082" ⟨none, true, .hex, true, true, true⟩ = .ok d ∧
      disassemble "0x6082" {} = .ok d) ∧
    ∃ e a, assemble "mv x16, x1" ⟨none, true, .hex, true, true, true⟩ = .error e ∧
      assemble "mv x16, x1" {} = .ok a ∧
      (e.fault.kind = .invalidRegister ∨ e.fault.kind = .unsupportedInstruction) := by
  have refused : assemble "mv x16, x1" ⟨none, true, .hex, true, true, true⟩ =
      .error ⟨1, .registerNotEmbedded "x16"⟩ := by cbv
  have evaluated : ((assemble "li a0, 5" ⟨none, true, .hex, true, true, true⟩).toOption.isSome,
      (disassemble "0x6082" ⟨none, true, .hex, true, true, true⟩).toOption.isSome,
      (assemble "mv x16, x1" {}).toOption.isSome) = (true, true, true) := by cbv
  simp only [Prod.mk.injEq, Option.isSome_iff_exists] at evaluated
  obtain ⟨⟨a, constant⟩, ⟨d, word⟩, b, allowed⟩ := evaluated
  have assembled := Outcome.eq_ok_of_toOption constant
  have disassembled := Outcome.eq_ok_of_toOption word
  have succeeded := Outcome.eq_ok_of_toOption allowed
  exact ⟨⟨a, assembled, restrictions_remove.1 a assembled⟩,
    ⟨d, disassembled, restrictions_remove.2.1 d disassembled⟩,
    ⟨_, b, refused, succeeded, restrictions_remove.2.2 _ b refused succeeded⟩⟩

end RvCodec
