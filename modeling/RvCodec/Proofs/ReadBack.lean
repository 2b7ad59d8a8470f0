import RvCodec.Proofs.Linewise
import RvCodec.Proofs.RoundTrip

/-!
# Reading assembled words back without a fixed width

Some words are a 32-bit instruction and a wider instruction at the same time:
what was assembled for a `c.jal` may be read as a `c.addiw`.  Without a fixed
width the wider instruction takes the place of the narrower one, and nothing
that the word was assembled from is left.  The words come back all the same,
because what is read from a word denotes the word.

Reading can fail, in two ways.  The wider instruction may name a register that
the variant in use does not have.  And wider instructions in some places do not
go together with 32-bit ones in others, which are left where the wider reading
is reserved.  These are all the ways in which assembled words are not read back
(`disassemble_output`).
-/

set_option autoImplicit false

namespace RvCodec

open Assembler Disassembler

/-! ## Registers -/

namespace Operand

/-- The integer register that an operand names in full. -/
def register? (w : Word) : Operand → Option Word
  | .integer f _ _ | .address f | .memory (.integer f) => some (f.get w)
  | _ => none

variable {opts : Options} {i : Instruction} {o : Operand} {w : Word}

/-- Only a register that does not exist keeps an operand from being written. -/
theorem exists_written (sized : o.Sized i) (exist : ∀ r ∈ o.register? w, opts.HasRegister r) :
    ∃ part, writeOperand opts i w o (o.take i w) = .ok part := by
  cases o with
  | integer f notZero notStack =>
    exact ⟨_, Outcome.map_eq_ok.mpr ⟨_, writeInteger_of_hasRegister (exist _ rfl), rfl⟩⟩
  | address f =>
    exact ⟨_, Outcome.bind_eq_ok.mpr ⟨_, writeInteger_of_hasRegister (exist _ rfl), rfl⟩⟩
  | memory base =>
    cases base with
    | integer f =>
      exact ⟨_, Outcome.bind_eq_ok.mpr ⟨_, writeInteger_of_hasRegister (exist _ rfl), rfl⟩⟩
    | shortInteger f => exact ⟨_, rfl⟩
    | stackPointer => exact ⟨_, rfl⟩
  | unassigned => exact sized.elim
  | _ => exact ⟨_, rfl⟩

theorem fits_take_iff (sized : o.Sized i) (free : i.reservedOperand? w o = none) :
    o.Fits opts i (o.take i w) ↔ ∀ r ∈ o.register? w, opts.HasRegister r := by
  constructor
  · intro fits r named
    cases o with
    | integer f notZero notStack =>
      obtain rfl := Option.some.inj named
      exact fits.1
    | address f =>
      obtain rfl := Option.some.inj named
      exact fits
    | memory base =>
      cases base with
      | integer f =>
        obtain rfl := Option.some.inj named
        exact fits.2
      | shortInteger f => cases named
      | stackPointer => cases named
    | _ => cases named
  · intro exist
    obtain ⟨part, written⟩ := exists_written sized exist
    exact sized.fits_take free written

end Operand

/-- The registers that the word names exist in the variant in use. -/
def Instruction.HasRegisters (opts : Options) (i : Instruction) (w : Word) : Prop :=
  ∀ o ∈ i.operands, ∀ r ∈ o.register? w, opts.HasRegister r

/-- A word that is not reserved falls apart into a legal encoding if its registers exist. -/
theorem Encoding.legal_ofWord_iff {opts : Options} {i : Instruction} {w : Word}
    (inTable : i ∈ Table.default.instructions) (enabled : opts.enables i.ext = true)
    (free : i.reserved? w = none) : (ofWord i w).Legal opts ↔ i.HasRegisters opts w := by
  have each (o : Operand) (member : o ∈ i.operands) :
      o.Fits opts i (o.take i w) ↔ ∀ r ∈ o.register? w, opts.HasRegister r :=
    Operand.fits_take_iff ((Table.default_wellFormed inTable).sized o member)
      (List.findSome?_eq_none_iff.mp free o member)
  have fits : List.Forall₂ (Operand.Fits opts i) i.operands (ofWord i w).values ↔
      i.HasRegisters opts w := by
    rw [ofWord, List.forall₂_map_right_iff, List.forall₂_same]
    exact forall₂_congr each
  constructor
  · intro legal
    exact fits.mp legal.fits
  · intro exist
    exact ⟨inTable, enabled, ofWord_order_mem i w, fits.mpr exist⟩

/-! ## Wider instructions -/

/-- Instructions with an upper bound exist at 32 bits only. -/
theorem Table.default_bounded : ∀ i ∈ default.instructions, ∀ h ∈ i.maxXlen, h = 32 := by
  decide +kernel

namespace Disassembler

variable {opts : Options} {w : Word} {i wider : Instruction}

theorem Reads.unique {r r' : Reading} (first : Reads opts w r) (second : Reads opts w r') :
    r = r' := by
  obtain ⟨word, i, text⟩ := r
  obtain ⟨word', i', text'⟩ := r'
  obtain rfl : word = w := first.word
  obtain rfl : word' = word := second.word
  obtain rfl : i = i' := Option.some.inj (first.chosen.symm.trans second.chosen)
  obtain rfl : text = text' := first.written.unique second.written
  rfl

/-- What takes the place of another instruction has no upper bound. -/
theorem Supersedes.widths (supersedes : Supersedes opts w wider i)
    (inTable : i ∈ Table.default.instructions) :
    32 < wider.requiredXlen ∧ wider.maxXlen = none := by
  obtain ⟨member, ⟨h, top, lower⟩, -⟩ := supersedes
  have narrow : h = 32 := Table.default_bounded i inTable h top
  refine ⟨by omega, ?_⟩
  cases bound : wider.maxXlen with
  | none => rfl
  | some h' =>
    have narrow' := Table.default_bounded wider member h' bound
    have ordered := (Table.default_sound wider member).ordered h' bound
    omega

/-- **A wider instruction is chosen in the place of a narrower one.** -/
theorem choice_of_supersedes (supersedes : Supersedes opts w wider i)
    (inTable : i ∈ Table.default.instructions) (half : isShort w = true → w.down 16 = 0) :
    (Table.default.candidates (Key.ofWord w)).find? (qualifies opts opts.tracker w) =
      some wider := by
  obtain ⟨wide, unbounded⟩ := supersedes.widths inTable
  have other : w ≠ 1 := by
    rintro rfl
    obtain ⟨covered, -, free⟩ := decodes_iff.mp (qualifies_iff.mp supersedes.qualifies).1
    obtain ⟨-, narrow, -⟩ := Table.shared_of_decodes supersedes.member covered free
    omega
  exact choice_eq half other supersedes.member supersedes.qualifies
    fun _ _ => not_supersedes unbounded

end Disassembler

/-! ## The words of legal encodings -/

namespace Encoding

/-- A wider instruction takes the place of the encoding's own when its word is read. -/
def Superseded (opts : Options) (e : Encoding) : Prop :=
  ∃ wider, Supersedes opts e.word wider e.instruction

variable {opts : Options} {e : Encoding} {r : Reading}

theorem ReadsAs.maxXlen (as : e.ReadsAs opts r) :
    e.instruction.maxXlen = r.instruction.maxXlen := by
  obtain ⟨first, -⟩ := List.forall₂_cons.mp as.bounds
  exact congrArg Prod.snd first

theorem Legal.instruction_of_supersedes (legal : e.Legal opts) (reads : Reads opts e.word r)
    {wider : Instruction} (supersedes : Supersedes opts e.word wider e.instruction) :
    r.instruction = wider := by
  have half := down_of_screen (legal.screen (Table.default_wellFormed legal.member))
  have chosen := choice_of_supersedes supersedes legal.member half
  exact Option.some.inj (reads.chosen.symm.trans chosen)

theorem Legal.readsAs_of_not_superseded (auto : opts.xlen = none) (legal : e.Legal opts)
    (kept : ¬ e.Superseded opts) : ∃ r, e.ReadsAs opts r :=
  legal.readsAs_of_widest (Tracker.allowsInstruction_auto auto _)
    fun _ wider supersedes => kept ⟨wider, supersedes⟩

/-- A legal encoding's word is read as a wider instruction or as what it was made for. -/
theorem Legal.reading_cases (auto : opts.xlen = none) (legal : e.Legal opts)
    (reads : Reads opts e.word r) :
    (e.Superseded opts ∧ 32 < r.instruction.requiredXlen ∧ r.instruction.maxXlen = none) ∨
      (¬ e.Superseded opts ∧ e.ReadsAs opts r) := by
  by_cases superseded : e.Superseded opts
  · obtain ⟨wider, supersedes⟩ := superseded
    rw [legal.instruction_of_supersedes reads supersedes]
    exact .inl ⟨⟨wider, supersedes⟩, supersedes.widths legal.member⟩
  · obtain ⟨r', as⟩ := legal.readsAs_of_not_superseded auto superseded
    obtain rfl := reads.unique as.reads
    exact .inr ⟨superseded, as⟩

/-- **The word of a legal encoding is read unless a wider instruction misses a register.** -/
theorem Legal.exists_reads_iff (auto : opts.xlen = none) (legal : e.Legal opts) :
    (∃ r, Reads opts e.word r) ↔
      ∀ wider, Supersedes opts e.word wider e.instruction → wider.HasRegisters opts e.word := by
  have wf := Table.default_wellFormed legal.member
  have wideLegal {wider : Instruction} (supersedes : Supersedes opts e.word wider e.instruction) :
      (ofWord wider e.word).Legal opts ↔ wider.HasRegisters opts e.word := by
    obtain ⟨decoded, enabled⟩ := qualifies_iff.mp supersedes.qualifies
    exact legal_ofWord_iff supersedes.member enabled (decodes_iff.mp decoded).2.2
  constructor
  · rintro ⟨r, reads⟩ wider supersedes
    obtain ⟨read, -⟩ := reads.legal
    obtain rfl := legal.instruction_of_supersedes reads supersedes
    rw [Reading.encoding, reads.word] at read
    exact (wideLegal supersedes).mp read
  · intro exist
    by_cases superseded : e.Superseded opts
    · obtain ⟨wider, supersedes⟩ := superseded
      have screened := legal.screen wf
      have covered := (decodes_iff.mp (qualifies_iff.mp supersedes.qualifies).1).1
      have word : (ofWord wider e.word).word = e.word :=
        (Table.default_wellFormed supersedes.member).word_ofWord covered screened
      have chosen := choice_of_supersedes supersedes legal.member (down_of_screen screened)
      obtain ⟨r, reads, -⟩ := ((wideLegal supersedes).mpr (exist wider supersedes)).reads
        (by rwa [word])
      exact ⟨r, word ▸ reads⟩
    · obtain ⟨r, as⟩ := legal.readsAs_of_not_superseded auto superseded
      exact ⟨r, as.reads⟩

end Encoding

/-! ## Words one a line -/

namespace Disassembler

variable {opts : Options}

theorem lineReads_word {w : Word} {block : List Reading} :
    LineReads opts w.text block ↔ List.Forall₂ (Reads opts) [w] block := by
  constructor
  · intro lineReads
    rw [LineReads, Source.tokens_of_isToken (Number.isToken_wordText w)] at lineReads
    obtain ⟨r, rest, ⟨w', parsed, reads⟩, none, rfl⟩ := List.forall₂_cons_left_iff.mp lineReads
    obtain rfl : w = w' := Except.ok.inj ((parseWord_text w).symm.trans parsed)
    obtain rfl := List.forall₂_nil_left_iff.mp none
    exact .cons reads .nil
  · intro all
    obtain ⟨r, rest, reads, none, rfl⟩ := List.forall₂_cons_left_iff.mp all
    obtain rfl := List.forall₂_nil_left_iff.mp none
    exact reads.lineReads

/-- Words that stand one a line are read one by one. -/
theorem disassemble_words {ws : List Word} {rs : List Reading} :
    (∃ d, disassemble ("\n".intercalate (ws.map (·.text))) opts = .ok d ∧ d.readings = rs) ↔
      List.Forall₂ (Reads opts) ws rs ∧
        (Suits opts.xlen (rs.flatMap (·.encoding.requirements))).Nonempty := by
  have texts : Source.texts ("\n".intercalate (ws.map (·.text))) = ws.map (·.text) := by
    refine Source.lines_intercalate ?_
    intro l member
    obtain ⟨w, -, rfl⟩ := List.mem_map.mp member
    exact .of_isToken (Number.isToken_wordText w)
  have lines (blocks : List (List Reading)) :
      List.Forall₂ (LineReads opts) (ws.map (·.text)) blocks ↔
        List.Forall₂ (List.Forall₂ (Reads opts)) (ws.map ([·])) blocks := by
    rw [List.forall₂_map_left_iff, List.forall₂_map_left_iff]
    simp only [lineReads_word]
  have single {α : Type} (xs : List α) : (xs.map fun x => [x]).flatten = xs := by
    rw [← List.flatMap_def, List.flatMap_singleton']
  constructor
  · rintro ⟨d, disassembled, rfl⟩
    obtain ⟨reads, width⟩ := (disassemble_linewise opts).sound disassembled
    rw [texts, lines] at reads
    have flat := List.rel_flatten reads
    rw [single] at flat
    exact ⟨flat, d.xlen, width.1⟩
  · rintro ⟨all, x, suits⟩
    obtain ⟨n, least⟩ := exists_isLeast_suits suits
    have translates : Translates opts.xlen (LineReads opts) Reading.encoding
        ("\n".intercalate (ws.map (·.text))) (rs.map ([·])) n := by
      refine ⟨?_, ?_⟩
      · rw [texts, lines, List.forall₂_map_left_iff, List.forall₂_map_right_iff]
        exact all.imp fun _ _ reads => .cons reads .nil
      · rwa [requiredBy, single]
    obtain ⟨d, disassembled, blocks, -⟩ := (disassemble_linewise opts).complete translates
    exact ⟨d, disassembled, by rw [Disassembly.readings, blocks, single]⟩

/-- The text of readings is assembled to their words. -/
theorem assemble_readings {rs : List Reading} (each : ∀ r ∈ rs, Reads opts r.word r)
    (suits : (Suits opts.xlen (rs.flatMap (·.encoding.requirements))).Nonempty) :
    ∃ b, assemble ("\n".intercalate (rs.map (·.text))) opts = .ok b ∧
      b.words = rs.map (·.word) := by
  obtain ⟨x, suits⟩ := suits
  obtain ⟨n, least⟩ := exists_isLeast_suits suits
  have plain : ∀ l ∈ rs.map (·.text), Source.Plain l := by
    intro l member
    obtain ⟨r, inside, rfl⟩ := List.mem_map.mp member
    exact (each r inside).lineDenotes.1
  have flat : (rs.map fun r => [r.encoding]).flatten = rs.map (·.encoding) := by
    rw [← List.flatMap_def, List.map_eq_flatMap]
  have translates : Translates opts.xlen (LineDenotes opts) id
      ("\n".intercalate (rs.map (·.text))) (rs.map fun r => [r.encoding]) n := by
    refine ⟨?_, ?_⟩
    · rw [Source.texts, Source.lines_intercalate plain, List.forall₂_map_left_iff,
        List.forall₂_map_right_iff, List.forall₂_same]
      intro r member
      exact (each r member).lineDenotes.2
    · rwa [requiredBy, flat, List.flatMap_map]
  obtain ⟨b, assembled, blocks, -⟩ := (assemble_linewise opts).complete translates
  refine ⟨b, assembled, ?_⟩
  rw [Assembly.words, Assembly.encodings, blocks, flat, List.map_map]
  refine List.map_congr_left ?_
  intro r member
  exact (each r member).legal.2

end Disassembler

/-! ## Widths of readings -/

section

variable {opts : Options} {es : List Encoding} {rs : List Reading}

section

variable (auto : opts.xlen = none) (legal : ∀ e ∈ es, e.Legal opts)
  (all : List.Forall₂ (fun e r => Reads opts e.word r) es rs)
include auto legal all

/-- One wider instruction pushes the width beyond 32 bits, where a 32-bit one cannot follow. -/
theorem superseded_of_suits {x : Nat}
    (suits : x ∈ Suits opts.xlen (rs.flatMap (·.encoding.requirements))) {wide : Encoding}
    (inside : wide ∈ es) (superseded : wide.Superseded opts) :
    ∀ e ∈ es, e.instruction.maxXlen = none ∨ e.Superseded opts := by
  have required {r : Reading} (member : r ∈ rs) : r.instruction.requirement.Holds x :=
    suits.1 _ (List.mem_flatMap.mpr ⟨r, member, List.mem_cons_self⟩)
  have beyond : 32 < x := by
    obtain ⟨r, inReadings, reads⟩ := Outcome.exists_of_mem_left all inside
    rcases (legal wide inside).reading_cases auto reads with ⟨-, lower, -⟩ | ⟨kept, -⟩
    · exact Nat.lt_of_lt_of_le lower (required inReadings).1
    · exact absurd superseded kept
  intro e member
  obtain ⟨r, inReadings, reads⟩ := Outcome.exists_of_mem_left all member
  rcases (legal e member).reading_cases auto reads with ⟨superseded', -⟩ | ⟨-, as⟩
  · exact .inr superseded'
  · left
    cases bound : e.instruction.maxXlen with
    | none => rfl
    | some h =>
      have narrow := Table.default_bounded _ (legal e member).member h bound
      have upper := (required inReadings).2 h (as.maxXlen.symm.trans bound)
      omega

/-- Readings of what the words were made for require the same. -/
theorem suits_subset_of_kept (kept : ∀ e ∈ es, ¬ e.Superseded opts) :
    Suits opts.xlen (es.flatMap (·.requirements)) ⊆
      Suits opts.xlen (rs.flatMap (·.encoding.requirements)) := by
  have as : List.Forall₂ (Encoding.ReadsAs opts) es rs := by
    refine Outcome.forall₂_imp_of_mem all ?_
    intro e member r reads
    rcases (legal e member).reading_cases auto reads with ⟨superseded, -⟩ | ⟨-, as⟩
    · exact absurd superseded (kept e member)
    · exact as
  have same : List.Forall₂ (fun q q' => q.bounds = q'.bounds) (es.flatMap (·.requirements))
      (rs.flatMap (·.encoding.requirements)) := List.rel_flatMap as fun _ _ as => as.bounds
  exact suits_subset fun q member => Outcome.exists_of_mem_right same member

/-- Where no upper bound is left, every reading exists at 128 bits. -/
theorem suits_of_superseded (every : ∀ e ∈ es, e.instruction.maxXlen = none ∨ e.Superseded opts) :
    128 ∈ Suits opts.xlen (rs.flatMap (·.encoding.requirements)) := by
  rw [auto]
  refine ⟨?_, (by decide : 32 ≤ 128)⟩
  intro q member
  obtain ⟨r, inReadings, inRequirements⟩ := List.mem_flatMap.mp member
  obtain ⟨e, inside, reads⟩ := Outcome.exists_of_mem_right all inReadings
  have unbounded : r.instruction.maxXlen = none := by
    rcases (legal e inside).reading_cases auto reads with ⟨-, -, wide⟩ | ⟨kept, as⟩
    · exact wide
    · rw [← as.maxXlen]
      exact (every e inside).resolve_right kept
  refine ⟨(Encoding.requirements_bounds reads.legal.1.member q inRequirements).2, ?_⟩
  intro h bound
  have top : h ∈ r.instruction.maxXlen := Encoding.bound_of_mem_requirements inRequirements bound
  rw [unbounded] at top
  cases top

/-- **Readings have a width in common when wider instructions take the place of no 32-bit
instruction or of all of them.** -/
theorem suits_readings_iff (met : (Suits opts.xlen (es.flatMap (·.requirements))).Nonempty) :
    (Suits opts.xlen (rs.flatMap (·.encoding.requirements))).Nonempty ↔
      (∀ e ∈ es, ¬ e.Superseded opts) ∨
        ∀ e ∈ es, e.instruction.maxXlen = none ∨ e.Superseded opts := by
  constructor
  · rintro ⟨x, suits⟩
    by_cases kept : ∀ e ∈ es, ¬ e.Superseded opts
    · exact .inl kept
    · push Not at kept
      obtain ⟨wide, inside, superseded⟩ := kept
      exact .inr (superseded_of_suits auto legal all suits inside superseded)
  · rintro (kept | every)
    · exact met.mono (suits_subset_of_kept auto legal all kept)
    · exact ⟨128, suits_of_superseded auto legal all every⟩

end

/-! ## Reading back -/

/-- Encodings whose words can be read back without a fixed width. -/
structure ReadableBack (opts : Options) (es : List Encoding) : Prop where
  /-- Each wider instruction has the registers that it names. -/
  registers : ∀ e ∈ es, ∀ wider, Supersedes opts e.word wider e.instruction →
    wider.HasRegisters opts e.word
  /-- Wider instructions take the place of no 32-bit instruction or of all of them. -/
  widths : (∀ e ∈ es, ¬ e.Superseded opts) ∨
    ∀ e ∈ es, e.instruction.maxXlen = none ∨ e.Superseded opts

theorem readableBack_iff (auto : opts.xlen = none) (legal : ∀ e ∈ es, e.Legal opts)
    (met : (Suits opts.xlen (es.flatMap (·.requirements))).Nonempty) :
    ReadableBack opts es ↔ ∃ rs, List.Forall₂ (fun e r => Reads opts e.word r) es rs ∧
      (Suits opts.xlen (rs.flatMap (·.encoding.requirements))).Nonempty := by
  constructor
  · rintro ⟨registers, widths⟩
    have each : ∀ e ∈ es, ∃ r, Reads opts e.word r := by
      intro e member
      exact ((legal e member).exists_reads_iff auto).mpr (registers e member)
    obtain ⟨rs, all⟩ := Outcome.exists_forall₂ each
    exact ⟨rs, all, (suits_readings_iff auto legal all met).mpr widths⟩
  · rintro ⟨rs, all, suits⟩
    refine ⟨?_, (suits_readings_iff auto legal all met).mp suits⟩
    intro e member
    obtain ⟨r, -, reads⟩ := Outcome.exists_of_mem_left all member
    exact ((legal e member).exists_reads_iff auto).mp ⟨r, reads⟩

end

/-- **When assembled words are read back without a fixed width.**  The words can be disassembled
with the same options exactly when wider instructions find their registers and take the place of no
32-bit instruction or of all of them.  What they are disassembled into is always assembled to the
same words. -/
theorem disassemble_output {source : String} {opts : Options} {a : Assembly}
    (auto : opts.xlen = none) (assembled : assemble source opts = .ok a) :
    ((∃ d, disassemble a.output opts = .ok d) ↔ ReadableBack opts a.encodings) ∧
      ∀ d, disassemble a.output opts = .ok d →
        ∃ b, assemble d.output opts = .ok b ∧ b.words = a.words := by
  have legal : ∀ e ∈ a.encodings, e.Legal opts :=
    fun e member => (assemble_eq_ok.mp assembled).1.legal member
  have met : a.xlen ∈ Suits opts.xlen (a.encodings.flatMap (·.requirements)) :=
    ((assemble_linewise opts).sound assembled).width.1
  have words (rs : List Reading) : List.Forall₂ (Reads opts) a.words rs ↔
      List.Forall₂ (fun e r => Reads opts e.word r) a.encodings rs := List.forall₂_map_left_iff
  refine ⟨?_, ?_⟩
  · rw [readableBack_iff auto legal ⟨_, met⟩]
    constructor
    · rintro ⟨d, disassembled⟩
      obtain ⟨all, suits⟩ := disassemble_words.mp ⟨d, disassembled, rfl⟩
      exact ⟨d.readings, (words _).mp all, suits⟩
    · rintro ⟨rs, all, suits⟩
      obtain ⟨d, disassembled, -⟩ := disassemble_words.mpr ⟨(words rs).mpr all, suits⟩
      exact ⟨d, disassembled⟩
  · intro d disassembled
    obtain ⟨all, suits⟩ := disassemble_words.mp ⟨d, disassembled, rfl⟩
    have same : a.words = d.readings.map (·.word) := by
      rw [← List.forall₂_eq_eq_eq, List.forall₂_map_right_iff]
      exact all.imp fun _ _ reads => reads.word.symm
    rw [same]
    refine assemble_readings ?_ suits
    intro r member
    obtain ⟨w, -, reads⟩ := Outcome.exists_of_mem_right all member
    rwa [reads.word]

set_option maxRecDepth 20000 in
/-- A single `c.jal` is read back as a `c.addiw`, which is assembled to the same word. -/
theorem disassemble_output_single :
    ∃ a, assemble "c.jal 0x60" {} = .ok a ∧ ReadableBack {} a.encodings ∧
      ∃ d, disassemble a.output {} = .ok d ∧ d.output = "c.addiw x1, 1" ∧
        ∃ b, assemble d.output {} = .ok b ∧ b.words = a.words := by
  have evaluated : (assemble "c.jal 0x60" {}).toOption.map (·.output) = some "0x00002085" := by cbv
  have evaluated' : (disassemble "0x00002085" {}).toOption.map (·.output) =
      some "c.addiw x1, 1" := by cbv
  obtain ⟨a, assembled, output⟩ := Option.map_eq_some_iff.mp evaluated
  rw [← output] at evaluated'
  obtain ⟨d, disassembled, text⟩ := Option.map_eq_some_iff.mp evaluated'
  replace assembled := Outcome.eq_ok_of_toOption assembled
  replace disassembled := Outcome.eq_ok_of_toOption disassembled
  obtain ⟨readable, back⟩ := disassemble_output rfl assembled
  exact ⟨a, assembled, readable.mp ⟨d, disassembled⟩, d, disassembled, text, back d disassembled⟩

theorem exists_unreadable {source : String} {opts : Options}
    (evaluated : (assemble source opts).toOption.map
      (fun a => (disassemble a.output opts).toOption.isSome) = some false) :
    ∃ a, assemble source opts = .ok a ∧ ∀ d, disassemble a.output opts ≠ .ok d := by
  obtain ⟨a, assembled, none⟩ := Option.map_eq_some_iff.mp evaluated
  refine ⟨a, Outcome.eq_ok_of_toOption assembled, ?_⟩
  intro d disassembled
  rw [disassembled] at none
  cases none

set_option maxRecDepth 20000 in
/-- Two `c.jal`, of which only the second can be read as a `c.addiw`, and a floating-point register
whose number is read as that of an integer register that does not exist. -/
theorem disassemble_output_fails :
    (∃ a, assemble "c.jal 0\nc.jal 0x60" {} = .ok a ∧ ∀ d, disassemble a.output {} ≠ .ok d) ∧
      ∃ a, assemble "c.flwsp f16, 0(sp)" { embedded := true } = .ok a ∧
        ∀ d, disassemble a.output { embedded := true } ≠ .ok d :=
  ⟨exists_unreadable (by cbv), exists_unreadable (by cbv)⟩

end RvCodec
