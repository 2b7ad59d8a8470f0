import RvCodec.Proofs.Linewise

/-!
# The first offending line

Both programs go through the lines of a text from the first one on and stop at
the first fault.  What they have seen by then is the text up to that line.  So
the error is settled there: the lines before it can be translated on their own,
and what follows it is never looked at.

Lines that say nothing are passed over, but they count.  The induction therefore
goes through all the lines of a text, with the number of the first one left
open (`StopsAtFault.exists_line`), and not only through those that say something.

`SettledAt` states the law, and `fault_settled` is the law for assembling and for
disassembling.
-/

set_option autoImplicit false

namespace RvCodec

/-! ## Numbered lines -/

namespace Source

/-- The lines that say something, of lines that are numbered from `first` on. -/
def numbered (first : Nat) (lines : List String) : List Line :=
  (lines.zipIdx first).filterMap fun entry => line? entry.1.toList entry.2

theorem numbered_cons (first : Nat) (line : String) (lines : List String) :
    numbered first (line :: lines) =
      (line? line.toList first).toList ++ numbered (first + 1) lines := by
  rw [numbered, List.zipIdx_cons, List.filterMap_cons]
  cases line? line.toList first with
  | none => rfl
  | some said => rfl

theorem lines_eq_numbered (source : String) :
    lines source = numbered 1 (Text.splitAt '\n' source) := by
  rw [numbered, Text.splitAt, List.zipIdx_map, List.filterMap_map]
  refine List.filterMap_congr ?_
  intro entry _
  exact congrArg (line? · entry.2) String.toList_ofList.symm

/-- The lines of a text are those it is put together from. -/
theorem lines_eq_numbered_of_clean {lines : List String}
    (clean : ∀ line ∈ lines, '\n' ∉ line.toList) :
    Source.lines ("\n".intercalate lines) = numbered 1 lines := by
  cases lines with
  | nil => rfl
  | cons line lines =>
    rw [lines_eq_numbered, Text.splitAt_intercalate (List.cons_ne_nil _ _) clean]

theorem number_of_line? {raw : List Char} {number : Nat} {line : Line}
    (said : line? raw number = some line) : line.number = number := by
  unfold line? at said
  dsimp only at said
  split at said
  · cases said
  · cases said
    rfl

end Source

/-! ## Runs that stop at a fault -/

section

variable {α β : Type} {step : Tracker → String → Except Fault (β × Tracker)}
  {run : Tracker → List Source.Line → Except Error (List β × Tracker)}

/-- The run goes through the lines in order and stops at the first fault, with the number of its
line. -/
structure StopsAtFault (step : Tracker → String → Except Fault (β × Tracker))
    (run : Tracker → List Source.Line → Except Error (List β × Tracker)) : Prop where
  done : ∀ t, run t [] = .ok ([], t)
  stop : ∀ {t : Tracker} {line : Source.Line} {fault : Fault} (rest : List Source.Line),
    step t line.text = .error fault → run t (line :: rest) = .error ⟨line.number, fault⟩
  next : ∀ {t t' : Tracker} {line : Source.Line} {b : β} (rest : List Source.Line),
    step t line.text = .ok (b, t') →
      run t (line :: rest) = (fun r => (b :: r.1, r.2)) <$> run t' rest

/-- **A run that fails fails at a line.**  The lines before it make up a run that succeeds, and the
lines after it do not matter. -/
theorem StopsAtFault.exists_line (stops : StopsAtFault step run) {lines : List String}
    {first : Nat} {t : Tracker} {e : Error}
    (failed : run t (Source.numbered first lines) = .error e) :
    ∃ before line after, lines = before ++ line :: after ∧
      e.line = (first + before.length : Nat) ∧
      (∃ r, run t (Source.numbered first before) = .ok r) ∧
      ∀ after', run t (Source.numbered first (before ++ line :: after')) = .error e := by
  induction lines generalizing first t with
  | nil => exact absurd ((stops.done t).symm.trans failed) (by simp)
  | cons line lines ih =>
    cases said : Source.line? line.toList first with
    | none =>
      -- A line that says nothing leaves the run as it is, and only the numbers go on.
      have skip (rest : List String) :
          Source.numbered first (line :: rest) = Source.numbered (first + 1) rest := by
        rw [Source.numbered_cons, said]
        rfl
      rw [skip] at failed
      obtain ⟨before, line', after, rfl, number, earlier, later⟩ := ih failed
      refine ⟨line :: before, line', after, rfl, ?_, ?_, ?_⟩
      · rw [number, List.length_cons]
        omega
      · rwa [skip]
      · intro after'
        rw [List.cons_append, skip]
        exact later after'
    | some said' =>
      have start (rest : List String) :
          Source.numbered first (line :: rest) = said' :: Source.numbered (first + 1) rest := by
        rw [Source.numbered_cons, said]
        rfl
      rw [start] at failed
      cases stepped : step t said'.text with
      | error fault =>
        rw [stops.stop _ stepped] at failed
        obtain rfl := Except.error.inj failed
        refine ⟨[], line, lines, rfl, ?_, ⟨_, stops.done t⟩, ?_⟩
        · rw [Source.number_of_line? said]
          rfl
        · intro after'
          rw [List.nil_append, start]
          exact stops.stop _ stepped
      | ok result =>
        obtain ⟨b, t'⟩ := result
        rw [stops.next _ stepped, Outcome.map_eq_error] at failed
        obtain ⟨before, line', after, rfl, number, ⟨r, earlier⟩, later⟩ := ih failed
        refine ⟨line :: before, line', after, rfl, ?_, ⟨(b :: r.1, r.2), ?_⟩, ?_⟩
        · rw [number, List.length_cons]
          omega
        · rw [start, stops.next _ stepped, earlier]
          rfl
        · intro after'
          rw [List.cons_append, start, stops.next _ stepped, later after']
          rfl

/-! ## The law -/

/-- The error that the text is refused with is settled at the line with this number. -/
structure SettledAt (translate : String → Except Error α) (source : String) (e : Error)
    (n : Nat) : Prop where
  line : e.line = n
  inside : 1 ≤ n ∧ n ≤ (Text.splitAt '\n' source).length
  /-- The lines before it can be translated. -/
  before : ∃ r, translate ("\n".intercalate ((Text.splitAt '\n' source).take (n - 1))) = .ok r
  /-- Every text with the same lines up to this one is refused with the same error. -/
  after : ∀ other : String,
    (Text.splitAt '\n' other).take n = (Text.splitAt '\n' source).take n →
      translate other = .error e

/-- **A translation that stops at the first fault settles its errors there.** -/
theorem StopsAtFault.settled (stops : StopsAtFault step run) {translate : String → Except Error α}
    (start : Tracker) (finish : List β × Tracker → α)
    (runs : ∀ source, translate source = finish <$> run start (Source.lines source))
    {source : String} {e : Error} (failed : translate source = .error e) :
    ∃ n, SettledAt translate source e n := by
  rw [runs, Source.lines_eq_numbered, Outcome.map_eq_error] at failed
  obtain ⟨before, line, after, split, number, ⟨r, earlier⟩, later⟩ := stops.exists_line failed
  refine ⟨before.length + 1, ?_, ?_, ?_, ?_⟩
  · rw [number, Nat.add_comm]
  · rw [split, List.length_append, List.length_cons]
    omega
  · refine ⟨finish r, ?_⟩
    have clean : ∀ line ∈ before, '\n' ∉ line.toList := by
      intro line' member
      refine Text.newline_not_mem (s := source) ?_
      rw [split]
      exact List.mem_append_left _ member
    rw [Nat.add_sub_cancel, split, List.take_left, runs, Source.lines_eq_numbered_of_clean clean,
      earlier]
    rfl
  · intro other same
    -- The other text has the same lines up to this one, and some lines after it.
    have shape : Text.splitAt '\n' other =
        before ++ line :: (Text.splitAt '\n' other).drop (before.length + 1) := by
      conv_lhs => rw [← List.take_append_drop (before.length + 1) (Text.splitAt '\n' other)]
      rw [same, split, List.take_length_add_append]
      simp
    rw [runs, Source.lines_eq_numbered, shape, later]
    rfl

end

/-! ## The two programs -/

theorem Assembler.stopsAtFault (opts : Options) :
    StopsAtFault (readLine opts) (readLines opts) where
  done _ := rfl
  stop rest faulty := by rw [readLines, faulty]
  next rest read := by
    rw [readLines, read]
    dsimp only
    cases readLines opts _ rest with
    | error e => rfl
    | ok r => rfl

theorem Disassembler.stopsAtFault (opts : Options) :
    StopsAtFault (fun t text => readTokens opts t (Source.tokens text)) (readLines opts) where
  done _ := rfl
  stop rest faulty := by rw [readLines, faulty]
  next rest read := by
    rw [readLines, read]
    dsimp only
    cases readLines opts _ rest with
    | error e => rfl
    | ok r => rfl

/-- **Errors are settled at the first offending line.**  The error names a line of the text, the
lines before it can be assembled or disassembled on their own, and every text that agrees up to
this line is refused with the same error. -/
theorem fault_settled {source : String} {opts : Options} {e : Error} :
    (assemble source opts = .error e → ∃ n, SettledAt (assemble · opts) source e n) ∧
      (disassemble source opts = .error e → ∃ n, SettledAt (disassemble · opts) source e n) := by
  have assembles (source : String) : assemble source opts =
      (fun r => ⟨r.1, r.2.resolved, opts.mode⟩) <$>
        Assembler.readLines opts opts.tracker (Source.lines source) := by
    rw [assemble]
    cases Assembler.readLines opts opts.tracker (Source.lines source) with
    | error e => rfl
    | ok r => rfl
  have disassembles (source : String) : disassemble source opts =
      (fun r => ⟨r.1, r.2.resolved, opts.mode⟩) <$>
        Disassembler.readLines opts opts.tracker (Source.lines source) := by
    rw [disassemble]
    cases Disassembler.readLines opts opts.tracker (Source.lines source) with
    | error e => rfl
    | ok r => rfl
  constructor
  · intro failed
    exact (Assembler.stopsAtFault opts).settled _ _ assembles failed
  · intro failed
    exact (Disassembler.stopsAtFault opts).settled _ _ disassembles failed

set_option maxRecDepth 20000 in
/-- Comments and blank lines count, and so do the widths of the lines before. -/
theorem fault_settled_fourth :
    (∃ n, SettledAt (assemble · {}) "# a call\n\nc.jal 0x60\naddw a0, a0, a1\nret"
      ⟨4, .widthConflict "addw" 64 32 64⟩ n) ∧
    ∃ n, SettledAt (disassemble · {}) "# words\n00000001 # c.nop\n\n00000001, 0\n?"
      ⟨4, .illegalWord 0⟩ n :=
  ⟨fault_settled.1 (by cbv), fault_settled.2 (by cbv)⟩

end RvCodec
