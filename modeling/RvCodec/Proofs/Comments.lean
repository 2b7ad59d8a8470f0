import RvCodec.Proofs.FirstFault
import RvCodec.Proofs.SingleTokens

/-!
# Comments and blank lines

What a line says ends at its first comment marker and has no blanks at its ends.
So a comment that is appended to a line is not part of what the line says, and a
line of blanks and a comment says nothing at all.

Both programs see a text as the lines that say something, each with its number.
A comment does not change these lines.  A line that says nothing is left out of
them, but it counts, so that it moves the numbers of the lines after it.  A number
is looked at in one place only, which is where a fault is reported.  From this
follows what becomes of the outcome (`StopsAtFault.moved`): a success stays as it
is, and the line of an error moves with its text.

`IgnoresComments` states the law, and `comments_ignored` is the law for assembling
and for disassembling.
-/

set_option autoImplicit false

namespace RvCodec

namespace Source

/-! ## Comments -/

/-- A comment, from its marker on. -/
inductive IsComment : List Char → Prop
  | hash (rest : List Char) : IsComment ('#' :: rest)
  | semicolon (rest : List Char) : IsComment (';' :: rest)
  | slashes (rest : List Char) : IsComment ('/' :: '/' :: rest)

theorem IsComment.dropComment {cs : List Char} (comment : IsComment cs) : dropComment cs = [] := by
  cases comment <;> rfl

/-- The line, as it stands or with a comment behind it. -/
inductive Commented (line : String) : String → Prop
  | same : Commented line line
  | comment (marker : Char) (known : marker = '#' ∨ marker = ';') (text : String)
      (clean : '\n' ∉ text.toList) : Commented line (line ++ String.singleton marker ++ text)

/-- What stands in front of a comment is cut as it would be without the comment. -/
theorem dropComment_append {marker : Char} (known : marker = '#' ∨ marker = ';')
    (cs rest : List Char) : dropComment (cs ++ marker :: rest) = dropComment cs := by
  induction cs with
  | nil => obtain rfl | rfl := known <;> rfl
  | cons c cs ih =>
    by_cases comment : c = '/' ∧ cs.head? = some '/'
    · obtain ⟨rfl, next⟩ := comment
      obtain ⟨cs, rfl⟩ := List.head?_eq_some_iff.mp next
      rfl
    · -- The marker is no slash, so it does not make a comment of a slash in front of it.
      have comment' : ¬ (c = '/' ∧ (cs ++ marker :: rest).head? = some '/') := by
        cases cs with
        | nil => obtain rfl | rfl := known <;> simp
        | cons d cs => exact comment
      rw [List.cons_append, dropComment_cons comment, dropComment_cons comment', ih]

theorem Commented.line? {line line' : String} (commented : Commented line line') (number : Nat) :
    line? line'.toList number = line? line.toList number := by
  cases commented with
  | same => rfl
  | comment marker known text clean =>
    have shape : (line ++ String.singleton marker ++ text).toList =
        line.toList ++ marker :: text.toList := by simp
    rw [shape, Source.line?, Source.line?, lineContents, dropComment_append known, lineContents]

theorem Commented.clean {line line' : String} (commented : Commented line line')
    (clean : '\n' ∉ line.toList) : '\n' ∉ line'.toList := by
  cases commented with
  | same => exact clean
  | comment marker known text clean' =>
    obtain rfl | rfl := known <;> simp [clean, clean']

/-- Comments do not change the lines that say something. -/
theorem numbered_commented {lines lines' : List String}
    (commented : List.Forall₂ Commented lines lines') (first : Nat) :
    numbered first lines' = numbered first lines := by
  induction commented generalizing first with
  | nil => rfl
  | cons head _ ih => rw [numbered_cons, numbered_cons, head.line?, ih]

/-! ## Lines that say nothing -/

/-- A line of nothing but blanks, or of blanks and a comment. -/
structure Silent (line : String) : Prop where
  clean : '\n' ∉ line.toList
  shape : ∃ blanks comment, line.toList = blanks ++ comment ∧
    (∀ c ∈ blanks, Text.isBlank c = true) ∧ (comment = [] ∨ IsComment comment)

theorem dropComment_blanks_append {blanks : List Char} (all : ∀ c ∈ blanks, Text.isBlank c = true)
    (cs : List Char) : dropComment (blanks ++ cs) = blanks ++ dropComment cs := by
  induction blanks with
  | nil => rfl
  | cons c blanks ih =>
    have other := Text.not_startsComment_of_isBlank (all c List.mem_cons_self)
    simp only [startsComment, Bool.or_eq_false_iff, decide_eq_false_iff_not] at other
    rw [List.cons_append, dropComment_cons fun comment => other.2 comment.1,
      if_neg (by simp [other.1]), ih fun d member => all d (List.mem_cons_of_mem _ member),
      List.cons_append]

theorem Silent.line? {line : String} (silent : Silent line) (number : Nat) :
    line? line.toList number = none := by
  obtain ⟨blanks, comment, shape, all, rest⟩ := silent.shape
  have nothing : dropComment comment = [] := by
    obtain rfl | comment := rest
    · rfl
    · exact comment.dropComment
  have contents : lineContents line.toList = [] := by
    rw [lineContents, shape, dropComment_blanks_append all, nothing, List.append_nil]
    exact Text.trimBlank_append_blanks all []
  rw [Source.line?, contents]
  rfl

theorem numbered_append (first : Nat) (lines lines' : List String) :
    numbered first (lines ++ lines') =
      numbered first lines ++ numbered (first + lines.length) lines' := by
  rw [numbered, List.zipIdx_append, List.filterMap_append, numbered, numbered]

theorem numbered_silent {lines : List String} (silent : ∀ line ∈ lines, Silent line) (first : Nat) :
    numbered first lines = [] := by
  induction lines generalizing first with
  | nil => rfl
  | cons line lines ih =>
    rw [numbered_cons, (silent line List.mem_cons_self).line?,
      ih fun line member => silent line (List.mem_cons_of_mem _ member)]
    rfl

/-! ## Insertions -/

/-- Lines that say nothing, to be inserted between given lines and around them. -/
structure Insertion (lines : List String) where
  /-- Each of the given lines, after the lines to be inserted in front of it. -/
  parts : List (List String × String)
  /-- The lines to be inserted at the end. -/
  last : List String
  kept : parts.map (·.2) = lines
  silent : ∀ part ∈ parts, ∀ line ∈ part.1, Silent line
  silent_last : ∀ line ∈ last, Silent line

/-- Each line after the lines that are inserted in front of it. -/
def interleave (parts : List (List String × String)) : List String :=
  parts.flatMap fun part => part.1 ++ [part.2]

/-- How many lines are inserted in front of the line with a number, from one on. -/
def insertedBefore (parts : List (List String × String)) (number : Nat) : Nat :=
  ((parts.take number).map (·.1.length)).sum

/-- The same line, with the number that it has after lines were inserted. -/
def Moved (parts : List (List String × String)) (line line' : Line) : Prop :=
  line'.text = line.text ∧ line'.number = line.number + insertedBefore parts line.number

theorem forall₂_line? (parts : List (List String × String)) (raw : List Char) (number : Nat) :
    List.Forall₂ (Moved parts) (line? raw number).toList
      (line? raw (number + insertedBefore parts number)).toList := by
  unfold line?
  dsimp only
  split
  · exact .nil
  · exact .cons ⟨rfl, rfl⟩ .nil

/-- Lines that say nothing only move the others.  Some of the parts may have been gone through
already, since the numbers go on. -/
theorem forall₂_interleave (done parts : List (List String × String))
    (silent : ∀ part ∈ parts, ∀ line ∈ part.1, Silent line) :
    List.Forall₂ (Moved (done ++ parts)) (numbered (done.length + 1) (parts.map (·.2)))
      (numbered (done.length + 1 + (done.map (·.1.length)).sum) (interleave parts)) := by
  induction parts generalizing done with
  | nil => exact .nil
  | cons part parts ih =>
    have before : insertedBefore (done ++ part :: parts) (done.length + 1) =
        (done.map (·.1.length)).sum + part.1.length := by
      rw [insertedBefore, List.take_length_add_append]
      simp
    have later := ih (done ++ [part]) fun part member => silent part (List.mem_cons_of_mem _ member)
    rw [List.append_assoc, List.singleton_append] at later
    have split : interleave (part :: parts) = part.1 ++ part.2 :: interleave parts := by
      simp [interleave]
    rw [List.map_cons, numbered_cons, split, numbered_append,
      numbered_silent (silent part List.mem_cons_self), List.nil_append, numbered_cons]
    refine List.rel_append ?_ ?_
    · have here := forall₂_line? (done ++ part :: parts) part.2.toList (done.length + 1)
      rw [before, ← Nat.add_assoc] at here
      exact here
    · have number : (done ++ [part]).length + 1 = done.length + 1 + 1 := by simp
      have number' : (done ++ [part]).length + 1 + ((done ++ [part]).map (·.1.length)).sum =
          done.length + 1 + (done.map (·.1.length)).sum + part.1.length + 1 := by
        simp
        omega
      rw [number', number] at later
      exact later

namespace Insertion

variable {lines : List String} (insertion : Insertion lines)

/-- The lines with the others inserted. -/
def result : List String := interleave insertion.parts ++ insertion.last

/-- The error with the number that its line has after the insertion. -/
def move (e : Error) : Error :=
  { e with line := e.line + insertedBefore insertion.parts e.line.toNat }

theorem clean (free : ∀ line ∈ lines, '\n' ∉ line.toList) :
    ∀ line ∈ insertion.result, '\n' ∉ line.toList := by
  intro line member
  obtain inside | atEnd := List.mem_append.mp member
  · obtain ⟨part, inParts, here⟩ := List.mem_flatMap.mp inside
    obtain inserted | kept := List.mem_append.mp here
    · exact (insertion.silent part inParts line inserted).clean
    · refine free line ?_
      rw [← insertion.kept, List.mem_singleton.mp kept]
      exact List.mem_map_of_mem inParts
  · exact (insertion.silent_last line atEnd).clean

theorem forall₂_numbered : List.Forall₂ (Moved insertion.parts) (numbered 1 lines)
    (numbered 1 insertion.result) := by
  have moved := forall₂_interleave [] insertion.parts insertion.silent
  rw [insertion.kept] at moved
  rw [result, numbered_append, numbered_silent insertion.silent_last, List.append_nil]
  exact moved

end Insertion

end Source

/-! ## Runs -/

section

variable {α β : Type} {step : Tracker → String → Except Fault (β × Tracker)}
  {run : Tracker → List Source.Line → Except Error (List β × Tracker)}

/-- **A run reports a fault where its line is**, and does not look at numbers otherwise. -/
theorem StopsAtFault.moved (stops : StopsAtFault step run) {texts : List String}
    (insertion : Source.Insertion texts) {lines lines' : List Source.Line}
    (moved : List.Forall₂ (Source.Moved insertion.parts) lines lines') (t : Tracker) :
    run t lines' = (run t lines).mapError insertion.move := by
  induction moved generalizing t with
  | nil =>
    rw [stops.done]
    rfl
  | @cons line line' rest rest' same _ ih =>
    obtain ⟨text, number⟩ := same
    cases stepped : step t line.text with
    | error fault =>
      rw [stops.stop rest stepped, stops.stop rest' (text ▸ stepped), number]
      simp [Except.mapError, Source.Insertion.move]
    | ok result =>
      rw [stops.next rest stepped, stops.next rest' (text ▸ stepped), ih]
      cases run result.2 rest with
      | error e => rfl
      | ok r => rfl

/-! ## The law -/

/-- The translation passes over comments and lines that say nothing. -/
structure IgnoresComments (translate : String → Except Error α) : Prop where
  /-- Comments behind lines do not change the outcome. -/
  appended : ∀ (source : String) (lines : List String),
    List.Forall₂ Source.Commented (Text.splitAt '\n' source) lines →
      translate ("\n".intercalate lines) = translate source
  /-- Lines that say nothing move the lines of errors, and change nothing else. -/
  inserted : ∀ (source : String) (insertion : Source.Insertion (Text.splitAt '\n' source)),
    translate ("\n".intercalate insertion.result) = (translate source).mapError insertion.move

/-- **A translation that stops at the first fault ignores comments and blank lines.** -/
theorem StopsAtFault.ignoresComments (stops : StopsAtFault step run)
    {translate : String → Except Error α} (start : Tracker) (finish : List β × Tracker → α)
    (runs : ∀ source, translate source =
      run start (Source.lines source) >>= fun r => pure (finish r)) :
    IgnoresComments translate where
  appended source lines commented := by
    have clean : ∀ line ∈ lines, '\n' ∉ line.toList := by
      intro line' member
      obtain ⟨line, inSource, commented⟩ := Outcome.exists_of_mem_right commented member
      exact commented.clean (Text.newline_not_mem inSource)
    rw [runs, runs, Source.lines_eq_numbered_of_clean clean, Source.lines_eq_numbered,
      Source.numbered_commented commented]
  inserted source insertion := by
    have clean := insertion.clean fun _ => Text.newline_not_mem
    rw [runs, runs, Source.lines_eq_numbered_of_clean clean, Source.lines_eq_numbered,
      stops.moved insertion insertion.forall₂_numbered]
    cases run start (Source.numbered 1 (Text.splitAt '\n' source)) with
    | error e => rfl
    | ok r => rfl

end

/-- **Comments and blank lines are invisible.**  Appending comments to lines leaves the outcome of
assembling and of disassembling as it is, and inserting lines of blanks and comments only moves the
line of an error by the number of lines inserted before it. -/
theorem comments_ignored (opts : Options) :
    IgnoresComments (assemble · opts) ∧ IgnoresComments (disassemble · opts) :=
  ⟨(Assembler.stopsAtFault opts).ignoresComments opts.tracker
      (fun r => ⟨r.1, r.2.resolved, opts.mode⟩) fun _ => rfl,
    (Disassembler.stopsAtFault opts).ignoresComments opts.tracker
      (fun r => ⟨r.1, r.2.resolved, opts.mode⟩) fun _ => rfl⟩

example : disassemble "0" {} = .error ⟨1, .illegalWord 0⟩ ∧
    disassemble "\t// none\n\n0 # ;\n;" {} = .error ⟨3, .illegalWord 0⟩ :=
  ⟨by cbv, by cbv⟩

end RvCodec
