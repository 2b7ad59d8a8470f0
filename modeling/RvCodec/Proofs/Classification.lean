import RvCodec.Proofs.CheckedDisassembling
import RvCodec.Proofs.Indexing

/-!
# What a search comes to

A search goes through the candidates of a word and passes over those that cannot
be read from it.  On its way it remembers two of them, the first one that the
width rules out and the first one that has the word as a reserved encoding, and
if it finds nothing one of the two decides the fault.

What it has remembered at the end depends on the list of candidates only, so
that the loop has a closed form (`search_eq`): the first candidate that can be
read, and otherwise the fault of the first ones of each kind.  From this follows
a complete classification (`Classified`).  Every outcome has its condition, and
the conditions speak of the instructions of the table, since the index loses
none of them.

The tracker takes part through the configured width alone (`choose_congr`), and
no word changes that.  So it does not matter which words were read before
(`choose_classified`).
-/

set_option autoImplicit false

namespace RvCodec

/-! ## Widths -/

/-- The instruction exists at the configured width, or at some width if none is configured. -/
def Instruction.existsAt (mode : Xlen) (i : Instruction) : Bool :=
  mode.all fun x => i.requiredXlen ≤ x && i.maxXlen.all (x ≤ ·)

namespace Tracker

variable {t t' : Tracker}

theorem allowsInstruction_eq (t : Tracker) (i : Instruction) :
    t.allowsInstruction i = i.existsAt t.mode := by
  cases mode : t.mode with
  | none => exact allowsInstruction_auto mode i
  | some x =>
    rw [Bool.eq_iff_iff, allowsInstruction_fixed mode]
    cases bound : i.maxXlen with
    | none => simp [Instruction.existsAt, Requirement.Holds, Instruction.requirement, bound]
    | some h => simp [Instruction.existsAt, Requirement.Holds, Instruction.requirement, bound]

/-- A requirement is refused for its width. -/
theorem kind_of_require {name : String} {lo : Nat} {hi : Xlen} {fault : Fault}
    (refused : t.require name lo hi = .error fault) : fault.kind = .xlenMismatch := by
  unfold require refusal at refused
  grind [Fault.kind]

/-- Under a fixed width, the fault of a requirement does not depend on what was seen. -/
theorem requireInstruction_congr (mode : t.mode = t'.mode) {i : Instruction}
    (excluded : t.allowsInstruction i = false) {fault : Fault}
    (refused : t.requireInstruction i = .error fault) : t'.requireInstruction i = .error fault := by
  unfold requireInstruction require at refused ⊢
  rw [← mode]
  cases configured : t.mode with
  | none =>
    rw [allowsInstruction_auto configured] at excluded
    cases excluded
  | some x =>
    rw [configured] at refused
    dsimp only at refused ⊢
    split
    · next found => rw [found] at refused; exact refused
    · next found => rw [found] at refused; cases refused

end Tracker

/-! ## The closed form of a search -/

namespace Disassembler

/-- The instruction is switched on, and the word is one of its words. -/
def offers (opts : Options) (w : Word) (i : Instruction) : Bool :=
  i.covers w && opts.enables i.ext

/-- The instruction is offered and exists at the configured width. -/
def available (opts : Options) (w : Word) (i : Instruction) : Bool :=
  offers opts w i && i.existsAt opts.xlen

/-- The instruction is available and does not have the word as a reserved encoding. -/
def readable (opts : Options) (w : Word) (i : Instruction) : Bool :=
  available opts w i && (i.reserved? w).isNone

/-- The instruction as one that the width rules out. -/
def ruledOut (opts : Options) (t : Tracker) (w : Word) (i : Instruction) : Bool :=
  offers opts w i && !t.allowsInstruction i

/-- The instruction as one that has the word as a reserved encoding. -/
def reservation? (opts : Options) (t : Tracker) (w : Word) (i : Instruction) :
    Option (Instruction × Reservation) :=
  if offers opts w i && t.allowsInstruction i then (i.reserved? w).map (i, ·) else none

namespace Search

/-- What a search remembers of a list of candidates that cannot be read. -/
def ofList (opts : Options) (t : Tracker) (w : Word) (candidates : List Instruction) : Search :=
  ⟨candidates.find? (ruledOut opts t w), candidates.findSome? (reservation? opts t w)⟩

/-- What was remembered first stays. -/
def or (s s' : Search) : Search := ⟨s.excluded.or s'.excluded, s.reserved.or s'.reserved⟩

end Search

variable {opts : Options} {t t' : Tracker} {w : Word}

theorem qualifies_eq (i : Instruction) : qualifies opts t w i =
    (offers opts w i && t.allowsInstruction i && (i.reserved? w).isNone) := by
  unfold qualifies decodes offers
  grind

/-- **A search finds the first candidate that can be read**, and otherwise ends with the fault of
what it came across first. -/
theorem search_eq (s : Search) (candidates : List Instruction) :
    search opts t w s candidates =
      match candidates.find? (qualifies opts t w) with
      | some i => .ok i
      | none => .error ((s.or (.ofList opts t w candidates)).fault t w) := by
  induction candidates generalizing s with
  | nil => simp [search, Search.ofList, Search.or]
  | cons i rest ih =>
    have passed : (!i.covers w || !opts.enables i.ext) = !offers opts w i := by
      rw [offers, Bool.not_and]
    rw [search, passed, List.find?_cons, Search.ofList, List.find?_cons, List.findSome?_cons,
      qualifies_eq, ruledOut, reservation?]
    cases offered : offers opts w i with
    | false => exact ih s
    | true =>
      cases allowed : t.allowsInstruction i with
      | false =>
        simp only [Bool.not_true, Bool.false_eq_true, ↓reduceIte, Bool.not_false, Bool.and_false,
          Bool.false_and, Bool.and_self]
        rw [ih]
        simp only [Search.or, Search.ofList, Option.or_assoc, Option.some_or]
      | true =>
        simp only [Bool.not_true, Bool.false_eq_true, ↓reduceIte, Bool.and_false, Bool.and_true]
        cases i.reserved? w with
        | none => rfl
        | some why =>
          simp only [Option.isNone_some, Option.map_some, Bool.and_false]
          rw [ih]
          simp only [Search.or, Search.ofList, Option.or_assoc, Option.some_or]

/-! ## The first ones of each kind -/

section Configured

variable (mode : t.mode = opts.xlen)
include mode

theorem qualifies_eq_readable : qualifies opts t w = readable opts w := by
  funext i
  rw [qualifies_eq, t.allowsInstruction_eq, mode]
  rfl

theorem reservation?_eq (i : Instruction) : reservation? opts t w i =
    if available opts w i then (i.reserved? w).map (i, ·) else none := by
  rw [reservation?, t.allowsInstruction_eq, mode]
  rfl

/-- Where nothing can be read, the first candidate that is available is the first reserved one. -/
theorem findSome?_reservation? {candidates : List Instruction}
    (unread : ∀ i ∈ candidates, readable opts w i = false) :
    candidates.findSome? (reservation? opts t w) =
      (candidates.find? (available opts w)).bind fun i => (i.reserved? w).map (i, ·) := by
  induction candidates with
  | nil => rfl
  | cons i rest ih =>
    have unreadable := unread i List.mem_cons_self
    rw [List.findSome?_cons, List.find?_cons, reservation?_eq mode,
      ih fun j member => unread j (List.mem_cons_of_mem _ member)]
    cases here : available opts w i with
    | false => rfl
    | true =>
      cases reserved : i.reserved? w with
      | none => simp [readable, here, reserved] at unreadable
      | some why => simp [reserved]

end Configured

/-! ## The tracker -/

/-- What is ruled out and what is reserved depends on the configured width only. -/
theorem Search.ofList_congr (mode : t.mode = t'.mode) (candidates : List Instruction) :
    ofList opts t w candidates = ofList opts t' w candidates := by
  have allowed : t.allowsInstruction = t'.allowsInstruction := by
    funext i
    rw [t.allowsInstruction_eq, t'.allowsInstruction_eq, mode]
  have excluded : ruledOut opts t w = ruledOut opts t' w := by
    funext i
    rw [ruledOut, ruledOut, allowed]
  have reserved : reservation? opts t w = reservation? opts t' w := by
    funext i
    rw [reservation?, reservation?, allowed]
  rw [ofList, ofList, excluded, reserved]

theorem allowsInstruction_of_ruledOut {i : Instruction} (excluded : ruledOut opts t w i = true) :
    t.allowsInstruction i = false := by
  simp only [ruledOut, Bool.and_eq_true, Bool.not_eq_true'] at excluded
  exact excluded.2

theorem Search.fault_congr (mode : t.mode = t'.mode) (candidates : List Instruction) :
    (ofList opts t w candidates).fault t w = (ofList opts t w candidates).fault t' w := by
  simp only [fault, ofList]
  cases candidates.findSome? (reservation? opts t w) with
  | some pair => rfl
  | none =>
    cases first : candidates.find? (ruledOut opts t w) with
    | none => rfl
    | some i =>
      have excluded := allowsInstruction_of_ruledOut (List.find?_some first)
      obtain ⟨fault, refused⟩ := Tracker.exists_refusal excluded
      simp only [refused, Tracker.requireInstruction_congr mode excluded refused]

/-- **The choice depends on the configured width**, and on nothing else that a tracker holds. -/
theorem choose_congr (mode : t.mode = t'.mode) (table : Table) :
    choose table opts t w = choose table opts t' w := by
  unfold choose
  split
  · rfl
  · rw [search_eq, search_eq, qualifies_congr mode]
    split
    · rfl
    · simp only [Search.or, Option.none_or]
      exact congrArg _ ((Search.fault_congr mode _).trans
        (congrArg (·.fault t' w) (Search.ofList_congr mode _)))

/-! ## The classification -/

/-- The instructions that a word is tried with, in order. -/
def tried (w : Word) : List Instruction := Table.default.candidates (Key.ofWord w)

/-- What a search may come to, and when. -/
inductive Verdict (opts : Options) (w : Word) : Except Fault Instruction → Prop
  /-- There is nothing to try. -/
  | unknown (empty : tried w = []) : Verdict opts w (.error (.unknownOpcode w))
  /-- Something can be read. -/
  | read {i : Instruction} (first : (tried w).find? (readable opts w) = some i) :
      Verdict opts w (.ok i)
  /-- Nothing can be read, but something is available. -/
  | reserved {i : Instruction} {why : Reservation}
      (unread : (tried w).find? (readable opts w) = none)
      (first : (tried w).find? (available opts w) = some i) (held : i.reserved? w = some why) :
      Verdict opts w (.error (.reservedEncoding w i.name why.text))
  /-- Nothing is available, but something is offered. -/
  | mismatch {i : Instruction} {fault : Fault}
      (unavailable : (tried w).find? (available opts w) = none)
      (first : (tried w).find? (offers opts w) = some i) (kind : fault.kind = .xlenMismatch) :
      Verdict opts w (.error fault)
  /-- Nothing of what is tried is offered. -/
  | nothing (nonempty : tried w ≠ [])
      (unoffered : (tried w).find? (offers opts w) = none) :
      Verdict opts w (.error (.noInstruction w))

/-- Where nothing is available, what is offered is ruled out by the width. -/
theorem find?_ruledOut (mode : t.mode = opts.xlen) {candidates : List Instruction}
    (absent : candidates.find? (available opts w) = none) :
    candidates.find? (ruledOut opts t w) = candidates.find? (offers opts w) := by
  refine List.find?_congr fun i member => ?_
  have unavailable := List.find?_eq_none.mp absent i member
  rw [available, Bool.and_eq_true, not_and, Bool.not_eq_true] at unavailable
  rw [ruledOut, t.allowsInstruction_eq, mode]
  cases offered : offers opts w i with
  | false => rfl
  | true => rw [unavailable offered]; rfl

theorem search_verdict (mode : t.mode = opts.xlen) (nonempty : tried w ≠ []) :
    Verdict opts w (search opts t w {} (tried w)) := by
  rw [search_eq, qualifies_eq_readable mode]
  cases read : (tried w).find? (readable opts w) with
  | some i => exact .read read
  | none =>
    have unread : ∀ i ∈ tried w, readable opts w i = false := by simpa using read
    simp only [Search.or, Option.none_or, Search.fault, Search.ofList,
      findSome?_reservation? mode unread]
    cases first : (tried w).find? (available opts w) with
    | some i =>
      have unreadable := unread i (List.mem_of_find?_eq_some first)
      rw [readable, List.find?_some first, Bool.true_and, Option.isNone_eq_false_iff,
        Option.isSome_iff_exists] at unreadable
      obtain ⟨why, held⟩ := unreadable
      simp only [Option.bind_some, held, Option.map_some]
      exact .reserved read first held
    | none =>
      have excluded := find?_ruledOut mode first
      simp only [Option.bind_none, excluded]
      cases offered : (tried w).find? (offers opts w) with
      | none => exact .nothing nonempty offered
      | some i =>
        rw [offered] at excluded
        obtain ⟨fault, refused⟩ := Tracker.exists_refusal
          (allowsInstruction_of_ruledOut (List.find?_some excluded))
        simp only [refused]
        exact .mismatch first offered (Tracker.kind_of_require refused)

theorem choose_verdict (mode : t.mode = opts.xlen) :
    Verdict opts w (choose Table.default opts t w) := by
  unfold choose
  split
  · next empty => exact .unknown empty
  · next candidates nonempty => exact search_verdict mode nonempty

/-- The outcome is a fault of the kind. -/
def FailsAs (outcome : Except Fault Instruction) (kind : FaultKind) : Prop :=
  ∃ fault, outcome = .error fault ∧ fault.kind = kind

/-- What a search comes to, outcome by outcome. -/
structure Classified (opts : Options) (w : Word) (outcome : Except Fault Instruction) : Prop where
  /-- The first instruction that can be read is found, and nothing else is. -/
  read : ∀ i, outcome = .ok i ↔ (tried w).find? (readable opts w) = some i
  /-- The opcode is unknown when there is nothing to try. -/
  unknown : FailsAs outcome .unknownOpcode ↔ tried w = []
  /-- Otherwise the first available instruction is named, which has the word reserved. -/
  reserved : ∀ i, (tried w).find? (readable opts w) = none →
    (tried w).find? (available opts w) = some i →
    ∃ why, i.reserved? w = some why ∧ outcome = .error (.reservedEncoding w i.name why.text)
  /-- The width is at fault when the word is offered, but not at that width. -/
  mismatch : FailsAs outcome .xlenMismatch ↔
    (∃ i ∈ Table.default.instructions, offers opts w i = true) ∧
      ∀ i ∈ Table.default.instructions, offers opts w i = true → i.existsAt opts.xlen = false
  /-- The word is not supported when it is reserved, or when no instruction offers it. -/
  unsupported : FailsAs outcome .unsupportedEncoding ↔ tried w ≠ [] ∧
    (tried w).find? (readable opts w) = none ∧
    ((∃ i ∈ Table.default.instructions, available opts w i = true) ∨
      ∀ i ∈ Table.default.instructions, offers opts w i = false)

@[simp] theorem failsAs_ok {i : Instruction} {kind : FaultKind} : ¬ FailsAs (.ok i) kind := by
  rintro ⟨_, ⟨⟩, _⟩

@[simp] theorem failsAs_error {fault : Fault} {kind : FaultKind} :
    FailsAs (.error fault) kind ↔ fault.kind = kind := by
  constructor
  · rintro ⟨_, ⟨⟩, same⟩
    exact same
  · exact fun same => ⟨fault, rfl, same⟩

/-! The index loses no instruction of the table, and a word that is available is offered. -/

theorem find?_tried_eq_none {p : Instruction → Bool}
    (covers : ∀ i, p i = true → i.covers w = true) :
    (tried w).find? p = none ↔ ∀ i ∈ Table.default.instructions, ¬ p i = true := by
  rw [List.find?_eq_none]
  constructor
  · intro absent i inTable held
    have listed := ((Table.default_indexes w).found i).mpr
      (List.mem_filter.mpr ⟨inTable, covers i held⟩)
    exact absent i (List.mem_filter.mp listed).1 held
  · intro absent i listed
    exact absent i (Table.mem_candidates.mp listed).1

theorem covers_of_offers {i : Instruction} (offered : offers opts w i = true) :
    i.covers w = true := by
  rw [offers, Bool.and_eq_true] at offered
  exact offered.1

theorem offers_of_available {i : Instruction} (here : available opts w i = true) :
    offers opts w i = true := by
  rw [available, Bool.and_eq_true] at here
  exact here.1

theorem available_of_readable {i : Instruction} (legible : readable opts w i = true) :
    available opts w i = true := by
  rw [readable, Bool.and_eq_true] at legible
  exact legible.1

theorem find?_eq_none_of_imp {p q : Instruction → Bool} (weaker : ∀ i, p i = true → q i = true)
    {candidates : List Instruction} (absent : candidates.find? q = none) :
    candidates.find? p = none := by
  rw [List.find?_eq_none] at absent ⊢
  exact fun i member held => absent i member (weaker i held)

theorem offered_iff : (∃ i ∈ Table.default.instructions, offers opts w i = true) ↔
    (tried w).find? (offers opts w) ≠ none := by
  rw [Ne, find?_tried_eq_none fun _ => covers_of_offers]
  push Not
  rfl

theorem unoffered_iff : (∀ i ∈ Table.default.instructions, offers opts w i = false) ↔
    (tried w).find? (offers opts w) = none := by
  rw [find?_tried_eq_none fun _ => covers_of_offers]
  simp only [Bool.not_eq_true]

theorem available_iff : (∃ i ∈ Table.default.instructions, available opts w i = true) ↔
    (tried w).find? (available opts w) ≠ none := by
  rw [Ne, find?_tried_eq_none fun _ here => covers_of_offers (offers_of_available here)]
  push Not
  rfl

theorem excluded_iff : (∀ i ∈ Table.default.instructions, offers opts w i = true →
      i.existsAt opts.xlen = false) ↔ (tried w).find? (available opts w) = none := by
  rw [find?_tried_eq_none fun _ here => covers_of_offers (offers_of_available here)]
  simp only [available, Bool.and_eq_true, not_and, Bool.not_eq_true]

theorem Verdict.classified {outcome : Except Fault Instruction} (verdict : Verdict opts w outcome) :
    Classified opts w outcome := by
  -- The later a search gets, the less it needs: nothing to try, nothing offered, nothing available.
  have unoffered : tried w = [] → (tried w).find? (offers opts w) = none := by
    intro empty
    rw [empty, List.find?_nil]
  have unavailable : (tried w).find? (offers opts w) = none →
      (tried w).find? (available opts w) = none :=
    find?_eq_none_of_imp fun _ => offers_of_available
  have unread : (tried w).find? (available opts w) = none →
      (tried w).find? (readable opts w) = none :=
    find?_eq_none_of_imp fun _ => available_of_readable
  refine ⟨?_, ?_, ?_, ?_, ?_⟩
  · intro i
    cases verdict <;> grind
  · cases verdict <;> grind [failsAs_ok, failsAs_error, Fault.kind]
  · intro i unread first
    cases verdict <;> grind
  · rw [offered_iff, excluded_iff]
    cases verdict <;> grind [failsAs_ok, failsAs_error, Fault.kind]
  · rw [available_iff, unoffered_iff]
    cases verdict <;> grind [failsAs_ok, failsAs_error, Fault.kind]

/-- **A search is classified completely**, whatever was read before the word, and it comes to what
it would come to with nothing before. -/
theorem choose_classified {opts : Options} {above : List Source.Line} {before : List String}
    {blocks : List (List Reading)} {block : List Reading} {s t : Tracker}
    (lines : readLines opts opts.tracker above = .ok (blocks, s))
    (tokens : readTokens opts s before = .ok (block, t)) (w : Word) :
    Classified opts w (choose Table.default opts t w) ∧
      choose Table.default opts t w = choose Table.default opts opts.tracker w := by
  have start : opts.tracker.mode = opts.xlen := rfl
  have middle := Tracker.requireAll_mode ((readLines_eq_ok start).mp lines).2
  have mode := (Tracker.requireAll_mode ((readTokens_eq_ok middle).mp tokens).2).trans middle
  exact ⟨(choose_verdict mode).classified, choose_congr mode _⟩

set_option maxRecDepth 20000 in
/-- After words that need 64 bits, a word is still searched among the instructions of 32 bits. -/
theorem choose_classified_later :
    ∃ blocks s block t, readLines {} (Options.tracker {}) [⟨1, "0x6082"⟩] = .ok (blocks, s) ∧
      readTokens {} s ["1"] = .ok (block, t) ∧ t.detected = 64 ∧
      Classified {} 0x2001 (choose Table.default {} t 0x2001) ∧
      choose Table.default {} t 0x2001 = choose Table.default {} (Options.tracker {}) 0x2001 := by
  have lines : (readLines {} (Options.tracker {}) [⟨1, "0x6082"⟩]).toOption.map (·.2) =
      some ⟨none, 64, none⟩ := by cbv
  have tokens : (readTokens {} ⟨none, 64, none⟩ ["1"]).toOption.map (·.2) =
      some ⟨none, 64, none⟩ := by cbv
  obtain ⟨⟨blocks, s⟩, lines, rfl⟩ := Option.map_eq_some_iff.mp lines
  obtain ⟨⟨block, t⟩, tokens, ends⟩ := Option.map_eq_some_iff.mp tokens
  have lines := Outcome.eq_ok_of_toOption lines
  have tokens := Outcome.eq_ok_of_toOption tokens
  exact ⟨blocks, _, block, t, lines, tokens, congrArg Tracker.detected ends,
    choose_classified lines tokens 0x2001⟩

end Disassembler

end RvCodec
