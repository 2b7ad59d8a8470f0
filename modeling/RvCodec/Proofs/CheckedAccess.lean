import RvCodec.Proofs.DefaultTable
import RvCodec.Proofs.Outcomes

/-!
# Checked accesses

Both programs look into lists by position, cut pieces out of texts, take
remainders, and go on with what a search has found.  The definitions of this
library are total: they give some answer at a position that does not exist, and
so they cannot tell whether the programs ever ask for one.

A checked computation has a third way to end, beside a result and a fault: it
crashes where an access goes wrong.  Here are the accesses and the accesses to
texts and names that lean on nothing but the text or the number at hand.  In
`CheckedAssembling` and `CheckedDisassembling` the programs are written once more
with every access checked, and turn out to be the same programs.
-/

set_option autoImplicit false

namespace RvCodec

/-! ## Checked computations -/

/-- An access that goes wrong. -/
inductive Crash where
  /-- There is nothing at this position of a list. -/
  | index (position length : Nat)
  /-- There is no such piece of a list. -/
  | slice (start stop length : Nat)
  /-- The remainder of a division by zero. -/
  | zeroModulus
  /-- A search has found neither an instruction nor a fault. -/
  | nothingFound
  /-- Two instructions of a table share a name. -/
  | duplicateName (name : String)
  deriving DecidableEq, Repr

/-- How a checked computation ends without a result. -/
inductive Stop (ε : Type) where
  | fault (e : ε)
  | crash (c : Crash)
  deriving DecidableEq, Repr

/-- A computation that may fail or crash. -/
abbrev Checked (ε α : Type) : Type := Except (Stop ε) α

namespace Checked

variable {ε α β : Type}

/-- A computation that does not crash. -/
def ofPlain (x : Except ε α) : Checked ε α := x.mapError .fault

theorem ok_bind (a : α) (f : α → Checked ε β) : (Except.ok a >>= f) = f a := rfl

@[simp] theorem ofPlain_ok (a : α) : ofPlain (.ok a : Except ε α) = .ok a := rfl

theorem ofPlain_bind (x : Except ε α) (f : α → Except ε β) :
    ofPlain (x >>= f) = ofPlain x >>= fun a => ofPlain (f a) := by
  cases x with
  | error e => rfl
  | ok a => rfl

theorem ofPlain_map (f : α → β) (x : Except ε α) : ofPlain (f <$> x) = f <$> ofPlain x := by
  cases x with
  | error e => rfl
  | ok a => rfl

/-- A fault is reported at its line, and a crash is a crash. -/
def atLine (number : Nat) (x : Checked Fault α) : Checked Error α :=
  x.mapError fun
    | .fault fault => .fault ⟨number, fault⟩
    | .crash c => .crash c

theorem atLine_ofPlain (number : Nat) (x : Except Fault α) :
    atLine number (ofPlain x) = ofPlain (x.mapError (⟨number, ·⟩)) := by
  cases x with
  | error fault => rfl
  | ok a => rfl

/-! ## Accesses -/

/-- What stands at a position. -/
def item (xs : List α) (n : Nat) : Checked ε α :=
  match xs[n]? with
  | some a => .ok a
  | none => .error (.crash (.index n xs.length))

/-- The piece from a position on and up to another one. -/
def slice (xs : List α) (start stop : Nat) : Checked ε (List α) :=
  if start ≤ stop ∧ stop ≤ xs.length then .ok ((xs.take stop).drop start)
  else .error (.crash (.slice start stop xs.length))

/-- The remainder of a division. -/
def remainder (v modulus : Int) : Checked ε Int :=
  if modulus = 0 then .error (.crash .zeroModulus) else .ok (v % modulus)

theorem item_eq {xs : List α} {n : Nat} {a : α} (inside : xs[n]? = some a) :
    item xs n = (.ok a : Checked ε α) := by
  rw [item, inside]

theorem slice_eq {xs : List α} {start stop : Nat} (ordered : start ≤ stop)
    (inside : stop ≤ xs.length) :
    slice xs start stop = (.ok ((xs.take stop).drop start) : Checked ε (List α)) := by
  rw [slice, if_pos ⟨ordered, inside⟩]

theorem slice_start {xs : List α} {stop : Nat} (inside : stop ≤ xs.length) :
    slice xs 0 stop = (.ok (xs.take stop) : Checked ε (List α)) := by
  rw [slice_eq (Nat.zero_le _) inside, List.drop_zero]

theorem slice_end {xs : List α} {start : Nat} (inside : start ≤ xs.length) :
    slice xs start xs.length = (.ok (xs.drop start) : Checked ε (List α)) := by
  rw [slice_eq inside (Nat.le_refl _), List.take_length]

/-! ## Runs of steps -/

/-- Hands a tracker from step to step. -/
def run (step : Tracker → α → Checked ε (β × Tracker)) :
    Tracker → List α → Checked ε (List β × Tracker)
  | t, [] => .ok ([], t)
  | t, a :: as => do
    let (b, t) ← step t a
    let (bs, t) ← run step t as
    return (b :: bs, t)

/-- **A run whose steps do not crash does not crash.** -/
theorem run_eq {step : Tracker → α → Checked ε (β × Tracker)}
    {plainStep : Tracker → α → Except ε (β × Tracker)}
    {plain : Tracker → List α → Except ε (List β × Tracker)}
    (nil : ∀ t, plain t [] = .ok ([], t))
    (cons : ∀ t a as, plain t (a :: as) =
      plainStep t a >>= fun r => plain r.2 as >>= fun rest => pure (r.1 :: rest.1, rest.2))
    (steps : ∀ t a, step t a = ofPlain (plainStep t a)) (t : Tracker) (as : List α) :
    run step t as = ofPlain (plain t as) := by
  induction as generalizing t with
  | nil => rw [run, nil, ofPlain_ok]
  | cons a as ih =>
    rw [run, cons, steps, ofPlain_bind]
    refine bind_congr ?_
    intro r
    rw [ofPlain_bind, ← ih]
    rfl

/-! ## Texts -/

/-- The first position of a line where a comment starts, or its end. -/
def commentStart : List Char → Nat
  | [] => 0
  | '/' :: '/' :: _ => 0
  | c :: cs => if c = '#' ∨ c = ';' then 0 else commentStart cs + 1

/-- A line up to its comment. -/
def dropComment (cs : List Char) : Checked ε (List Char) := slice cs 0 (commentStart cs)

theorem dropComment_eq (cs : List Char) :
    dropComment cs = (.ok (Source.dropComment cs) : Checked ε (List Char)) := by
  have cut : commentStart cs ≤ cs.length ∧ cs.take (commentStart cs) = Source.dropComment cs := by
    fun_induction commentStart cs with
    | case1 => exact ⟨Nat.le_refl _, rfl⟩
    | case2 cs => exact ⟨Nat.zero_le _, rfl⟩
    | case3 c cs slash marker =>
      rw [Source.dropComment, if_pos marker]
      · exact ⟨Nat.zero_le _, rfl⟩
      · exact slash
    | case4 c cs slash plain ih =>
      rw [Source.dropComment, if_neg plain, ← ih.2]
      · exact ⟨Nat.succ_le_succ ih.1, rfl⟩
      · exact slash
  rw [dropComment, slice_start cut.1, cut.2]

/-- A numeral after its sign. -/
def splitSign (cs : List Char) : Checked ε (Bool × List Char) :=
  if cs.head? = some '-' then (true, ·) <$> slice cs 1 cs.length
  else if cs.head? = some '+' then (false, ·) <$> slice cs 1 cs.length
  else .ok (false, cs)

theorem splitSign_eq (cs : List Char) :
    splitSign cs = (.ok (Number.splitSign cs) : Checked ε (Bool × List Char)) := by
  unfold Number.splitSign
  split
  · next rest =>
    rw [splitSign, List.head?_cons, if_pos rfl, slice_end (Nat.le_add_left _ _)]
    rfl
  · next rest =>
    rw [splitSign, List.head?_cons, if_neg (by decide), if_pos rfl, slice_end (Nat.le_add_left _ _)]
    rfl
  · next noMinus noPlus =>
    rw [splitSign, if_neg, if_neg]
    · intro plus
      obtain ⟨rest, rfl⟩ := List.head?_eq_some_iff.mp plus
      exact noPlus rest rfl
    · intro minus
      obtain ⟨rest, rfl⟩ := List.head?_eq_some_iff.mp minus
      exact noMinus rest rfl

/-- A numeral after the opening that announces its base. -/
def splitBase (cs : List Char) : Checked ε (Nat × List Char) :=
  if cs.take 2 = ['0', 'x'] ∨ cs.take 2 = ['0', 'X'] then (16, ·) <$> slice cs 2 cs.length
  else if cs.take 2 = ['0', 'b'] ∨ cs.take 2 = ['0', 'B'] then (2, ·) <$> slice cs 2 cs.length
  else .ok (10, cs)

theorem splitBase_eq (cs : List Char) :
    splitBase cs = (.ok (Number.splitBase cs) : Checked ε (Nat × List Char)) := by
  have inside (a b : Char) (rest : List Char) : 2 ≤ (a :: b :: rest).length :=
    Nat.le_add_left _ _
  unfold Number.splitBase
  split
  · rw [splitBase, if_pos (.inl rfl), slice_end (inside _ _ _)]
    rfl
  · rw [splitBase, if_pos (.inr rfl), slice_end (inside _ _ _)]
    rfl
  · rw [splitBase, if_neg (by simp), if_pos (.inl rfl), slice_end (inside _ _ _)]
    rfl
  · rw [splitBase, if_neg (by simp), if_pos (.inr rfl), slice_end (inside _ _ _)]
    rfl
  · next lowerX upperX lowerB upperB =>
    have shape {a b : Char} (start : cs.take 2 = [a, b]) : cs = a :: b :: cs.drop 2 := by
      conv_lhs => rw [← List.take_append_drop 2 cs, start]
      rfl
    rw [splitBase, if_neg, if_neg]
    · rintro (start | start)
      · exact lowerB _ (shape start)
      · exact upperB _ (shape start)
    · rintro (start | start)
      · exact lowerX _ (shape start)
      · exact upperX _ (shape start)

/-! ## Names -/

/-- The number in the plain name of a register. -/
def numbered? (file : RegisterFile) (name : List Char) : Checked ε (Option Nat) :=
  if name.head? ≠ some file.letter ∨ name.length = 1 then .ok none
  else do
    let digits ← slice name 1 name.length
    let padded ← if 1 < digits.length then (· == '0') <$> item digits 0 else pure false
    return if padded then none else (Text.readNat? 10 digits).filter (· < 32)

theorem numbered?_eq (file : RegisterFile) (name : List Char) :
    numbered? file name = (.ok (Register.numbered? file name) : Checked ε (Option Nat)) := by
  cases name with
  | nil => rfl
  | cons c digits =>
    by_cases letter : c = file.letter
    · subst letter
      rw [Register.numbered?, if_pos rfl, Register.ordinal?]
      match digits with
      | [] =>
        rw [numbered?, if_pos (.inr rfl)]
        rfl
      | [d] =>
        rw [numbered?, if_neg (by simp), slice_end (Nat.le_add_left _ _)]
        rfl
      | d :: e :: rest =>
        rw [numbered?, if_neg (by simp), slice_end (Nat.le_add_left _ _), ok_bind,
          List.drop_one, List.tail_cons, if_pos (by simp), item_eq List.getElem?_cons_zero]
        by_cases zero : d = '0'
        · rw [if_pos (by simp [zero]), zero]
          rfl
        · rw [if_neg (by simp [zero]), Except.map_ok, ok_bind, beq_false_of_ne zero]
          rfl
    · rw [numbered?, if_pos (.inl (by simpa using letter)), Register.numbered?, if_neg letter]

/-- The calling convention's name of an integer register. -/
def conventionName (r : Word) : Checked ε String := item Register.integerNames (r.toNat % 32)

theorem conventionName_eq (r : Word) :
    conventionName r = (.ok (Register.conventionName r) : Checked ε String) := by
  have inside : r.toNat % 32 < Register.integerNames.length := Nat.mod_lt _ (by decide)
  refine item_eq ?_
  rw [Register.conventionName, List.getD_eq_getElem _ _ inside, List.getElem?_eq_getElem inside]

/-- A list of the names of a table by their codes, with an empty text where there is no name. -/
def nameArray (table : List (Nat × String)) : List String :=
  (List.range ((table.map (·.1 + 1)).foldr max 0)).map fun n =>
    ((table.find? (·.1 = n)).map (·.2)).getD ""

theorem item_nameArray {table : List (Nat × String)} {n : Nat}
    (inside : n < (nameArray table).length) :
    item (nameArray table) n =
      (.ok (((table.find? (·.1 = n)).map (·.2)).getD "") : Checked ε String) := by
  refine item_eq ?_
  rw [nameArray, List.length_map, List.length_range] at inside
  rw [nameArray, List.getElem?_map, List.getElem?_range inside]
  rfl

theorem find?_nameArray {table : List (Nat × String)} {n : Nat}
    (outside : (nameArray table).length ≤ n) : table.find? (·.1 = n) = none := by
  rw [nameArray, List.length_map, List.length_range] at outside
  induction table with
  | nil => rfl
  | cons entry table ih =>
    rw [List.map_cons, List.foldr_cons, Nat.max_le] at outside
    rw [List.find?_cons_of_neg, ih outside.2]
    simp only [decide_eq_true_eq]
    omega

/-- The name of a rounding mode, empty if it has none. -/
def roundingName (mode : Word) : Checked ε String :=
  if mode.toNat < (nameArray RoundingMode.table).length then
    item (nameArray RoundingMode.table) mode.toNat
  else .ok ""

theorem roundingName_eq (mode : Word) :
    roundingName mode = (.ok ((RoundingMode.name? mode).getD "") : Checked ε String) := by
  unfold roundingName RoundingMode.name?
  split
  · next inside => exact item_nameArray inside
  · next outside => rw [find?_nameArray (Nat.not_lt.mp outside)]; rfl

/-- A vector type as text. -/
def vtypeText (v : Word) (base : NumberBase) : Checked ε String :=
  let width := v.toNat / 8 % 8
  if 256 ≤ v.toNat ∨ (nameArray VType.widths).length ≤ width then .ok (Number.text v.toNat base)
  else do
    let grouping ← item (nameArray VType.groupings) (v.toNat % 8)
    if grouping = "" then return Number.text v.toNat base
    let width ← item (nameArray VType.widths) width
    return ", ".intercalate [width, grouping, if v.toNat.testBit 6 then "ta" else "tu",
      if v.toNat.testBit 7 then "ma" else "mu"]

theorem vtypeText_eq (v : Word) (base : NumberBase) :
    vtypeText v base = (.ok (VType.text v base) : Checked ε String) := by
  -- The first four codes of widths have names; of the groupings, some code has none.
  have widths : ∀ n < 8, (VType.widths.find? (·.1 = n)).isSome = decide (n < 4) := by decide
  have named : ∀ entry ∈ VType.groupings, entry.2 ≠ "" := by decide
  have width := widths (v.toNat / 8 % 8) (Nat.mod_lt _ (by decide))
  have inside : v.toNat % 8 < (nameArray VType.groupings).length := Nat.mod_lt _ (by decide)
  have size : (nameArray VType.widths).length = 4 := rfl
  unfold vtypeText VType.text VType.elementTexts?
  dsimp only
  rw [size, item_nameArray inside, ok_bind]
  by_cases large : 256 ≤ v.toNat
  · rw [if_pos (.inl large), if_pos large]
    rfl
  rw [if_neg large]
  by_cases wide : 4 ≤ v.toNat / 8 % 8
  · have unnamed : VType.widths.find? (·.1 = v.toNat / 8 % 8) = none := by
      rw [decide_eq_false (Nat.not_lt.mpr wide)] at width
      exact Option.isNone_iff_eq_none.mp (by simpa using width)
    rw [if_pos (.inr wide), unnamed]
    rfl
  · rw [if_neg (by simp [large, wide]), item_nameArray (size ▸ Nat.not_le.mp wide), ok_bind]
    rw [decide_eq_true (Nat.not_le.mp wide)] at width
    obtain ⟨entry, found⟩ := Option.isSome_iff_exists.mp width
    rw [found]
    cases grouping : VType.groupings.find? (·.1 = v.toNat % 8) with
    | none => rfl
    | some entry' =>
      have name := named entry' (List.mem_of_find?_eq_some grouping)
      rw [Option.map_some, Option.getD_some, if_neg name]
      rfl

/-- The accesses that lean on nothing but the text or the number at hand do not crash. -/
structure LocalAccesses : Prop where
  comment : ∀ cs, dropComment cs = (.ok (Source.dropComment cs) : Checked Fault (List Char))
  sign : ∀ cs, splitSign cs = (.ok (Number.splitSign cs) : Checked Fault (Bool × List Char))
  base : ∀ cs, splitBase cs = (.ok (Number.splitBase cs) : Checked Fault (Nat × List Char))
  register : ∀ file name,
    numbered? file name = (.ok (Register.numbered? file name) : Checked Fault (Option Nat))
  registerName : ∀ r, conventionName r = (.ok (Register.conventionName r) : Checked Fault String)
  roundingName : ∀ mode,
    roundingName mode = (.ok ((RoundingMode.name? mode).getD "") : Checked Fault String)
  vtypeText : ∀ v base, vtypeText v base = (.ok (VType.text v base) : Checked Fault String)

theorem localAccesses : LocalAccesses :=
  ⟨dropComment_eq, splitSign_eq, splitBase_eq, numbered?_eq, conventionName_eq, roundingName_eq,
    vtypeText_eq⟩

end Checked

/-! ## The table -/

theorem Table.firstDuplicate?_eq_none {seen names : List String} (distinct : names.Nodup)
    (new : ∀ name ∈ names, name ∉ seen) : firstDuplicate? seen names = none := by
  induction names generalizing seen with
  | nil => rfl
  | cons name names ih =>
    obtain ⟨absent, distinct⟩ := List.nodup_cons.mp distinct
    have unseen : ¬ seen.contains name = true := by
      rw [List.contains_iff_mem]
      exact new name List.mem_cons_self
    rw [firstDuplicate?, if_neg unseen]
    refine ih distinct ?_
    intro other member before
    rcases List.mem_cons.mp before with rfl | earlier
    · exact absent member
    · exact new other (List.mem_cons_of_mem _ member) earlier

theorem Table.default_names_nodup : (default.instructions.map (·.name)).Nodup := by
  refine List.Nodup.map_on ?_ default_nodup
  intro i inTable j inTable' same
  exact eq_of_mem_mnemonics inTable inTable' (name_mem_mnemonics i) (same ▸ name_mem_mnemonics j)

namespace Checked

variable {ε : Type}

/-- The table of the instructions of several groups. -/
def tableOf (groups : List Group) : Checked ε Table :=
  match Table.ofGroups groups with
  | .ok t => .ok t
  | .error d => .error (.crash (.duplicateName d.name))

theorem tableOf_eq {groups : List Group} {t : Table}
    (listed : groups.flatMap (·.instructions) = t.instructions)
    (distinct : (t.instructions.map (·.name)).Nodup) :
    tableOf groups = (.ok t : Checked ε Table) := by
  have unseen : ∀ name ∈ t.instructions.map (·.name), name ∉ [] := by
    intro name _
    exact List.not_mem_nil
  rw [tableOf, Table.ofGroups, listed, Table.firstDuplicate?_eq_none distinct unseen]

theorem tableOf_groups : tableOf Catalogue.groups = (.ok Table.default : Checked ε Table) := by
  have listed : Catalogue.groups.flatMap (·.instructions) = Table.default.instructions := by
    rw [Table.default]
  exact tableOf_eq listed Table.default_names_nodup

end Checked

end RvCodec
