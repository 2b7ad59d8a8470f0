import RvCodec.Proofs.NumberGrammar

/-!
# The names of registers

A register has a plain name, its file's letter and its number, and for two of
the files a name of the calling convention; `fp` is one more name of `s0`
(`IsName`).  A text names a register when it is one of these names between
blanks, in letters of any case (`Names`).

The names of two files begin with the same letter: `fp` and `f8` differ in the
second one, and `ft0` and `fs1` are no numbers behind it.  The readers look the
name up first and then read it as a letter and a number.  Of the numerals they
take the canonical one alone, and so each of them finds exactly the registers
that the text names (`names_exact`).  No text names two of them, in one file or
in different ones: a name shows its file (`fileOf`).
-/

set_option autoImplicit false

namespace RvCodec

namespace Text

/-! ## Canonical numerals -/

theorem eq_digitChar_of_digitValue? {c : Char} {d : Nat} (value : digitValue? 10 c = some d) :
    c = d.digitChar := by
  have same : ∀ d < 10, d.digitChar.toUpper = d.digitChar := by decide
  obtain ⟨small, rfl | rfl⟩ := (digitValue?_eq_some (by decide)).mp value
  · rfl
  · exact same d small

/-- Digits that are read after a number continue its numeral. -/
theorem toDigits_append_of_readDigits {acc n : Nat} {ds : List Char} (begun : 0 < acc)
    (read : readDigits 10 acc ds = some n) : Nat.toDigits 10 acc ++ ds = Nat.toDigits 10 n := by
  induction ds generalizing acc with
  | nil =>
    obtain rfl := Option.some.inj read
    exact List.append_nil _
  | cons c ds ih =>
    rw [readDigits] at read
    split at read
    · next d value =>
      have small := digitValue?_lt value
      have digit : Nat.toDigits 10 d = [c] := by
        rw [Nat.toDigits_of_lt_base small, eq_digitChar_of_digitValue? value]
      calc Nat.toDigits 10 acc ++ c :: ds
          = (Nat.toDigits 10 acc ++ Nat.toDigits 10 d) ++ ds := by rw [digit]; simp
        _ = Nat.toDigits 10 (acc * 10 + d) ++ ds := by
            rw [Nat.toDigits_append_toDigits (by decide) begun small, Nat.mul_comm]
        _ = Nat.toDigits 10 n := ih (by omega) read
    · cases read

/-- The numeral of a number begins with a zero only if the number is zero. -/
theorem exists_toDigits_eq_cons (n : Nat) :
    ∃ c cs, Nat.toDigits 10 n = c :: cs ∧ (c = '0' → n = 0) := by
  refine toDigits_induction (motive := fun n ds => ∃ c cs, ds = c :: cs ∧ (c = '0' → n = 0))
    (by decide) ?_ ?_ n
  · intro d _
    exact ⟨d.digitChar, [], rfl, Nat.digitChar_eq_zero.mp⟩
  · rintro n large _ ⟨c, cs, rfl, zero⟩
    refine ⟨c, cs ++ [(n % 10).digitChar], rfl, fun begins => ?_⟩
    have := zero begins
    omega

/-- **Without a superfluous zero, only the numeral of a number is read as the number.** -/
theorem readNat?_canonical {ds : List Char} {n : Nat} :
    ¬ (1 < ds.length ∧ ds.head? = some '0') ∧ readNat? 10 ds = some n ↔ ds = Nat.toDigits 10 n := by
  constructor
  · rintro ⟨canonical, read⟩
    obtain ⟨nonempty, digits⟩ := readNat?_eq_some.mp read
    obtain ⟨c, cs, rfl⟩ := List.exists_cons_of_ne_nil nonempty
    rw [readDigits] at digits
    split at digits
    · next d value =>
      obtain rfl := eq_digitChar_of_digitValue? value
      have first := Nat.toDigits_of_lt_base (digitValue?_lt value)
      rw [Nat.zero_mul, Nat.zero_add] at digits
      obtain rfl | positive := Nat.eq_zero_or_pos d
      · obtain rfl : cs = [] := by simpa using canonical
        obtain rfl := Option.some.inj digits
        exact first.symm
      · have whole := toDigits_append_of_readDigits positive digits
        rwa [first] at whole
    · cases digits
  · rintro rfl
    refine ⟨?_, readNat?_toDigits (by decide) (by decide) n⟩
    rintro ⟨long, zero⟩
    obtain ⟨c, cs, shape, only⟩ := exists_toDigits_eq_cons n
    rw [shape] at zero
    obtain rfl := only (Option.some.inj zero)
    simp at long

end Text

namespace Register

open Text

/-! ## Names -/

/-- The calling convention's names of a file, in order. -/
def conventionNames : RegisterFile → List String
  | .integer => integerNames
  | .float => floatNames
  | .vector => []

/-- The names of a register, in small letters. -/
inductive IsName : RegisterFile → String → Nat → Prop
  | plain {file : RegisterFile} {r : Nat} (bound : r < 32) :
    IsName file (file.letter.toString ++ numeral 10 r) r
  | convention {file : RegisterFile} {name : String} {r : Nat}
    (listed : (conventionNames file)[r]? = some name) : IsName file name r
  | framePointer : IsName .integer "fp" 8

/-- The text names the register: blanks at the ends and the case of its letters aside, it is one of
the register's names. -/
def Names (file : RegisterFile) (text : String) (r : Nat) : Prop :=
  ∃ core, Trims text.toList core ∧ IsName file (lower (String.ofList core)) r

theorem names_iff {file : RegisterFile} {text : String} {r : Nat} :
    Names file text r ↔ IsName file (lower (trim text)) r := by
  constructor
  · rintro ⟨core, trims, name⟩
    rwa [trims_iff.mp trims] at name
  · exact fun name => ⟨_, trims_iff.mpr rfl, name⟩

/-! ## Looking names up -/

section

variable {file : RegisterFile} {name : String} {r : Nat}

theorem conventionNames_nodup (file : RegisterFile) : (conventionNames file).Nodup := by
  cases file <;> decide

theorem idxOf?_conventionNames :
    (conventionNames file).idxOf? name = some r ↔ (conventionNames file)[r]? = some name := by
  rw [List.idxOf?_eq_some_iff, List.getElem?_eq_some_iff]
  refine exists_congr fun inside => and_iff_left_of_imp ?_
  rintro rfl j earlier same
  exact earlier.ne ((conventionNames_nodup file).getElem_inj_iff.mp same)

theorem named?_eq_some : named? file name = some r ↔
    (conventionNames file)[r]? = some name ∨ file = .integer ∧ name = "fp" ∧ r = 8 := by
  rw [← idxOf?_conventionNames]
  cases file with
  | integer =>
    have unlisted : (conventionNames .integer).idxOf? "fp" = none := by decide
    rw [named?]
    split
    · next second =>
      rw [second, unlisted]
      simp [eq_comm]
    · next other => simp [other, conventionNames]
  | float => simp [named?, conventionNames]
  | vector => simp [named?, conventionNames]

theorem ordinal?_eq_some {digits : List Char} :
    ordinal? digits = some r ↔ r < 32 ∧ digits = Nat.toDigits 10 r := by
  rw [ordinal?, ← readNat?_canonical]
  split
  · next superfluous => simp [superfluous]
  · next canonical => simp [canonical, Option.filter_eq_some_iff, and_comm]

theorem toList_plain (file : RegisterFile) (r : Nat) :
    (file.letter.toString ++ numeral 10 r).toList = file.letter :: Nat.toDigits 10 r := by
  simp [numeral]

theorem numbered?_eq_some : numbered? file name.toList = some r ↔
    r < 32 ∧ name = file.letter.toString ++ numeral 10 r := by
  rw [← String.toList_inj, toList_plain]
  cases name.toList with
  | nil => simp [numbered?]
  | cons c digits =>
    rw [numbered?, List.cons.injEq]
    split
    · next letter => rw [ordinal?_eq_some, and_iff_right letter]
    · next other => simp [other]

theorem toNat_ofNat_of_lt (bound : r < 32) : (BitVec.ofNat 32 r).toNat = r := by
  rw [BitVec.toNat_ofNat]
  omega

/-- **Exactly the names of a register are found.** -/
theorem find?_eq_some_iff : find? file name = some r ↔ IsName file name r := by
  constructor
  · intro found
    obtain named | ⟨-, numbered⟩ := Option.or_eq_some_iff.mp found
    · obtain listed | ⟨rfl, rfl, rfl⟩ := named?_eq_some.mp named
      · exact .convention listed
      · exact .framePointer
    · obtain ⟨bound, rfl⟩ := numbered?_eq_some.mp numbered
      exact .plain bound
  · intro isName
    cases isName with
    | plain bound =>
      have word := toNat_ofNat_of_lt bound
      have found := find?_text file (r := BitVec.ofNat 32 r) (by rwa [word])
      rwa [text, word, Nat.mod_eq_of_lt bound] at found
    | convention listed => exact Option.or_eq_some_iff.mpr (.inl (named?_eq_some.mpr (.inl listed)))
    | framePointer => rfl

/-- The file that a name shows.  Only `fp` begins with the letter of another file than its own. -/
def fileOf : List Char → RegisterFile
  | 'v' :: _ => .vector
  | ['f', 'p'] => .integer
  | 'f' :: _ => .float
  | _ => .integer

theorem IsName.file_eq (isName : IsName file name r) : file = fileOf name.toList := by
  cases isName with
  | plain bound =>
    rw [toList_plain]
    cases file with
    | integer => rfl
    | float =>
      -- The second letter of `fp` is no digit, so `fp` is not the plain name of a register.
      have digits : Nat.toDigits 10 r ≠ ['p'] := by
        intro letter
        have digit : 'p'.isDigit = true := Nat.isDigit_of_mem_toDigits (b := 10) (n := r)
          (by decide) (by decide) (by rw [letter]; exact List.mem_singleton_self _)
        cases digit
      simp only [RegisterFile.letter, fileOf]
    | vector => rfl
  | convention listed =>
    have shown : ∀ name ∈ conventionNames file, file = fileOf name.toList := by
      cases file <;> decide
    exact shown name (List.mem_of_getElem? listed)
  | framePointer => rfl

/-- A name stands for one register. -/
theorem IsName.unique {file' : RegisterFile} {r' : Nat} (first : IsName file name r)
    (second : IsName file' name r') : file = file' ∧ r = r' := by
  obtain rfl : file = file' := first.file_eq.trans second.file_eq.symm
  have found := find?_eq_some_iff.mpr first
  rw [find?_eq_some_iff.mpr second] at found
  exact ⟨rfl, (Option.some.inj found).symm⟩

end

/-! ## Reading -/

/-- The outcome is the register that the condition holds of, and an invalid register if there is
none. -/
structure Finds (outcome : Except Fault Word) (found : Nat → Prop) : Prop where
  ok_iff : ∀ r, outcome = .ok r ↔ found r.toNat
  kind_of_error : ∀ fault, outcome = .error fault → fault.kind = .invalidRegister

theorem finds_parse (file : RegisterFile) (text : String) :
    Finds (parse file text) (Names file text) where
  ok_iff r := by
    rw [names_iff, ← find?_eq_some_iff, parse]
    split
    · next n found =>
      have bound := find?_lt found
      rw [found, Except.ok.injEq, Option.some.injEq, ← BitVec.toNat_inj, BitVec.toNat_ofNat,
        Nat.mod_eq_of_lt (by omega)]
    · next absent => simp [absent]
  kind_of_error fault failed := by
    unfold parse at failed
    split at failed <;> cases failed
    rfl

/-- The embedded variant has the first sixteen registers. -/
theorem finds_parseInteger (embedded : Bool) (text : String) :
    Finds (parseInteger embedded text)
      (fun r => Names .integer text r ∧ (embedded = true → r ≤ 15)) where
  ok_iff r := by
    rw [parseInteger_eq_ok, (finds_parse .integer text).ok_iff, Nat.lt_succ_iff]
  kind_of_error fault failed := by
    obtain unknown | ⟨r, -, absent⟩ := Outcome.bind_eq_error.mp failed
    · exact (finds_parse .integer text).kind_of_error fault unknown
    · dsimp only at absent
      split at absent <;> cases absent
      rfl

theorem eq_sub_eight_iff {r v : Word} (long : 8 ≤ r.toNat) :
    v = r - 8 ↔ v.toNat = r.toNat - 8 := by
  have apart : (r - 8).toNat = r.toNat - 8 := BitVec.toNat_sub_of_le long
  rw [← BitVec.toNat_inj, apart]

/-- The short form is that of the registers from 8 to 15. -/
theorem Finds.shorten {outcome : Except Fault Word} {found : Nat → Prop}
    (finds : Finds outcome found) (file : RegisterFile) (text : String) :
    Finds (outcome >>= Register.shorten file text)
      (fun v => ∃ r, found r ∧ (8 ≤ r ∧ r ≤ 15) ∧ v = r - 8) where
  ok_iff v := by
    rw [Outcome.bind_eq_ok]
    constructor
    · rintro ⟨r, read, shortened⟩
      obtain ⟨short, value⟩ := shorten_eq_ok.mp shortened
      exact ⟨r.toNat, (finds.ok_iff r).mp read, short, (eq_sub_eight_iff short.1).mp value⟩
    · rintro ⟨r, holds, short, value⟩
      have word := toNat_ofNat_of_lt (r := r) (by omega)
      rw [← word] at holds short value
      exact ⟨_, (finds.ok_iff _).mpr holds,
        shorten_eq_ok.mpr ⟨short, (eq_sub_eight_iff short.1).mpr value⟩⟩
  kind_of_error fault failed := by
    obtain earlier | ⟨r, -, long⟩ := Outcome.bind_eq_error.mp failed
    · exact finds.kind_of_error fault earlier
    · unfold Register.shorten at long
      split at long <;> cases long
      rfl

/-- The short registers exist in every variant. -/
theorem finds_parseShortInteger (embedded : Bool) (text : String) :
    Finds (parseShortInteger embedded text)
      (fun v => ∃ r, Names .integer text r ∧ (8 ≤ r ∧ r ≤ 15) ∧ v = r - 8) := by
  have finds := (finds_parseInteger embedded text).shorten .integer text
  refine ⟨fun v => (finds.ok_iff v).trans (exists_congr fun r => ?_), finds.kind_of_error⟩
  rw [and_assoc]
  refine and_congr_right fun _ => and_iff_right_of_imp ?_
  rintro ⟨⟨-, bound⟩, -⟩ -
  exact bound

/-- **Registers are read by exactly their names.**  A reader finds a register if and only if the
text names it and the variant in use, or the field, has it; any other text is an invalid register.
No text names two registers. -/
theorem names_exact (text : String) (embedded : Bool) :
    Finds (parseInteger embedded text)
      (fun r => Names .integer text r ∧ (embedded = true → r ≤ 15)) ∧
    Finds (parse .float text) (Names .float text) ∧
    Finds (parse .vector text) (Names .vector text) ∧
    Finds (parseShortInteger embedded text)
      (fun v => ∃ r, Names .integer text r ∧ (8 ≤ r ∧ r ≤ 15) ∧ v = r - 8) ∧
    Finds (parseShortFloat text)
      (fun v => ∃ r, Names .float text r ∧ (8 ≤ r ∧ r ≤ 15) ∧ v = r - 8) ∧
    ∀ file file' r r', Names file text r → Names file' text r' → file = file' ∧ r = r' := by
  refine ⟨finds_parseInteger embedded text, finds_parse .float text, finds_parse .vector text,
    finds_parseShortInteger embedded text, (finds_parse .float text).shorten .float text, ?_⟩
  intro file file' r r' first second
  exact (names_iff.mp first).unique (names_iff.mp second)

example : parseInteger true " FP\n" = .ok 8 ∧ parse .float "fs10" = .ok 26 ∧
    parseInteger false "x08" = .error (.unknownRegister .integer "x08") := by
  decide

end Register

end RvCodec
