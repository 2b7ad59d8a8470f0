import RvCodec.Options
import RvCodec.Proofs.Immediates
import RvCodec.Proofs.Numerals
import RvCodec.Proofs.Operands
import RvCodec.Proofs.Outcomes
import RvCodec.Pseudo
import RvCodec.Register
import RvCodec.Symbol
import RvCodec.VType

/-!
# Spellings of operands

Every kind of operand has a way to be written and a way to be read.  Two facts
about each kind are collected here: whatever is read fits the operand's field,
and what is written for a value that fits reads back as the value.

The names of registers and modes come from short lists.  Statements about them
are checked entry by entry and then lifted to all the values.
-/

set_option autoImplicit false

namespace RvCodec

open Text

/-! ## Registers -/

namespace Register

variable {file : RegisterFile}

theorem find?_lt {name : String} {n : Nat} (found : find? file name = some n) : n < 32 := by
  obtain named | ⟨-, numbered⟩ := Option.or_eq_some_iff.mp found
  · cases file with
    | integer =>
      rw [named?] at named
      split at named
      · cases named
        decide
      · obtain ⟨inside, -⟩ := List.idxOf?_eq_some_iff.mp named
        exact inside
    | float =>
      obtain ⟨inside, -⟩ := List.idxOf?_eq_some_iff.mp named
      exact inside
    | vector => cases named
  · unfold numbered? at numbered
    split at numbered
    · split at numbered
      · unfold ordinal? at numbered
        split at numbered
        · cases numbered
        · simpa using (Option.filter_eq_some_iff.mp numbered).2
      · cases numbered
    · cases numbered

theorem parse_lt {s : String} {r : Word} (parsed : parse file s = .ok r) : r.toNat < 32 := by
  unfold parse at parsed
  split at parsed
  · next n found =>
    cases parsed
    have bound := find?_lt found
    rw [BitVec.toNat_ofNat]
    omega
  · cases parsed

theorem parseInteger_eq_ok {embedded : Bool} {s : String} {r : Word} :
    parseInteger embedded s = .ok r ↔
      parse .integer s = .ok r ∧ (embedded = true → r.toNat < 16) := by
  simp only [parseInteger, Outcome.bind_eq_ok, Outcome.guard_eq_ok, Outcome.pure_eq_ok,
    Bool.and_eq_true, decide_eq_true_eq, BitVec.lt_def]
  constructor
  · rintro ⟨_, parsed, allowed, rfl⟩
    exact ⟨parsed, fun on => by simpa [on, Nat.lt_succ_iff] using allowed⟩
  · rintro ⟨parsed, allowed⟩
    refine ⟨r, parsed, ?_, rfl⟩
    rintro ⟨on, beyond⟩
    have := allowed on
    simp at beyond
    omega

theorem hasRegister_of_parse {opts : Options} {s : String} {r : Word}
    (parsed : parseInteger opts.embedded s = .ok r) : opts.HasRegister r := by
  obtain ⟨read, allowed⟩ := parseInteger_eq_ok.mp parsed
  unfold Options.HasRegister
  split
  · next on => exact allowed on
  · exact parse_lt read

theorem shorten_eq_ok {s : String} {r v : Word} :
    shorten file s r = .ok v ↔ (8 ≤ r.toNat ∧ r.toNat ≤ 15) ∧ v = r - 8 := by
  unfold shorten
  split
  · next inside => simpa [BitVec.le_def, eq_comm] using fun _ => inside
  · next outside =>
    constructor
    · intro impossible
      cases impossible
    · rintro ⟨inside, -⟩
      exact absurd inside outside

theorem shorten_lt {s : String} {r v : Word} (shortened : shorten file s r = .ok v) :
    v.toNat < 8 := by
  obtain ⟨⟨above, below⟩, rfl⟩ := shorten_eq_ok.mp shortened
  rw [BitVec.toNat_sub_of_le (by rw [BitVec.le_def]; exact above)]
  simp
  omega

theorem toNat_lengthen {v : Word} (short : v.toNat < 8) : (lengthen v).toNat = v.toNat + 8 := by
  have low : (v &&& 7).toNat = v.toNat := by
    rw [BitVec.toNat_and]
    exact (Nat.and_two_pow_sub_one_eq_mod _ 3).trans (Nat.mod_eq_of_lt short)
  rw [lengthen, BitVec.toNat_add, low]
  simp
  omega

theorem shorten_lengthen {v : Word} (short : v.toNat < 8) (s : String) :
    shorten file s (lengthen v) = .ok v := by
  have long := toNat_lengthen short
  refine shorten_eq_ok.mpr ⟨by omega, ?_⟩
  apply BitVec.eq_of_toNat_eq
  rw [BitVec.toNat_sub_of_le (by rw [BitVec.le_def, long]; simp)]
  simp [long]

/-- The plain names are found. -/
theorem find?_text (file : RegisterFile) {r : Word} (bound : r.toNat < 32) :
    find? file (text file r) = some r.toNat := by
  have names : ∀ n < 32, find? file (text file (BitVec.ofNat 32 n)) = some n := by
    cases file <;> decide +kernel
  have name := names r.toNat bound
  rwa [BitVec.ofNat_toNat, BitVec.setWidth_eq] at name

theorem char_of_mem_text {r : Word} {c : Char} (member : c ∈ (text file r).toList) :
    isTokenChar c = true ∧ c ≠ '(' ∧ c ≠ ')' := by
  rw [text, String.toList_append, List.mem_append] at member
  obtain letter | digit := member
  · obtain rfl : c = file.letter := by simpa using letter
    cases file <;> decide
  · have char := isNumberChar_of_mem_numeral (by decide) (by decide) digit
    exact ⟨char.isTokenChar, char.not_paren⟩

theorem isToken_text (file : RegisterFile) (r : Word) : IsToken (text file r) := by
  refine .of_chars ?_ fun c member => (char_of_mem_text member).1
  simp [text, numeral]

/-- **Registers read back.** -/
theorem parse_text (file : RegisterFile) {r : Word} (bound : r.toNat < 32) :
    parse file (text file r) = .ok r := by
  have token := isToken_text file r
  rw [parse, Text.trim, token.trimBlank, String.ofList_toList, token.lower, find?_text file bound]
  simp

theorem parseInteger_text {opts : Options} {r : Word} (has : opts.HasRegister r) :
    parseInteger opts.embedded (text .integer r) = .ok r := by
  refine parseInteger_eq_ok.mpr ⟨parse_text .integer has.lt, fun on => ?_⟩
  simpa [Options.HasRegister, on] using has

/-- The short registers exist in every variant. -/
theorem hasRegister_lengthen (opts : Options) {v : Word} (short : v.toNat < 8) :
    opts.HasRegister (lengthen v) := by
  unfold Options.HasRegister
  rw [toNat_lengthen short]
  split <;> omega

theorem parseShortInteger_text (opts : Options) {v : Word} (short : v.toNat < 8) :
    parseShortInteger opts.embedded (text .integer (lengthen v)) = .ok v := by
  rw [parseShortInteger, parseInteger_text (hasRegister_lengthen opts short)]
  exact shorten_lengthen short _

theorem parseShortFloat_text {v : Word} (short : v.toNat < 8) :
    parseShortFloat (text .float (lengthen v)) = .ok v := by
  have long := toNat_lengthen short
  rw [parseShortFloat, parse_text .float (by omega)]
  exact shorten_lengthen short _

end Register

/-! ## Numbers in fields -/

/-- A number in an unsigned field is a word of that size. -/
theorem Word.toNat_ofInt_lt {bits : Nat} (bounded : bits ≤ 32) {v : Int}
    (holds : (⟨bits, true⟩ : ImmRange).contains v = true) : (Word.ofInt v).toNat < 2 ^ bits := by
  obtain ⟨lower, upper⟩ := (ImmRange.contains_unsigned rfl (by dsimp only; omega) v).mp holds
  dsimp only at upper
  have wraps : (2 ^ bits : Int) ≤ 2 ^ 32 := by
    exact_mod_cast Nat.pow_le_pow_right (by decide : 0 < 2) bounded
  have number := Word.toNat_ofInt v
  rw [Int.emod_eq_of_lt lower (by omega)] at number
  have below : ((Word.ofInt v).toNat : Int) < 2 ^ bits := by omega
  exact_mod_cast below

/-- The number of a word in an unsigned field fits the field. -/
theorem ImmRange.contains_toNat {bits : Nat} (bounded : bits < 64) {w : Word}
    (small : w.toNat < 2 ^ bits) : (⟨bits, true⟩ : ImmRange).contains w.toNat = true := by
  refine (contains_unsigned rfl bounded _).mpr ⟨Int.natCast_nonneg _, ?_⟩
  exact_mod_cast small

namespace Number

theorem check_eq_ok {v : Int} {range : ImmRange} {u : Unit} :
    check v range = .ok u ↔ range.contains v = true := by
  unfold check
  split <;> simp_all

theorem parseIn_eq_ok {s : String} {range : ImmRange} {v : Int} :
    parseIn s range = .ok v ↔ parse s = .ok v ∧ range.contains v = true := by
  simp only [parseIn, Outcome.bind_eq_ok, Outcome.pure_eq_ok, check_eq_ok]
  constructor
  · rintro ⟨_, parsed, _, holds, rfl⟩
    exact ⟨parsed, holds⟩
  · rintro ⟨parsed, holds⟩
    exact ⟨v, parsed, (), holds, rfl⟩

/-- The number of a word reads back. -/
theorem parse_word (w : Word) (base : NumberBase) : parse (text w.toNat base) = .ok w.toNat := by
  have bound := w.isLt
  exact parse_text (by omega) (by omega) base

end Number

/-! ## Control registers -/

namespace Csr

theorem parse_lt {s : String} {n : Word} (parsed : parse s = .ok n) : n.toNat < 4096 := by
  unfold parse at parsed
  split at parsed
  · next number found =>
    cases parsed
    obtain ⟨entry, listed, rfl⟩ := Option.map_eq_some_iff.mp found
    have bound : ∀ entry ∈ table, entry.1 < 4096 := by decide
    have small := bound entry (List.mem_of_find?_eq_some listed)
    rw [BitVec.toNat_ofNat]
    omega
  · split at parsed
    · cases parsed
    · next v _ =>
      simp only [Outcome.bind_eq_ok, Outcome.pure_eq_ok, Number.check_eq_ok] at parsed
      obtain ⟨_, holds, rfl⟩ := parsed
      exact Word.toNat_ofInt_lt (by decide) holds

/-- Every name of the table names its number, is no number itself and is made of the bytes of a
token. -/
theorem table_names : ∀ entry ∈ table, number? entry.2 = some entry.1 ∧
    (Number.parse entry.2).toOption = none ∧ entry.2.toByteArray.data.toList ≠ [] ∧
    entry.2.toByteArray.data.toList.all (isTokenCode ·.toNat) = true := by
  decide +kernel

theorem number?_eq_none {s : String} {v : Int} (parsed : Number.parse s = .ok v) :
    number? s = none := by
  rw [number?, Option.map_eq_none_iff, List.find?_eq_none]
  intro entry member same
  have refused := (table_names entry member).2.1
  rw [of_decide_eq_true same, parsed] at refused
  cases refused

theorem isToken_of_mem {entry : Nat × String} (member : entry ∈ table) : IsToken entry.2 := by
  obtain ⟨-, -, nonempty, bytes⟩ := table_names entry member
  exact .of_bytes nonempty bytes

theorem text_cases (n : Word) (base : NumberBase) :
    (∃ entry ∈ table, entry.1 = n.toNat ∧ text n base = entry.2) ∨
      text n base = Number.text n.toNat base := by
  unfold text
  cases named : name? n.toNat with
  | none => exact .inr rfl
  | some name =>
    obtain ⟨entry, found, rfl⟩ := Option.map_eq_some_iff.mp named
    have number : entry.1 = n.toNat := by simpa using List.find?_some found
    exact .inl ⟨entry, List.mem_of_find?_eq_some found, number, rfl⟩

theorem isToken_text (n : Word) (base : NumberBase) : IsToken (text n base) := by
  obtain ⟨entry, member, -, same⟩ | same := text_cases n base
  · rw [same]
    exact isToken_of_mem member
  · rw [same]
    exact Number.isToken_text _ base

/-- **Control registers read back**, by name or by number. -/
theorem parse_text {n : Word} (bound : n.toNat < 4096) (base : NumberBase) :
    parse (text n base) = .ok n := by
  have token := isToken_text n base
  rw [parse, token.lower]
  obtain ⟨entry, member, number, same⟩ | same := text_cases n base
  · rw [same, (table_names entry member).1, number]
    simp
  · have parsed := Number.parse_word n base
    rw [same, number?_eq_none parsed, parsed]
    simp only [Outcome.bind_eq_ok, Outcome.pure_eq_ok, Number.check_eq_ok, Word.ofInt_toNat]
    exact ⟨(), ImmRange.contains_toNat (by decide) bound, trivial⟩

end Csr

/-! ## Fence sets -/

namespace FenceSet

theorem addLetters_lt {cs : List Char} {set result : Word} (small : set.toNat < 16)
    (added : addLetters set cs = some result) : result.toNat < 16 := by
  induction cs generalizing set with
  | nil =>
    cases added
    exact small
  | cons c cs ih =>
    unfold addLetters at added
    split at added
    · next bit found =>
      split at added
      · obtain ⟨letter, listed, rfl⟩ := Option.map_eq_some_iff.mp found
        have bound : ∀ letter ∈ letters, letter.2.toNat < 16 := by decide
        have bit := bound letter (List.mem_of_find?_eq_some listed)
        exact ih (by rw [BitVec.toNat_or]; exact Nat.or_lt_two_pow (n := 4) small bit) added
      · cases added
    · cases added

theorem parse_lt {s : String} {set : Word} (parsed : parse s = .ok set) : set.toNat < 16 := by
  unfold parse at parsed
  dsimp only at parsed
  split at parsed
  · cases parsed
    decide
  · split at parsed
    · next result added =>
      split at parsed
      · cases parsed
      · cases parsed
        exact addLetters_lt (by decide) added
    · cases parsed

/-- **Fence sets read back.** -/
theorem parse_text {set : Word} (small : set.toNat < 16) :
    IsToken (text set) ∧ parse (text set) = .ok set := by
  have sets : ∀ n < 16, IsToken (text (BitVec.ofNat 32 n)) ∧
      (parse (text (BitVec.ofNat 32 n))).toOption = some (BitVec.ofNat 32 n) := by
    decide +kernel
  obtain ⟨token, read⟩ := sets set.toNat small
  rw [BitVec.ofNat_toNat, BitVec.setWidth_eq] at token read
  exact ⟨token, Outcome.eq_ok_of_toOption read⟩

end FenceSet

/-! ## Rounding modes -/

namespace RoundingMode

/-- Every mode of the table has a name, which is a token and names the mode. -/
theorem table_names : ∀ entry ∈ table, (name? (BitVec.ofNat 32 entry.1)).isSome = true ∧
    IsToken entry.2 ∧ (parse entry.2).toOption = some (BitVec.ofNat 32 entry.1) := by
  decide +kernel

theorem isSome_of_parse {s : String} {mode : Word} (parsed : parse s = .ok mode) :
    (name? mode).isSome = true := by
  unfold parse at parsed
  split at parsed
  · next number name found =>
    cases parsed
    exact (table_names _ (List.mem_of_find?_eq_some found)).1
  · cases parsed

/-- **Rounding modes read back.** -/
theorem parse_name {mode : Word} {name : String} (named : name? mode = some name) :
    IsToken name ∧ parse name = .ok mode := by
  obtain ⟨entry, found, rfl⟩ := Option.map_eq_some_iff.mp named
  have member := List.mem_of_find?_eq_some found
  have number : entry.1 = mode.toNat := by simpa using List.find?_some found
  obtain ⟨-, token, read⟩ := table_names entry member
  rw [number, BitVec.ofNat_toNat, BitVec.setWidth_eq] at read
  exact ⟨token, Outcome.eq_ok_of_toOption read⟩

end RoundingMode

/-! ## Vector types -/

namespace VType

/-- The codes of the elements fit their fields. -/
def Draft.Bounded (d : Draft) : Prop := (∀ width ∈ d.width, width < 4) ∧ d.grouping < 8

theorem Draft.Bounded.value_lt {d : Draft} (bounded : d.Bounded) {width : Nat}
    (settled : d.width = some width) : (d.value width).toNat < 256 := by
  have widthBound : width * 8 < 2 ^ 8 := by have := bounded.1 width settled; omega
  have groupingBound : d.grouping < 2 ^ 8 := by have := bounded.2; omega
  have tail : (if d.tail = some true then 0x40 else 0 : Word).toNat < 2 ^ 8 := by split <;> decide
  have mask : (if d.mask = some true then 0x80 else 0 : Word).toNat < 2 ^ 8 := by split <;> decide
  simp only [value, BitVec.toNat_or, BitVec.toNat_ofNat]
  refine Nat.or_lt_two_pow (Nat.or_lt_two_pow (Nat.or_lt_two_pow tail mask) ?_) ?_ <;> omega

theorem element?_width {name : String} {code : Nat} (found : element? name = some (.width code)) :
    code < 4 := by
  have bound : ∀ entry ∈ widths, entry.1 < 4 := by decide
  unfold element? at found
  split at found
  · next listed =>
    cases found
    exact bound _ (List.mem_of_find?_eq_some listed)
  · grind

theorem element?_grouping {name : String} {code : Nat}
    (found : element? name = some (.grouping code)) : code < 8 := by
  have bound : ∀ entry ∈ groupings, entry.1 < 8 := by decide
  unfold element? at found
  split at found
  · cases found
  · split at found
    · next listed =>
      cases found
      exact bound _ (List.mem_of_find?_eq_some listed)
    · grind

theorem Draft.Bounded.add {d d' : Draft} {name : String} {element : Element} (bounded : d.Bounded)
    (found : element? name = some element) (added : d.add element = some d') : d'.Bounded := by
  cases element with
  | width code =>
    rw [Draft.add] at added
    split at added
    · cases added
      exact ⟨by simpa using element?_width found, bounded.2⟩
    · cases added
  | grouping code =>
    cases added
    exact ⟨bounded.1, element?_grouping found⟩
  | tail agnostic =>
    rw [Draft.add] at added
    split at added
    · cases added
      exact bounded
    · cases added
  | mask agnostic =>
    rw [Draft.add] at added
    split at added
    · cases added
      exact bounded
    · cases added

theorem Draft.Bounded.readElements {d d' : Draft} {names : List String} (bounded : d.Bounded)
    (read : readElements d names = .ok d') : d'.Bounded := by
  induction names generalizing d with
  | nil =>
    cases read
    exact bounded
  | cons name names ih =>
    unfold VType.readElements at read
    split at read
    · next added =>
      obtain ⟨element, found, taken⟩ := Option.bind_eq_some_iff.mp added
      exact ih (bounded.add found taken) read
    · cases read

theorem parseElements_lt {names : List String} {v : Word} (parsed : parseElements names = .ok v) :
    v.toNat < 256 := by
  obtain ⟨d, read, finished⟩ := Outcome.bind_eq_ok.mp parsed
  have start : ({} : Draft).Bounded := ⟨by simp, by decide⟩
  have bounded := start.readElements read
  split at finished
  · next width settled =>
    obtain rfl := Outcome.pure_eq_ok.mp finished
    exact bounded.value_lt settled
  · cases finished

theorem parse_lt {names : List String} {bits : Nat} {v : Word} (wide : 8 ≤ bits)
    (bounded : bits ≤ 32) (parsed : parse names bits = .ok v) : v.toNat < 2 ^ bits := by
  have wider : 2 ^ 8 ≤ 2 ^ bits := Nat.pow_le_pow_right (by decide) wide
  unfold parse at parsed
  split at parsed
  · cases parsed
  · split at parsed
    · simp only [Outcome.bind_eq_ok, Outcome.pure_eq_ok, Number.check_eq_ok] at parsed
      obtain ⟨_, holds, rfl⟩ := parsed
      exact Word.toNat_ofInt_lt bounded holds
    · exact Nat.lt_of_lt_of_le (parseElements_lt parsed) wider
  · exact Nat.lt_of_lt_of_le (parseElements_lt parsed) wider

/-! The names of the elements are read one by one. -/

/-- The name is a token and names the element. -/
def Names (name : String) (element : Element) : Prop := IsToken name ∧ element? name = some element

instance (name : String) (element : Element) : Decidable (Names name element) :=
  inferInstanceAs (Decidable (IsToken name ∧ element? name = some element))

/-- Every element is written with its name. -/
theorem elements_names :
    (∀ entry ∈ widths, Names entry.2 (.width entry.1)) ∧
    (∀ entry ∈ groupings, Names entry.2 (.grouping entry.1)) ∧
    (∀ agnostic, Names (if agnostic then "ta" else "tu") (.tail agnostic)) ∧
    ∀ agnostic, Names (if agnostic then "ma" else "mu") (.mask agnostic) := by
  decide +kernel

theorem Names.readElements {name : String} {element : Element} (named : Names name element)
    {d d' : Draft} (added : d.add element = some d') {names : List String} :
    VType.readElements d (name :: names) = VType.readElements d' names := by
  rw [VType.readElements, named.1.lower, named.2, Option.bind_some, added]

/-- The fields of a vector type make up the vector type. -/
theorem value_of_fields {v : Word} (small : v.toNat < 256) :
    (⟨some (v.toNat / 8 % 8), v.toNat % 8, some (v.toNat.testBit 6), some (v.toNat.testBit 7)⟩ :
      Draft).value (v.toNat / 8 % 8) = v := by
  have values : ∀ n < 256, (⟨some (n / 8 % 8), n % 8, some (n.testBit 6), some (n.testBit 7)⟩ :
      Draft).value (n / 8 % 8) = BitVec.ofNat 32 n := by decide +kernel
  rw [values _ small, BitVec.ofNat_toNat, BitVec.setWidth_eq]

theorem elementTexts?_eq_some {v : Word} {parts : List String}
    (elements : elementTexts? v = some parts) :
    v.toNat < 256 ∧ ∃ width ∈ widths, ∃ grouping ∈ groupings, width.1 = v.toNat / 8 % 8 ∧
      grouping.1 = v.toNat % 8 ∧ parts = [width.2, grouping.2,
        if v.toNat.testBit 6 then "ta" else "tu", if v.toNat.testBit 7 then "ma" else "mu"] := by
  unfold elementTexts? at elements
  dsimp only at elements
  split at elements
  · cases elements
  · next small =>
    obtain ⟨width, widthFound, elements⟩ := Option.bind_eq_some_iff.mp elements
    obtain ⟨grouping, groupingFound, elements⟩ := Option.bind_eq_some_iff.mp elements
    cases elements
    refine ⟨by omega, width, List.mem_of_find?_eq_some widthFound, grouping,
      List.mem_of_find?_eq_some groupingFound, ?_, ?_, rfl⟩
    · simpa using List.find?_some widthFound
    · simpa using List.find?_some groupingFound

/-- **Vector types read back**, as a list of elements or as a number. -/
theorem parse_text {v : Word} {bits : Nat} (bounded : bits ≤ 32) (small : v.toNat < 2 ^ bits)
    (base : NumberBase) :
    ∃ names, names ≠ [] ∧ (∀ name ∈ names, IsToken name) ∧ text v base = ", ".intercalate names ∧
      parse names bits = .ok v := by
  unfold text
  cases elements : elementTexts? v with
  | none =>
    have parsed := Number.parse_word v base
    refine ⟨[Number.text v.toNat base], by simp, ?_, by simp, ?_⟩
    · intro name member
      rw [List.mem_singleton.mp member]
      exact Number.isToken_text _ base
    · rw [parse, parsed]
      simp only [Outcome.bind_eq_ok, Outcome.pure_eq_ok, Number.check_eq_ok, Word.ofInt_toNat]
      exact ⟨(), ImmRange.contains_toNat (by omega) small, trivial⟩
  | some parts =>
    obtain ⟨byte, width, inWidths, grouping, inGroupings, widthCode, groupingCode, rfl⟩ :=
      elementTexts?_eq_some elements
    obtain ⟨widthNames, groupingNames, tailNames, maskNames⟩ := elements_names
    have first := widthNames width inWidths
    have second := groupingNames grouping inGroupings
    have third := tailNames (v.toNat.testBit 6)
    have fourth := maskNames (v.toNat.testBit 7)
    refine ⟨_, by simp, ?_, rfl, ?_⟩
    · simp only [List.forall_mem_cons]
      exact ⟨first.1, second.1, third.1, fourth.1, by simp⟩
    · rw [parse, parseElements, first.readElements rfl, second.readElements rfl,
        third.readElements rfl, fourth.readElements rfl, VType.readElements]
      · have value := value_of_fields byte
        rw [← widthCode, ← groupingCode] at value
        exact congrArg Except.ok value
      · simp
      · simp

end VType

/-! ## Memory references -/

/-- **Memory references read back**: the offset in front of the parentheses and the base inside. -/
theorem Pseudo.splitMemory_append {offset base : String}
    (offsetChars : ∀ c ∈ offset.toList, c ≠ '(' ∧ c ≠ ')')
    (baseChars : ∀ c ∈ base.toList, c ≠ '(' ∧ c ≠ ')') (nonempty : base.toList ≠ []) :
    splitMemory (offset ++ "(" ++ base ++ ")") = .ok (offset, base) := by
  have shape : (offset ++ "(" ++ base ++ ")").toList =
      offset.toList ++ '(' :: (base.toList ++ [')']) := by
    simp
  have opening : (offset.toList ++ '(' :: (base.toList ++ [')'])).count '(' = 1 := by
    simp [List.count_append, List.count_eq_zero.mpr fun member => (offsetChars _ member).1 rfl,
      List.count_eq_zero.mpr fun member => (baseChars _ member).1 rfl]
  have closing : (offset.toList ++ '(' :: (base.toList ++ [')'])).count ')' = 1 := by
    simp [List.count_append, List.count_eq_zero.mpr fun member => (offsetChars _ member).2 rfl,
      List.count_eq_zero.mpr fun member => (baseChars _ member).2 rfl]
  have front : (offset.toList ++ '(' :: (base.toList ++ [')'])).takeWhile (· ≠ '(') =
      offset.toList := by
    rw [List.takeWhile_append_of_pos (by simpa using fun c member => (offsetChars c member).1)]
    simp
  have last : (offset.toList ++ '(' :: (base.toList ++ [')'])).getLast? = some ')' := by
    rw [← List.cons_append, ← List.append_assoc, List.getLast?_concat]
  unfold splitMemory
  rw [shape]
  simp only [opening, closing, last, front]
  simp [nonempty]

end RvCodec
