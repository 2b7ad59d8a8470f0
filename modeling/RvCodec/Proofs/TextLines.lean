import RvCodec.Proofs.CheckedAccess
import RvCodec.Proofs.Numerals
import RvCodec.Proofs.Sessions

/-!
# Lines of a printed text

A text that is put together from lines is split into the same lines as long as
no line has a line feed in it (`splitAt_unlines`).  The parts of the printed
lines are numerals, tokens and names from closed lists, which have none.
-/

set_option autoImplicit false

namespace RvCodec

namespace Text

/-- There is no line feed in the text. -/
def OneLine (s : String) : Prop := '\n' ∉ s.toList

instance (s : String) : Decidable (OneLine s) := inferInstanceAs (Decidable ('\n' ∉ s.toList))

theorem OneLine.append {s t : String} (first : OneLine s) (rest : OneLine t) : OneLine (s ++ t) := by
  rw [OneLine, String.toList_append, List.mem_append]
  exact not_or.mpr ⟨first, rest⟩

theorem OneLine.intercalate {sep : String} (separator : OneLine sep) {ts : List String}
    (all : ∀ t ∈ ts, OneLine t) : OneLine (sep.intercalate ts) := by
  induction ts with
  | nil => simp [OneLine]
  | cons t ts ih =>
    have first := all t List.mem_cons_self
    have rest := ih fun u member => all u (List.mem_cons_of_mem _ member)
    cases ts with
    | nil => simpa using first
    | cons u ts =>
      rw [String.intercalate_cons_cons]
      exact (first.append separator).append rest

theorem OneLine.of_isToken {s : String} (token : IsToken s) : OneLine s :=
  fun member => absurd (token.chars _ member) (by decide)

theorem not_mem_paddedNumeral {base : Nat} (valid : 1 < base) (bounded : base ≤ 16) {c : Char}
    (other : ∀ d < 16, c ≠ d.digitChar) (width n : Nat) :
    c ∉ (Text.paddedNumeral base width n).toList := by
  rw [Text.paddedNumeral, String.toList_ofList, List.mem_append]
  rintro (zero | digit)
  · exact other 0 (by decide) (List.eq_of_mem_replicate zero)
  · obtain ⟨d, small, same⟩ := exists_of_mem_toDigits valid digit
    exact other d (by omega) same

theorem not_mem_numeral {base : Nat} (valid : 1 < base) (bounded : base ≤ 16) {c : Char}
    (other : ∀ d < 16, c ≠ d.digitChar) (n : Nat) : c ∉ (Text.numeral base n).toList := by
  have plain := not_mem_paddedNumeral valid bounded other 0 n
  rwa [Text.paddedNumeral, Nat.zero_sub, List.replicate_zero, List.nil_append] at plain

theorem OneLine.paddedNumeral {base : Nat} (valid : 1 < base) (bounded : base ≤ 16)
    (width n : Nat) : OneLine (Text.paddedNumeral base width n) :=
  not_mem_paddedNumeral valid bounded (by decide) width n

theorem OneLine.numeral {base : Nat} (valid : 1 < base) (bounded : base ≤ 16) (n : Nat) :
    OneLine (Text.numeral base n) :=
  not_mem_numeral valid bounded (by decide) n

/-- Lines put together are split into the same lines, with nothing behind the last line feed. -/
theorem splitAt_unlines {lines : List String} (clean : ∀ line ∈ lines, OneLine line) :
    splitAt '\n' (unlines lines) = lines ++ [""] := by
  cases lines with
  | nil => rfl
  | cons line lines =>
    have ended : unlines (line :: lines) = "\n".intercalate (line :: lines) ++ "\n" ++ "" := by
      rw [String.append_empty, intercalate_append_newline]
    rw [ended, splitAt_append, splitAt_intercalate (List.cons_ne_nil _ _) clean]
    rfl

end Text

open Text

theorem Field.oneLine_name (f : BitRange) : OneLine ((Field.name? f).getD "") := by
  have names : ∀ named ∈ Field.named, OneLine named.2 := by decide
  unfold Field.name?
  cases found : Field.named.find? (·.1 = f) with
  | none => simp [OneLine]
  | some named => exact names named (List.mem_of_find?_eq_some found)

theorem Operand.oneLine_placeholder (o : Operand) : OneLine (o.placeholder?.getD "") := by
  cases o with
  | integer f _ _ => exact Field.oneLine_name f
  | shortInteger f => exact Field.oneLine_name f
  | float f => exact OneLine.append (by decide) (Field.oneLine_name f)
  | shortFloat f => exact OneLine.append (by decide) (Field.oneLine_name f)
  | vector f =>
    have name := Field.oneLine_name f
    simp only [placeholder?]
    cases found : Field.name? f with
    | none => decide
    | some field =>
      rw [found, Option.getD_some] at name
      refine OneLine.append (by decide) ?_
      rw [OneLine, String.toList_ofList]
      exact fun member => name (List.mem_of_mem_drop member)
  | memory base => cases base <;> simp only [placeholder?] <;> decide
  | immediate upper => cases upper <;> decide
  | fenceSet f =>
    simp only [placeholder?]
    split <;> decide
  | _ =>
    simp only [placeholder?]
    decide

namespace Instruction

theorem oneLine_synopsis {i : Instruction} (token : IsToken i.name) : OneLine i.synopsis := by
  have name := OneLine.of_isToken token
  unfold synopsis
  split
  · exact name
  · refine (name.append (by decide)).append (OneLine.intercalate (by decide) ?_)
    intro placeholder member
    obtain ⟨o, -, rfl⟩ := List.mem_map.mp member
    exact o.oneLine_placeholder

theorem oneLine_standard {i : Instruction} (letter : i.ext.letter ≠ '\n') : OneLine i.standard := by
  refine (OneLine.append (by decide) (.numeral (by decide) (by decide) _)).append ?_
  simpa [OneLine] using letter.symm

end Instruction

namespace Key

variable {c : Char} (other : ∀ d < 16, c ≠ d.digitChar) (k : Key)

include other in
theorem not_mem_bitText (mark : c ∉ "0b".toList) : c ∉ k.bitText.toList := by
  rw [bitText, String.toList_append, List.mem_append]
  exact not_or.mpr ⟨mark, not_mem_paddedNumeral (by decide) (by decide) other _ _⟩

include other in
/-- A key's name is that of an opcode, or is made of numerals. -/
theorem not_mem_name (known : ∀ named ∈ opcodeNames, c ∉ named.2.toList)
    (marks : c ∉ "0b".toList ∧ c ∉ "C".toList ∧ c ∉ ".".toList) : c ∉ k.name.toList := by
  have numeral (n : Nat) : c ∉ (Text.numeral 10 n).toList :=
    not_mem_numeral (by decide) (by decide) other n
  unfold name
  split
  · cases found : opcodeNames.find? (·.1 = k) with
    | none => exact k.not_mem_bitText other marks.1
    | some named => exact known named (List.mem_of_find?_eq_some found)
  · have padded := not_mem_paddedNumeral (show 1 < 2 by decide) (by decide) other 3 (k.toNat / 4)
    simp only [String.toList_append, List.mem_append, marks, numeral, padded, or_false,
      not_false_eq_true]

theorem oneLine_name : OneLine k.name :=
  k.not_mem_name (by decide) (by decide) (by decide)

end Key

end RvCodec
