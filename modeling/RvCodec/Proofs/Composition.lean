import RvCodec.Proofs.Linewise

/-!
# Texts one after the other

Two texts with a line feed between them are translated into what the two are
translated into, one after the other, at the greater one of their two widths.
Under a fixed width nothing else is needed.  If the width is to be found out,
the greater width must not be beyond an instruction of the other text, and this
is the only way in which two texts can get into each other's way.

`Composes` states the law, and `translation_composes` is the law for assembling
and for disassembling.
-/

set_option autoImplicit false

namespace RvCodec

/-! ## Upper bounds -/

section

variable {α β γ : Type} {mode : Xlen} {relates : String → List β → Prop} {encoding : β → Encoding}

theorem requiredBy_append (bs₁ bs₂ : List (List β)) :
    requiredBy encoding (bs₁ ++ bs₂) = requiredBy encoding bs₁ ++ requiredBy encoding bs₂ := by
  simp only [requiredBy, List.flatten_append, List.flatMap_append]

/-- A suitable width is not beyond any instruction. -/
theorem le_of_suits {bs : List (List β)} {x : Nat}
    (suits : x ∈ Suits mode (requiredBy encoding bs)) {item : β} (member : item ∈ bs.flatten)
    {h : Nat} (bound : h ∈ (encoding item).instruction.maxXlen) : x ≤ h := by
  have required : (encoding item).instruction.requirement ∈ requiredBy encoding bs :=
    List.mem_flatMap.mpr ⟨item, member, List.mem_cons_self⟩
  exact (suits.1 _ required).2 h bound

/-- A greater width suits as well if it is not beyond any instruction. -/
theorem holds_of_le {bs : List (List β)} {x y : Nat}
    (suits : x ∈ Suits mode (requiredBy encoding bs)) (wider : x ≤ y)
    (bounded : ∀ item ∈ bs.flatten, ∀ h ∈ (encoding item).instruction.maxXlen, y ≤ h) :
    ∀ r ∈ requiredBy encoding bs, r.Holds y := by
  intro r member
  obtain ⟨item, inside, required⟩ := List.mem_flatMap.mp member
  refine ⟨(suits.1 r member).1.trans wider, ?_⟩
  intro h bound
  exact bounded item inside h (Encoding.bound_of_mem_requirements required bound)

/-! ## Two texts -/

namespace Translates

variable {s t : String}

theorem split {bs : List (List β)} {x : Nat}
    (together : Translates mode relates encoding (s ++ "\n" ++ t) bs x) :
    ∃ bs₁ bs₂ x₁ x₂, Translates mode relates encoding s bs₁ x₁ ∧
      Translates mode relates encoding t bs₂ x₂ ∧ bs = bs₁ ++ bs₂ ∧ x = max x₁ x₂ := by
  obtain ⟨lines, width⟩ := together
  rw [Source.texts_append] at lines
  obtain ⟨bs₁, bs₂, first, second, rfl⟩ : ∃ bs₁ bs₂, List.Forall₂ relates (Source.texts s) bs₁ ∧
      List.Forall₂ relates (Source.texts t) bs₂ ∧ bs = bs₁ ++ bs₂ := by
    have before := List.forall₂_take (Source.texts s).length lines
    have after := List.forall₂_drop (Source.texts s).length lines
    rw [List.take_left] at before
    rw [List.drop_left] at after
    exact ⟨_, _, before, after, (List.take_append_drop _ bs).symm⟩
  rw [requiredBy_append, suits_append] at width
  obtain ⟨x₁, least₁⟩ := exists_isLeast_suits width.1.1
  obtain ⟨x₂, least₂⟩ := exists_isLeast_suits width.1.2
  exact ⟨bs₁, bs₂, x₁, x₂, ⟨first, least₁⟩, ⟨second, least₂⟩, rfl,
    isLeast_inter (suits_ordConnected _ _) (suits_ordConnected _ _) least₁ least₂ width⟩

theorem join {bs₁ bs₂ : List (List β)} {x₁ x₂ : Nat}
    (first : Translates mode relates encoding s bs₁ x₁)
    (second : Translates mode relates encoding t bs₂ x₂)
    (bounded₁ : ∀ item ∈ bs₁.flatten, ∀ h ∈ (encoding item).instruction.maxXlen, max x₁ x₂ ≤ h)
    (bounded₂ : ∀ item ∈ bs₂.flatten, ∀ h ∈ (encoding item).instruction.maxXlen, max x₁ x₂ ≤ h) :
    ∃ x, Translates mode relates encoding (s ++ "\n" ++ t) (bs₁ ++ bs₂) x := by
  have configured : mode.elim (32 ≤ max x₁ x₂) (max x₁ x₂ = ·) := by
    have configured₁ := first.width.1.2
    have configured₂ := second.width.1.2
    cases mode with
    | none => exact Nat.le_trans configured₁ (Nat.le_max_left x₁ x₂)
    | some n =>
      obtain rfl : x₁ = n := configured₁
      obtain rfl : x₂ = x₁ := configured₂
      exact Nat.max_self x₂
  have both : max x₁ x₂ ∈ Suits mode (requiredBy encoding (bs₁ ++ bs₂)) := by
    rw [requiredBy_append, suits_append]
    exact ⟨⟨holds_of_le first.width.1 (Nat.le_max_left x₁ x₂) bounded₁, configured⟩,
      holds_of_le second.width.1 (Nat.le_max_right x₁ x₂) bounded₂, configured⟩
  obtain ⟨x, least⟩ := exists_isLeast_suits both
  refine ⟨x, ?_, least⟩
  rw [Source.texts_append]
  exact List.rel_append first.lines second.lines

end Translates

/-! ## The law -/

/-- How a translation treats two texts one after the other. -/
structure Composes (mode : Xlen) (translate : String → Except Error α) (output : α → List γ)
    (used : α → List Instruction) (xlen : α → Nat) : Prop where
  /-- What is translated together is translated apart. -/
  split : ∀ (s t : String) (r : α), translate (s ++ "\n" ++ t) = .ok r →
    ∃ r₁ r₂, translate s = .ok r₁ ∧ translate t = .ok r₂ ∧
      output r = output r₁ ++ output r₂ ∧ xlen r = max (xlen r₁) (xlen r₂)
  /-- Under a fixed width, what is translated apart is translated together. -/
  join : mode ≠ none → ∀ (s t : String) (r₁ r₂ : α), translate s = .ok r₁ →
    translate t = .ok r₂ → ∃ r, translate (s ++ "\n" ++ t) = .ok r
  /-- Without one, this needs every instruction to exist at the greater width. -/
  join_iff : mode = none → ∀ s t : String, (∃ r, translate (s ++ "\n" ++ t) = .ok r) ↔
    ∃ r₁ r₂, translate s = .ok r₁ ∧ translate t = .ok r₂ ∧
      ∀ i ∈ used r₁ ++ used r₂, ∀ h ∈ i.maxXlen, max (xlen r₁) (xlen r₂) ≤ h

variable {translate : String → Except Error α} {blocks : α → List (List β)} {xlen : α → Nat}

/-- **A translation that goes line by line composes.** -/
theorem Linewise.composes (linewise : Linewise mode translate blocks xlen encoding relates)
    (item : β → γ) :
    Composes mode translate (fun r => (blocks r).flatten.map item)
      (fun r => (blocks r).flatten.map fun b => (encoding b).instruction) xlen := by
  have apart {s t : String} {r : α} (done : translate (s ++ "\n" ++ t) = .ok r) :
      ∃ r₁ r₂, translate s = .ok r₁ ∧ translate t = .ok r₂ ∧
        blocks r = blocks r₁ ++ blocks r₂ ∧ xlen r = max (xlen r₁) (xlen r₂) := by
    obtain ⟨bs₁, bs₂, x₁, x₂, first, second, same, width⟩ := (linewise.sound done).split
    obtain ⟨r₁, done₁, rfl, rfl⟩ := linewise.complete first
    obtain ⟨r₂, done₂, rfl, rfl⟩ := linewise.complete second
    exact ⟨r₁, r₂, done₁, done₂, same, width⟩
  have joined {s t : String} {r₁ r₂ : α} (done₁ : translate s = .ok r₁)
      (done₂ : translate t = .ok r₂)
      (bounded : ∀ b ∈ (blocks r₁).flatten ++ (blocks r₂).flatten,
        ∀ h ∈ (encoding b).instruction.maxXlen, max (xlen r₁) (xlen r₂) ≤ h) :
      ∃ r, translate (s ++ "\n" ++ t) = .ok r := by
    obtain ⟨x, together⟩ := (linewise.sound done₁).join (linewise.sound done₂)
      (fun b member => bounded b (List.mem_append_left _ member))
      (fun b member => bounded b (List.mem_append_right _ member))
    obtain ⟨r, done, -⟩ := linewise.complete together
    exact ⟨r, done⟩
  refine ⟨?_, ?_, ?_⟩
  · intro s t r done
    obtain ⟨r₁, r₂, done₁, done₂, same, width⟩ := apart done
    refine ⟨r₁, r₂, done₁, done₂, ?_, width⟩
    simp only [same, List.flatten_append, List.map_append]
  · intro fixed s t r₁ r₂ done₁ done₂
    obtain ⟨n, rfl⟩ := Option.ne_none_iff_exists'.mp fixed
    -- Both parts have the configured width, so neither is beyond the instructions of the other.
    have width₁ : xlen r₁ = n := (linewise.sound done₁).width.1.2
    have width₂ : xlen r₂ = n := (linewise.sound done₂).width.1.2
    refine joined done₁ done₂ ?_
    intro b member h bound
    rw [width₁, width₂, Nat.max_self]
    rcases List.mem_append.mp member with inFirst | inSecond
    · exact width₁ ▸ le_of_suits (linewise.sound done₁).width.1 inFirst bound
    · exact width₂ ▸ le_of_suits (linewise.sound done₂).width.1 inSecond bound
  · intro _ s t
    constructor
    · rintro ⟨r, done⟩
      obtain ⟨r₁, r₂, done₁, done₂, same, width⟩ := apart done
      refine ⟨r₁, r₂, done₁, done₂, ?_⟩
      intro i used h bound
      rw [← List.map_append, ← List.flatten_append, ← same] at used
      obtain ⟨b, member, rfl⟩ := List.mem_map.mp used
      exact width ▸ le_of_suits (linewise.sound done).width.1 member bound
    · rintro ⟨r₁, r₂, done₁, done₂, bounded⟩
      refine joined done₁ done₂ ?_
      intro b member h bound
      refine bounded _ ?_ h bound
      rw [← List.map_append]
      exact List.mem_map_of_mem member

end

/-- **Translation is compositional.**  The words of two texts one after the other are the words of
the first and then those of the second, and so are the lines that words are disassembled into. -/
theorem translation_composes (opts : Options) :
    Composes opts.xlen (assemble · opts) Assembly.words
        (fun a => a.encodings.map (·.instruction)) Assembly.xlen ∧
      Composes opts.xlen (disassemble · opts) Disassembly.lines
        (fun d => d.readings.map (·.instruction)) Disassembly.xlen :=
  ⟨(assemble_linewise opts).composes Encoding.word,
    (disassemble_linewise opts).composes Disassembler.Reading.text⟩

-- A `c.jal` exists at 32 bits only and an `addw` from 64 bits on, so the two exclude each other.
set_option maxRecDepth 20000 in
example : ((assemble "c.jal 0" {}).toOption.isSome, (assemble "addw x1, x1, x1" {}).toOption.isSome,
    (assemble "c.jal 0\naddw x1, x1, x1" {}).toOption.isSome) = (true, true, false) := by cbv

end RvCodec
