import RvCodec.Proofs.Outcomes
import RvCodec.VType

/-!
# Written vector types

A vector type is written as a list of names from four tables, one for each of its
fields.  The reader goes through the list and keeps a draft of what is settled so
far.  How the list came to the draft does not matter in the end: each field
depends on the names of its own table only, which are its `settings`, and the
draft has a closed form in them (`readElements_eq_ok`).

The four fields are not treated alike.  A width or a policy that is settled is
never settled again, but a later grouping replaces an earlier one.  So the reader
accepts more than one name for the grouping, and the last of them counts
(`Accepts`).  Lists with at most one grouping are read as one would expect, each
field at most once and in any order (`Spells`).  That not every accepted list is of
this kind is shown by `repeated_grouping_accepted`.
-/

set_option autoImplicit false

namespace RvCodec.VType

/-! ## Names and fields -/

section Tables

variable {α : Type}

/-- What a name stands for in the table of a field. -/
def code? (table : List (α × String)) (name : String) : Option α :=
  (table.find? (·.2 = name)).map (·.1)

/-- What the names of a list say about a field, in order. -/
def settings (table : List (α × String)) (names : List String) : List α :=
  names.filterMap (code? table)

theorem settings_cons (table : List (α × String)) (name : String) (names : List String) :
    settings table (name :: names) = (code? table name).toList ++ settings table names := by
  rw [settings, List.filterMap_cons]
  cases code? table name with
  | none => rfl
  | some a => rfl

theorem settings_perm (table : List (α × String)) {names names' : List String}
    (order : names.Perm names') : (settings table names).Perm (settings table names') :=
  order.filterMap _

theorem code?_eq_none {table : List (α × String)} {name : String} :
    code? table name = none ↔ name ∉ table.map (·.2) := by
  rw [code?, Option.map_eq_none_iff, List.find?_eq_none]
  simp only [List.mem_map, not_exists, not_and, decide_eq_true_eq]

end Tables

/-- The names of what may become of the tail. -/
def tails : List (Bool × String) := [(true, "ta"), (false, "tu")]

/-- The names of what may become of the masked-off elements. -/
def masks : List (Bool × String) := [(true, "ma"), (false, "mu")]

/-- All the names that a vector type may be written with. -/
def elementNames : List String :=
  widths.map (·.2) ++ groupings.map (·.2) ++ tails.map (·.2) ++ masks.map (·.2)

/-- No name stands for two fields. -/
theorem codes_exclusive (name : String) :
    (code? widths name ≠ none →
      code? groupings name = none ∧ code? tails name = none ∧ code? masks name = none) ∧
    (code? groupings name ≠ none → code? tails name = none ∧ code? masks name = none) ∧
    (code? tails name ≠ none → code? masks name = none) := by
  have tables :
      (∀ name ∈ widths.map (·.2), name ∉ groupings.map (·.2) ∧ name ∉ tails.map (·.2) ∧
        name ∉ masks.map (·.2)) ∧
      (∀ name ∈ groupings.map (·.2), name ∉ tails.map (·.2) ∧ name ∉ masks.map (·.2)) ∧
      ∀ name ∈ tails.map (·.2), name ∉ masks.map (·.2) := by decide
  simp only [ne_eq, code?_eq_none, not_not]
  exact ⟨tables.1 name, tables.2.1 name, tables.2.2 name⟩

/-- A name is looked up in one table after the other. -/
theorem element?_eq (name : String) : element? name =
    ((code? widths name).map Element.width).or (((code? groupings name).map Element.grouping).or
      (((code? tails name).map Element.tail).or ((code? masks name).map Element.mask))) := by
  unfold element? code?
  cases widths.find? (·.2 = name) with
  | some entry => rfl
  | none =>
    cases groupings.find? (·.2 = name) with
    | some entry => rfl
    | none => grind [tails, masks]

/-! ## One name -/

/-- The name settles nothing that was settled before. -/
def Draft.Fresh (d : Draft) (name : String) : Prop :=
  (d.width = none ∨ code? widths name = none) ∧ (d.tail = none ∨ code? tails name = none) ∧
    (d.mask = none ∨ code? masks name = none)

/-- What is settled after one more name. -/
def Draft.taking (d : Draft) (name : String) : Draft where
  width := d.width.or (code? widths name)
  grouping := (code? groupings name).getD d.grouping
  tail := d.tail.or (code? tails name)
  mask := d.mask.or (code? masks name)

/-- **One name is accepted when it is known and settles nothing anew.** -/
theorem add_element? {d d' : Draft} {name : String} :
    (element? name).bind d.add = some d' ↔
      name ∈ elementNames ∧ d.Fresh name ∧ d.taking name = d' := by
  have known : name ∈ elementNames ↔ ¬ (code? widths name = none ∧ code? groupings name = none ∧
      code? tails name = none ∧ code? masks name = none) := by
    simp only [code?_eq_none, elementNames, List.mem_append]
    tauto
  obtain ⟨noWidth, noGrouping, noTail⟩ := codes_exclusive name
  rw [element?_eq, known, Draft.Fresh, Draft.taking]
  cases width : code? widths name with
  | some code =>
    obtain ⟨grouping, tail, mask⟩ := noWidth (by simp [width])
    cases settled : d.width <;> simp [Draft.add, grouping, tail, mask, settled]
  | none =>
    cases grouping : code? groupings name with
    | some code =>
      obtain ⟨tail, mask⟩ := noGrouping (by simp [grouping])
      simp [Draft.add, tail, mask]
    | none =>
      cases tail : code? tails name with
      | some agnostic =>
        have mask := noTail (by simp [tail])
        cases settled : d.tail <;> simp [Draft.add, mask, settled]
      | none =>
        cases mask : code? masks name with
        | some agnostic => cases settled : d.mask <;> simp [Draft.add, settled]
        | none => simp

/-! ## Lists of names -/

section Slots

variable {α : Type}

/-- Together with what was settled before, the field is settled at most once. -/
def Once (before : Option α) (later : List α) : Prop := (before.toList ++ later).length ≤ 1

theorem once_append (before now : Option α) (later : List α) :
    Once before (now.toList ++ later) ↔
      (before = none ∨ now = none) ∧ Once (before.or now) later := by
  cases before <;> cases now <;> simp [Once]

/-- What was settled first stays. -/
theorem head?_or_append (before now : Option α) (later : List α) :
    ((before.or now).toList ++ later).head? = (before.toList ++ (now.toList ++ later)).head? := by
  cases before <;> cases now <;> simp

/-- What was settled last counts. -/
theorem getLast?_append_getD (before : α) (now : Option α) (later : List α) :
    (now.toList ++ later).getLast?.getD before = later.getLast?.getD (now.getD before) := by
  cases now with
  | none => rfl
  | some a =>
    rw [Option.toList_some, List.singleton_append, List.getLast?_cons]
    rfl

end Slots

/-- Nothing is settled twice by a list of names. -/
def Draft.FreshAll (d : Draft) (names : List String) : Prop :=
  Once d.width (settings widths names) ∧ Once d.tail (settings tails names) ∧
    Once d.mask (settings masks names)

/-- What is settled after a list of names. -/
def Draft.takingAll (d : Draft) (names : List String) : Draft where
  width := (d.width.toList ++ settings widths names).head?
  grouping := (settings groupings names).getLast?.getD d.grouping
  tail := (d.tail.toList ++ settings tails names).head?
  mask := (d.mask.toList ++ settings masks names).head?

theorem freshAll_cons (d : Draft) (name : String) (names : List String) :
    d.FreshAll (name :: names) ↔ d.Fresh name ∧ (d.taking name).FreshAll names := by
  simp only [Draft.FreshAll, Draft.Fresh, Draft.taking, settings_cons, once_append]
  tauto

theorem takingAll_cons (d : Draft) (name : String) (names : List String) :
    d.takingAll (name :: names) = (d.taking name).takingAll names := by
  simp only [Draft.takingAll, Draft.taking, settings_cons, head?_or_append, getLast?_append_getD]

/-- **The draft of a list in closed form.**  A list is accepted when its names are known and settle
nothing twice, the grouping aside. -/
theorem readElements_eq_ok {d d' : Draft} {texts : List String} :
    readElements d texts = .ok d' ↔ (∀ name ∈ texts.map Text.lower, name ∈ elementNames) ∧
      d.FreshAll (texts.map Text.lower) ∧ d.takingAll (texts.map Text.lower) = d' := by
  induction texts generalizing d with
  | nil =>
    have start : d.FreshAll [] := by
      refine ⟨?_, ?_, ?_⟩ <;> simp [Once, settings, Option.length_toList_le]
    have same : d.takingAll [] = d := by simp [Draft.takingAll, settings]
    simp [readElements, start, same]
  | cons text rest ih =>
    have step : readElements d (text :: rest) = .ok d' ↔
        ∃ d₁, (element? (Text.lower text)).bind d.add = some d₁ ∧
          readElements d₁ rest = .ok d' := by
      rw [readElements]
      cases (element? (Text.lower text)).bind d.add with
      | none => simp
      | some d₁ => simp
    rw [step, List.map_cons, List.forall_mem_cons, freshAll_cons, takingAll_cons]
    constructor
    · rintro ⟨d₁, taken, read⟩
      obtain ⟨known, fresh, rfl⟩ := add_element?.mp taken
      obtain ⟨others, later, final⟩ := ih.mp read
      exact ⟨⟨known, others⟩, ⟨fresh, later⟩, final⟩
    · rintro ⟨⟨known, others⟩, ⟨fresh, later⟩, final⟩
      exact ⟨_, add_element?.mpr ⟨known, fresh, rfl⟩, ih.mpr ⟨others, later, final⟩⟩

/-! ## What is accepted -/

/-- At most one value is written down, and it is the value; otherwise the value is the default. -/
def Settles {α : Type} (written : List α) (default value : α) : Prop :=
  written = [] ∧ value = default ∨ written = [value]

/-- The vector type with these fields. -/
def encode (width grouping : Nat) (tail mask : Bool) : Word :=
  BitVec.ofNat 32 width <<< 3 ||| BitVec.ofNat 32 grouping |||
    (if tail then 1#32 <<< 6 else 0) ||| (if mask then 1#32 <<< 7 else 0)

/-- The names are accepted with these fields: one width, any number of groupings of which the last
one counts, and at most one policy each for the tail and the mask. -/
structure Accepts (names : List String) (width grouping : Nat) (tail mask : Bool) : Prop where
  known : ∀ name ∈ names, name ∈ elementNames
  width : settings widths names = [width]
  grouping : (settings groupings names).getLast?.getD 0 = grouping
  tail : Settles (settings tails names) false tail
  mask : Settles (settings masks names) false mask

/-- The names spell these fields: one width and nothing else more than once. -/
structure Spells (names : List String) (width grouping : Nat) (tail mask : Bool) : Prop where
  known : ∀ name ∈ names, name ∈ elementNames
  width : settings widths names = [width]
  grouping : Settles (settings groupings names) 0 grouping
  tail : Settles (settings tails names) false tail
  mask : Settles (settings masks names) false mask

theorem settles_iff {α : Type} {written : List α} {default value : α} :
    Settles written default value ↔ written.length ≤ 1 ∧ written.head?.getD default = value := by
  match written with
  | [] => simp [Settles, eq_comm]
  | [a] => simp [Settles]
  | a :: b :: rest => simp [Settles]

theorem eq_singleton_iff {α : Type} {written : List α} {value : α} :
    written = [value] ↔ written.length ≤ 1 ∧ written.head? = some value := by
  match written with
  | [] => simp
  | [a] => simp
  | a :: b :: rest => simp

theorem value_eq (d : Draft) (width : Nat) : d.value width =
    encode width d.grouping (d.tail.getD false) (d.mask.getD false) := by
  have shifted : BitVec.ofNat 32 width <<< 3 = BitVec.ofNat 32 (width * 8) := by
    apply BitVec.eq_of_toNat_eq
    simp [Nat.shiftLeft_eq]
  have agnostic (policy : Option Bool) : policy = some true ↔ policy.getD false = true := by
    cases policy <;> simp
  rw [Draft.value, encode, shifted]
  simp only [agnostic]
  ac_rfl

theorem parseElements_eq_ok_iff {texts : List String} {v : Word} :
    parseElements texts = .ok v ↔ ∃ d, readElements {} texts = .ok d ∧
      ∃ width, d.width = some width ∧ d.value width = v := by
  rw [parseElements, Outcome.bind_eq_ok]
  refine exists_congr fun d => and_congr_right fun _ => ?_
  cases d.width with
  | none => simp [throw, throwThe, MonadExceptOf.throw]
  | some width => simp [Outcome.pure_eq_ok]

/-- **A list is read as the fields that it is accepted with.** -/
theorem parseElements_eq_ok {texts : List String} {v : Word} :
    parseElements texts = .ok v ↔ ∃ width grouping tail mask,
      Accepts (texts.map Text.lower) width grouping tail mask ∧
        v = encode width grouping tail mask := by
  rw [parseElements_eq_ok_iff]
  set names := texts.map Text.lower with shape
  simp only [readElements_eq_ok, ← shape]
  constructor
  · rintro ⟨_, ⟨known, ⟨once, tail, mask⟩, rfl⟩, width, settled, rfl⟩
    exact ⟨width, _, _, _, ⟨known, eq_singleton_iff.mpr ⟨once, settled⟩, rfl,
      settles_iff.mpr ⟨tail, rfl⟩, settles_iff.mpr ⟨mask, rfl⟩⟩, value_eq _ _⟩
  · rintro ⟨width, grouping, tail, mask, accepted, rfl⟩
    obtain ⟨once, settled⟩ := eq_singleton_iff.mp accepted.width
    obtain ⟨tailOnce, rfl⟩ := settles_iff.mp accepted.tail
    obtain ⟨maskOnce, rfl⟩ := settles_iff.mp accepted.mask
    obtain rfl := accepted.grouping
    exact ⟨_, ⟨accepted.known, ⟨once, tailOnce, maskOnce⟩, rfl⟩, width, settled, value_eq _ _⟩

/-! ## What is expected -/

section Spelling

variable {names names' : List String} {width grouping : Nat} {tail mask : Bool}

/-- Without a second grouping, what is accepted is what is spelled. -/
theorem spells_iff : Spells names width grouping tail mask ↔
    Accepts names width grouping tail mask ∧ (settings groupings names).length ≤ 1 := by
  have last (few : (settings groupings names).length ≤ 1) :
      (settings groupings names).getLast? = (settings groupings names).head? := by
    match settings groupings names, few with
    | [], _ => rfl
    | [_], _ => rfl
  constructor
  · rintro ⟨known, width, settled, tail, mask⟩
    obtain ⟨few, value⟩ := settles_iff.mp settled
    exact ⟨⟨known, width, by rw [last few, value], tail, mask⟩, few⟩
  · rintro ⟨⟨known, width, value, tail, mask⟩, few⟩
    exact ⟨known, width, settles_iff.mpr ⟨few, by rw [← last few, value]⟩, tail, mask⟩

theorem Settles.perm {α : Type} {written written' : List α} {default value : α}
    (order : written.Perm written') (settled : Settles written default value) :
    Settles written' default value := by
  obtain ⟨rfl, same⟩ | rfl := settled
  · exact .inl ⟨order.symm.eq_nil, same⟩
  · exact .inr order.symm.eq_singleton

/-- The order of the names does not matter to what they spell. -/
theorem Spells.perm (order : names.Perm names') (spelled : Spells names width grouping tail mask) :
    Spells names' width grouping tail mask where
  known name member := spelled.known name (order.mem_iff.mpr member)
  width := (spelled.width ▸ settings_perm widths order).symm.eq_singleton
  grouping := spelled.grouping.perm (settings_perm groupings order)
  tail := spelled.tail.perm (settings_perm tails order)
  mask := spelled.mask.perm (settings_perm masks order)

end Spelling

/-- The tokens are a single number. -/
def IsNumber (texts : List String) : Prop := ∃ text v, texts = [text] ∧ Number.parse text = .ok v

theorem parse_of_not_isNumber {texts : List String} (list : ¬ IsNumber texts) {bits : Nat}
    {v : Word} : parse texts bits = .ok v ↔ parseElements texts = .ok v := by
  match texts with
  | [] => exact ⟨fun parsed => (by cases parsed), fun parsed => (by cases parsed)⟩
  | [text] =>
    rw [parse]
    cases number : Number.parse text with
    | ok v => exact absurd ⟨text, v, rfl, number⟩ list
    | error fault => rfl
  | first :: second :: rest => rfl

/-- **A vector type is read field by field.**  A list of tokens is accepted exactly when, in lower
case, it has one element width, at most one policy each for tail and mask, and nothing else but
groupings, of which the last one counts.  With at most one grouping it has every field at most once,
and its order does not matter. -/
theorem elements_read {texts : List String} (list : ¬ IsNumber texts) (bits : Nat) :
    (∀ v, parse texts bits = .ok v ↔ ∃ width grouping tail mask,
      Accepts (texts.map Text.lower) width grouping tail mask ∧
        v = encode width grouping tail mask) ∧
    ((settings groupings (texts.map Text.lower)).length ≤ 1 →
      (∀ v, parse texts bits = .ok v ↔ ∃ width grouping tail mask,
        Spells (texts.map Text.lower) width grouping tail mask ∧
          v = encode width grouping tail mask) ∧
      ∀ texts', texts.Perm texts' → ∀ v, parse texts bits = .ok v → parse texts' bits = .ok v) := by
  have accepted (v : Word) : parse texts bits = .ok v ↔ ∃ width grouping tail mask,
      Accepts (texts.map Text.lower) width grouping tail mask ∧
        v = encode width grouping tail mask :=
    (parse_of_not_isNumber list).trans parseElements_eq_ok
  have spelled (few : (settings groupings (texts.map Text.lower)).length ≤ 1) (v : Word) :
      parse texts bits = .ok v ↔ ∃ width grouping tail mask,
        Spells (texts.map Text.lower) width grouping tail mask ∧
          v = encode width grouping tail mask := by
    simp only [accepted, spells_iff, few, and_true]
  refine ⟨accepted, fun few => ⟨spelled few, ?_⟩⟩
  intro texts' order v parsed
  have list' : ¬ IsNumber texts' := by
    rintro ⟨text, v, rfl, number⟩
    exact list ⟨text, v, order.eq_singleton, number⟩
  obtain ⟨width, grouping, tail, mask, spells, rfl⟩ := (spelled few v).mp parsed
  have accepts := (spells_iff.mp (spells.perm (order.map Text.lower))).1
  exact (parse_of_not_isNumber list').mpr
    (parseElements_eq_ok.mpr ⟨width, grouping, tail, mask, accepts, rfl⟩)

/-- A list in either case and order. -/
theorem elements_read_reordered :
    ¬ IsNumber ["TA", "mf2", "E32"] ∧ parse ["E32", "TA", "mf2"] 11 = .ok 0x57 := by
  have list : ¬ IsNumber ["TA", "mf2", "E32"] := by
    rintro ⟨text, v, shape, -⟩
    cases shape
  have few : (settings groupings (["TA", "mf2", "E32"].map Text.lower)).length ≤ 1 := by
    decide +kernel
  have parsed : parse ["TA", "mf2", "E32"] 11 = .ok 0x57 := by decide +kernel
  exact ⟨list, ((elements_read list 11).2 few).2 _ (by decide) _ parsed⟩

/-- Not every accepted list has each field at most once: a second grouping replaces the first. -/
theorem repeated_grouping_accepted :
    ¬ ∀ (texts : List String) (bits : Nat) (v : Word), ¬ IsNumber texts →
      (parse texts bits = .ok v ↔ ∃ width grouping tail mask,
        Spells (texts.map Text.lower) width grouping tail mask ∧
          v = encode width grouping tail mask) := by
  intro claimed
  have list : ¬ IsNumber ["e8", "m1", "m2"] := by
    rintro ⟨text, v, shape, -⟩
    cases shape
  have parsed : parse ["e8", "m1", "m2"] 11 = .ok 1 := by decide +kernel
  obtain ⟨width, grouping, tail, mask, spelled, -⟩ := (claimed _ _ _ list).mp parsed
  have few := (spells_iff.mp spelled).2
  exact absurd few (by decide +kernel)

end RvCodec.VType
