import Mathlib
import RvCodec.Cli.Flag
import RvCodec.Proofs.Outcomes

/-!
# Flags as they are written

Arguments that can be parsed are a sequence of written flags, each of one or two
arguments, and the arguments that remain (`exists_writtenFlags`).  What a
written flag says does not depend on what follows it, so that written flags may
be put in any other order and still are parsed, each as before
(`parse_writtenFlags`).

What counts of a flag is what it says last.  Putting flags in another order
changes nothing as long as the flags of each name stay in order among themselves
(`Arguments.value?_congr`).
-/

set_option autoImplicit false

namespace RvCodec.Cli

/-- A value of the kind that the flag takes. -/
inductive FlagKind.Admits : FlagKind → FlagValue → Prop
  | switch (on : Bool) : Admits .switch (.switch on)
  | text (default s : String) : Admits (.text default) (.text s)
  | integer (default n : Int) : Admits (.integer default) (.integer n)

theorem admits_of_flagValue {f : Flag} {s : String} {v : FlagValue}
    (valued : flagValue f s = .ok v) : f.kind.Admits v := by
  unfold flagValue at valued
  split at valued
  · next kind =>
    rw [kind]
    split at valued
    · cases valued
      exact .switch _
    · cases valued
  · next kind =>
    rw [kind]
    cases valued
    exact .text _ _
  · next kind =>
    rw [kind]
    split at valued
    · cases valued
      exact .integer _ _
    · cases valued

/-! ## One flag at a time -/

/-- The value of a flag that stands under a name, and what it leaves of the arguments behind it. -/
def takeValue (f : Flag) (name : String) :
    Option String → List String → Except FlagFault (FlagValue × List String)
  | some s, rest => (·, rest) <$> flagValue f s
  | none, rest =>
    if f.kind = .switch then .ok (.switch true, rest)
    else
      match rest with
      | [] => .error (.missingValue name)
      | second :: rest => (·, rest) <$> flagValue f second

variable {flags : List Flag}

/-- Arguments are parsed one flag at a time, the last one like the others. -/
theorem parseArguments_cons (first : String) (rest : List String) :
    parseArguments flags (first :: rest) =
      match argumentForm first with
      | .plain => .ok ⟨[], first :: rest⟩
      | .terminator => .ok ⟨[], rest⟩
      | .bad => .error (.badForm first)
      | .flag name value =>
        declared flags name >>= fun f => takeValue f name value rest >>= fun taken =>
          Arguments.withFlag name taken.1 <$> parseArguments flags taken.2 := by
  cases rest <;> rw [parseArguments] <;> cases argumentForm first with
  | flag name value =>
    dsimp only
    cases declared flags name with
    | error fault => rfl
    | ok f =>
      simp only [bind, Except.bind, takeValue]
      cases f.kind <;> cases value <;> first
        | rfl
        | dsimp only; cases flagValue f _ <;> rfl
  | _ => rfl

/-- A value that is taken is of the flag's kind, and would be taken whatever followed. -/
theorem exists_of_takeValue {f : Flag} {name : String} {value : Option String}
    {rest : List String} {taken : FlagValue × List String}
    (takes : takeValue f name value rest = .ok taken) :
    f.kind.Admits taken.1 ∧ ∃ own, rest = own ++ taken.2 ∧
      ∀ after, takeValue f name value (own ++ after) = .ok (taken.1, after) := by
  cases value with
  | some s =>
    obtain ⟨v, valued, rfl⟩ := Outcome.map_eq_ok.mp takes
    refine ⟨admits_of_flagValue valued, [], rfl, fun after => ?_⟩
    exact Outcome.map_eq_ok.mpr ⟨v, valued, rfl⟩
  | none =>
    by_cases switch : f.kind = .switch
    · have always (after : List String) :
          takeValue f name none after = .ok (.switch true, after) := if_pos switch
      obtain rfl := Except.ok.inj ((always rest).symm.trans takes)
      rw [switch]
      exact ⟨.switch true, [], rfl, always⟩
    · have later (after : List String) : takeValue f name none after =
          match after with
          | [] => .error (.missingValue name)
          | second :: rest => (·, rest) <$> flagValue f second := if_neg switch
      rw [later] at takes
      cases rest with
      | nil => cases takes
      | cons second rest =>
        obtain ⟨v, valued, rfl⟩ := Outcome.map_eq_ok.mp takes
        refine ⟨admits_of_flagValue valued, [second], rfl, fun after => ?_⟩
        exact (later _).trans (Outcome.map_eq_ok.mpr ⟨v, valued, rfl⟩)

/-! ## Written flags -/

/-- A flag as it is written: the arguments that it consists of, and what they say, whatever follows
them. -/
structure WrittenFlag (flags : List Flag) where
  arguments : List String
  name : String
  value : FlagValue
  ne_nil : arguments ≠ []
  admitted : ∃ f, declared flags name = .ok f ∧ f.kind.Admits value
  parsed : ∀ rest, parseArguments flags (arguments ++ rest) =
    Arguments.withFlag name value <$> parseArguments flags rest

/-- A first argument with the name of a flag, and the arguments of its own that the flag takes. -/
def WrittenFlag.ofTaken (first : String) (own : List String) {name : String}
    {value : Option String} {f : Flag} {v : FlagValue}
    (form : argumentForm first = .flag name value) (found : declared flags name = .ok f)
    (always : ∀ after, takeValue f name value (own ++ after) = .ok (v, after)) :
    WrittenFlag flags where
  arguments := first :: own
  name := name
  value := v
  ne_nil := by simp
  admitted := ⟨f, found, (exists_of_takeValue (always [])).1⟩
  parsed rest := by
    rw [List.cons_append, parseArguments_cons, form]
    simp only [found, always rest, bind, Except.bind]

/-- What the flag says. -/
def WrittenFlag.said (w : WrittenFlag flags) : String × FlagValue := (w.name, w.value)

/-- **Written flags are parsed one after the other**, whatever their order is. -/
theorem parse_writtenFlags (ws : List (WrittenFlag flags)) (rest : List String) :
    parseArguments flags (ws.flatMap (·.arguments) ++ rest) =
      (fun a : Arguments => { a with given := ws.map (·.said) ++ a.given }) <$>
        parseArguments flags rest := by
  induction ws with
  | nil => exact (id_map _).symm
  | cons w ws ih =>
    rw [List.flatMap_cons, List.append_assoc, w.parsed, ih]
    cases parseArguments flags rest <;> rfl

/-- The first step of parsing: there are no flags, or there is a written flag in front. -/
theorem exists_writtenFlag {args : List String} {a : Arguments}
    (parsed : parseArguments flags args = .ok a) :
    a.given = [] ∨ ∃ (w : WrittenFlag flags) (rest : List String) (a' : Arguments),
      args = w.arguments ++ rest ∧ parseArguments flags rest = .ok a' ∧
        a = a'.withFlag w.name w.value := by
  cases args with
  | nil =>
    cases parsed
    exact .inl rfl
  | cons first rest =>
    rw [parseArguments_cons] at parsed
    cases form : argumentForm first with
    | plain =>
      rw [form] at parsed
      cases parsed
      exact .inl rfl
    | terminator =>
      rw [form] at parsed
      cases parsed
      exact .inl rfl
    | bad =>
      rw [form] at parsed
      cases parsed
    | flag name value =>
      rw [form] at parsed
      obtain ⟨f, found, parsed⟩ := Outcome.bind_eq_ok.mp parsed
      obtain ⟨⟨v, left⟩, takes, parsed⟩ := Outcome.bind_eq_ok.mp parsed
      obtain ⟨a', remains, rfl⟩ := Outcome.map_eq_ok.mp parsed
      obtain ⟨-, own, rfl, always⟩ := exists_of_takeValue takes
      exact .inr ⟨.ofTaken first own form found always, left, a', rfl, remains, rfl⟩

/-- **Arguments that can be parsed are written flags and the arguments that remain.** -/
theorem exists_writtenFlags {args : List String} {a : Arguments}
    (parsed : parseArguments flags args = .ok a) :
    ∃ (ws : List (WrittenFlag flags)) (rest : List String),
      args = ws.flatMap (·.arguments) ++ rest ∧ a.given = ws.map (·.said) ∧
        parseArguments flags rest = .ok { a with given := [] } := by
  -- Each written flag takes at least one argument.
  induction size : args.length using Nat.strong_induction_on generalizing args a with
  | _ n ih =>
    obtain none | ⟨w, rest, a', rfl, remains, rfl⟩ := exists_writtenFlag parsed
    · exact ⟨[], args, rfl, none, by rw [parsed, ← none]⟩
    · have shorter : rest.length < n := by
        have positive := List.length_pos_of_ne_nil w.ne_nil
        rw [List.length_append] at size
        omega
      obtain ⟨ws, left, rfl, given, remains⟩ := ih _ shorter remains rfl
      refine ⟨w :: ws, left, by simp, ?_, remains⟩
      rw [Arguments.withFlag, given]
      rfl

/-! ## What is said last -/

namespace Arguments

/-- What the last flag of a name says. -/
def last? (a : Arguments) (name : String) : Option FlagValue :=
  (a.given.filter (·.1 = name)).getLast?.map (·.2)

theorem value?_eq_last? (a : Arguments) (name : String) : a.value? name = a.last? name := by
  rw [value?, last?, ← List.head?_filter, List.filter_reverse, List.head?_reverse]

/-- Only the order among the flags of one name matters. -/
theorem value?_congr {a b : Arguments}
    (same : ∀ name, a.given.filter (·.1 = name) = b.given.filter (·.1 = name)) (name : String) :
    a.value? name = b.value? name := by
  rw [value?_eq_last?, value?_eq_last?, last?, last?, same]

end Arguments

end RvCodec.Cli
