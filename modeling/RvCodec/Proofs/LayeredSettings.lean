import RvCodec.Cli.Settings
import RvCodec.Proofs.WrittenFlags

/-!
# Where settings come from

A setting is taken from the command line if its flag was given, from the config
file otherwise if the file has its key, and is the default otherwise.  A flag
that was given counts even if it says what the default says, and the last one of
a name counts.  `Takes` says this for one setting and `Layered` for all of them.

Nothing is assumed of the decoder of config files but that it fills in what the
file says (`Fills`).  A decoded file does not tell unsaid settings from empty
ones, and an empty width and an empty base are both treated in a way of their
own.  Neither shows once the settings are turned into options, since both mean
the default.  Only a number of jobs of zero in the file is really taken for
unsaid.

`settings_layered` adds that the order of different flags does not matter.
-/

set_option autoImplicit false

namespace RvCodec.Cli

/-! ## What the flags say -/

/-- Every value that was parsed is of the kind that its flag takes. -/
theorem admits_of_parse {flags : List Flag} {args : List String} {a : Arguments}
    (parsed : parseArguments flags args = .ok a) {name : String} {f : Flag}
    (found : declared flags name = .ok f) {v : FlagValue} (valued : a.value? name = some v) :
    f.kind.Admits v := by
  obtain ⟨ws, rest, -, given, -⟩ := exists_writtenFlags parsed
  rw [Arguments.value?_eq_last?, Arguments.last?] at valued
  obtain ⟨said, last, rfl⟩ := Option.map_eq_some_iff.mp valued
  obtain ⟨member, name⟩ := List.mem_filter.mp (List.mem_of_getLast? last)
  rw [given] at member
  obtain ⟨w, -, rfl⟩ := List.mem_map.mp member
  obtain ⟨f', found', admits⟩ := w.admitted
  have own : w.name = _ := of_decide_eq_true name
  rw [own, found] at found'
  obtain rfl := Except.ok.inj found'
  exact admits

/-- What was given last can be read off as the kind of the flag says. -/
theorem last?_of_declared {flags : List Flag} {args : List String} {a : Arguments}
    (parsed : parseArguments flags args = .ok a) {name : String} {f : Flag}
    (found : declared flags name = .ok f) :
    match f.kind with
    | .switch => a.last? name = (a.switch? name).map .switch
    | .text _ => a.last? name = (a.text? name).map .text
    | .integer _ => a.last? name = (a.integer? name).map .integer := by
  simp only [← Arguments.value?_eq_last?, Arguments.switch?, Arguments.text?, Arguments.integer?]
  cases valued : a.value? name with
  | none => cases f.kind <;> rfl
  | some v =>
    have admits := admits_of_parse parsed found valued
    generalize f.kind = kind at admits
    cases admits <;> rfl

/-! ## Layers -/

/-- A decoder fills in what a file says about the settings: one that the file has a key for has the
value that stands there, in whatever notation, and any other one is left empty, off or zero. -/
def Fills (decode : ConfigDecoder) (sets : String → Choices) : Prop :=
  ∀ text file unknown, decode text = .ok (file, unknown) → file = (sets text).filled

namespace ConfigFile

/-- What a file says that can be decoded. -/
def sets (text : String) : Choices := ((read text).toOption.map (·.1)).getD {}

/-- The decoder of the programs fills in what a file says. -/
theorem fills_decode : Fills decode sets := by
  intro text file unknown decoded
  unfold decode at decoded
  cases found : read text with
  | error why =>
    rw [found] at decoded
    cases decoded
  | ok said =>
    rw [found] at decoded
    cases decoded
    rw [sets, found]
    rfl

end ConfigFile

/-- A setting is the value of its flag, if that was given; otherwise what the file says, if it says
anything; otherwise the default. -/
inductive Takes {α : Type} (ofFlag : α → FlagValue) (default : α) :
    Option FlagValue → Option α → α → Prop
  | given (v : α) (file : Option α) : Takes ofFlag default (some (ofFlag v)) file v
  | filed (v : α) : Takes ofFlag default none (some v) v
  | unsaid : Takes ofFlag default none none default

theorem Takes.getD {α : Type} {ofFlag : α → FlagValue} (default : α) (flag file : Option α) :
    Takes ofFlag default (flag.map ofFlag) file (flag.getD (file.getD default)) := by
  cases flag with
  | some v => exact .given v _
  | none =>
    cases file with
    | some v => exact .filed v
    | none => exact .unsaid

/-- What the places say leaves no choice. -/
theorem Takes.unique {α : Type} {ofFlag : α → FlagValue} (injective : ofFlag.Injective)
    {default v w : α} {flag : Option FlagValue} {file : Option α}
    (takes : Takes ofFlag default flag file v) (takes' : Takes ofFlag default flag file w) :
    v = w := by
  cases takes with
  | given v file =>
    generalize said : some (ofFlag v) = flag at takes'
    cases takes' with
    | given w _ => exact injective (Option.some.inj said)
    | filed _ => cases said
    | unsaid => cases said
  | filed =>
    cases takes'
    rfl
  | unsaid =>
    cases takes'
    rfl

/-- These options have every setting from the flags, the config file and the defaults, in this order.
The width and the number base are what the texts given for them mean. -/
structure Layered (a : Arguments) (file : Choices) (o : Options) : Prop where
  xlen : ∃ width, Takes .text "auto" (a.last? "xlen") file.xlen width ∧
    Xlen.parse width = .ok o.xlen
  base : ∃ base, Takes .text "hex" (a.last? "base") file.base base ∧
    NumberBase.parse base = .ok o.base
  embedded : Takes .switch false (a.last? "e") file.embedded o.embedded
  noSingle : Takes .switch false (a.last? "no-f") file.noSingle o.noSingle
  noDouble : Takes .switch false (a.last? "no-d") file.noDouble o.noDouble
  noQuad : Takes .switch false (a.last? "no-q") file.noQuad o.noQuad

/-- The width is refused, or it is not and the number base is. -/
inductive Refused (a : Arguments) (file : Choices) : Failure → Prop
  | width {width : String} {f : Failure}
    (takes : Takes .text "auto" (a.last? "xlen") file.xlen width)
    (refused : Xlen.parse width = .error f) : Refused a file f
  | base {width base : String} {x : Xlen} {f : Failure}
    (takes : Takes .text "auto" (a.last? "xlen") file.xlen width)
    (accepted : Xlen.parse width = .ok x)
    (takesBase : Takes .text "hex" (a.last? "base") file.base base)
    (refused : NumberBase.parse base = .error f) : Refused a file f

/-- The settings are those that the flags, the config file and the defaults give. -/
structure Settings.Resolves (s : Settings) (jobs : Int) (a : Arguments) (file : Choices) : Prop where
  accepted : ∀ o, s.options = .ok o ↔ Layered a file o
  refused : ∀ f, s.options = .error f ↔ Refused a file f
  jobs : Takes .integer jobs (a.last? "j") (file.jobs.filter (· ≠ 0)) s.jobs

namespace Settings

/-- The settings that the layers give. -/
def layered (jobs : Int) (flags file : Choices) : Settings :=
  { xlen := flags.xlen.getD (file.xlen.getD "auto"),
    embedded := flags.embedded.getD (file.embedded.getD false),
    base := flags.base.getD (file.base.getD "hex"),
    noSingle := flags.noSingle.getD (file.noSingle.getD false),
    noDouble := flags.noDouble.getD (file.noDouble.getD false),
    noQuad := flags.noQuad.getD (file.noQuad.getD false),
    jobs := flags.jobs.getD ((file.jobs.filter (· ≠ 0)).getD jobs) }

theorem options_eq_ok {s : Settings} {o : Options} : s.options = .ok o ↔
    Xlen.parse s.xlen = .ok o.xlen ∧ NumberBase.parse s.base = .ok o.base ∧
      o.embedded = s.embedded ∧ o.noSingle = s.noSingle ∧ o.noDouble = s.noDouble ∧
      o.noQuad = s.noQuad := by
  obtain ⟨xlen, embedded, base, noSingle, noDouble, noQuad⟩ := o
  unfold options
  cases Xlen.parse s.xlen with
  | error f => simp [bind, Except.bind]
  | ok x =>
    cases NumberBase.parse s.base with
    | error f => simp [bind, Except.bind]
    | ok b =>
      simp only [bind, Except.bind, pure, Except.pure, Except.ok.injEq, Options.mk.injEq]
      grind

theorem options_eq_error {s : Settings} {f : Failure} : s.options = .error f ↔
    Xlen.parse s.xlen = .error f ∨
      (∃ x, Xlen.parse s.xlen = .ok x) ∧ NumberBase.parse s.base = .error f := by
  unfold options
  cases Xlen.parse s.xlen with
  | error f => simp [bind, Except.bind]
  | ok x => cases NumberBase.parse s.base <;> simp [bind, Except.bind, pure, Except.pure]

/-- The layers of the flags that were parsed. -/
theorem resolves_layered {jobs : Int} {extra : List Flag} {args : List String} {a : Arguments}
    (parsed : parseArguments (settingFlags jobs ++ extra) args = .ok a) (file : Choices) :
    (layered jobs (Choices.ofArguments a) file).Resolves jobs a file := by
  have texts : FlagValue.text.Injective := fun _ _ => FlagValue.text.inj
  have switches : FlagValue.switch.Injective := fun _ _ => FlagValue.switch.inj
  have given (name : String) {f : Flag}
      (found : declared (settingFlags jobs ++ extra) name = .ok f) := last?_of_declared parsed found
  have text (name : String) {d : String} (file : Option String)
      (said : a.last? name = (a.text? name).map .text) :
      Takes .text d (a.last? name) file ((a.text? name).getD (file.getD d)) := said ▸ .getD _ _ _
  have switch (name : String) (file : Option Bool)
      (said : a.last? name = (a.switch? name).map .switch) :
      Takes .switch false (a.last? name) file ((a.switch? name).getD (file.getD false)) :=
    said ▸ .getD _ _ _
  have width := text "xlen" (d := "auto") file.xlen (given "xlen" rfl)
  have base := text "base" (d := "hex") file.base (given "base" rfl)
  have embedded := switch "e" file.embedded (given "e" rfl)
  have noSingle := switch "no-f" file.noSingle (given "no-f" rfl)
  have noDouble := switch "no-d" file.noDouble (given "no-d" rfl)
  have noQuad := switch "no-q" file.noQuad (given "no-q" rfl)
  have count : a.last? "j" = (a.integer? "j").map .integer := given "j" rfl
  refine ⟨fun o => ?_, fun f => ?_, count ▸ .getD _ _ _⟩
  · rw [options_eq_ok]
    constructor
    · rintro ⟨xlen, baseRead, e, f, d, q⟩
      exact ⟨⟨_, width, xlen⟩, ⟨_, base, baseRead⟩, e ▸ embedded, f ▸ noSingle, d ▸ noDouble,
        q ▸ noQuad⟩
    · rintro ⟨⟨_, takes, xlen⟩, ⟨_, takesBase, baseRead⟩, e, f, d, q⟩
      obtain rfl := width.unique texts takes
      obtain rfl := base.unique texts takesBase
      exact ⟨xlen, baseRead, e.unique switches embedded, f.unique switches noSingle,
        d.unique switches noDouble, q.unique switches noQuad⟩
  · rw [options_eq_error]
    constructor
    · rintro (refused | ⟨⟨x, accepted⟩, refused⟩)
      · exact .width width refused
      · exact .base width accepted base refused
    · rintro (⟨takes, refused⟩ | ⟨takes, accepted, takesBase, refused⟩)
      · obtain rfl := width.unique texts takes
        exact .inl refused
      · obtain rfl := width.unique texts takes
        obtain rfl := base.unique texts takesBase
        exact .inr ⟨⟨_, accepted⟩, refused⟩

/-- An empty width and an empty base in the file do not show in the options. -/
theorem options_merge (jobs : Int) (flags file : Choices) :
    (merge jobs flags file.filled).options = (layered jobs flags file).options := by
  have width : Xlen.parse (merge jobs flags file.filled).xlen =
      Xlen.parse (layered jobs flags file).xlen := by
    unfold merge layered Choices.filled
    dsimp only
    cases flags.xlen with
    | some s => rfl
    | none =>
      cases file.xlen with
      | none => rfl
      | some s =>
        by_cases empty : s = ""
        · subst empty
          simp only [Option.getD_none, Option.getD_some, if_true]
          decide
        · simp [empty]
  have base : NumberBase.parse (merge jobs flags file.filled).base =
      NumberBase.parse (layered jobs flags file).base := by
    unfold merge layered Choices.filled
    dsimp only
    cases flags.base with
    | some s => rfl
    | none =>
      cases file.base with
      | some s => rfl
      | none => decide
  unfold options
  rw [width, base]
  rfl

theorem jobs_merge (jobs : Int) (flags file : Choices) :
    (merge jobs flags file.filled).jobs = (layered jobs flags file).jobs := by
  unfold merge layered Choices.filled
  dsimp only
  cases file.jobs with
  | none => rfl
  | some n => by_cases zero : n = 0 <;> simp [Option.filter_some, zero]

theorem Resolves.congr {s s' : Settings} {jobs : Int} {a : Arguments} {file : Choices}
    (resolves : s'.Resolves jobs a file) (options : s.options = s'.options)
    (sameJobs : s.jobs = s'.jobs) : s.Resolves jobs a file where
  accepted o := by rw [options, resolves.accepted]
  refused f := by rw [options, resolves.refused]
  jobs := by rw [sameJobs]; exact resolves.jobs

/-- Nothing matters of the arguments but what is said last. -/
theorem ofArguments_congr {a b : Arguments} (same : ∀ name, a.value? name = b.value? name)
    (jobs : Int) (read : String → Except String String) (decode : ConfigDecoder) :
    ofArguments jobs a read decode = ofArguments jobs b read decode := by
  have flags : Choices.ofArguments a = Choices.ofArguments b := by
    simp only [Choices.ofArguments, Arguments.text?, Arguments.switch?, Arguments.integer?, same]
  have path : configPath? a = configPath? b := by
    simp only [configPath?, Arguments.text?, same]
  unfold ofArguments
  rw [flags, path]

end Settings

/-- The config file that the arguments name can be read and decoded, all of its keys are known, and
it says this; nothing is said without a file. -/
def Configured (a : Arguments) (read : String → Except String String) (decode : ConfigDecoder)
    (sets : String → Choices) (file : Choices) : Prop :=
  match Settings.configPath? a with
  | none => file = {}
  | some path => ∃ text s, read path = .ok text ∧ decode text = .ok (s, []) ∧ sets text = file

/-- There are settings, which are those of the layers. -/
theorem exists_resolves {jobs : Int} {extra : List Flag} {args : List String} {a : Arguments}
    (parsed : parseArguments (settingFlags jobs ++ extra) args = .ok a)
    {read : String → Except String String} {decode : ConfigDecoder} {sets : String → Choices}
    (fills : Fills decode sets) {file : Choices} (configured : Configured a read decode sets file) :
    ∃ s, Settings.ofArguments jobs a read decode = .ok s ∧ s.Resolves jobs a file := by
  have resolves := Settings.resolves_layered parsed file
  unfold Configured at configured
  cases path : Settings.configPath? a with
  | none =>
    rw [path] at configured
    subst configured
    refine ⟨Settings.ofFlags jobs (Choices.ofArguments a), ?_, resolves⟩
    unfold Settings.ofArguments
    rw [path]
  | some path' =>
    rw [path] at configured
    obtain ⟨text, s, contents, decoded, rfl⟩ := configured
    obtain rfl := fills text s [] decoded
    have loaded : Settings.load decode path' (read path') = .ok (sets text).filled := by
      simp only [Settings.load, contents, bind, Except.bind, decoded]
    refine ⟨Settings.merge jobs (Choices.ofArguments a) (sets text).filled, ?_, ?_⟩
    · unfold Settings.ofArguments
      rw [path]
      dsimp only
      rw [loaded]
      rfl
    · exact resolves.congr (Settings.options_merge _ _ _) (Settings.jobs_merge _ _ _)

/-- Flags may be given in another order as long as those of one name stay in order. -/
theorem exists_parse_reordered {jobs : Int} {flags : List Flag} {ws ws' : List (WrittenFlag flags)}
    {rest : List String} {a : Arguments}
    (parsed : parseArguments flags (ws.flatMap (·.arguments) ++ rest) = .ok a)
    (order : ∀ name, ws'.filter (·.name = name) = ws.filter (·.name = name))
    (read : String → Except String String) (decode : ConfigDecoder) :
    ∃ a', parseArguments flags (ws'.flatMap (·.arguments) ++ rest) = .ok a' ∧
      a'.rest = a.rest ∧
      Settings.ofArguments jobs a' read decode = Settings.ofArguments jobs a read decode := by
  rw [parse_writtenFlags] at parsed
  obtain ⟨b, remains, rfl⟩ := Outcome.map_eq_ok.mp parsed
  refine ⟨{ b with given := ws'.map (·.said) ++ b.given }, ?_, rfl, ?_⟩
  · rw [parse_writtenFlags, remains]
    rfl
  · refine Settings.ofArguments_congr (Arguments.value?_congr fun name => ?_) jobs read decode
    have said (ws : List (WrittenFlag flags)) :
        (ws.map (·.said)).filter (·.1 = name) = (ws.filter (·.name = name)).map (·.said) :=
      List.filter_map
    rw [List.filter_append, List.filter_append, said, said, order]

/-- **Flags win over the config file, and the file over the defaults.**  If the arguments can be
parsed and the config file can be decoded without unknown keys, there are settings, and they are
those of the layers, whatever decodes the file and whatever it says.  The arguments are written flags
and what remains; in whatever order the flags are written, as long as those of one name stay in
order, the arguments still are parsed, and the settings, or the failure, stay the same.  A command
may have other flags besides those of the settings. -/
theorem settings_layered (jobs : Int) (extra : List Flag) {args : List String} {a : Arguments}
    (parsed : parseArguments (settingFlags jobs ++ extra) args = .ok a)
    (read : String → Except String String) (decode : ConfigDecoder) :
    (∀ sets file, Fills decode sets → Configured a read decode sets file →
      ∃ s, Settings.ofArguments jobs a read decode = .ok s ∧ s.Resolves jobs a file) ∧
    (∃ (ws : List (WrittenFlag (settingFlags jobs ++ extra))) (rest : List String),
      args = ws.flatMap (·.arguments) ++ rest ∧ a.given = ws.map (·.said)) ∧
    ∀ (ws ws' : List (WrittenFlag (settingFlags jobs ++ extra))) (rest : List String),
      args = ws.flatMap (·.arguments) ++ rest →
      (∀ name, ws'.filter (·.name = name) = ws.filter (·.name = name)) →
      ∃ a', parseArguments (settingFlags jobs ++ extra) (ws'.flatMap (·.arguments) ++ rest) =
          .ok a' ∧
        a'.rest = a.rest ∧
        Settings.ofArguments jobs a' read decode = Settings.ofArguments jobs a read decode := by
  refine ⟨fun sets file fills => exists_resolves parsed fills, ?_, ?_⟩
  · obtain ⟨ws, rest, shape, given, -⟩ := exists_writtenFlags parsed
    exact ⟨ws, rest, shape, given⟩
  · rintro ws ws' rest rfl order
    exact exists_parse_reordered parsed order read decode

/-- Given twice, a width is the last one, and it wins over the file, as does a switch that is turned
off; the base comes from the file, and the jobs, which are zero there, are the default.  Giving the
file first changes nothing. -/
theorem settings_layered_file :
    ∃ a a' s,
      parseArguments (settingFlags 4)
        ["-xlen", "16", "-no-f=false", "-xlen", "64", "--config=c.toml", "a.s"] = .ok a ∧
      parseArguments (settingFlags 4)
        ["--config=c.toml", "-xlen", "16", "-xlen", "64", "-no-f=false", "a.s"] = .ok a' ∧
      Settings.ofArguments 4 a
        (fun _ => .ok "xlen = \"32\"\nno-f = true\nBase = \"dec\"\nj = 0") ConfigFile.decode =
          .ok s ∧
      Settings.ofArguments 4 a'
        (fun _ => .ok "xlen = \"32\"\nno-f = true\nBase = \"dec\"\nj = 0") ConfigFile.decode =
          .ok s ∧
      s.jobs = 4 ∧ s.options = .ok { xlen := some 64, base := .dec } := by
  have parsed : parseArguments (settingFlags 4 ++ [])
      ["-xlen", "16", "-no-f=false", "-xlen", "64", "--config=c.toml", "a.s"] =
      .ok ⟨[("xlen", .text "16"), ("no-f", .switch false), ("xlen", .text "64"),
        ("config", .text "c.toml")], ["a.s"]⟩ := by
    cbv
  have found : ConfigFile.read "xlen = \"32\"\nno-f = true\nBase = \"dec\"\nj = 0" =
      .ok ({ xlen := some "32", noSingle := some true, base := some "dec", jobs := some 0 }, []) := by
    cbv
  obtain ⟨file, decoded⟩ : ∃ file,
      ConfigFile.decode "xlen = \"32\"\nno-f = true\nBase = \"dec\"\nj = 0" = .ok (file, []) := by
    rw [ConfigFile.decode, found]
    exact ⟨_, rfl⟩
  have contents : ConfigFile.sets "xlen = \"32\"\nno-f = true\nBase = \"dec\"\nj = 0" =
      { xlen := some "32", noSingle := some true, base := some "dec", jobs := some 0 } := by
    rw [ConfigFile.sets, found]
    rfl
  obtain ⟨layers, -, reordered⟩ := settings_layered 4 [] parsed
    (fun _ => .ok "xlen = \"32\"\nno-f = true\nBase = \"dec\"\nj = 0") ConfigFile.decode
  obtain ⟨s, built, resolves⟩ :=
    layers _ _ ConfigFile.fills_decode ⟨_, file, rfl, decoded, contents⟩
  have jobs : s.jobs = 4 :=
    resolves.jobs.unique (fun _ _ => FlagValue.integer.inj) .unsaid
  have options : s.options = .ok { xlen := some 64, base := .dec } :=
    (resolves.accepted _).mpr ⟨⟨"64", .given _ _, by decide⟩, ⟨"dec", .filed _, by decide⟩,
      .unsaid, .given _ _, .unsaid, .unsaid⟩
  have widthForm : argumentForm "-xlen" = .flag "xlen" none := by decide
  have singleForm : argumentForm "-no-f=false" = .flag "no-f" (some "false") := by decide
  have fileForm : argumentForm "--config=c.toml" = .flag "config" (some "c.toml") := by decide
  let width (s : String) : WrittenFlag (settingFlags 4 ++ []) :=
    .ofTaken "-xlen" [s] widthForm rfl fun _ => rfl
  let single : WrittenFlag (settingFlags 4 ++ []) :=
    .ofTaken "-no-f=false" [] singleForm rfl fun _ => by rfl
  let file : WrittenFlag (settingFlags 4 ++ []) :=
    .ofTaken "--config=c.toml" [] fileForm rfl fun _ => by rfl
  have order (name : String) :
      [file, width "16", width "64", single].filter (·.name = name) =
        [width "16", single, width "64", file].filter (·.name = name) := by
    have widthName (s : String) : (width s).name = "xlen" := rfl
    have singleName : single.name = "no-f" := rfl
    have fileName : file.name = "config" := rfl
    simp only [List.filter_cons, List.filter_nil, widthName, singleName, fileName]
    by_cases isWidth : "xlen" = name
    · subst isWidth
      rfl
    · by_cases isSingle : "no-f" = name
      · subst isSingle
        rfl
      · simp [isWidth, isSingle]
  obtain ⟨a', parsed', -, same⟩ := reordered [width "16", single, width "64", file]
    [file, width "16", width "64", single] ["a.s"] rfl order
  exact ⟨_, a', s, parsed, parsed', built, same.trans built, jobs, options⟩

end RvCodec.Cli
