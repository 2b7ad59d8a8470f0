import RvCodec.Proofs.TableIndices
import RvCodec.Reference.Instructions

/-!
# Rows of the list of instructions

The list goes through the catalogue and its widths and looks each name up in the
table.  Every instruction of a table of the catalogue's instructions has one row,
since the catalogue has each name once and every instruction of it needs 32, 64
or 128 bits (`rows_perm`).  The rows have different anchors, since a name is made
of runs of small letters and digits with single dots between them, and its anchor
has the same runs with hyphens between them (`Dotted.eq_of_anchor`).
-/

set_option autoImplicit false

namespace RvCodec

/-! ## Anchors of names -/

namespace Text

/-- The bytes of a token are the codes of its characters. -/
theorem IsToken.codes {s : String} (token : IsToken s) :
    s.toByteArray.data.toList.map (·.toNat) = s.toList.map (·.toNat) := by
  have encoded : s.toByteArray.data.toList = s.toList.flatMap String.utf8EncodeChar := by
    rw [← String.utf8Encode_toList, List.utf8Encode]
    simp
  have single : s.toList.flatMap String.utf8EncodeChar =
      s.toList.map fun c => UInt8.ofNat c.toNat := by
    rw [List.map_eq_flatMap]
    refine List.flatMap_congr fun c member => ?_
    have code := isTokenCode_iff.mp (token.chars c member)
    have ascii : c.toNat ≤ 127 := by omega
    simp [String.utf8EncodeChar, ascii]
  rw [encoded, single, List.map_map]
  refine List.map_congr_left fun c member => ?_
  have code := isTokenCode_iff.mp (token.chars c member)
  exact UInt8.toNat_ofNat_of_lt' (by change c.toNat < 256; omega)

/-- Full runs without a separator, joined by one, are the fields. -/
theorem fieldChars_intercalate {isSep : Char → Bool} {sep : Char} (separates : isSep sep = true)
    {runs : List (List Char)} (full : ∀ run ∈ runs, run ≠ [])
    (none : ∀ run ∈ runs, ∀ c ∈ run, isSep c = false) :
    fieldChars isSep ([sep].intercalate runs) = runs := by
  have one {run : List Char} (nonempty : run ≠ []) (clean : ∀ c ∈ run, isSep c = false) :
      fieldChars isSep run = [run] := by
    have fields : fieldChars isSep run =
        (pieces isSep run).filter fun piece => !piece.isEmpty := rfl
    rw [fields, pieces_eq_singleton clean]
    simp [nonempty]
  induction runs with
  | nil => rfl
  | cons run runs ih =>
    have first := one (full run List.mem_cons_self) (none run List.mem_cons_self)
    have rest := ih (fun r member => full r (List.mem_cons_of_mem _ member))
      (fun r member => none r (List.mem_cons_of_mem _ member))
    cases runs with
    | nil => simpa using first
    | cons next runs =>
      have shape : [sep].intercalate (run :: next :: runs) =
          run ++ sep :: [sep].intercalate (next :: runs) := by
        simp [List.intercalate_cons_cons]
      rw [shape, fieldChars_append separates, first, rest, List.singleton_append]

end Text

namespace Reference

/-- The name consists of full runs of characters that anchors keep, with dots between them. -/
structure Dotted (name : String) (runs : List (List Char)) : Prop where
  joined : name.toList = ['.'].intercalate runs
  nonempty : runs ≠ []
  full : ∀ run ∈ runs, run ≠ []
  kept : ∀ run ∈ runs, ∀ c ∈ run, isWordChar c = true ∧ Text.lowerChar c = c

section Anchors

variable {name name' : String} {runs runs' : List (List Char)}

/-- The anchor has the same runs, with hyphens between them. -/
theorem Dotted.toList_anchor (dotted : Dotted name runs) :
    (anchor name).toList = ['-'].intercalate runs := by
  have fields : Text.fieldChars (fun c => !isWordChar c) name.toList = runs := by
    rw [dotted.joined]
    refine Text.fieldChars_intercalate (by decide) dotted.full ?_
    intro run member c inside
    simp [(dotted.kept run member c inside).1]
  have hyphen : "-".toList = ['-'] := by decide
  rw [anchor, fields, String.toList_intercalate, hyphen, List.map_map]
  congr 1
  refine (List.map_congr_left fun run member => ?_).trans (List.map_id runs)
  rw [Function.comp_apply, String.toList_ofList]
  refine (List.map_congr_left fun c inside => ?_).trans (List.map_id run)
  exact (dotted.kept run member c inside).2

/-- **Different names have different anchors.** -/
theorem Dotted.eq_of_anchor (dotted : Dotted name runs) (dotted' : Dotted name' runs')
    (same : anchor name = anchor name') : name = name' := by
  have split {name : String} {runs : List (List Char)} (dotted : Dotted name runs) :
      (anchor name).toList.splitOn '-' = runs := by
    rw [dotted.toList_anchor]
    refine List.splitOn_intercalate '-' ?_ dotted.nonempty
    intro run member hyphen
    exact absurd (dotted.kept run member '-' hyphen).1 (by decide)
  have runs : runs = runs' := by rw [← split dotted, ← split dotted', same]
  exact String.toList_inj.mp (by rw [dotted.joined, dotted'.joined, runs])

end Anchors

/-- The code of a small letter or a digit. -/
def isRunCode (n : Nat) : Bool := 48 ≤ n && n ≤ 57 || 97 ≤ n && n ≤ 122

/-- Decides from the codes of the characters whether a name consists of runs of small letters and
digits with single dots between them; `inRun` says whether a run has begun. -/
def dottedCodes : Bool → List Nat → Bool
  | inRun, [] => inRun
  | inRun, n :: rest =>
    if n = 46 then inRun && dottedCodes false rest else isRunCode n && dottedCodes true rest

theorem kept_of_isRunCode {c : Char} (code : isRunCode c.toNat = true) :
    isWordChar c = true ∧ Text.lowerChar c = c := by
  have small : ∀ n < 128, isRunCode n = true →
      isWordChar (Char.ofNat n) = true ∧ Text.lowerChar (Char.ofNat n) = Char.ofNat n := by decide
  have bounded : c.toNat < 128 := by
    simp only [isRunCode, Bool.or_eq_true, Bool.and_eq_true, decide_eq_true_eq] at code
    omega
  simpa using small c.toNat bounded code

/-- Codes that pass are those of runs with dots between them; the first one is full unless a run had
begun before. -/
theorem exists_runs {inRun : Bool} {cs : List Char}
    (passed : dottedCodes inRun (cs.map (·.toNat)) = true) :
    ∃ run runs, cs = ['.'].intercalate (run :: runs) ∧ (inRun = false → run ≠ []) ∧
      (∀ r ∈ runs, r ≠ []) ∧
      ∀ r ∈ run :: runs, ∀ c ∈ r, isWordChar c = true ∧ Text.lowerChar c = c := by
  induction cs generalizing inRun with
  | nil =>
    obtain rfl : inRun = true := passed
    exact ⟨[], [], by simp⟩
  | cons c cs ih =>
    rw [List.map_cons, dottedCodes] at passed
    split at passed
    · next dot =>
      -- A dot ends the run that had begun.
      obtain ⟨begun, passed⟩ := (Bool.and_eq_true _ _).mp passed
      obtain ⟨run, runs, shape, full, rest, kept⟩ := ih passed
      obtain rfl : c = '.' := Char.toNat_inj.mp dot
      refine ⟨[], run :: runs, ?_, by simp [begun], ?_, ?_⟩
      · simp [List.intercalate_cons_cons, ← shape]
      · exact List.forall_mem_cons.mpr ⟨full rfl, rest⟩
      · exact List.forall_mem_cons.mpr ⟨by simp, kept⟩
    · obtain ⟨code, passed⟩ := (Bool.and_eq_true _ _).mp passed
      obtain ⟨run, runs, shape, -, rest, kept⟩ := ih passed
      obtain ⟨keptRun, keptRuns⟩ := List.forall_mem_cons.mp kept
      refine ⟨c :: run, runs, ?_, by simp, rest, ?_⟩
      · cases runs <;> simp [List.intercalate_cons_cons, shape]
      · refine List.forall_mem_cons.mpr ⟨?_, keptRuns⟩
        exact List.forall_mem_cons.mpr ⟨kept_of_isRunCode code, keptRun⟩

end Reference

/-! ## The catalogue -/

theorem Table.flatMap_groups :
    Catalogue.groups.flatMap (·.instructions) = default.instructions :=
  (ofGroups_eq_ok.mp ofGroups_groups).1

/-- Every instruction of the catalogue has a name with an anchor of its own and needs one of the
widths under which instructions are listed. -/
theorem Table.default_listable : ∀ i ∈ default.instructions,
    Reference.dottedCodes false (i.name.toByteArray.data.toList.map (·.toNat)) = true ∧
      i.requiredXlen ∈ [32, 64, 128] := by
  decide +kernel

namespace Reference

theorem exists_dotted {i : Instruction} (inTable : i ∈ Table.default.instructions) :
    ∃ runs, Dotted i.name runs := by
  have passed := (Table.default_listable i inTable).1
  rw [(Table.default_sound i inTable).isToken.codes] at passed
  obtain ⟨run, runs, shape, full, rest, kept⟩ := exists_runs passed
  exact ⟨run :: runs, shape, by simp, List.forall_mem_cons.mpr ⟨full rfl, rest⟩, kept⟩

/-- An instruction of the catalogue is listed at the width that it needs. -/
theorem listedAt_iff {i : Instruction} (inTable : i ∈ Table.default.instructions) {x : Nat} :
    listedAt x i = true ↔ i.requiredXlen = x := by
  have sound := Table.default_sound i inTable
  have allowed : (Tracker.start (some x)).allowsInstruction i = true ↔ i.requirement.Holds x :=
    Tracker.allowsInstruction_fixed rfl
  simp only [listedAt, Bool.and_eq_true, allowed, Bool.or_eq_true, beq_iff_eq]
  constructor
  · rintro ⟨holds, least | exact⟩
    · have enough : i.requiredXlen ≤ x := holds.1
      have usual := sound.usual.1
      omega
    · exact exact
  · rintro rfl
    exact ⟨⟨le_rfl, sound.ordered⟩, .inr rfl⟩

/-! ## Rows -/

/-- The rows of all the sections. -/
def instructionRows (t : Table) : List InstructionRow := (instructionSections t).flatMap (·.rows)

/-- Sections without rows add nothing. -/
theorem flatMap_rows_filter (sections : List InstructionSection) :
    (sections.filter fun s => !s.rows.isEmpty).flatMap (·.rows) = sections.flatMap (·.rows) := by
  induction sections with
  | nil => rfl
  | cons s sections ih =>
    cases empty : s.rows with
    | nil => simp [empty, ih]
    | cons row rows => simp [empty, ih]

/-- The instructions of a group that the table has. -/
def ownInstructions (t : Table) (g : Group) : List Instruction :=
  g.instructions.filterMap fun i => t.find? i.name

theorem instructionRows_eq (t : Table) : instructionRows t =
    (Catalogue.groups.flatMap fun g =>
      [32, 64, 128].flatMap fun x => (ownInstructions t g).filter (listedAt x)).map
        InstructionRow.ofInstruction := by
  rw [instructionRows, instructionSections, flatMap_rows_filter, List.flatMap_assoc,
    List.map_flatMap]
  simp only [List.flatMap_map, List.map_flatMap]
  rfl

section

variable {t : Table} (distinct : (t.instructions.map (·.name)).Nodup)
  (drawn : ∀ i ∈ t.instructions, i ∈ Table.default.instructions)

include distinct in
theorem find?_eq_some_iff {name : String} {i : Instruction} :
    t.find? name = some i ↔ i ∈ t.instructions ∧ i.name = name := by
  rw [← Table.lookup_eq_ok distinct, Table.lookup]
  cases t.find? name <;> simp

include drawn in
/-- The instructions of a group, section by section. -/
theorem sections_perm (g : Group) :
    ([32, 64, 128].flatMap fun x => (ownInstructions t g).filter (listedAt x)).Perm
      (ownInstructions t g) := by
  have inCatalogue : ∀ i ∈ ownInstructions t g, i ∈ Table.default.instructions := by
    intro i member
    obtain ⟨j, -, found⟩ := List.mem_filterMap.mp member
    exact drawn i (List.mem_of_find?_eq_some found)
  have listed (x : Nat) : (ownInstructions t g).filter (listedAt x) =
      (ownInstructions t g).filter (·.requiredXlen = x) := by
    refine List.filter_congr fun i member => ?_
    rw [Bool.eq_iff_iff, listedAt_iff (inCatalogue i member), decide_eq_true_eq]
  simp only [listed]
  exact Table.flatMap_filter_perm (by decide) fun i member =>
    (Table.default_listable i (inCatalogue i member)).2

include distinct drawn in
/-- Looking the names of the catalogue up finds the instructions of the table. -/
theorem filterMap_find?_perm :
    (Table.default.instructions.filterMap fun i => t.find? i.name).Perm t.instructions := by
  have found : ∀ i ∈ Table.default.instructions,
      t.find? i.name = Option.guard (fun i => decide (i ∈ t.instructions)) i := by
    intro i inCatalogue
    by_cases inTable : i ∈ t.instructions
    · rw [(find?_eq_some_iff distinct).mpr ⟨inTable, rfl⟩]
      simp [Option.guard, inTable]
    · -- Another instruction of that name would be in the catalogue, which has each name once.
      have missing : t.find? i.name = none := by
        by_contra other
        obtain ⟨j, looked⟩ := Option.ne_none_iff_exists'.mp other
        obtain ⟨inTable', name⟩ := (find?_eq_some_iff distinct).mp looked
        obtain rfl : j = i :=
          List.inj_on_of_nodup_map Table.default_names_nodup (drawn j inTable') inCatalogue name
        exact inTable inTable'
      rw [missing]
      simp [Option.guard, inTable]
  rw [List.filterMap_congr found, List.filterMap_eq_filter]
  refine (List.perm_ext_iff_of_nodup (Table.default_nodup.filter _) distinct.of_map).mpr ?_
  intro i
  simp only [List.mem_filter, decide_eq_true_eq, and_iff_right_iff_imp]
  exact drawn i

include distinct drawn in
/-- **Every instruction of the table has one row, and there are no others.** -/
theorem rows_perm : (instructionRows t).Perm (t.instructions.map InstructionRow.ofInstruction) := by
  have own : Catalogue.groups.flatMap (ownInstructions t) =
      Table.default.instructions.filterMap fun i => t.find? i.name := by
    rw [← Table.flatMap_groups, List.filterMap_flatMap]
    rfl
  rw [instructionRows_eq]
  refine List.Perm.map _ ?_
  refine (List.Perm.flatMap_left _ fun g _ => sections_perm drawn g).trans ?_
  rw [own]
  exact filterMap_find?_perm distinct drawn

include distinct drawn in
/-- **The rows have different anchors.** -/
theorem targets_nodup : ((instructionRows t).map (·.target)).Nodup := by
  have targets := (rows_perm distinct drawn).map (·.target)
  rw [List.map_map] at targets
  refine targets.nodup_iff.mpr (List.Nodup.map_on ?_ distinct.of_map)
  intro i inTable j inTable' same
  obtain ⟨runs, dotted⟩ := exists_dotted (drawn i inTable)
  obtain ⟨runs', dotted'⟩ := exists_dotted (drawn j inTable')
  exact List.inj_on_of_nodup_map distinct inTable inTable' (dotted.eq_of_anchor dotted' same)

end

/-- In a list without repeated targets, a target is that of one row. -/
theorem filter_target_eq {rows : List InstructionRow} (distinct : (rows.map (·.target)).Nodup)
    {row : InstructionRow} (member : row ∈ rows) :
    rows.filter (·.target = row.target) = [row] := by
  have once : (rows.filter (·.target = row.target)).length = 1 := by
    have counted := List.count_eq_one_of_mem distinct (List.mem_map_of_mem member)
    rwa [List.count_eq_countP, List.countP_map, List.countP_eq_length_filter] at counted
  obtain ⟨only, shape⟩ := List.length_eq_one_iff.mp once
  have own : row ∈ rows.filter (·.target = row.target) :=
    List.mem_filter.mpr ⟨member, decide_eq_true rfl⟩
  rw [shape, List.mem_singleton] at own
  rw [shape, own]

end Reference

end RvCodec
