import UserTgBot.Library.PyValue

/-!
# `check`

`db_maintenance/profiles.py` and `commands/check.py`: a profile says which fields must not
be blank, what makes two rows duplicates and what makes a row an orphan, and the check lists
the offending rows. `DataSource` is the contract of `sources/base.py`; `fix` and `check` know
a source only through it. What the contract leaves to the sources is part of it: a CSV file
keeps texts only, a database has no order of its rows, and an update of Postgres also sets
`updated_at`.

Rows are dictionaries from field names to scalars. A row also carries the position it was
first loaded at, which none of the code reads: it names the row in statements.
-/

namespace UserTgBot.Maintenance

open PyValue

/-- `result_field == a_field - b_field`. -/
structure ConsistencyRule where
  resultField : String
  aField : String
  bField : String
deriving DecidableEq

structure CheckConfig where
  name : String
  idField : String := "id"
  uniqueId : Bool := true
  requiredFields : List String := []
  duplicateKeys : List String := []
  orphanField : Option String := none
  sortField : String := "updated_at"
  consistency : Option ConsistencyRule := none
  nullFill : List (String × Value) := []
  csvColumns : Option (List String) := none
deriving DecidableEq

/-- The profile of `reputation_records`. -/
def REPUTATION : CheckConfig where
  name := "reputation"
  requiredFields := ["positive_count", "negative_count"]
  duplicateKeys := ["user_id", "chat_id"]
  orphanField := some "user_id"
  consistency := some ⟨"score", "positive_count", "negative_count"⟩
  nullFill := [("positive_count", .num 0), ("negative_count", .num 0)]

/-- The profile of a contacts dump, whose id repeats across rows. -/
def CONTACTS : CheckConfig where
  name := "contacts"
  idField := "telegram_id"
  uniqueId := false
  requiredFields := ["phone_number"]
  duplicateKeys := ["telegram_id"]
  sortField := "telegram_id"
  csvColumns := some ["telegram_id", "first_name", "username", "phone_number"]

structure Record where
  position : Nat
  fields : String → Option Value

namespace Record

/-- `row.get(field)`. -/
def get (r : Record) (field : String) : Value := (r.fields field).getD .none

/-- `row.update(values)`. -/
def update (r : Record) (values : List (String × Value)) : Record :=
  { r with fields := fun field => (values.lookup field).orElse fun _ => r.fields field }

theorem get_update_of_lookup {r : Record} {values : List (String × Value)} {field : String}
    {v : Value} (h : values.lookup field = some v) : (r.update values).get field = v := by
  simp [get, update, h]

theorem get_update_of_lookup_none {r : Record} {values : List (String × Value)} {field : String}
    (h : values.lookup field = none) : (r.update values).get field = r.get field := by
  simp [get, update, h]

/-- Fields that are not assigned keep their value. -/
theorem get_update_of_ne {r : Record} {values : List (String × Value)} {field : String}
    (h : field ∉ values.map Prod.fst) : (r.update values).get field = r.get field := by
  have hnone : values.lookup field = none := by
    rw [List.lookup_eq_none_iff]
    rintro ⟨name, v⟩ hmem
    simpa using fun heq : field = name => h (List.mem_map.mpr ⟨_, hmem, heq.symm⟩)
  exact get_update_of_lookup_none hnone

end Record

/-- `_is_blank`. -/
def isBlank (v : Value) : Bool := v = .none || v = .str ""

/-- `_consistency_fails`; a missing or non-numeric field is no violation. -/
def consistencyFails (r : Record) (rule : ConsistencyRule) : Bool :=
  let int? (field : String) : Option Int := (r.fields field).bind Value.toInt?
  match int? rule.resultField, int? rule.aField, int? rule.bField with
  | some result, some a, some b => result ≠ a - b
  | _, _, _ => false

namespace CheckConfig

variable (config : CheckConfig)

def rowId (r : Record) : Value := r.get config.idField

/-- Some required field of the row is blank. -/
def hasBlank (r : Record) : Bool := config.requiredFields.any fun f => isBlank (r.get f)

/-- The row refers to a user that does not exist. -/
def isOrphan (userIds : Option (List Value)) (r : Record) : Bool :=
  match config.orphanField, userIds with
  | some field, some ids => field ≠ "" && !ids.contains (r.get field)
  | _, _ => false

def isInconsistent (r : Record) : Bool :=
  !config.hasBlank r && config.consistency.any (consistencyFails r)

/-- The key by which the row is a duplicate of another one. -/
def dupKey (r : Record) : List Value := config.duplicateKeys.map r.get

/-- The rows of one duplicate-key group; nothing is grouped without duplicate keys. -/
def group (records : List Record) (key : List Value) : List Record :=
  if config.duplicateKeys = [] then [] else records.filter fun r => config.dupKey r = key

/-- The keys of the groups with more than one row. -/
def duplicates (records : List Record) : List (List Value) :=
  (records.map config.dupKey).eraseDups.filter fun key => 1 < (config.group records key).length

end CheckConfig

structure CheckReport where
  scanned : Nat
  nullViolations : List Value
  orphans : List Value
  duplicates : List (List Value)
  inconsistentScores : List Value
  orphanCheckSupported : Bool
deriving DecidableEq

/-- `broken_count`: the distinct ids of broken rows, and the groups of duplicates. -/
def CheckReport.brokenCount (report : CheckReport) : Nat :=
  (report.nullViolations ++ report.orphans ++ report.inconsistentScores).eraseDups.length +
    report.duplicates.length

/-- The same rows, and in the same order where there is one. -/
def Arranged (ordered : Bool) (l l' : List Record) : Prop :=
  l.Perm l' ∧ (ordered = true → l = l')

namespace Arranged

variable {ordered : Bool} {l l' l'' : List Record}

theorem of_eq (h : l = l') : Arranged ordered l l' := ⟨h ▸ List.Perm.refl l, fun _ => h⟩

theorem refl (l : List Record) : Arranged ordered l l := of_eq rfl

theorem trans (h : Arranged ordered l l') (h' : Arranged ordered l' l'') :
    Arranged ordered l l'' :=
  ⟨h.1.trans h'.1, fun hordered => (h.2 hordered).trans (h'.2 hordered)⟩

theorem mem_iff (h : Arranged ordered l l') {r : Record} : r ∈ l ↔ r ∈ l' := h.1.mem_iff

end Arranged

/-- The contract of a source of rows with that id field, over its own states `σ`, as far as a fix
with that `null_fill` makes use of it. -/
structure DataSource (σ : Type) (idField : String) (nullFill : List (String × Value)) where
  loadRecords : σ → List Record
  loadUserIds : σ → Option (List Value)
  applyFixes : σ → List Value → List (Value × List (String × Value)) → σ
  replaceAll : σ → List Record → σ
  /-- Rows come in the order in which they were written. A database promises none. -/
  ordered : Bool
  /-- `null_fill` as it is read from the fields that it has been written to. -/
  filling : List (String × Value)
  /-- What an update sets besides the fields that it is given. -/
  stamps : σ → List (String × Value)
  filling_blank : filling.map (fun e => (e.1, isBlank e.2)) =
    nullFill.map fun e => (e.1, isBlank e.2)
  /-- Rows are deleted and patched by id. -/
  loadRecords_applyFixes : ∀ s deleteIds updates, (∀ update ∈ updates, update.2 = nullFill) →
    Arranged ordered (loadRecords (applyFixes s deleteIds updates))
      ((loadRecords s |>.filter fun r => r.get idField ∉ deleteIds).map fun r =>
        if r.get idField ∈ updates.map Prod.fst then r.update (filling ++ stamps s) else r)
  /-- Some of the rows, a few of them filled, take the place of all. -/
  loadRecords_replaceAll : ∀ s (rows : List (Record × Bool)),
    (rows.map Prod.fst).Sublist (loadRecords s) →
      Arranged ordered
        (loadRecords (replaceAll s (rows.map fun row =>
          if row.2 then row.1.update nullFill else row.1)))
        (rows.map fun row => if row.2 then row.1.update filling else row.1)
  loadUserIds_applyFixes : ∀ s deleteIds updates,
    loadUserIds (applyFixes s deleteIds updates) = loadUserIds s
  loadUserIds_replaceAll : ∀ s records, loadUserIds (replaceAll s records) = loadUserIds s

/-- A dictionary whose values are replaced. -/
theorem lookup_map_values {β γ : Type} (g : String → β → γ) (l : List (String × β))
    (field : String) :
    (l.map fun e => (e.1, g e.1 e.2)).lookup field = (l.lookup field).map (g field) := by
  induction l with
  | nil => rfl
  | cons e l ih =>
      obtain ⟨name, v⟩ := e
      rw [List.map_cons, List.lookup_cons, List.lookup_cons, ih]
      by_cases heq : field = name
      · simp [heq]
      · have hbeq : (field == name) = false := beq_eq_false_iff_ne.mpr heq
        simp only [hbeq]

/-- Where all updates are the same, only the ids count. -/
theorem lookup_of_forall {updates : List (Value × List (String × Value))}
    {values : List (String × Value)} (h : ∀ update ∈ updates, update.2 = values) (v : Value) :
    updates.lookup v = if v ∈ updates.map Prod.fst then some values else none := by
  induction updates with
  | nil => rfl
  | cons update updates ih =>
      obtain ⟨hfirst, hrest⟩ := List.forall_mem_cons.mp h
      obtain ⟨id, fields⟩ := update
      rw [List.lookup_cons, ih hrest, List.map_cons]
      by_cases heq : v = id
      · simp [heq, show fields = values from hfirst]
      · have hbeq : (v == id) = false := beq_eq_false_iff_ne.mpr heq
        rw [hbeq, if_congr (List.mem_cons.trans (or_iff_right heq)) rfl rfl]

/-- A list of rows in memory, with the ids of the users. -/
def memorySource (userIds : Option (List Value)) (config : CheckConfig) :
    DataSource (List Record) config.idField config.nullFill where
  loadRecords records := records
  loadUserIds _ := userIds
  applyFixes records deleteIds updates :=
    (records.filter fun r => config.rowId r ∉ deleteIds).map fun r =>
      match updates.lookup (config.rowId r) with
      | some values => r.update values
      | none => r
  replaceAll _ records := records
  ordered := true
  filling := config.nullFill
  stamps _ := []
  filling_blank := rfl
  loadRecords_applyFixes records deleteIds updates h := by
    refine .of_eq (List.map_congr_left fun r _ => ?_)
    rw [CheckConfig.rowId, lookup_of_forall h]
    split
    · rename_i heq
      obtain ⟨hmem, hvalues⟩ := Option.ite_none_right_eq_some.mp heq
      rw [if_pos hmem, List.append_nil, Option.some.inj hvalues]
    · rename_i heq
      rw [if_neg fun hmem => by rw [if_pos hmem] at heq; cases heq]
  loadRecords_replaceAll _ _ _ := .refl _
  loadUserIds_applyFixes _ _ _ := rfl
  loadUserIds_replaceAll _ _ := rfl

section Check

variable {σ : Type} (config : CheckConfig)
  (source : DataSource σ config.idField config.nullFill)

/-- The user ids that orphans are checked against, if the profile asks for them. -/
def userIds (s : σ) : Option (List Value) :=
  if config.orphanField.any (· ≠ "") then source.loadUserIds s else none

/-- `run_check`. -/
def runCheck (s : σ) : CheckReport :=
  let records := source.loadRecords s
  let ids := userIds config source s
  { scanned := records.length
    nullViolations := (records.filter config.hasBlank).map config.rowId
    orphans := (records.filter (config.isOrphan ids)).map config.rowId
    duplicates := config.duplicates records
    inconsistentScores := (records.filter config.isInconsistent).map config.rowId
    orphanCheckSupported := config.orphanField.isSome && ids.isSome }

end Check

/-! ## What a report says -/

section Report

variable {config : CheckConfig} {records : List Record} {key : List Value}

theorem mem_group {r : Record} : r ∈ config.group records key ↔
    config.duplicateKeys ≠ [] ∧ r ∈ records ∧ config.dupKey r = key := by
  rw [CheckConfig.group]
  split <;> simp [*]

theorem group_eq (h : config.duplicateKeys ≠ []) :
    config.group records key = records.filter fun r => config.dupKey r = key :=
  if_neg h

/-- A group is reported if it has two members. -/
theorem mem_duplicates : key ∈ config.duplicates records ↔
    1 < (config.group records key).length := by
  simp only [CheckConfig.duplicates, List.mem_filter, List.mem_eraseDups, List.mem_map,
    decide_eq_true_eq, and_iff_right_iff_imp]
  intro hlength
  obtain ⟨r, hr⟩ := List.exists_mem_of_length_pos (Nat.lt_trans Nat.zero_lt_one hlength)
  exact ⟨r, (mem_group.mp hr).2⟩

/-- Nothing is counted as broken only if nothing is listed. -/
theorem brokenCount_eq_zero {report : CheckReport} : report.brokenCount = 0 ↔
    report.nullViolations = [] ∧ report.orphans = [] ∧ report.inconsistentScores = [] ∧
      report.duplicates = [] := by
  rw [CheckReport.brokenCount]
  have hdups : ∀ l : List Value, l.eraseDups.length = 0 ↔ l = [] := by
    intro l
    rw [List.length_eq_zero_iff]
    constructor
    · intro h
      refine List.eq_nil_iff_forall_not_mem.mpr fun v hv => ?_
      have hmem := List.mem_eraseDups.mpr hv
      rw [h] at hmem
      cases hmem
    · rintro rfl
      rfl
  rw [Nat.add_eq_zero_iff, hdups, List.append_eq_nil_iff, List.append_eq_nil_iff,
    List.length_eq_zero_iff, and_assoc, and_assoc]

end Report

end UserTgBot.Maintenance
