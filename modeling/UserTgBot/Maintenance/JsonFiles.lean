import UserTgBot.Library.JsonText
import UserTgBot.Library.TextFile
import UserTgBot.Library.Transition
import UserTgBot.Maintenance.Check
import UserTgBot.Maintenance.Sources

/-!
# JSON files

`db_maintenance/sources/json_source.py` and the files of `db_maintenance/backup.py`, down to
their texts. A source reads its file, finds the records in one of three shapes, and writes the
whole file anew. `run_eq` says that a run of fixes and restores on the file is the run on the
list of its records: the file always reads as it did at first, with only the records replaced.
Its runs bring with them only values that can be written and read again; `Issued.regular` says
that this is so of everything that the commands do to a file. `restore_backup` is what a backup is for: the file that has been backed up can be brought back
whatever has been written since. `run_backup` follows a backup that is itself fixed as a source.
-/

namespace UserTgBot.Maintenance.JsonFiles

open PyText (Text TextFile Timestamp text Scalar)
open JsonText

variable {φ : Type}

/-- A dictionary. -/
abbrev Entries (φ : Type) := List (Text × Value φ)

namespace Entries

/-- `row.get(key)`. -/
def get (row : Entries φ) (key : Text) : Value φ := (row.lookup key).getD .null

/-- `row.update(values)`. -/
def update (row values : Entries φ) : Entries φ :=
  values.foldl (fun row e => setItem e.1 e.2 row) row

end Entries

/-- The values that `for x in value` runs through; nothing if it raises. -/
def elements : Value φ → Option (List (Value φ))
  | .list vs => some vs
  | .str s => some (s.map fun c => .str [c])
  | .dict es => some (es.map fun e => .str e.1)
  | _ => none

/-- A value with a method `get`. -/
def asDict : Value φ → Option (Entries φ)
  | .dict es => some es
  | _ => none

/-- Lists and dictionaries are no elements of a set. -/
def isHashable : Value φ → Bool
  | .list _ => false
  | .dict _ => false
  | _ => true

/-! ## The source -/

section Source

variable (floats : Floats φ)

/-- `_read`; a missing file counts as an empty list. -/
def readData (file : Option TextFile) : Option (Value φ) :=
  match file with
  | none => some (.list [])
  | some file => loads floats file.read

def recordsKey : Text := text "reputation_records"

def rowsKey : Text := text "rows"

/-- `_extract`. -/
def extract : Value φ → Option (Value φ × Option (Value φ))
  | .list vs => some (.list vs, none)
  | .dict es =>
      match es.lookup recordsKey with
      | some records => some (records, es.lookup (text "users"))
      | none => (es.lookup rowsKey).map fun rows => (rows, none)
  | _ => none

def loadRecords (file : Option TextFile) : Option (Value φ) :=
  (readData floats file).bind fun data => (extract data).map Prod.fst

/-- The ids of a list of users. -/
def userIds (users : Value φ) : Option (List (Value φ)) :=
  ((elements users).bind fun us =>
    us.mapM fun u => (asDict u).bind fun es => es.lookup (text "id")).bind fun ids =>
      if ids.all isHashable then some ids else none

/-- The outer option is empty if it raises. -/
def loadUserIds (file : Option TextFile) : Option (Option (List (Value φ))) :=
  ((readData floats file).bind extract).bind fun extracted =>
    match extracted.2 with
    | none => some none
    | some .null => some none
    | some users => (userIds users).map some

/-- What `_write` writes. -/
def setRecords (records : Value φ) : Value φ → Option (Value φ)
  | .list _ => some records
  | .dict es =>
      if (es.lookup recordsKey).isSome then some (.dict (setItem recordsKey records es))
      else some (.dict (setItem rowsKey records es))
  | _ => none

/-- `write_text` of `json.dumps(data, indent=2, default=str)`. -/
def put (data : Value φ) : Option TextFile := (dumps floats (some 2) data).bind TextFile.write

/-- `_write`. -/
def write (records : Value φ) (file : Option TextFile) : Option TextFile :=
  ((readData floats file).bind (setRecords records)).bind (put floats)

/-- `delete_ids` and `updates`, as far as `apply_fixes` asks for them. -/
structure Fixes (φ : Type) where
  deleted : Value φ → Bool
  updates : Value φ → Option (Entries φ)

/-- A row that is kept, patched where there is an update for it. The update is asked for with
`row.get(id_field)`, but taken with `row[id_field]`, which raises where the row has no id. -/
def Fixes.patch (fixes : Fixes φ) (idField : Text) (row : Entries φ) : Option (Entries φ) :=
  if (fixes.updates (row.get idField)).isSome then
    ((row.lookup idField).bind fixes.updates).map row.update
  else some row

/-- The rows that a fix writes; nothing if it raises. -/
def Fixes.rows (fixes : Fixes φ) (idField : Text) (rows : List (Entries φ)) :
    Option (List (Entries φ)) :=
  (rows.filter fun row => !fixes.deleted (row.get idField)).mapM (fixes.patch idField)

/-- What `apply_fixes` makes of the records; nothing if it raises. -/
def Fixes.apply (fixes : Fixes φ) (idField : Text) (records : Value φ) : Option (Value φ) :=
  ((elements records).bind fun vs => vs.mapM asDict).bind fun rows =>
    if rows.all fun row => isHashable (row.get idField) then
      (fixes.rows idField rows).map fun rows => .list (rows.map .dict)
    else none

def applyFixes (idField : Text) (fixes : Fixes φ) (file : Option TextFile) : Option TextFile :=
  ((loadRecords floats file).bind (fixes.apply idField)).bind fun records =>
    write floats records file

/-- `replace_all` of a list of rows. -/
def replaceAll (rows : List (Value φ)) (file : Option TextFile) : Option TextFile :=
  write floats (.list rows) file

/-! ## Backups -/

/-- A value of a row, as `json.dumps` finds it. -/
inductive Cell (φ : Type) where
  | json (v : Value φ)
  | datetime (t : Timestamp)
  | bytes (bs : List UInt8)
  /-- Anything else, with what `str` makes of it. -/
  | other (s : Text)

/-- `value.hex()`. -/
def hex (bs : List UInt8) : Text :=
  bs.flatMap fun b => [hexDigit (b.toNat / 16), hexDigit b.toNat]

/-- `_default`, and values that need none. -/
def Cell.value : Cell φ → Value φ
  | .json v => v
  | .datetime t => .str t.isoformat
  | .bytes bs => .str (hex bs)
  | .other s => .str s

/-- The content of a backup. -/
def snapshot (label createdAt : Text) (rows : Value φ) : Value φ :=
  .dict [(text "source", .str label), (text "created_at", .str createdAt), (rowsKey, rows)]

/-- The file that `backup_records` writes, for rows that have been through `_default`. -/
def backupFile (label createdAt : Text) (rows : Value φ) : Option TextFile :=
  (dumps floats none (snapshot label createdAt rows)).bind TextFile.write

/-- `json.loads(path.read_text(encoding="utf-8"))["rows"]`. -/
def backedRows (file : TextFile) : Option (Value φ) :=
  ((loads floats file.read).bind asDict).bind fun es => es.lookup rowsKey

end Source

/-! ## Writing and reading a file -/

section Files

variable {floats : Floats φ} {v : Value φ}

theorem scalar_of_written {indent : Option Nat} {s : Text} (h : ∀ c ∈ s, Written indent c) :
    Scalar s ∧ PyText.ofChar '\r' ∉ s := by
  refine ⟨fun c hc => ?_, fun hc => ?_⟩
  · rcases h c hc with hprintable | ⟨-, rfl⟩
    · rw [PyText.isSurrogate, Bool.and_eq_false_iff, decide_eq_false_iff_not]
      have hhigh := hprintable.2
      exact .inl (by omega)
    · decide
  · rcases h _ hc with hprintable | ⟨-, heq⟩
    · exact absurd hprintable (by decide)
    · exact absurd heq (by decide)

/-- A value that has been written to a file is read from it. -/
theorem written_read (floats : Floats φ) (indent : Option Nat) (regular : v.Regular) :
    ∃ file, (dumps floats indent v).bind TextFile.write = some file ∧
      loads floats file.read = some v := by
  obtain ⟨s, hdumps, hloads⟩ := loads_dumps floats indent regular
  obtain ⟨hscalar, hreturn⟩ := scalar_of_written (written_dumps floats indent hdumps)
  obtain ⟨file, hwrite, hread⟩ := TextFile.read_write hscalar hreturn
  refine ⟨file, ?_, ?_⟩
  · rw [hdumps]
    exact hwrite
  · rw [hread]
    exact hloads

theorem regular_readData {file : Option TextFile} (h : readData floats file = some v) :
    v.Regular := by
  cases file with
  | none =>
      cases h
      rfl
  | some file => exact regular_of_loads floats file.scalar_read h

end Files

/-! ## The records of a file -/

section Records

variable {data data' records users v : Value φ} {us : Option (Value φ)}

theorem setRecords_some {es : Entries φ} (h : es.lookup recordsKey = some v)
    (records : Value φ) :
    setRecords records (.dict es) = some (.dict (setItem recordsKey records es)) := by
  rw [setRecords, h]
  rfl

theorem setRecords_none {es : Entries φ} (h : es.lookup recordsKey = none) (records : Value φ) :
    setRecords records (.dict es) = some (.dict (setItem rowsKey records es)) := by
  rw [setRecords, h]
  rfl

/-- A dictionary has its records under the first key, or else under the second. -/
theorem extract_dict {es : Entries φ} (h : extract (.dict es) = some (records, us)) :
    es.lookup recordsKey = some records ∧ us = es.lookup (text "users") ∨
      es.lookup recordsKey = none ∧ es.lookup rowsKey = some records ∧ us = none := by
  rw [extract] at h
  cases hkey : es.lookup recordsKey with
  | some ws =>
      rw [hkey] at h
      cases h
      exact .inl ⟨rfl, rfl⟩
  | none =>
      rw [hkey] at h
      obtain ⟨ws, hrows, h⟩ := Option.map_eq_some_iff.mp h
      cases h
      exact .inr ⟨rfl, hrows, rfl⟩

/-- Where there are records, they can be replaced, and are found again. -/
theorem setRecords_of_extract (h : extract data = some (records, us)) (vs : List (Value φ)) :
    ∃ data', setRecords (.list vs) data = some data' ∧
      extract data' = some (.list vs, us) := by
  cases data with
  | list ws =>
      cases h
      exact ⟨.list vs, rfl, rfl⟩
  | dict es =>
      rcases extract_dict h with ⟨hkey, rfl⟩ | ⟨hkey, -, rfl⟩
      · refine ⟨_, setRecords_some hkey _, ?_⟩
        have husers : text "users" ≠ recordsKey := by decide
        rw [extract, lookup_setItem, if_pos rfl, lookup_setItem, if_neg husers]
      · refine ⟨_, setRecords_none hkey _, ?_⟩
        have hne : recordsKey ≠ rowsKey := by decide
        have hrows : (setItem rowsKey (.list vs) es).lookup rowsKey = some (.list vs) := by
          rw [lookup_setItem, if_pos rfl]
        rw [extract, lookup_setItem, if_neg hne, hkey, hrows]
        rfl
  | null | bool | int | float | str => cases h

/-- The records that are there already change nothing. -/
theorem setRecords_self (h : extract data = some (records, us)) :
    setRecords records data = some data := by
  cases data with
  | list ws =>
      cases h
      rfl
  | dict es =>
      rcases extract_dict h with ⟨hkey, -⟩ | ⟨hkey, hrows, -⟩
      · rw [setRecords_some hkey, setItem_self hkey]
      · rw [setRecords_none hkey, setItem_self hrows]
  | null | bool | int | float | str => cases h

/-- Only the records that are written last count. -/
theorem setRecords_setRecords {vs : List (Value φ)} (hset : setRecords (.list vs) data = some data')
    (records : Value φ) : setRecords records data' = setRecords records data := by
  cases data with
  | list ws =>
      cases hset
      rfl
  | dict es =>
      cases hkey : es.lookup recordsKey with
      | some ws =>
          rw [setRecords_some hkey] at hset
          cases hset
          have hkey' : (setItem recordsKey (.list vs) es).lookup recordsKey = some (.list vs) := by
            rw [lookup_setItem, if_pos rfl]
          rw [setRecords_some hkey', setRecords_some hkey, setItem_setItem]
      | none =>
          rw [setRecords_none hkey] at hset
          cases hset
          have hne : recordsKey ≠ rowsKey := by decide
          have hkey' : (setItem rowsKey (.list vs) es).lookup recordsKey = none := by
            rw [lookup_setItem, if_neg hne, hkey]
          rw [setRecords_none hkey', setRecords_none hkey, setItem_setItem]
  | null | bool | int | float | str => cases hset

theorem regular_dict_iff {es : Entries φ} : (Value.dict es).Regular ↔
    (es.map Prod.fst).Nodup ∧ ∀ e ∈ es, Joined e.1 ∧ e.2.Regular := by
  constructor
  · intro h
    rw [Value.Regular, Value.all, Bool.and_eq_true, Bool.and_eq_true] at h
    obtain ⟨⟨-, hplain⟩, hall⟩ := h
    have hkeys := of_decide_eq_true hplain
    exact ⟨hkeys.1, fun e he => ⟨hkeys.2 e he, Value.allEntries_iff.mp hall e he⟩⟩
  · rintro ⟨hnodup, hentries⟩
    exact regular_dict hnodup hentries

theorem regular_list_iff {vs : List (Value φ)} :
    (Value.list vs).Regular ↔ ∀ v ∈ vs, v.Regular := by
  constructor
  · intro h
    rw [Value.Regular, Value.all, Bool.and_eq_true] at h
    exact Value.allElements_iff.mp h.2
  · exact regular_list

theorem regular_setItem {es : Entries φ} (h : (Value.dict es).Regular) {key : Text}
    (hkey : Joined key) (hv : v.Regular) : (Value.dict (setItem key v es)).Regular := by
  obtain ⟨hnodup, hentries⟩ := regular_dict_iff.mp h
  refine regular_dict_iff.mpr ⟨nodup_setItem hnodup key v, fun e he => ?_⟩
  rcases mem_setItem he with rfl | he
  · exact ⟨hkey, hv⟩
  · exact hentries e he

theorem regular_setRecords (hdata : data.Regular) (hrecords : records.Regular)
    (h : setRecords records data = some data') : data'.Regular := by
  cases data with
  | list ws =>
      cases h
      exact hrecords
  | dict es =>
      rw [setRecords] at h
      split at h
      · cases h
        exact regular_setItem hdata (by decide) hrecords
      · cases h
        exact regular_setItem hdata (by decide) hrecords
  | null | bool | int | float | str => cases h

theorem regular_lookup {es : Entries φ} {key : Text} (hes : (Value.dict es).Regular)
    (h : es.lookup key = some v) : v.Regular := by
  obtain ⟨front, behind, hsplit, -⟩ := List.lookup_eq_some_iff.mp h
  have hmem : (key, v) ∈ es := by
    rw [hsplit]
    exact List.mem_append_right _ List.mem_cons_self
  exact ((regular_dict_iff.mp hes).2 _ hmem).2

theorem regular_of_extract (hdata : data.Regular) (h : extract data = some (records, us)) :
    records.Regular := by
  cases data with
  | list ws =>
      cases h
      exact hdata
  | dict es =>
      rcases extract_dict h with ⟨hkey, -⟩ | ⟨-, hrows, -⟩
      · exact regular_lookup hdata hkey
      · exact regular_lookup hdata hrows
  | null | bool | int | float | str => cases h

end Records

/-! ## Fixes -/

section Fixes

variable {fixes : Fixes φ} {idField : Text} {records records' : Value φ}

/-- A patch raises exactly for a row without an id, where there is an update for `None`. -/
theorem Fixes.patch_eq_none_iff {row : Entries φ} : fixes.patch idField row = none ↔
    row.lookup idField = none ∧ (fixes.updates .null).isSome := by
  cases hid : row.lookup idField with
  | none =>
      have hget : row.get idField = .null := by rw [Entries.get, hid, Option.getD_none]
      rw [Fixes.patch, hget, hid, and_iff_right rfl]
      split
      · next hupdate => exact iff_of_true rfl hupdate
      · next hupdate => exact iff_of_false (Option.some_ne_none row) hupdate
  | some id =>
      have hget : row.get idField = id := by rw [Entries.get, hid, Option.getD_some]
      refine iff_of_false ?_ fun h => Option.some_ne_none id h.1
      rw [Fixes.patch, hget, hid, Option.bind_some]
      split
      · next hupdate =>
          obtain ⟨values, hvalues⟩ := Option.isSome_iff_exists.mp hupdate
          rw [hvalues]
          exact Option.some_ne_none _
      · exact Option.some_ne_none row

theorem mapM_eq_none_iff {α β : Type} {f : α → Option β} {xs : List α} :
    xs.mapM f = none ↔ ∃ x ∈ xs, f x = none := by
  induction xs with
  | nil => exact iff_of_false (Option.some_ne_none _) fun ⟨_, hx, _⟩ => List.not_mem_nil hx
  | cons x xs ih =>
      rw [List.mapM_cons, List.exists_mem_cons_iff, ← ih]
      cases f x with
      | none => exact iff_of_true rfl (.inl rfl)
      | some y =>
          rw [or_iff_right (Option.some_ne_none y)]
          cases xs.mapM f with
          | none => exact iff_of_true rfl rfl
          | some ys => exact iff_of_false (Option.some_ne_none _) (Option.some_ne_none _)

/-- A fix of rows raises exactly if there is an update for `None`, which is not deleted, and a
row that has no id. -/
theorem Fixes.rows_eq_none_iff {rows : List (Entries φ)} : fixes.rows idField rows = none ↔
    fixes.deleted .null = false ∧ (fixes.updates .null).isSome ∧
      ∃ row ∈ rows, row.lookup idField = none := by
  have hnull : ∀ {row : Entries φ}, row.lookup idField = none → row.get idField = .null := by
    intro row hid
    rw [Entries.get, hid, Option.getD_none]
  rw [Fixes.rows, mapM_eq_none_iff]
  constructor
  · rintro ⟨row, hrow, hpatch⟩
    obtain ⟨hid, hupdate⟩ := fixes.patch_eq_none_iff.mp hpatch
    obtain ⟨hmem, hkept⟩ := List.mem_filter.mp hrow
    rw [hnull hid, Bool.not_eq_true'] at hkept
    exact ⟨hkept, hupdate, row, hmem, hid⟩
  · rintro ⟨hkept, hupdate, row, hmem, hid⟩
    refine ⟨row, List.mem_filter.mpr ⟨hmem, ?_⟩, fixes.patch_eq_none_iff.mpr ⟨hid, hupdate⟩⟩
    rw [hnull hid, hkept]
    rfl

/-- The values of the updates can be written and read again. -/
def Fixes.Regular (fixes : Fixes φ) : Prop :=
  ∀ v values, fixes.updates v = some values → ∀ e ∈ values, Joined e.1 ∧ e.2.Regular

/-- With only one update, which is regular, a fix is. -/
theorem Fixes.regular_of_same {values : Entries φ}
    (hvalues : ∀ e ∈ values, Joined e.1 ∧ e.2.Regular)
    (same : ∀ id update, fixes.updates id = some update → update = values) : fixes.Regular := by
  intro id update hupdate
  rw [same id update hupdate]
  exact hvalues

theorem regular_update {row values : Entries φ} (hrow : (Value.dict row).Regular)
    (hvalues : ∀ e ∈ values, Joined e.1 ∧ e.2.Regular) :
    (Value.dict (row.update values)).Regular := by
  have hfold : ∀ row : Entries φ, (Value.dict row).Regular →
      (Value.dict (values.foldl (fun row e => setItem e.1 e.2 row) row)).Regular := by
    clear hrow
    induction values with
    | nil => exact fun _ h => h
    | cons e values ih =>
        intro row hrow
        obtain ⟨he, hrest⟩ := List.forall_mem_cons.mp hvalues
        exact ih hrest _ (regular_setItem hrow he.1 he.2)
  exact hfold row hrow

/-- Every element of the result comes from an element of the list. -/
theorem exists_of_mapM {α β : Type} {f : α → Option β} {xs : List α} {ys : List β}
    (h : xs.mapM f = some ys) : ∀ y ∈ ys, ∃ x ∈ xs, f x = some y := by
  induction xs generalizing ys with
  | nil =>
      cases h
      exact fun _ hy => absurd hy List.not_mem_nil
  | cons x xs ih =>
      rw [List.mapM_cons] at h
      obtain ⟨first, hfirst, h⟩ := Option.bind_eq_some_iff.mp h
      obtain ⟨rest, hrest, h⟩ := Option.bind_eq_some_iff.mp h
      cases h
      intro y hy
      rcases List.mem_cons.mp hy with rfl | hy
      · exact ⟨x, List.mem_cons_self, hfirst⟩
      · obtain ⟨x', hx', heq⟩ := ih hrest y hy
        exact ⟨x', List.mem_cons_of_mem _ hx', heq⟩

theorem mem_of_mapM_asDict {vs : List (Value φ)} {rows : List (Entries φ)}
    (h : vs.mapM asDict = some rows) : ∀ row ∈ rows, .dict row ∈ vs := by
  intro row hrow
  obtain ⟨v, hv, hdict⟩ := exists_of_mapM h row hrow
  cases v with
  | dict es =>
      cases hdict
      exact hv
  | null | bool | int | float | str | list => cases hdict

/-- A row among the records is as regular as they are. -/
theorem regular_of_elements {vs : List (Value φ)} {row : Entries φ} (hrecords : records.Regular)
    (h : elements records = some vs) (hrow : .dict row ∈ vs) : (Value.dict row).Regular := by
  cases records with
  | list ws =>
      cases h
      exact regular_list_iff.mp hrecords _ hrow
  | str s =>
      cases h
      obtain ⟨c, -, hc⟩ := List.mem_map.mp hrow
      cases hc
  | dict es =>
      cases h
      obtain ⟨e, -, he⟩ := List.mem_map.mp hrow
      cases he
  | null | bool | int | float => cases h

theorem Fixes.patch_regular (hfixes : fixes.Regular) {row row' : Entries φ}
    (hrow : (Value.dict row).Regular) (h : fixes.patch idField row = some row') :
    (Value.dict row').Regular := by
  rw [Fixes.patch] at h
  split at h
  · obtain ⟨values, hvalues, rfl⟩ := Option.map_eq_some_iff.mp h
    obtain ⟨id, -, hupdates⟩ := Option.bind_eq_some_iff.mp hvalues
    exact regular_update hrow (hfixes id values hupdates)
  · cases h
    exact hrow

/-- What a fix writes is a list of values that can be read again. -/
theorem Fixes.apply_regular (hfixes : fixes.Regular) (hrecords : records.Regular)
    (h : fixes.apply idField records = some records') :
    ∃ vs, records' = .list vs ∧ records'.Regular := by
  obtain ⟨rows, hrows, h⟩ := Option.bind_eq_some_iff.mp h
  obtain ⟨vs, helements, hdicts⟩ := Option.bind_eq_some_iff.mp hrows
  obtain ⟨-, h⟩ := Option.ite_none_right_eq_some.mp h
  obtain ⟨written, hwritten, rfl⟩ := Option.map_eq_some_iff.mp h
  refine ⟨_, rfl, regular_list fun v hv => ?_⟩
  obtain ⟨row, hrow, rfl⟩ := List.mem_map.mp hv
  obtain ⟨old, hold, hpatch⟩ := exists_of_mapM hwritten row hrow
  have hmem := mem_of_mapM_asDict hdicts old (List.mem_of_mem_filter hold)
  exact fixes.patch_regular hfixes (regular_of_elements hrecords helements hmem) hpatch

end Fixes

/-! ## A file -/

def rating (score : Value φ) : Value φ := .dict [(text "id", .int 1), (text "score", score)]

/-- The first of these records lacks its score. -/
def ratings : List (Value φ) := [rating .null, .dict [(text "id", .int 2)]]

def ratingsData (records : List (Value φ)) : Value φ :=
  .dict [(recordsKey, .list records), (text "users", .list [.dict [(text "id", .int 1)]])]

def ratingsFile : TextFile where
  content := text "\x7b\"reputation_records\": [\x7b\"id\": 1, \"score\": null\x7d, \x7b\"id\": 2\x7d], \"users\": [\x7b\"id\": 1\x7d]\x7d"
  scalar := by decide +kernel

theorem ratingsFile_read :
    readData literalFloats (some ratingsFile) = some (ratingsData ratings) := by
  obtain ⟨s, hdumps, hloads⟩ := loads_dumps literalFloats none
    (show (ratingsData ratings).Regular by decide +kernel)
  have hcontent : dumps literalFloats none (ratingsData ratings) = some ratingsFile.read := by
    decide +kernel
  rw [readData, ← Option.some.inj (hdumps.symm.trans hcontent)]
  exact hloads

def hasId (n : Int) : Value φ → Bool
  | .int m => m = n
  | _ => false

/-- The second record goes, and the first gets a score. -/
def ratingsFixes : Fixes φ where
  deleted := hasId 2
  updates v := if hasId 1 v then some [(text "score", .int 0)] else none

theorem ratingsFixes_regular : (ratingsFixes : Fixes φ).Regular := by
  have hkey : Joined (text "score") := by decide
  have hvalues : ∀ e ∈ [(text "score", (Value.int 0 : Value φ))], Joined e.1 ∧ e.2.Regular :=
    List.forall_mem_singleton.mpr ⟨hkey, rfl⟩
  refine Fixes.regular_of_same hvalues fun id update hupdate => ?_
  exact (Option.some.inj (Option.ite_none_right_eq_some.mp hupdate).2).symm

/-! ## Runs -/

/-- What is done to a source: a fix, or a restore of these rows. -/
inductive Op (φ : Type) where
  | fix (fixes : Fixes φ)
  | restore (rows : List (Value φ))

/-- All that an operation brings with it can be written and read again. -/
def Op.Regular : Op φ → Prop
  | .fix fixes => fixes.Regular
  | .restore rows => ∀ v ∈ rows, v.Regular

def ratingsOps : List (Op φ) := [.fix ratingsFixes]

theorem ratingsOps_regular : ∀ op ∈ (ratingsOps : List (Op φ)), op.Regular :=
  List.forall_mem_singleton.mpr ratingsFixes_regular

section Runs

variable (floats : Floats φ) (idField : Text)

/-- An operation on the file; nothing if it raises. -/
def step (file : Option TextFile) : Op φ → Option (Option TextFile)
  | .fix fixes => (applyFixes floats idField fixes file).map some
  | .restore rows => (replaceAll floats rows file).map some

/-- The same operation on the records alone. -/
def recordsStep (records : Value φ) : Op φ → Option (Value φ)
  | .fix fixes => fixes.apply idField records
  | .restore rows => some (.list rows)

variable {floats}
variable {file : Option TextFile} {data records : Value φ} {us : Option (Value φ)}

theorem recordsStep_regular {op : Op φ} (hop : op.Regular) (hrecords : records.Regular)
    {records' : Value φ} (h : recordsStep idField records op = some records') :
    ∃ vs, records' = .list vs ∧ records'.Regular := by
  cases op with
  | fix fixes => exact fixes.apply_regular hop hrecords h
  | restore rows =>
      cases h
      exact ⟨rows, rfl, regular_list hop⟩

/-- A list of records is written into the file, and read from it. -/
theorem write_eq (hdata : readData floats file = some data)
    (hextract : extract data = some (records, us)) {vs : List (Value φ)}
    (hvs : (Value.list vs).Regular) : ∃ file' data', write floats (.list vs) file = some file' ∧
      setRecords (.list vs) data = some data' ∧ readData floats (some file') = some data' ∧
        extract data' = some (.list vs, us) := by
  obtain ⟨data', hset, hextract'⟩ := setRecords_of_extract hextract vs
  have hregular : data'.Regular := regular_setRecords (regular_readData hdata) hvs hset
  obtain ⟨file', hput, hread⟩ := written_read floats (some 2) hregular
  refine ⟨file', data', ?_, hset, hread, hextract'⟩
  rw [write, hdata, Option.bind_some, hset]
  exact hput

theorem step_eq (hdata : readData floats file = some data)
    (hextract : extract data = some (records, us)) (op : Op φ) :
    step floats idField file op =
      (recordsStep idField records op).bind fun records' => (write floats records' file).map some := by
  have hload : loadRecords floats file = some records := by
    rw [loadRecords, hdata, Option.bind_some, hextract]
    rfl
  cases op with
  | fix fixes =>
      rw [step, applyFixes, hload, Option.bind_some, recordsStep, Option.map_bind]
      rfl
  | restore rows => rfl

/-- What a source answers: the data of its file, its records and the ids of its users. -/
def view (floats : Floats φ) (file : Option TextFile) :
    Option (Value φ) × Option (Value φ) × Option (Option (List (Value φ))) :=
  (readData floats file, loadRecords floats file, loadUserIds floats file)

theorem view_eq {file' : Option TextFile} {data' : Value φ} (hdata : readData floats file = some data)
    (hextract : extract data = some (records, us)) (hdata' : readData floats file' = some data')
    {records' : Value φ} (hextract' : extract data' = some (records', us)) :
    view floats file' = (some data', some records', loadUserIds floats file) := by
  simp only [view, loadRecords, loadUserIds, hdata', hdata, Option.bind_some, hextract', hextract,
    Option.map_some]

/-- A run on a file is the run on its records: the file reads as it did at first, but for the
records, and where the one raises, the other does. -/
theorem run_eq (hdata : readData floats file = some data)
    (hextract : extract data = some (records, us)) {ops : List (Op φ)}
    (hops : ∀ op ∈ ops, op.Regular) :
    (Transition.exec (step floats idField) file ops).map (view floats) =
      (Transition.exec (recordsStep idField) records ops).map fun records' =>
        (setRecords records' data, some records', loadUserIds floats file) := by
  -- the file read now, which is the first one with the records replaced
  have hrun : ∀ (ops : List (Op φ)) (file' : Option TextFile) (data' records' : Value φ),
      (∀ op ∈ ops, op.Regular) → readData floats file' = some data' →
      extract data' = some (records', us) →
      (∀ r, setRecords r data' = setRecords r data) →
      (Transition.exec (step floats idField) file' ops).map (view floats) =
        (Transition.exec (recordsStep idField) records' ops).map fun r =>
          (setRecords r data, some r, loadUserIds floats file) := by
    intro ops
    induction ops with
    | nil =>
        intro file' data' records' _ hdata' hextract' hsame
        rw [Transition.exec_nil, Transition.exec_nil, Option.map_some, Option.map_some,
          view_eq hdata hextract hdata' hextract', ← hsame, setRecords_self hextract']
    | cons op ops ih =>
        intro file' data' records' hops hdata' hextract' hsame
        obtain ⟨hop, hrest⟩ := List.forall_mem_cons.mp hops
        rw [Transition.exec, Transition.exec, step_eq idField hdata' hextract']
        cases hrecords : recordsStep idField records' op with
        | none => rfl
        | some next =>
            have hregular := regular_of_extract (regular_readData hdata') hextract'
            obtain ⟨vs, rfl, hvs⟩ := recordsStep_regular idField hop hregular hrecords
            obtain ⟨file'', data'', hwrite, hset, hread, hextract''⟩ :=
              write_eq hdata' hextract' hvs
            rw [Option.bind_some, hwrite]
            refine ih (some file'') data'' (.list vs) hrest hread hextract'' fun r => ?_
            rw [setRecords_setRecords hset, hsame]
  exact hrun ops file data records hops hdata hextract fun _ => rfl

/-! What the commands do to a file. -/

/-- A value of a profile as it goes into a row; the profiles hold no floats and no times. -/
def profileValue : PyValue.Value → Option (Value φ)
  | .none => some .null
  | .num q => if q.den = 1 then some (.int q.num) else none
  | .str s => some (.str (text s))
  | .datetime _ => none

/-- `null_fill` of a profile. -/
def nullFill (config : CheckConfig) : Option (Entries φ) :=
  config.nullFill.mapM fun e => (profileValue e.2).map fun v => (text e.1, v)

/-- The operations of `fix` and `restore`, on a file as they find it. -/
inductive Issued (floats : Floats φ) (values : Entries φ) (file : Option TextFile) :
    Op φ → Prop where
  /-- `_fix_by_id` has no other update than `null_fill`. -/
  | byId {fixes : Fixes φ} (same : ∀ id update, fixes.updates id = some update → update = values) :
      Issued floats values file (.fix fixes)
  /-- `_fix_by_rebuild` writes rows that it has loaded, with `null_fill` in some of them. -/
  | byRebuild {records : Value φ} {vs : List (Value φ)} {kept : List (Entries φ)}
      (load : loadRecords floats file = some records) (loaded : elements records = some vs)
      (filled : ∀ row ∈ kept, ∃ old, .dict old ∈ vs ∧ (row = old ∨ row = old.update values)) :
      Issued floats values file (.restore (kept.map .dict))
  /-- `restore_records`. -/
  | restore {backup : TextFile} {rows : List (Value φ)}
      (backed : backedRows floats backup = some (.list rows)) :
      Issued floats values file (.restore rows)

theorem nullFill_regular {config : CheckConfig} (known : config ∈ [REPUTATION, CONTACTS]) :
    ∃ values : Entries φ, nullFill config = some values ∧
      ∀ e ∈ values, Joined e.1 ∧ e.2.Regular := by
  have hkeys : Joined (text "positive_count") ∧ Joined (text "negative_count") := by decide
  rcases List.mem_pair.mp known with rfl | rfl
  · refine ⟨[(text "positive_count", .int 0), (text "negative_count", .int 0)], rfl, ?_⟩
    rw [List.forall_mem_cons, List.forall_mem_singleton]
    exact ⟨⟨hkeys.1, rfl⟩, hkeys.2, rfl⟩
  · exact ⟨[], rfl, fun e he => absurd he List.not_mem_nil⟩

theorem regular_loadRecords {records : Value φ} (h : loadRecords floats file = some records) :
    records.Regular := by
  obtain ⟨data, hdata, h⟩ := Option.bind_eq_some_iff.mp h
  obtain ⟨⟨_, us⟩, hextract, rfl⟩ := Option.map_eq_some_iff.mp h
  exact regular_of_extract (regular_readData hdata) hextract

theorem regular_backedRows {backup : TextFile} {rows : Value φ}
    (h : backedRows floats backup = some rows) : rows.Regular := by
  obtain ⟨es, hes, hlookup⟩ := Option.bind_eq_some_iff.mp h
  obtain ⟨v, hloads, hdict⟩ := Option.bind_eq_some_iff.mp hes
  have hv := regular_of_loads floats backup.scalar_read hloads
  cases v with
  | dict =>
      cases hdict
      exact regular_lookup hv hlookup
  | null | bool | int | float | str | list => cases hdict

/-- All that the commands bring with them can be written and read again, so their runs are runs
of regular operations. -/
theorem Issued.regular {values : Entries φ} {op : Op φ}
    (hvalues : ∀ e ∈ values, Joined e.1 ∧ e.2.Regular) (h : Issued floats values file op) :
    op.Regular := by
  cases h with
  | byId same => exact Fixes.regular_of_same hvalues same
  | byRebuild load loaded filled =>
      intro v hv
      obtain ⟨row, hrow, rfl⟩ := List.mem_map.mp hv
      obtain ⟨old, hold, hrow⟩ := filled row hrow
      have hregular := regular_of_elements (regular_loadRecords load) loaded hold
      rcases hrow with rfl | rfl
      · exact hregular
      · exact regular_update hregular hvalues
  | restore backed => exact regular_list_iff.mp (regular_backedRows backed)

theorem ratings_run :
    (Transition.exec (step literalFloats (text "id")) (some ratingsFile)
        ratingsOps).map (view literalFloats) =
      some (some (ratingsData [rating (.int 0)]), some (.list [rating (.int 0)]),
        some (some [.int 1])) := by
  refine (run_eq (text "id") ratingsFile_read rfl ratingsOps_regular).trans ?_
  rw [loadUserIds, ratingsFile_read]
  rfl

end Runs

/-! ## What a backup is for -/

section Backups

variable (floats : Floats φ) (idField : Text)
variable {label createdAt : Text} {rows : Value φ} {backup : TextFile}

theorem snapshot_regular (hlabel : Joined label) (hcreated : Joined createdAt)
    (hrows : rows.Regular) : (snapshot label createdAt rows).Regular := by
  refine regular_dict ?_ ?_
  · show [text "source", text "created_at", rowsKey].Nodup
    decide
  · rw [List.forall_mem_cons, List.forall_mem_cons, List.forall_mem_singleton]
    have hkeys : Joined (text "source") ∧ Joined (text "created_at") ∧ Joined rowsKey := by decide
    exact ⟨⟨hkeys.1, regular_str hlabel⟩, ⟨hkeys.2.1, regular_str hcreated⟩, hkeys.2.2, hrows⟩

/-- A backup is one of the shapes that a source takes. -/
theorem extract_snapshot (label createdAt : Text) (rows : Value φ) :
    extract (snapshot label createdAt rows) = some (rows, none) := rfl

theorem setRecords_snapshot (label createdAt : Text) (rows records : Value φ) :
    setRecords records (snapshot label createdAt rows) =
      some (snapshot label createdAt records) := rfl

theorem backedRows_of_snapshot {file : TextFile}
    (h : loads floats file.read = some (snapshot label createdAt rows)) :
    backedRows floats file = some rows := by
  rw [backedRows, h]
  rfl

theorem backupFile_eq (hlabel : Joined label) (hcreated : Joined createdAt)
    (hrows : rows.Regular) : ∃ backup, backupFile floats label createdAt rows = some backup ∧
      loads floats backup.read = some (snapshot label createdAt rows) :=
  written_read floats none (snapshot_regular hlabel hcreated hrows)

/-- A file that has been backed up can be brought back as it was, whatever has been done to it
since. -/
theorem restore_backup {file : Option TextFile} {data : Value φ} {us : Option (Value φ)}
    {vs : List (Value φ)} (hdata : readData floats file = some data)
    (hextract : extract data = some (.list vs, us)) (hlabel : Joined label)
    (hcreated : Joined createdAt) : ∃ backup,
      backupFile floats label createdAt (.list vs) = some backup ∧
      backedRows floats backup = some (.list vs) ∧
      ∀ ops : List (Op φ), (∀ op ∈ ops, op.Regular) → ∀ file',
        Transition.exec (step floats idField) file ops = some file' →
          ∃ restored, replaceAll floats vs file' = some restored ∧
            readData floats (some restored) = some data := by
  have hvs := regular_of_extract (regular_readData hdata) hextract
  obtain ⟨backup, hbackup, hread⟩ := backupFile_eq floats hlabel hcreated hvs
  refine ⟨backup, hbackup, backedRows_of_snapshot floats hread, fun ops hops file' hexec => ?_⟩
  have hops' : ∀ op ∈ ops ++ [.restore vs], op.Regular := by
    intro op hop
    rcases List.mem_append.mp hop with hop | hop
    · exact hops op hop
    · rw [List.mem_singleton.mp hop]
      exact regular_list_iff.mp hvs
  have hrun := run_eq idField hdata hextract hops'
  have hrecords := run_eq idField hdata hextract hops
  rw [hexec, Option.map_some] at hrecords
  obtain ⟨records, hrecords, -⟩ := Option.map_eq_some_iff.mp hrecords.symm
  have hlast : Transition.exec (recordsStep idField) (.list vs) (ops ++ [.restore vs]) =
      some (.list vs) :=
    Transition.exec_append_eq_some.mpr ⟨records, hrecords, rfl⟩
  rw [hlast, Option.map_some] at hrun
  obtain ⟨restored, hrestored, hview⟩ := Option.map_eq_some_iff.mp hrun
  obtain ⟨file'', hfirst, hrestore⟩ := Transition.exec_append_eq_some.mp hrestored
  cases hexec.symm.trans hfirst
  obtain ⟨last, hstep, hlast⟩ := Transition.exec_cons_eq_some.mp hrestore
  obtain ⟨written, hwritten, rfl⟩ := Option.map_eq_some_iff.mp hstep
  cases hlast
  refine ⟨written, hwritten, ?_⟩
  have hfirst : (view floats (some written)).1 = setRecords (.list vs) data :=
    congrArg Prod.fst hview
  rw [setRecords_self hextract] at hfirst
  exact hfirst

theorem ratings_restored : ∃ backup file' restored,
    backupFile literalFloats (text "json_ratings") (text "2026-01-01T00:00:00+00:00")
      (.list ratings) = some backup ∧
    Transition.exec (step literalFloats (text "id")) (some ratingsFile) ratingsOps =
      some file' ∧
    replaceAll literalFloats ratings file' = some restored ∧
      readData literalFloats (some restored) = some (ratingsData ratings) := by
  obtain ⟨backup, hbackup, -, hrestore⟩ := restore_backup literalFloats (text "id")
    ratingsFile_read rfl (show Joined (text "json_ratings") by decide)
    (show Joined (text "2026-01-01T00:00:00+00:00") by decide)
  have hrun := run_eq (text "id") ratingsFile_read rfl ratingsOps_regular
  obtain ⟨file', hexec, -⟩ := Option.map_eq_some_iff.mp hrun
  obtain ⟨restored, hreplace, hread⟩ := hrestore _ ratingsOps_regular file' hexec
  exact ⟨backup, file', restored, hbackup, hexec, hreplace, hread⟩

/-- A backup that is itself fixed as a source stays a backup, of the records that are left. -/
theorem run_backup (hbackup : backupFile floats label createdAt rows = some backup)
    (hlabel : Joined label) (hcreated : Joined createdAt) (hrows : rows.Regular)
    {ops : List (Op φ)} (hops : ∀ op ∈ ops, op.Regular) :
    (Transition.exec (step floats idField) (some backup) ops).map (fun file =>
        (readData floats file, file.bind (backedRows floats))) =
      (Transition.exec (recordsStep idField) rows ops).map fun records =>
        (some (snapshot label createdAt records), some records) := by
  obtain ⟨backup', hbackup', hread⟩ := backupFile_eq floats hlabel hcreated hrows
  cases hbackup.symm.trans hbackup'
  have hdata : readData floats (some backup) = some (snapshot label createdAt rows) := hread
  have hrun := run_eq idField hdata (extract_snapshot label createdAt rows) hops
  cases hrecords : Transition.exec (recordsStep idField) rows ops with
  | none =>
      rw [hrecords, Option.map_none] at hrun
      rw [Option.map_eq_none_iff.mp hrun]
      rfl
  | some records =>
      rw [hrecords, Option.map_some] at hrun
      obtain ⟨file, hexec, hview⟩ := Option.map_eq_some_iff.mp hrun
      have hfile : readData floats file = some (snapshot label createdAt records) :=
        (congrArg Prod.fst hview).trans (setRecords_snapshot label createdAt rows records)
      rw [hexec, Option.map_some, Option.map_some, hfile]
      cases file with
      | none => cases hfile
      | some file => rw [Option.bind_some, backedRows_of_snapshot floats hfile]

theorem ratings_backup_run : ∃ backup : TextFile,
    backupFile literalFloats (text "json_ratings") (text "2026-01-01T00:00:00+00:00")
      (.list ratings) = some backup ∧
    (Transition.exec (step literalFloats (text "id")) (some backup) ratingsOps).map
        (fun file => (readData literalFloats file, file.bind (backedRows literalFloats))) =
      some (some (snapshot (text "json_ratings") (text "2026-01-01T00:00:00+00:00")
        (.list [rating (.int 0)])), some (.list [rating (.int 0)])) := by
  have hlabel : Joined (text "json_ratings") := by decide
  have hcreated : Joined (text "2026-01-01T00:00:00+00:00") := by decide
  have hrows : (Value.list ratings : Value {t : Text // matchNumber t = some (t, true, [])}).Regular :=
    by decide +kernel
  obtain ⟨backup, hbackup, -⟩ := backupFile_eq literalFloats hlabel hcreated hrows
  exact ⟨backup, hbackup, run_backup literalFloats (text "id") hbackup hlabel hcreated hrows ratingsOps_regular⟩

end Backups

/-! ## A backup of Postgres -/

/-- A value of a `BigInteger` column. -/
def InRange (n : Int) : Prop := -2 ^ 63 ≤ n ∧ n < 2 ^ 63

instance (n : Int) : Decidable (InRange n) :=
  inferInstanceAs (Decidable (-2 ^ 63 ≤ n ∧ n < 2 ^ 63))

/-- The integers of a row. -/
def integers (record : ReputationRecord Timestamp) : List Int :=
  [record.id, record.userId, record.chatId, record.score] ++ record.positiveCount.toList ++
    record.negativeCount.toList ++ record.reportedByTelegramId.toList

def optionalInt : Option Int → Value φ
  | none => .null
  | some n => .int n

/-- `_COLUMNS`. -/
def columns : List Text :=
  [text "id", text "user_id", text "chat_id", text "score", text "positive_count",
    text "negative_count", text "reported_by_telegram_id", text "created_at", text "updated_at"]

/-- A row of `PostgresSource.load_records`. -/
def cells (record : ReputationRecord Timestamp) : List (Text × Cell φ) :=
  columns.zip
    [.json (.int record.id), .json (.int record.userId), .json (.int record.chatId),
      .json (.int record.score), .json (optionalInt record.positiveCount),
      .json (optionalInt record.negativeCount), .json (optionalInt record.reportedByTelegramId),
      .datetime record.createdAt, .datetime record.updatedAt]

/-- The rows of a backup, for `json.dumps`. -/
def dumped (rows : List (List (Text × Cell φ))) : Value φ :=
  .list (rows.map fun row => .dict (row.map fun cell => (cell.1, cell.2.value)))

def asInt : Value φ → Option Int
  | .int n => some n
  | _ => none

def asOptionalInt : Value φ → Option (Option Int)
  | .null => some none
  | .int n => some (some n)
  | _ => none

def asText : Value φ → Option Text
  | .str s => some s
  | _ => none

/-- The columns of a backed row, if they have the types that an `INSERT` wants. -/
def backedRecord (row : Entries φ) : Option (ReputationRecord Text) := do
  return {
    id := ← (row.lookup (text "id")).bind asInt
    userId := ← (row.lookup (text "user_id")).bind asInt
    chatId := ← (row.lookup (text "chat_id")).bind asInt
    score := ← (row.lookup (text "score")).bind asInt
    positiveCount := ← (row.lookup (text "positive_count")).bind asOptionalInt
    negativeCount := ← (row.lookup (text "negative_count")).bind asOptionalInt
    reportedByTelegramId := ← (row.lookup (text "reported_by_telegram_id")).bind asOptionalInt
    createdAt := ← (row.lookup (text "created_at")).bind asText
    updatedAt := ← (row.lookup (text "updated_at")).bind asText }

/-- The rows that `restore_records` hands to `PostgresSource.replace_all`. -/
def backedRecords (floats : Floats φ) (backup : TextFile) : Option (List (ReputationRecord Text)) :=
  (((backedRows floats backup).bind elements).bind fun vs => vs.mapM asDict).bind fun rows =>
    rows.mapM backedRecord

section Postgres

variable (floats : Floats φ) {record : ReputationRecord Timestamp}

theorem asOptionalInt_optionalInt (n : Option Int) :
    asOptionalInt (optionalInt n : Value φ) = some n := by
  cases n <;> rfl

theorem short_of_inRange {n : Int} (h : InRange n) :
    (PyText.strOfNat n.natAbs).length ≤ PyText.maxStrDigits := by
  have hlt : n.natAbs < 10 ^ 19 := by
    obtain ⟨hlow, hhigh⟩ := h
    omega
  exact Nat.le_trans (PyText.length_strOfNat_le (by decide) hlt) (by decide)

theorem padded_le (width n : Nat) : ∀ c ∈ PyText.padded width n, c.val ≤ 0x39 := by
  induction width generalizing n with
  | zero => exact fun c hc => absurd hc List.not_mem_nil
  | succ width ih =>
      intro c hc
      rcases List.mem_append.mp hc with hc | hc
      · exact ih (n / 10) c hc
      · rw [List.mem_singleton.mp hc]
        exact (PyText.isAsciiDigit_digit n).2

/-- A timestamp is a string that can be read again. -/
theorem joined_isoformat (t : Timestamp) : Joined t.isoformat := by
  have hpart : ∀ {separator : Char} {n : Nat} {rest : Text},
      (PyText.ofChar separator).val ≤ 0x54 → (∀ c ∈ rest, c.val ≤ 0x54) →
        ∀ c ∈ PyText.Timestamp.part separator n rest, c.val ≤ 0x54 := by
    intro separator n rest hseparator hrest c hc
    rcases List.mem_cons.mp hc with rfl | hc
    · exact hseparator
    · rcases List.mem_append.mp hc with hc | hc
      · exact Nat.le_trans (padded_le 2 n c hc) (by decide)
      · exact hrest c hc
  have hfraction : ∀ c ∈ PyText.Timestamp.fraction t.microsecond, c.val ≤ 0x54 := by
    intro c hc
    rw [PyText.Timestamp.fraction] at hc
    split at hc
    · cases hc
    · rcases List.mem_cons.mp hc with rfl | hc
      · decide
      · exact Nat.le_trans (padded_le 6 _ c hc) (by decide)
  refine joined_of_not_high fun c hc => ?_
  have hle : c.val ≤ 0x54 := by
    rcases List.mem_append.mp hc with hc | hc
    · exact Nat.le_trans (padded_le 4 _ c hc) (by decide)
    · exact hpart (by decide) (hpart (by decide) (hpart (by decide) (hpart (by decide)
        (hpart (by decide) hfraction)))) c hc
  rw [isHigh, Bool.and_eq_false_iff, decide_eq_false_iff_not]
  exact .inl (by omega)

theorem regular_optionalInt {n : Option Int} (h : ∀ m ∈ n, InRange m) :
    (optionalInt n : Value φ).Regular := by
  cases n with
  | none => rfl
  | some n => exact regular_int (short_of_inRange (h n rfl))

/-- A row in a backup, as a dictionary. -/
def dumpedRow (record : ReputationRecord Timestamp) : Entries φ :=
  (cells record).map fun cell => (cell.1, cell.2.value)

theorem dumpedRow_eq (record : ReputationRecord Timestamp) : (dumpedRow record : Entries φ) =
    [(text "id", .int record.id), (text "user_id", .int record.userId),
      (text "chat_id", .int record.chatId), (text "score", .int record.score),
      (text "positive_count", optionalInt record.positiveCount),
      (text "negative_count", optionalInt record.negativeCount),
      (text "reported_by_telegram_id", optionalInt record.reportedByTelegramId),
      (text "created_at", .str record.createdAt.isoformat),
      (text "updated_at", .str record.updatedAt.isoformat)] := rfl

theorem regular_dumpedRow (h : ∀ n ∈ integers record, InRange n) :
    (Value.dict (dumpedRow record) : Value φ).Regular := by
  have hint : ∀ {n : Int}, n ∈ integers record → (Value.int n : Value φ).Regular :=
    fun hn => regular_int (short_of_inRange (h _ hn))
  have hoptional : ∀ {n : Option Int}, (∀ m ∈ n, m ∈ integers record) →
      (optionalInt n : Value φ).Regular := fun hn => regular_optionalInt fun m hm => h m (hn m hm)
  have hkeys : ∀ key ∈ columns, Joined key := by decide
  have hfst : (dumpedRow record : Entries φ).map Prod.fst = columns := rfl
  have hvalues : ∀ e ∈ (dumpedRow record : Entries φ), e.2.Regular := by
    rw [dumpedRow_eq]
    simp only [List.forall_mem_cons]
    refine ⟨hint ?_, hint ?_, hint ?_, hint ?_, hoptional ?_, hoptional ?_, hoptional ?_,
      regular_str (joined_isoformat _), regular_str (joined_isoformat _), ?_⟩
    all_goals simp +contextual [integers]
  refine regular_dict (by rw [hfst]; decide) fun e he => ⟨hkeys e.1 ?_, hvalues e he⟩
  rw [← hfst]
  exact List.mem_map_of_mem he

/-- A row is found again in its dictionary. -/
theorem backedRecord_dumpedRow (record : ReputationRecord Timestamp) :
    backedRecord (dumpedRow record : Entries φ) = some record.dump := by
  have hoptional : ∀ {key : Text} {n : Option Int},
      (dumpedRow record : Entries φ).lookup key = some (optionalInt n) →
        ((dumpedRow record : Entries φ).lookup key).bind asOptionalInt = some n := by
    intro key n hlookup
    rw [hlookup]
    exact asOptionalInt_optionalInt n
  have hpositive := @hoptional (text "positive_count") record.positiveCount rfl
  have hnegative := @hoptional (text "negative_count") record.negativeCount rfl
  have hreported :=
    @hoptional (text "reported_by_telegram_id") record.reportedByTelegramId rfl
  rw [backedRecord, hpositive, hnegative, hreported]
  rfl

theorem mapM_asDict (rows : List (Entries φ)) : (rows.map Value.dict).mapM asDict = some rows := by
  induction rows with
  | nil => rfl
  | cons row rows ih =>
      rw [List.map_cons, List.mapM_cons, ih]
      rfl

theorem mapM_backedRecord (records : List (ReputationRecord Timestamp)) :
    (records.map fun record => (dumpedRow record : Entries φ)).mapM backedRecord =
      some (records.map ReputationRecord.dump) := by
  induction records with
  | nil => rfl
  | cons record records ih =>
      rw [List.map_cons, List.mapM_cons, backedRecord_dumpedRow, ih]
      rfl

theorem dumped_cells (records : List (ReputationRecord Timestamp)) :
    (dumped (records.map cells) : Value φ) =
      .list ((records.map dumpedRow).map Value.dict) := by
  rw [dumped, List.map_map, List.map_map]
  rfl

/-- The table is read from the text of its backup, and is what it was wherever its users are
known still; otherwise nothing is restored. -/
theorem postgres_restored (table : ReputationTable) {createdAt : Text}
    (hrange : ∀ record ∈ table.records, ∀ n ∈ integers record, InRange n)
    (hcreated : Joined createdAt) : ∃ backup,
      backupFile floats postgresSource.origin.label createdAt
        (dumped (table.records.map cells)) = some backup ∧
      ∀ later : ReputationTable,
        match (backedRecords floats backup).bind fun rows => postgresSource.replaceAll rows later with
        | some (restored : ReputationTable) =>
            restored.records = table.records ∧ restored.users = later.users
        | none => ∃ record ∈ table.records, record.userId ∉ later.users := by
  have hrows : (dumped (table.records.map cells) : Value φ).Regular := by
    rw [dumped_cells]
    refine regular_list fun v hv => ?_
    rw [List.map_map] at hv
    obtain ⟨record, hrecord, rfl⟩ := List.mem_map.mp hv
    exact regular_dumpedRow (hrange record hrecord)
  have hlabel : Joined (postgresSource.origin.label) := by decide
  obtain ⟨backup, hbackup, hread⟩ := backupFile_eq floats hlabel hcreated hrows
  refine ⟨backup, hbackup, fun later => ?_⟩
  have hrecords : backedRecords floats backup = some (table.records.map ReputationRecord.dump) := by
    rw [backedRecords, backedRows_of_snapshot floats hread, dumped_cells, Option.bind_some]
    show (((table.records.map dumpedRow).map Value.dict).mapM asDict).bind _ = _
    rw [mapM_asDict, Option.bind_some, mapM_backedRecord]
  have hrestore : ((backedRecords floats backup).bind fun rows =>
      postgresSource.replaceAll rows later) = ReputationTable.put table.records later := by
    rw [hrecords, Option.bind_some]
    show ((table.records.map ReputationRecord.dump).mapM ReputationRecord.coerceRow).bind _ = _
    rw [ReputationRecord.coerceRows_dump, Option.bind_some]
  rw [hrestore]
  split
  · next restored hput => exact ReputationTable.put_eq_some hput
  · next hput =>
      by_contra hall
      simp only [not_exists, not_and, not_not] at hall
      have hsome := ReputationTable.put_isSome.mpr ⟨table.distinct, hall⟩
      rw [hput] at hsome
      cases hsome

def oneRating : ReputationTable where
  users := [1]
  records := [⟨1, 1, -100, 2, some 3, none, none, ⟨2026, 1, 2, 3, 4, 5, 60, by decide⟩,
    ⟨2026, 1, 2, 3, 4, 6, 0, by decide⟩⟩]
  distinct := by decide
  known := by decide

/-- The rating comes back into a table that has lost it and has got a user more. -/
theorem oneRating_restored : ∃ (backup : TextFile) (restored : ReputationTable),
    backupFile literalFloats postgresSource.origin.label (text "2026-01-03T00:00:00+00:00")
      (dumped (oneRating.records.map cells)) = some backup ∧
    ((backedRecords literalFloats backup).bind fun rows =>
      postgresSource.replaceAll rows ⟨[2, 1], [], by decide, by decide⟩) = some restored ∧
    restored.records = oneRating.records := by
  obtain ⟨backup, hbackup, hrestore⟩ := postgres_restored literalFloats oneRating (by decide)
    (show Joined (text "2026-01-03T00:00:00+00:00") by decide)
  have hlater := hrestore ⟨[2, 1], [], by decide, by decide⟩
  split at hlater
  · next restored hrestored => exact ⟨backup, restored, hbackup, hrestored, hlater.1⟩
  · next =>
      obtain ⟨record, hrecord, hunknown⟩ := hlater
      have hknown : ∀ record ∈ oneRating.records, record.userId ∈ ([2, 1] : List Int) := by decide
      exact absurd (hknown record hrecord) hunknown

end Postgres

end UserTgBot.Maintenance.JsonFiles
