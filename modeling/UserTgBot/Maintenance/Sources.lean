import UserTgBot.Library.IsoFormat
import UserTgBot.Maintenance.Backup

/-!
# What a backup keeps

`db_maintenance/sources/`. A backup is written by a source that knows the profile and read by
one that does not: `restore` resolves its source without `--profile`. In between the rows are
JSON, with timestamps as ISO texts and blobs as hex texts. `Source` holds one format from both
sides. Each of the five formats says when it loads again what it has backed up, which backups it
accepts and what they have to hold to be what is loaded, in terms of their rows.

The `csv` and `json` modules are left out: a CSV file is its table of fields, and a JSON value
comes back as it is.
-/

namespace UserTgBot.Maintenance

open Loops (Dict)
open PyText (Text Timestamp)

/-! ## A source -/

/-- A source as one profile resolves it; only `replaceAll` is that of the source which
`restore` resolves. -/
structure Source where
  State : Type
  Row : Type
  /-- A row in a backup. -/
  Backed : Type
  origin : Origin
  load : State → List Row
  /-- `apply_fixes` or `replace_all` of a fix that leaves these rows; nothing if it raises. -/
  write : List Row → State → Option State
  /-- `json.dumps` with `_default`, and `json.loads`. -/
  dump : Row → Backed
  /-- `replace_all` of a restore; nothing if it raises. -/
  replaceAll : List Backed → State → Option State
  /-- The rows that are loaded after a restore. -/
  reread : List Backed → List Row
  Same : List Row → List Row → Prop
  /-- Nothing that these rows hold is lost in a backup. -/
  Lossless : List Row → Prop
  /-- A restore of these rows does not raise. -/
  Accepts : List Backed → State → Prop
  /-- These rows are what the source holds. -/
  Holds : List Backed → State → Prop
  /-- A fix that leaves these rows raises, or they are what the source holds. -/
  Spares : List Row → State → Prop
  same_refl : ∀ rows, Same rows rows
  load_replaceAll : ∀ {backed s t}, replaceAll backed s = some t → load t = reread backed
  /-- A fix does not change which backups are accepted. -/
  isSome_replaceAll : ∀ {rows s t}, write rows s = some t → ∀ backed,
    (replaceAll backed t).isSome = (replaceAll backed s).isSome
  accepts_own : ∀ s, (replaceAll ((load s).map dump) s).isSome
  lossless_iff : ∀ s, Same (reread ((load s).map dump)) (load s) ↔ Lossless (load s)
  accepts_iff : ∀ backed s, (replaceAll backed s).isSome ↔ Accepts backed s
  holds_iff : ∀ {backed s}, Accepts backed s → (Same (reread backed) (load s) ↔ Holds backed s)
  spares_iff : ∀ rows s, (∀ t, write rows s = some t → Same (load t) (load s)) ↔ Spares rows s

/-! ## JSON -/

/-- The three shapes of a JSON file. What stands beside the records is kept; a missing file
counts as an empty list. -/
inductive JsonFile (ν : Type) where
  | list (records : List (Dict String ν))
  | rows (records : List (Dict String ν)) (rest : Dict String ν)
      (shape : "reputation_records" ∉ rest)
  | reputationRecords (records : List (Dict String ν)) (rest : Dict String ν)

namespace JsonFile

variable {ν : Type}

/-- `_extract`, but for the users. -/
def extract : JsonFile ν → List (Dict String ν)
  | list records => records
  | rows records _ _ => records
  | reputationRecords records _ => records

/-- `_write`. -/
def write (records : List (Dict String ν)) : JsonFile ν → JsonFile ν
  | list _ => list records
  | rows _ rest shape => rows records rest shape
  | reputationRecords _ rest => reputationRecords records rest

theorem extract_write (records : List (Dict String ν)) (file : JsonFile ν) :
    (file.write records).extract = records := by
  cases file <;> rfl

end JsonFile

/-- `JSONSource`, for any values `ν` that a record may have. -/
def jsonSource (path : Stem) (ν : Type) : Source where
  State := JsonFile ν
  Row := Dict String ν
  Backed := Dict String ν
  origin := .json path
  load := JsonFile.extract
  write records file := some (file.write records)
  dump := id
  replaceAll records file := some (file.write records)
  reread := id
  Same := Eq
  Lossless _ := True
  Accepts _ _ := True
  Holds records file := records = file.extract
  Spares records file := records = file.extract
  same_refl _ := rfl
  load_replaceAll h := by
    cases h
    exact JsonFile.extract_write _ _
  isSome_replaceAll _ _ := rfl
  accepts_own _ := rfl
  lossless_iff file := iff_of_true (List.map_id file.extract) trivial
  accepts_iff _ _ := iff_of_true rfl trivial
  holds_iff _ := Iff.rfl
  spares_iff records file := by
    simp only [Option.some.injEq, forall_eq', JsonFile.extract_write]

/-! ## CSV -/

/-- A row of a CSV file as a dictionary; nothing stands for `None`. -/
structure CsvRow where
  keys : List String
  value : String → Option String

namespace CsvRow

/-- `dict(pairs)`. -/
def ofPairs (pairs : List (String × Option String)) : CsvRow where
  keys := (pairs.map Prod.fst).eraseDups
  value col := (pairs.reverse.lookup col).join

/-- `row.get(col, "")` as it is written. -/
def text (row : CsvRow) (col : String) : String :=
  if col ∈ row.keys then (row.value col).getD "" else ""

/-- Values that are no more than the columns leave `None` behind them. -/
def pad : List String → List String → List (String × Option String)
  | [], _ => []
  | name :: names, [] => (name, none) :: pad names []
  | name :: names, value :: values => (name, some value) :: pad names values

/-- The columns of `DictWriter` when there are none from a profile. -/
def fieldnames : List CsvRow → List String
  | [] => []
  | row :: _ => row.keys

/-- Values compared as text, a missing one as the empty text. -/
def Same (rows rows' : List CsvRow) : Prop := rows.map text = rows'.map text

/-- What `DictWriter` writes in a row. -/
def fields (header : List String) (row : CsvRow) : List String := header.map row.text

/-- What `DictReader` reads from a row. -/
def ofFields (header fields : List String) : CsvRow := ofPairs (header.zip (fields.map some))

/-- What is read from a row that has been written under these columns. -/
def under (header : List String) (row : CsvRow) (col : String) : String :=
  if col ∈ header then row.text col else ""

@[simp] theorem length_fields (header : List String) (row : CsvRow) :
    (row.fields header).length = header.length := List.length_map _

theorem keys_ofFields {header fields : List String} (length : fields.length = header.length) :
    (ofFields header fields).keys = header.eraseDups := by
  have hzip : (header.zip (fields.map some)).map Prod.fst = header :=
    List.map_fst_zip (by rw [List.length_map, length])
  rw [ofFields, ofPairs, hzip]

theorem lookup_map_pair (header : List String) (f : String → Option String) (col : String) :
    (header.map fun name => (name, f name)).lookup col =
      if col ∈ header then some (f col) else none := by
  induction header with
  | nil => rfl
  | cons name header ih =>
      rw [List.map_cons, List.lookup_cons, ih]
      by_cases heq : col = name
      · simp [heq]
      · have hne : (col == name) = false := beq_false_of_ne heq
        simp [hne, heq]

theorem value_ofFields {header : List String} {row : CsvRow} {col : String} (h : col ∈ header) :
    (ofFields header (row.fields header)).value col = some (row.text col) := by
  have hpairs := List.zip_map' (f := id) (g := fun name => some (row.text name)) (l := header)
  rw [List.map_id] at hpairs
  show ((header.zip ((row.fields header).map some)).reverse.lookup col).join = _
  rw [fields, List.map_map]
  show ((header.zip (header.map fun name => some (row.text name))).reverse.lookup col).join = _
  rw [hpairs, ← List.map_reverse]
  show ((header.reverse.map fun name => (name, some (row.text name))).lookup col).join = _
  rw [lookup_map_pair, if_pos (List.mem_reverse.mpr h)]
  rfl

theorem text_ofFields (header : List String) (row : CsvRow) :
    (ofFields header (row.fields header)).text = row.under header := by
  funext col
  rw [text, keys_ofFields (length_fields header row), under]
  by_cases hcol : col ∈ header
  · rw [if_pos (List.mem_eraseDups.mpr hcol), value_ofFields hcol, if_pos hcol]
    rfl
  · rw [if_neg fun h => hcol (List.mem_eraseDups.mp h), if_neg hcol]

/-- A row that is written under its own columns is read again. -/
theorem under_eq_text {header : List String} {row : CsvRow} (keys : row.keys ⊆ header) :
    row.under header = row.text := by
  funext col
  by_cases hcol : col ∈ header
  · rw [under, if_pos hcol]
  · rw [under, if_neg hcol, text, if_neg fun h => hcol (keys h)]

theorem pad_of_length {names values : List String} (h : values.length = names.length) :
    pad names values = names.zip (values.map some) := by
  induction names generalizing values with
  | nil =>
      rw [List.length_eq_zero_iff.mp h]
      rfl
  | cons name names ih =>
      cases values with
      | nil => cases h
      | cons value values =>
          rw [pad, ih (Nat.succ.inj h)]
          rfl

end CsvRow

/-- A CSV file with a header, whose rows are as long as that. A missing file counts as one with
an empty header. -/
structure CsvFile where
  header : List String
  rows : List (List String)
  rectangular : ∀ fields ∈ rows, fields.length = header.length

namespace CsvFile

/-- `load_records` with a header; blank lines are skipped. -/
def loadRecords (file : CsvFile) : List CsvRow :=
  (file.rows.filter (· ≠ [])).map (CsvRow.ofFields file.header)

/-- `_write_all` with a header. -/
def writeAll (rows : List CsvRow) : CsvFile where
  header := CsvRow.fieldnames rows
  rows := rows.map (CsvRow.fields (CsvRow.fieldnames rows))
  rectangular := by
    intro fields hfields
    obtain ⟨row, -, rfl⟩ := List.mem_map.mp hfields
    exact CsvRow.length_fields _ row

def lines (file : CsvFile) : List (List String) := file.header :: file.rows

theorem loadRecords_writeAll {rows : List CsvRow} {header : List String}
    (h : CsvRow.fieldnames rows = header) : (writeAll rows).loadRecords =
      ((rows.map (CsvRow.fields header)).filter (· ≠ [])).map (CsvRow.ofFields header) := by
  subst h
  rfl

/-- What is read from a file with these rows: they are written under the columns of the first of
them, and without columns there are only blank lines. -/
def written (rows : List CsvRow) : List (String → String) :=
  if CsvRow.fieldnames rows = [] then [] else rows.map (CsvRow.under (CsvRow.fieldnames rows))

theorem text_loadRecords_writeAll (rows : List CsvRow) :
    (writeAll rows).loadRecords.map CsvRow.text = written rows := by
  rw [loadRecords_writeAll rfl, written]
  by_cases hheader : CsvRow.fieldnames rows = []
  · rw [if_pos hheader, List.map_eq_nil_iff, List.map_eq_nil_iff, List.filter_eq_nil_iff]
    intro fields hfields
    obtain ⟨row, -, rfl⟩ := List.mem_map.mp hfields
    simp [hheader, CsvRow.fields]
  · have hfilled : (rows.map (CsvRow.fields (CsvRow.fieldnames rows))).filter (· ≠ []) =
        rows.map (CsvRow.fields (CsvRow.fieldnames rows)) := by
      refine List.filter_eq_self.mpr fun fields hfields => ?_
      obtain ⟨row, -, rfl⟩ := List.mem_map.mp hfields
      exact decide_eq_true fun hnil => hheader (List.map_eq_nil_iff.mp hnil)
    rw [if_neg hheader, hfilled, List.map_map, List.map_map]
    exact List.map_congr_left fun row _ => CsvRow.text_ofFields _ row

/-- Rows with the same columns are read again. -/
theorem same_writeAll {rows : List CsvRow} {header : List String} (columns : header ≠ [])
    (keys : ∀ row ∈ rows, row.keys = header) :
    CsvRow.Same (writeAll rows).loadRecords rows := by
  cases rows with
  | nil => rfl
  | cons first rows =>
      have hheader : CsvRow.fieldnames (first :: rows) = header := keys first List.mem_cons_self
      rw [CsvRow.Same, text_loadRecords_writeAll, written, hheader, if_neg columns]
      refine List.map_congr_left fun row hrow => ?_
      exact CsvRow.under_eq_text (by rw [keys row hrow]; exact List.Subset.refl header)

/-- What a file with a header loads, it loads again after it has been written. -/
theorem same_loadRecords (file : CsvFile) :
    CsvRow.Same (writeAll file.loadRecords).loadRecords file.loadRecords := by
  by_cases hheader : file.header = []
  · have hnone : file.loadRecords = [] := by
      refine List.map_eq_nil_iff.mpr (List.filter_eq_nil_iff.mpr fun fields hfields => ?_)
      have hlength := file.rectangular fields hfields
      rw [hheader, List.length_nil, List.length_eq_zero_iff] at hlength
      simp [hlength]
    rw [hnone]
    rfl
  · have hcolumns : file.header.eraseDups ≠ [] := by
      obtain ⟨name, hname⟩ := List.exists_mem_of_ne_nil _ hheader
      exact List.ne_nil_of_mem (List.mem_eraseDups.mpr hname)
    refine same_writeAll hcolumns fun row hrow => ?_
    obtain ⟨fields, hfields, rfl⟩ := List.mem_map.mp hrow
    exact CsvRow.keys_ofFields (file.rectangular fields (List.mem_filter.mp hfields).1)

end CsvFile

/-- `CSVSource` for a profile without columns. -/
def csvSource (path : Stem) : Source where
  State := CsvFile
  Row := CsvRow
  Backed := CsvRow
  origin := .csv path
  load := CsvFile.loadRecords
  write rows _ := some (CsvFile.writeAll rows)
  dump := id
  replaceAll rows _ := some (CsvFile.writeAll rows)
  reread rows := (CsvFile.writeAll rows).loadRecords
  Same := CsvRow.Same
  Lossless _ := True
  Accepts _ _ := True
  Holds rows file := CsvFile.written rows = file.loadRecords.map CsvRow.text
  Spares rows file := CsvFile.written rows = file.loadRecords.map CsvRow.text
  same_refl _ := rfl
  load_replaceAll h := by
    cases h
    rfl
  isSome_replaceAll _ _ := rfl
  accepts_own _ := rfl
  lossless_iff file := by
    rw [List.map_id]
    exact iff_of_true (CsvFile.same_loadRecords file) trivial
  accepts_iff _ _ := iff_of_true rfl trivial
  holds_iff _ := by rw [CsvRow.Same, CsvFile.text_loadRecords_writeAll]
  spares_iff rows file := by
    simp only [Option.some.injEq, forall_eq', CsvRow.Same, CsvFile.text_loadRecords_writeAll]

/-- The columns that a profile gives to a file without a header. -/
structure Columns where
  names : List String
  nonempty : names ≠ []

namespace Columns

variable (columns : Columns)

/-- `load_records` without a header. -/
def loadRecords (lines : List (List String)) : List CsvRow :=
  lines.map fun values => CsvRow.ofPairs (CsvRow.pad columns.names values)

/-- `_write_all` without a header. -/
def writeAll (rows : List CsvRow) : List (List String) := rows.map (CsvRow.fields columns.names)

/-- What is read from a line. -/
def text (line : List String) : String → String :=
  (CsvRow.ofPairs (CsvRow.pad columns.names line)).text

theorem text_loadRecords (lines : List (List String)) :
    (columns.loadRecords lines).map CsvRow.text = lines.map columns.text :=
  List.map_map

theorem text_fields (row : CsvRow) :
    columns.text (row.fields columns.names) = row.under columns.names := by
  rw [text, CsvRow.pad_of_length (CsvRow.length_fields _ row)]
  exact CsvRow.text_ofFields columns.names row

/-- The lines read as the columns of the first row and then the rows under these columns. -/
def ReadsUnderHeader (rows : List CsvRow) (lines : List (List String)) : Prop :=
  ∃ first rest, lines = first :: rest ∧
    columns.text first = columns.text (CsvRow.fieldnames rows) ∧
    rest.map columns.text = rows.map fun row =>
      columns.text (row.fields (CsvRow.fieldnames rows))

theorem same_lines_iff (rows : List CsvRow) (lines : List (List String)) :
    CsvRow.Same (columns.loadRecords (CsvFile.writeAll rows).lines) (columns.loadRecords lines) ↔
      columns.ReadsUnderHeader rows lines := by
  rw [CsvRow.Same, text_loadRecords, text_loadRecords]
  show columns.text (CsvRow.fieldnames rows) ::
    (rows.map (CsvRow.fields (CsvRow.fieldnames rows))).map columns.text = lines.map columns.text ↔ _
  rw [List.map_map, eq_comm, List.map_eq_cons_iff]
  constructor
  · rintro ⟨first, rest, hlines, hfirst, hrest⟩
    exact ⟨first, rest, hlines, hfirst, hrest⟩
  · rintro ⟨first, rest, hlines, hfirst, hrest⟩
    exact ⟨first, rest, hlines, hfirst, hrest⟩

/-- The header that `restore` writes is loaded as one more row. -/
theorem not_same_lines (rows : List CsvRow) :
    ¬ CsvRow.Same (columns.loadRecords (CsvFile.writeAll rows).lines) rows := by
  intro hsame
  have hlength := congrArg List.length hsame
  simp [loadRecords, CsvFile.lines, CsvFile.writeAll] at hlength

end Columns

/-- `CSVSource` for a profile with columns. Without the profile it takes the file for one with
a header. -/
def headerlessSource (path : Stem) (columns : Columns) : Source where
  State := List (List String)
  Row := CsvRow
  Backed := CsvRow
  origin := .csv path
  load := columns.loadRecords
  write rows _ := some (columns.writeAll rows)
  dump := id
  replaceAll rows _ := some (CsvFile.writeAll rows).lines
  reread rows := columns.loadRecords (CsvFile.writeAll rows).lines
  Same := CsvRow.Same
  Lossless _ := False
  Accepts _ _ := True
  Holds := columns.ReadsUnderHeader
  Spares rows lines := rows.map (CsvRow.under columns.names) = lines.map columns.text
  same_refl _ := rfl
  load_replaceAll h := by
    cases h
    rfl
  isSome_replaceAll _ _ := rfl
  accepts_own _ := rfl
  lossless_iff lines := by
    rw [List.map_id]
    exact iff_of_false (columns.not_same_lines _) not_false
  accepts_iff _ _ := iff_of_true rfl trivial
  holds_iff _ := columns.same_lines_iff _ _
  spares_iff rows lines := by
    have hfields : rows.map (columns.text ∘ CsvRow.fields columns.names) =
        rows.map (CsvRow.under columns.names) :=
      List.map_congr_left fun row _ => columns.text_fields row
    simp only [Option.some.injEq, forall_eq', CsvRow.Same, columns.text_loadRecords,
      Columns.writeAll, List.map_map, hfields]

/-! ## SQLite -/

/-- A value as JSON holds it; `True` and `False` do not come up. -/
inductive JsonScalar where
  | null
  | num (q : ℚ)
  | str (s : String)
deriving DecidableEq

/-- A value of one of the storage classes. -/
inductive SqlValue where
  | null
  | num (q : ℚ)
  | text (s : String)
  | blob (bytes : List UInt8)
deriving DecidableEq

namespace SqlValue

/-- `value.hex()`. -/
def hex (bytes : List UInt8) : String :=
  String.ofList (bytes.flatMap fun b => [Nat.digitChar (b.toNat / 16), Nat.digitChar (b.toNat % 16)])

def dump : SqlValue → JsonScalar
  | null => .null
  | num q => .num q
  | text s => .str s
  | blob bytes => .str (hex bytes)

/-- A parameter of a statement. -/
def bind : JsonScalar → SqlValue
  | .null => null
  | .num q => num q
  | .str s => text s

theorem bind_dump {v : SqlValue} (h : ∀ bytes, v ≠ blob bytes) : bind v.dump = v := by
  cases v with
  | blob bytes => exact absurd rfl (h bytes)
  | null | num | text => rfl

theorem bind_ne_blob (v : JsonScalar) (bytes : List UInt8) : bind v ≠ blob bytes := by
  cases v <;> nofun

end SqlValue

/-- What SQLite makes of a text in an `INTEGER` column and of a number in a `TEXT` column. -/
structure SqliteEngine where
  asNumber : String → Option ℚ
  numberText : ℚ → String

/-- The columns of `reputation_records` but for the primary key. -/
inductive Column where
  | userId
  | chatId
  | score
  | positiveCount
  | negativeCount
  | reportedByTelegramId
  | createdAt
  | updatedAt
deriving DecidableEq

def Column.isText : Column → Bool
  | createdAt | updatedAt => true
  | _ => false

namespace SqliteEngine

variable (engine : SqliteEngine)

/-- A value as it is stored in a column. -/
def store (column : Column) : SqlValue → SqlValue
  | .num q => if column.isText then .text (engine.numberText q) else .num q
  | .text s => if column.isText then .text s else ((engine.asNumber s).map .num).getD (.text s)
  | v => v

/-- What has been stored is stored as it is. -/
theorem store_store (column : Column) (v : SqlValue) :
    engine.store column (engine.store column v) = engine.store column v := by
  cases v with
  | null | blob => rfl
  | num q =>
      cases h : column.isText with
      | true => simp [store, h]
      | false => simp [store, h]
  | text s =>
      cases h : column.isText with
      | true => simp [store, h]
      | false => cases hnumber : engine.asNumber s <;> simp [store, h, hnumber]

theorem store_ne_blob {column : Column} {v : SqlValue} {bytes : List UInt8}
    (h : v ≠ .blob bytes) : engine.store column v ≠ .blob bytes := by
  cases v with
  | null | blob => exact h
  | num q => cases hcolumn : column.isText <;> simp [store, hcolumn]
  | text s =>
      cases hcolumn : column.isText with
      | true => simp [store, hcolumn]
      | false => cases hnumber : engine.asNumber s <;> simp [store, hcolumn, hnumber]

/-- A row of `reputation_records`. Whether a column is declared `NOT NULL` makes no difference
here, as backups are taken from the same table. -/
@[ext]
structure Row where
  id : Int
  values : Column → SqlValue
  stored : ∀ column, engine.store column (values column) = values column

/-- The row in a backup. -/
structure BackedRow where
  id : Int
  values : Column → JsonScalar

variable {engine}

def Row.dump (row : engine.Row) : BackedRow := ⟨row.id, fun column => (row.values column).dump⟩

/-- `INSERT INTO reputation_records`. -/
def insertRow (engine : SqliteEngine) (row : BackedRow) : engine.Row where
  id := row.id
  values column := engine.store column (SqlValue.bind (row.values column))
  stored column := engine.store_store column _

/-- A row without blobs comes back. -/
theorem insertRow_dump {row : engine.Row} (h : ∀ column bytes, row.values column ≠ .blob bytes) :
    engine.insertRow row.dump = row := by
  ext column
  · rfl
  · show engine.store column (SqlValue.bind (row.values column).dump) = row.values column
    rw [SqlValue.bind_dump (h column), row.stored]

theorem insertRow_ne_blob (row : BackedRow) (column : Column) (bytes : List UInt8) :
    (engine.insertRow row).values column ≠ .blob bytes :=
  engine.store_ne_blob (SqlValue.bind_ne_blob _ bytes)

/-- The table, in whatever order it is scanned. -/
structure Table (engine : SqliteEngine) where
  rows : List engine.Row
  distinct : (rows.map Row.id).Nodup

/-- The table of these rows, unless the primary key is violated. -/
def put (rows : List engine.Row) : Option engine.Table :=
  if distinct : (rows.map Row.id).Nodup then some ⟨rows, distinct⟩ else none

theorem put_isSome {rows : List engine.Row} : (put rows).isSome ↔ (rows.map Row.id).Nodup := by
  rw [put]
  split
  · next h => exact iff_of_true rfl h
  · next h => exact iff_of_false nofun h

theorem id_insertRow (rows : List BackedRow) :
    (rows.map engine.insertRow).map Row.id = rows.map BackedRow.id := by
  rw [List.map_map]
  rfl

theorem rows_put {rows : List engine.Row} {table : engine.Table} (h : put rows = some table) :
    table.rows = rows := by
  rw [put] at h
  split at h
  · cases h
    rfl
  · cases h

end SqliteEngine

/-- `SQLiteSource`. -/
def sqliteSource (path : Stem) (engine : SqliteEngine) : Source where
  State := engine.Table
  Row := engine.Row
  Backed := SqliteEngine.BackedRow
  origin := .sqlite path
  load := SqliteEngine.Table.rows
  write rows _ := SqliteEngine.put rows
  dump := SqliteEngine.Row.dump
  replaceAll rows _ := SqliteEngine.put (rows.map engine.insertRow)
  reread rows := rows.map engine.insertRow
  Same := List.Perm
  Lossless rows := ∀ row ∈ rows, ∀ column bytes, row.values column ≠ .blob bytes
  Accepts rows _ := (rows.map SqliteEngine.BackedRow.id).Nodup
  Holds rows table := (rows.map engine.insertRow).Perm table.rows
  Spares rows table := (rows.map SqliteEngine.Row.id).Nodup → rows.Perm table.rows
  same_refl := List.Perm.refl
  load_replaceAll := SqliteEngine.rows_put
  isSome_replaceAll _ _ := rfl
  accepts_own table := by
    have hids : ((table.rows.map SqliteEngine.Row.dump).map engine.insertRow).map
        SqliteEngine.Row.id = table.rows.map SqliteEngine.Row.id := by
      rw [List.map_map, List.map_map]
      rfl
    rw [SqliteEngine.put, dif_pos (hids ▸ table.distinct)]
    rfl
  lossless_iff table := by
    rw [List.map_map]
    constructor
    · intro hsame row hrow column bytes
      obtain ⟨row', -, rfl⟩ := List.mem_map.mp (hsame.mem_iff.mpr hrow)
      exact SqliteEngine.insertRow_ne_blob row'.dump column bytes
    · intro h
      have hid : table.rows.map (engine.insertRow ∘ SqliteEngine.Row.dump) = table.rows.map id :=
        List.map_congr_left fun row hrow => SqliteEngine.insertRow_dump (h row hrow)
      rw [hid, List.map_id]
  accepts_iff rows _ := by rw [SqliteEngine.put_isSome, SqliteEngine.id_insertRow]
  holds_iff _ := Iff.rfl
  spares_iff rows table := by
    rw [← SqliteEngine.put_isSome]
    constructor
    · intro h hsome
      obtain ⟨t, ht⟩ := Option.isSome_iff_exists.mp hsome
      rw [← SqliteEngine.rows_put ht]
      exact h t ht
    · intro h t ht
      rw [SqliteEngine.rows_put ht]
      exact h (ht ▸ rfl)

/-! ## Postgres -/

/-- A row of `reputation_records`, whose timestamps are of the type `τ`. -/
structure ReputationRecord (τ : Type) where
  id : Int
  userId : Int
  chatId : Int
  score : Int
  positiveCount : Option Int
  negativeCount : Option Int
  reportedByTelegramId : Option Int
  createdAt : τ
  updatedAt : τ
deriving DecidableEq

namespace ReputationRecord

/-- The row in a backup. -/
def dump (record : ReputationRecord Timestamp) : ReputationRecord Text :=
  { record with
    createdAt := record.createdAt.isoformat
    updatedAt := record.updatedAt.isoformat }

/-- `_coerce_row`; nothing if a timestamp raises a `ValueError`. -/
def coerceRow (row : ReputationRecord Text) : Option (ReputationRecord Timestamp) := do
  let createdAt ← Timestamp.fromisoformat row.createdAt
  let updatedAt ← Timestamp.fromisoformat row.updatedAt
  return { row with createdAt, updatedAt }

/-- Both timestamps can be read. -/
def Readable (row : ReputationRecord Text) : Prop :=
  (Timestamp.fromisoformat row.createdAt).isSome ∧ (Timestamp.fromisoformat row.updatedAt).isSome

theorem coerceRow_isSome (row : ReputationRecord Text) : row.coerceRow.isSome ↔ row.Readable := by
  rw [Readable, coerceRow]
  cases Timestamp.fromisoformat row.createdAt with
  | none => simp
  | some createdAt => cases Timestamp.fromisoformat row.updatedAt <;> simp

/-- The timestamps apart, a row is inserted as it stands. -/
theorem keys_coerceRow {row : ReputationRecord Text} {record : ReputationRecord Timestamp}
    (h : row.coerceRow = some record) : record.id = row.id ∧ record.userId = row.userId := by
  obtain ⟨createdAt, -, h⟩ := Option.bind_eq_some_iff.mp h
  obtain ⟨updatedAt, -, h⟩ := Option.bind_eq_some_iff.mp h
  cases h
  exact ⟨rfl, rfl⟩

theorem mapM_coerceRow_eq_some {rows : List (ReputationRecord Text)}
    {records : List (ReputationRecord Timestamp)} :
    rows.mapM coerceRow = some records ↔ rows.map coerceRow = records.map some := by
  induction rows generalizing records with
  | nil =>
      rw [List.mapM_nil, List.map_nil]
      cases records <;> simp
  | cons row rows ih =>
      rw [List.mapM_cons, List.map_cons]
      cases records with
      | nil =>
          cases row.coerceRow <;> cases rows.mapM coerceRow <;> simp
      | cons record records =>
          rw [List.map_cons, List.cons.injEq, ← ih]
          cases row.coerceRow <;> cases rows.mapM coerceRow <;> simp

theorem exists_mapM_coerceRow {rows : List (ReputationRecord Text)}
    (readable : ∀ row ∈ rows, row.Readable) : ∃ records, rows.mapM coerceRow = some records := by
  induction rows with
  | nil => exact ⟨[], rfl⟩
  | cons row rows ih =>
      obtain ⟨hrow, hrows⟩ := List.forall_mem_cons.mp readable
      obtain ⟨record, hrecord⟩ := Option.isSome_iff_exists.mp (row.coerceRow_isSome.mpr hrow)
      obtain ⟨records, hrecords⟩ := ih hrows
      exact ⟨record :: records, by rw [List.mapM_cons, hrecord, hrecords]; rfl⟩

/-- The records that are read have the keys of their rows. -/
theorem keys_mapM_coerceRow {rows : List (ReputationRecord Text)}
    {records : List (ReputationRecord Timestamp)} (h : rows.mapM coerceRow = some records) :
    records.map id = rows.map id ∧ records.map userId = rows.map userId := by
  induction rows generalizing records with
  | nil =>
      cases h
      exact ⟨rfl, rfl⟩
  | cons row rows ih =>
      rw [List.mapM_cons] at h
      obtain ⟨record, hrecord, h⟩ := Option.bind_eq_some_iff.mp h
      obtain ⟨others, hothers, h⟩ := Option.bind_eq_some_iff.mp h
      cases h
      obtain ⟨hids, husers⟩ := ih hothers
      obtain ⟨hid, huser⟩ := keys_coerceRow hrecord
      simp only [List.map_cons, hid, huser, hids, husers, and_self]

theorem coerceRow_dump (record : ReputationRecord Timestamp) :
    record.dump.coerceRow = some record := by
  simp [coerceRow, dump, Timestamp.fromisoformat_isoformat]

theorem coerceRows_dump (records : List (ReputationRecord Timestamp)) :
    (records.map dump).mapM coerceRow = some records := by
  induction records with
  | nil => rfl
  | cons record records ih =>
      rw [List.map_cons, List.mapM_cons, coerceRow_dump, ih]
      rfl

end ReputationRecord

/-- The table, in whatever order it is scanned, and the ids of the users. -/
structure ReputationTable where
  users : List Int
  records : List (ReputationRecord Timestamp)
  distinct : (records.map ReputationRecord.id).Nodup
  known : ∀ record ∈ records, record.userId ∈ users

namespace ReputationTable

/-- The table with these records, unless a key is violated. -/
def put (records : List (ReputationRecord Timestamp)) (table : ReputationTable) :
    Option ReputationTable :=
  if h : (records.map ReputationRecord.id).Nodup ∧
      ∀ record ∈ records, record.userId ∈ table.users then
    some { users := table.users, records, distinct := h.1, known := h.2 }
  else none

theorem put_eq_some {records : List (ReputationRecord Timestamp)} {table table' : ReputationTable}
    (h : put records table = some table') :
    table'.records = records ∧ table'.users = table.users := by
  rw [put] at h
  split at h
  · cases h
    exact ⟨rfl, rfl⟩
  · cases h

theorem put_records (table : ReputationTable) : put table.records table = some table :=
  dif_pos ⟨table.distinct, table.known⟩

theorem put_isSome {records : List (ReputationRecord Timestamp)} {table : ReputationTable} :
    (put records table).isSome ↔ (records.map ReputationRecord.id).Nodup ∧
      ∀ record ∈ records, record.userId ∈ table.users := by
  rw [put]
  split
  · next h => exact iff_of_true rfl h
  · next h => exact iff_of_false nofun h

/-- `replace_all` raises nothing if the timestamps can be read and no key is violated. -/
theorem accepts_iff (rows : List (ReputationRecord Text)) (table : ReputationTable) :
    ((rows.mapM ReputationRecord.coerceRow).bind fun records => table.put records).isSome ↔
      (∀ row ∈ rows, row.Readable) ∧ (rows.map ReputationRecord.id).Nodup ∧
        ∀ row ∈ rows, row.userId ∈ table.users := by
  cases hrecords : rows.mapM ReputationRecord.coerceRow with
  | none =>
      refine iff_of_false nofun fun h => ?_
      obtain ⟨records, hsome⟩ := ReputationRecord.exists_mapM_coerceRow h.1
      cases hrecords.symm.trans hsome
  | some records =>
      obtain ⟨hids, husers⟩ := ReputationRecord.keys_mapM_coerceRow hrecords
      have hreadable : ∀ row ∈ rows, row.Readable := by
        intro row hrow
        have hmem : row.coerceRow ∈ records.map some := by
          rw [← ReputationRecord.mapM_coerceRow_eq_some.mp hrecords]
          exact List.mem_map_of_mem hrow
        obtain ⟨record, -, hrecord⟩ := List.mem_map.mp hmem
        exact row.coerceRow_isSome.mp (hrecord ▸ rfl)
      have hknown : (∀ record ∈ records, record.userId ∈ table.users) ↔
          ∀ row ∈ rows, row.userId ∈ table.users := by
        rw [← List.forall_mem_map (f := ReputationRecord.userId) (P := (· ∈ table.users)),
          ← List.forall_mem_map (f := ReputationRecord.userId) (P := (· ∈ table.users)), husers]
      show (ReputationTable.put records table).isSome ↔ _
      rw [put_isSome, hids, hknown]
      exact (and_iff_right hreadable).symm

end ReputationTable

/-- `PostgresSource`. -/
def postgresSource : Source where
  State := ReputationTable
  Row := ReputationRecord Timestamp
  Backed := ReputationRecord Text
  origin := .postgres
  load := ReputationTable.records
  write := ReputationTable.put
  dump := ReputationRecord.dump
  replaceAll rows table :=
    (rows.mapM ReputationRecord.coerceRow).bind fun records => table.put records
  reread rows := (rows.mapM ReputationRecord.coerceRow).getD []
  Same := List.Perm
  Lossless _ := True
  Accepts rows table := (∀ row ∈ rows, row.Readable) ∧
    (rows.map ReputationRecord.id).Nodup ∧ ∀ row ∈ rows, row.userId ∈ table.users
  Holds rows table := (rows.map ReputationRecord.coerceRow).Perm (table.records.map some)
  Spares records table := (records.map ReputationRecord.id).Nodup →
    (∀ record ∈ records, record.userId ∈ table.users) → records.Perm table.records
  same_refl := List.Perm.refl
  load_replaceAll h := by
    obtain ⟨records, hrecords, hput⟩ := Option.bind_eq_some_iff.mp h
    rw [(ReputationTable.put_eq_some hput).1, hrecords]
    rfl
  isSome_replaceAll h rows := by
    have husers := (ReputationTable.put_eq_some h).2
    cases rows.mapM ReputationRecord.coerceRow with
    | none => rfl
    | some records =>
        show (ReputationTable.put records _).isSome = (ReputationTable.put records _).isSome
        rw [Bool.eq_iff_iff, ReputationTable.put_isSome, ReputationTable.put_isSome, husers]
  accepts_own table := by
    rw [ReputationRecord.coerceRows_dump, Option.bind_some, table.put_records]
    rfl
  lossless_iff table := by
    rw [ReputationRecord.coerceRows_dump]
    exact iff_of_true (List.Perm.refl _) trivial
  accepts_iff rows table := ReputationTable.accepts_iff rows table
  holds_iff h := by
    obtain ⟨records, hrecords⟩ := ReputationRecord.exists_mapM_coerceRow h.1
    rw [hrecords, ReputationRecord.mapM_coerceRow_eq_some.mp hrecords, Option.getD_some]
    exact (List.map_perm_map_iff (Option.some_injective _)).symm
  spares_iff records table := by
    constructor
    · intro h distinct known
      obtain ⟨t, ht⟩ := Option.isSome_iff_exists.mp (ReputationTable.put_isSome.mpr
        ⟨distinct, known⟩)
      rw [← (ReputationTable.put_eq_some ht).1]
      exact h t ht
    · intro h t ht
      have hsome : (ReputationTable.put records table).isSome := ht ▸ rfl
      obtain ⟨distinct, known⟩ := ReputationTable.put_isSome.mp hsome
      rw [(ReputationTable.put_eq_some ht).1]
      exact h distinct known

/-! ## The five of them -/

/-- A source with a profile for which `restore` is supported. -/
inductive Supported where
  | postgres
  | sqlite (path : Stem) (engine : SqliteEngine)
  | csv (path : Stem)
  | headerlessCsv (path : Stem) (columns : Columns)
  | json (path : Stem) (ν : Type)

def Supported.source : Supported → Source
  | postgres => postgresSource
  | sqlite path engine => sqliteSource path engine
  | csv path => csvSource path
  | headerlessCsv path columns => headerlessSource path columns
  | json path ν => jsonSource path ν

end UserTgBot.Maintenance
