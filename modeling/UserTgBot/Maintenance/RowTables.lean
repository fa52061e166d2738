import UserTgBot.Maintenance.RowFiles
import UserTgBot.Maintenance.Sources

/-!
# Rows in tables

How the sources for SQLite and Postgres meet the contract of a source. They share their
statements, and differ in what a column takes and in what an update sets besides what it is
given: `onupdate=func.now()` is a matter of the model `ReputationRecord`, which SQLite does not
know. In what order a table is scanned is left open.

`null_fill` assigns columns here, and values that they take; with any other dictionary a
statement raises. Foreign keys are left out.
-/

namespace UserTgBot.Maintenance

open PyValue

namespace Column

def all : List Column :=
  [userId, chatId, score, positiveCount, negativeCount, reportedByTelegramId, createdAt, updatedAt]

def name : Column → String
  | userId => "user_id"
  | chatId => "chat_id"
  | score => "score"
  | positiveCount => "positive_count"
  | negativeCount => "negative_count"
  | reportedByTelegramId => "reported_by_telegram_id"
  | createdAt => "created_at"
  | updatedAt => "updated_at"

def ofName (field : String) : Option Column := all.find? fun column => column.name = field

theorem mem_all (column : Column) : column ∈ all := by
  cases column <;> decide

theorem ofName_name (column : Column) : ofName column.name = some column := by
  cases column <;> rfl

theorem name_of_ofName {field : String} {column : Column} (h : ofName field = some column) :
    column.name = field := by
  have hfound := List.find?_some h
  exact of_decide_eq_true hfound

theorem name_ne_id (column : Column) : column.name ≠ "id" := by
  cases column <;> decide

theorem name_injective {column column' : Column} (h : column.name = column'.name) :
    column = column' :=
  Option.some.inj ((ofName_name column).symm.trans (h ▸ ofName_name column'))

end Column

/-- What the columns of a table take. -/
structure SqlTypes where
  /-- A value as it is stored; nothing if the column refuses it. -/
  store : Column → Value → Option Value
  /-- What `replace_all` makes of a value before it is inserted. -/
  coerce : Column → Value → Value
  store_store : ∀ {column v w}, store column v = some w → store column w = some w
  store_blank : ∀ {column v w}, store column v = some w → isBlank w = isBlank v
  coerce_eq : ∀ {column v w}, store column v = some w → coerce column v = v

section Tables

variable (types : SqlTypes)

/-- A parameter of an `UPDATE`. -/
structure SqlCell where
  column : Column
  value : Value
  stored : types.store column value = some value

/-- A row of `reputation_records`. -/
@[ext]
structure SqlRow where
  position : Nat
  id : Int
  values : Column → Value
  stored : ∀ column, types.store column (values column) = some (values column)

variable {types}

/-- The row as `load_records` returns it. -/
def SqlRow.record (row : SqlRow types) : Record where
  position := row.position
  fields field :=
    if field = "id" then some (.num row.id) else (Column.ofName field).map row.values

/-- The parameters of `SET`; nothing if there is no such column, or it refuses the value. -/
def SqlTypes.bind (types : SqlTypes) : List (String × Value) → Option (List (SqlCell types))
  | [] => some []
  | (field, v) :: fields =>
      (Column.ofName field).bind fun column =>
        match h : types.store column v with
        | none => none
        | some w => (types.bind fields).map fun cells => ⟨column, w, types.store_store h⟩ :: cells

/-- The value that is assigned to a column. -/
def assigned (cells : List (SqlCell types)) (column : Column) : Option Value :=
  (cells.find? fun cell => cell.column = column).map SqlCell.value

theorem stored_of_assigned {cells : List (SqlCell types)} {column : Column} {v : Value}
    (h : assigned cells column = some v) : types.store column v = some v := by
  obtain ⟨cell, hcell, rfl⟩ := Option.map_eq_some_iff.mp h
  have hfound := List.find?_some hcell
  have hcolumn : cell.column = column := of_decide_eq_true hfound
  exact hcolumn ▸ cell.stored

theorem assigned_append (cells cells' : List (SqlCell types)) (column : Column) :
    assigned (cells ++ cells') column =
      (assigned cells column).or (assigned cells' column) := by
  rw [assigned, assigned, assigned, List.find?_append]
  cases cells.find? fun cell => cell.column = column <;> rfl

def SqlRow.set (row : SqlRow types) (cells : List (SqlCell types)) : SqlRow types :=
  { row with
    values := fun column => (assigned cells column).getD (row.values column)
    stored := by
      intro column
      cases h : assigned cells column with
      | none => exact row.stored column
      | some v => exact stored_of_assigned h }

theorem SqlRow.set_set (row : SqlRow types) (cells : List (SqlCell types)) :
    (row.set cells).set cells = row.set cells := by
  refine SqlRow.ext rfl rfl (funext fun column => ?_)
  show (assigned cells column).getD ((assigned cells column).getD (row.values column)) = _
  cases h : assigned cells column with
  | none => simp [SqlRow.set, h]
  | some v => simp [SqlRow.set, h]

theorem SqlRow.id_ite_set (row : SqlRow types) (cells : List (SqlCell types)) (p : Prop)
    [Decidable p] : (if p then row.set cells else row).id = row.id := by
  split <;> rfl

/-- `UPDATE .. WHERE id = ..`, with what the statement sets by itself. -/
def updateRows (stamps : List (SqlCell types)) (rows : List (SqlRow types))
    (update : Value × List (String × Value)) : Option (List (SqlRow types)) :=
  rows.mapM fun row =>
    if .num row.id = update.1 then
      (types.bind update.2).map fun cells => row.set (cells ++ stamps)
    else some row

/-- The statements of `apply_fixes`; nothing if one of them raises. -/
def fixRows (stamps : List (SqlCell types)) (deleteIds : List Value)
    (updates : List (Value × List (String × Value))) (rows : List (SqlRow types)) :
    Option (List (SqlRow types)) :=
  updates.foldlM (updateRows stamps) (rows.filter fun row => .num row.id ∉ deleteIds)

/-- `INSERT` of a row. -/
def insertRow (r : Record) : Option (SqlRow types) :=
  match r.fields "id" with
  | some (.num q) =>
      if h : q.den = 1 ∧ ∀ column ∈ Column.all,
          (types.store column (types.coerce column (r.get column.name))).isSome then
        some {
          position := r.position
          id := q.num
          values := fun column =>
            (types.store column (types.coerce column (r.get column.name))).get
              (h.2 column column.mem_all)
          stored := fun _ => types.store_store (Option.some_get _).symm }
      else none
  | _ => none

/-- The table, in the order in which it is scanned. -/
structure SqlTable (types : SqlTypes) where
  rows : List (SqlRow types)
  users : Option (List Value)
  /-- The clock of the database. -/
  now : Int
  distinct : (rows.map SqlRow.id).Nodup

/-- The order in which rows are scanned, which nothing is known about. -/
structure Scan (types : SqlTypes) where
  order : List (SqlRow types) → List (SqlRow types)
  perm : ∀ rows, (order rows).Perm rows

/-- The transaction is committed, or rolled back if a statement raises. -/
def SqlTable.commit (scan : Scan types) (s : SqlTable types)
    (rows : Option (List (SqlRow types))) : SqlTable types :=
  match rows with
  | none => s
  | some rows =>
      if distinct : (rows.map SqlRow.id).Nodup then
        { s with
          rows := scan.order rows
          distinct := ((scan.perm rows).map SqlRow.id).nodup_iff.mpr distinct }
      else s

/-! ## What a fix does to a table -/

theorem updateRows_eq {stamps cells : List (SqlCell types)} {rows : List (SqlRow types)}
    {update : Value × List (String × Value)} (h : types.bind update.2 = some cells) :
    updateRows stamps rows update = some (rows.map fun row =>
      if .num row.id = update.1 then row.set (cells ++ stamps) else row) := by
  refine mapM_eq_some fun row _ => ?_
  rw [h]
  split <;> rfl

theorem foldlM_updateRows {stamps cells : List (SqlCell types)}
    {nullFill : List (String × Value)} (h : types.bind nullFill = some cells)
    {updates : List (Value × List (String × Value))}
    (same : ∀ update ∈ updates, update.2 = nullFill) (rows : List (SqlRow types)) :
    updates.foldlM (updateRows stamps) rows = some (rows.map fun row =>
      if .num row.id ∈ updates.map Prod.fst then row.set (cells ++ stamps) else row) := by
  induction updates generalizing rows with
  | nil => exact congrArg some (List.map_id rows).symm
  | cons update updates ih =>
      obtain ⟨hfirst, hrest⟩ := List.forall_mem_cons.mp same
      rw [List.foldlM_cons, updateRows_eq (hfirst ▸ h), Option.bind_eq_bind, Option.bind_some,
        ih hrest, List.map_map]
      refine congrArg some (List.map_congr_left fun row _ => ?_)
      simp only [Function.comp_def, SqlRow.id_ite_set, List.map_cons, List.mem_cons]
      by_cases hfirst : Value.num row.id = update.1
      · rw [if_pos hfirst, if_pos (Or.inl hfirst), row.set_set]
        exact ite_self _
      · rw [if_neg hfirst]
        simp only [hfirst, false_or]

/-! ## Cells and dictionaries -/

theorem bind_cons {field : String} {v : Value} {fields : List (String × Value)}
    {cells : List (SqlCell types)} (h : types.bind ((field, v) :: fields) = some cells) :
    ∃ cell rest, cell.column.name = field ∧ types.store cell.column v = some cell.value ∧
      types.bind fields = some rest ∧ cells = cell :: rest := by
  rw [SqlTypes.bind] at h
  obtain ⟨column, hcolumn, h⟩ := Option.bind_eq_some_iff.mp h
  split at h
  · cases h
  · rename_i w hw
    obtain ⟨rest, hrest, rfl⟩ := Option.map_eq_some_iff.mp h
    exact ⟨⟨column, w, types.store_store hw⟩, rest, Column.name_of_ofName hcolumn, hw, hrest, rfl⟩

/-- A column gets what its field holds, as it is stored. -/
theorem assigned_bind {fields : List (String × Value)} {cells : List (SqlCell types)}
    (h : types.bind fields = some cells) (column : Column) :
    assigned cells column = (fields.lookup column.name).bind (types.store column) := by
  induction fields generalizing cells with
  | nil =>
      cases h
      rfl
  | cons e fields ih =>
      obtain ⟨field, v⟩ := e
      obtain ⟨cell, rest, rfl, hstore, hrest, rfl⟩ := bind_cons h
      rw [assigned, List.find?_cons, List.lookup_cons]
      by_cases heq : cell.column = column
      · subst heq
        simp [hstore]
      · have hname : column.name ≠ cell.column.name := fun h => heq (Column.name_injective h).symm
        have hbeq : (column.name == cell.column.name) = false := beq_eq_false_iff_ne.mpr hname
        simp only [heq, decide_false, hbeq]
        exact ih hrest

/-- Only columns can be assigned. -/
theorem lookup_eq_none_of_bind {fields : List (String × Value)} {cells : List (SqlCell types)}
    (h : types.bind fields = some cells) {field : String}
    (hfield : ∀ column : Column, column.name ≠ field) : fields.lookup field = none := by
  induction fields generalizing cells with
  | nil => rfl
  | cons e fields ih =>
      obtain ⟨name, v⟩ := e
      obtain ⟨cell, rest, rfl, -, hrest, -⟩ := bind_cons h
      have hbeq : (field == cell.column.name) = false :=
        beq_eq_false_iff_ne.mpr fun heq => hfield cell.column heq.symm
      rw [List.lookup_cons, hbeq]
      exact ih hrest

/-- The cells as a dictionary. -/
def asFields (cells : List (SqlCell types)) : List (String × Value) :=
  cells.map fun cell => (cell.column.name, cell.value)

theorem lookup_asFields (cells : List (SqlCell types)) (column : Column) :
    (asFields cells).lookup column.name = assigned cells column := by
  induction cells with
  | nil => rfl
  | cons cell cells ih =>
      rw [asFields, List.map_cons, List.lookup_cons, assigned, List.find?_cons]
      by_cases heq : cell.column = column
      · simp [heq]
      · have hname : column.name ≠ cell.column.name := fun h => heq (Column.name_injective h).symm
        have hbeq : (column.name == cell.column.name) = false := beq_eq_false_iff_ne.mpr hname
        simp only [heq, decide_false, hbeq]
        exact ih

theorem lookup_asFields_eq_none (cells : List (SqlCell types)) {field : String}
    (hfield : ∀ column : Column, column.name ≠ field) : (asFields cells).lookup field = none := by
  rw [List.lookup_eq_none_iff]
  intro e he
  obtain ⟨cell, -, rfl⟩ := List.mem_map.mp he
  exact bne_iff_ne.mpr fun heq => hfield cell.column heq.symm

/-- A value of the dictionary, as it is stored in the column of that name. -/
def SqlTypes.stored (types : SqlTypes) (field : String) (v : Value) : Value :=
  ((Column.ofName field).bind fun column => types.store column v).getD v

theorem SqlRow.get_record (row : SqlRow types) (column : Column) :
    row.record.get column.name = row.values column := by
  rw [Record.get, SqlRow.record]
  dsimp only
  rw [if_neg column.name_ne_id, Column.ofName_name]
  rfl

section Patched

variable {nullFill : List (String × Value)} {cells stamps : List (SqlCell types)}

theorem lookup_filling (h : types.bind nullFill = some cells) (column : Column) :
    (mapFill types.stored nullFill).lookup column.name = assigned cells column := by
  have hstored : ∀ {fields : List (String × Value)} {cells : List (SqlCell types)},
      types.bind fields = some cells →
        ∀ v, fields.lookup column.name = some v → (types.store column v).isSome := by
    intro fields
    induction fields with
    | nil => exact fun _ v hv => by cases hv
    | cons e fields ih =>
        intro cells h v hv
        obtain ⟨field, w⟩ := e
        obtain ⟨cell, rest, rfl, hstore, hrest, rfl⟩ := bind_cons h
        rw [List.lookup_cons] at hv
        split at hv
        · rename_i heq
          cases hv
          rw [Column.name_injective (eq_of_beq heq), hstore]
          rfl
        · exact ih hrest v hv
  rw [lookup_mapFill, assigned_bind h]
  cases hlookup : nullFill.lookup column.name with
  | none => rfl
  | some v =>
      obtain ⟨w, hw⟩ := Option.isSome_iff_exists.mp (hstored h v hlookup)
      rw [Option.map_some, Option.bind_some, SqlTypes.stored, Column.ofName_name,
        Option.bind_some, hw]
      rfl

/-- A row that is written to is its dictionary, updated. -/
theorem record_set (h : types.bind nullFill = some cells) (row : SqlRow types) :
    (row.set (cells ++ stamps)).record =
      row.record.update (mapFill types.stored nullFill ++ asFields stamps) := by
  refine congrArg (Record.mk row.position) (funext fun field => ?_)
  show (if field = "id" then some (Value.num row.id)
      else (Column.ofName field).map fun column =>
        (assigned (cells ++ stamps) column).getD (row.values column)) =
    ((mapFill types.stored nullFill ++ asFields stamps).lookup field).orElse fun _ =>
      row.record.fields field
  cases hcolumn : Column.ofName field with
  | none =>
      have hfield : ∀ column : Column, column.name ≠ field := by
        rintro column rfl
        rw [Column.ofName_name] at hcolumn
        cases hcolumn
      rw [List.lookup_append, lookup_mapFill, lookup_eq_none_of_bind h hfield,
        lookup_asFields_eq_none _ hfield]
      show _ = row.record.fields field
      rw [SqlRow.record]
      dsimp only
      rw [hcolumn]
      rfl
  | some column =>
      obtain rfl := Column.name_of_ofName hcolumn
      rw [if_neg column.name_ne_id, List.lookup_append, lookup_filling h, lookup_asFields,
        ← assigned_append]
      have hfields : row.record.fields column.name = some (row.values column) := by
        rw [SqlRow.record]
        dsimp only
        rw [if_neg column.name_ne_id, hcolumn]
        rfl
      rw [hfields, Option.map_some]
      cases assigned (cells ++ stamps) column <;> rfl

/-- A row is inserted as what it says. -/
theorem insertRow_eq {r : Record} {row : SqlRow types} (position : r.position = row.position)
    (id : r.fields "id" = some (.num row.id))
    (values : ∀ column, types.store column (types.coerce column (r.get column.name)) =
      some (row.values column)) : insertRow r = some row := by
  rw [insertRow, id]
  dsimp only
  rw [dif_pos ⟨Rat.den_intCast row.id, fun column _ => by rw [values]; rfl⟩]
  refine congrArg some (SqlRow.ext position (Rat.num_intCast row.id) (funext fun column => ?_))
  exact Option.get_of_eq_some _ (values column)

/-- A row that a rebuild has filled is inserted with the same cells as in an update. -/
theorem insertRow_ite (h : types.bind nullFill = some cells) (row : SqlRow types) (p : Prop)
    [Decidable p] : insertRow (if p then row.record.update nullFill else row.record) =
      some (if p then row.set cells else row) := by
  have hkept : ∀ column, types.store column (types.coerce column (row.record.get column.name)) =
      some (row.values column) := by
    intro column
    rw [row.get_record, types.coerce_eq (row.stored column), row.stored]
  split
  · refine insertRow_eq rfl ?_ fun column => ?_
    · show ((nullFill.lookup "id").orElse fun _ => row.record.fields "id") = _
      rw [lookup_eq_none_of_bind h Column.name_ne_id]
      rfl
    · have hassigned := assigned_bind h column
      show _ = some ((assigned cells column).getD (row.values column))
      cases hlookup : nullFill.lookup column.name with
      | none =>
          rw [hlookup] at hassigned
          rw [Record.get_update_of_lookup_none hlookup, hassigned]
          exact hkept column
      | some v =>
          have hfilling := lookup_filling h column
          rw [lookup_mapFill, hlookup, Option.map_some] at hfilling
          rw [hlookup, Option.bind_some, ← hfilling] at hassigned
          rw [Record.get_update_of_lookup hlookup, types.coerce_eq hassigned.symm,
            ← hassigned, ← hfilling]
          rfl
  · exact insertRow_eq rfl rfl hkept

end Patched

/-! ## The source -/

theorem SqlTable.rows_commit {scan : Scan types} {s : SqlTable types}
    {rows : List (SqlRow types)} (distinct : (rows.map SqlRow.id).Nodup) :
    (s.commit scan (some rows)).rows = scan.order rows := by
  rw [SqlTable.commit, dif_pos distinct]

theorem SqlTable.users_commit (scan : Scan types) (s : SqlTable types)
    (rows : Option (List (SqlRow types))) : (s.commit scan rows).users = s.users := by
  cases rows with
  | none => rfl
  | some rows =>
      rw [SqlTable.commit]
      split <;> rfl

/-- The rows of a table that has been written are those that were written. -/
theorem arranged_commit {scan : Scan types} {s : SqlTable types} {rows : List (SqlRow types)}
    (distinct : (rows.map SqlRow.id).Nodup) :
    Arranged false ((s.commit scan (some rows)).rows.map SqlRow.record)
      (rows.map SqlRow.record) := by
  rw [SqlTable.rows_commit distinct]
  exact ⟨(scan.perm rows).map SqlRow.record, nofun⟩

/-- Some of the records of a table belong to some of its rows. -/
theorem exists_rows {rows : List (SqlRow types)} {marked : List (Record × Bool)}
    (h : (marked.map Prod.fst).Sublist (rows.map SqlRow.record)) :
    ∃ kept : List (SqlRow types × Bool), (kept.map Prod.fst).Sublist rows ∧
      marked = kept.map fun row => (row.1.record, row.2) := by
  obtain ⟨kept, hkept, hrecords⟩ := List.sublist_map_iff.mp h
  have hlength : kept.length ≤ (marked.map Prod.snd).length := by
    have := congrArg List.length hrecords
    simp only [List.length_map] at this ⊢
    omega
  refine ⟨kept.zip (marked.map Prod.snd), ?_, ?_⟩
  · rwa [List.map_fst_zip hlength]
  · have hzip : (kept.map SqlRow.record).zip (marked.map Prod.snd) = marked := by
      rw [← hrecords]
      exact (List.zip_of_prod rfl rfl).symm
    conv_lhs => rw [← hzip, List.zip_map_left]
    rfl

/-- Patched rows are written as the fields that they are read back as. -/
theorem arranged_fixRows {scan : Scan types} {s : SqlTable types}
    {stamps cells : List (SqlCell types)} (hcells : types.bind nullFill = some cells)
    (deleteIds : List Value) {updates : List (Value × List (String × Value))}
    (same : ∀ update ∈ updates, update.2 = nullFill) :
    Arranged false
      ((s.commit scan (fixRows stamps deleteIds updates s.rows)).rows.map SqlRow.record)
      (((s.rows.map SqlRow.record).filter fun r => r.get "id" ∉ deleteIds).map fun r =>
        if r.get "id" ∈ updates.map Prod.fst then
          r.update (mapFill types.stored nullFill ++ asFields stamps)
        else r) := by
  rw [fixRows, foldlM_updateRows hcells same]
  refine (arranged_commit ?_).trans (.of_eq ?_)
  · have hids : ((s.rows.filter fun row => .num row.id ∉ deleteIds).map fun row =>
        if .num row.id ∈ updates.map Prod.fst then row.set (cells ++ stamps)
        else row).map SqlRow.id =
          (s.rows.filter fun row => .num row.id ∉ deleteIds).map SqlRow.id := by
      rw [List.map_map]
      exact List.map_congr_left fun row _ => row.id_ite_set _ _
    rw [hids]
    exact s.distinct.sublist (List.filter_sublist.map SqlRow.id)
  · rw [List.filter_map, List.map_map, List.map_map]
    refine List.map_congr_left fun row _ => ?_
    dsimp only [Function.comp_def]
    have hid : row.record.get "id" = .num row.id := rfl
    rw [hid]
    split
    · exact record_set hcells row
    · rfl

/-- Rows that are inserted again, a few of them filled, are read back so. -/
theorem arranged_insertRows {scan : Scan types} {s : SqlTable types} {cells : List (SqlCell types)}
    (hcells : types.bind nullFill = some cells) {rows : List (Record × Bool)}
    (sublist : (rows.map Prod.fst).Sublist (s.rows.map SqlRow.record)) :
    Arranged false
      ((s.commit scan ((rows.map fun row =>
        if row.2 then row.1.update nullFill else row.1).mapM insertRow)).rows.map SqlRow.record)
      (rows.map fun row =>
        if row.2 then row.1.update (mapFill types.stored nullFill) else row.1) := by
  obtain ⟨kept, hkept, rfl⟩ := exists_rows sublist
  have hinserted : ((kept.map fun row => (row.1.record, row.2)).map fun row =>
      if row.2 then row.1.update nullFill else row.1).mapM insertRow =
        some (kept.map fun row => if row.2 then row.1.set cells else row.1) := by
    rw [List.map_map, List.mapM_map]
    exact mapM_eq_some fun row _ => insertRow_ite hcells row.1 _
  rw [hinserted]
  refine (arranged_commit ?_).trans (.of_eq ?_)
  · have hids : (kept.map fun row => if row.2 then row.1.set cells else row.1).map SqlRow.id =
        (kept.map Prod.fst).map SqlRow.id := by
      rw [List.map_map, List.map_map]
      exact List.map_congr_left fun row _ => row.1.id_ite_set _ _
    rw [hids]
    exact s.distinct.sublist (hkept.map SqlRow.id)
  · rw [List.map_map, List.map_map]
    refine List.map_congr_left fun row _ => ?_
    dsimp only [Function.comp_def]
    split
    · have hset := @record_set types nullFill cells [] hcells row.1
      rwa [List.append_nil, asFields, List.map_nil, List.append_nil] at hset
    · rfl

/-- A value that a column takes is as blank as before. -/
theorem SqlTypes.isBlank_stored (field : String) (v : Value) :
    isBlank (types.stored field v) = isBlank v := by
  rw [SqlTypes.stored]
  cases hcolumn : Column.ofName field with
  | none => rfl
  | some column =>
      rw [Option.bind_some]
      cases hstore : types.store column v with
      | none => rfl
      | some w => exact types.store_blank hstore

/-- A source whose rows are in a table, for a `null_fill` of its columns. -/
def sqlRows (types : SqlTypes) (scan : Scan types) (stamps : Int → List (SqlCell types))
    (nullFill : List (String × Value)) (fits : (types.bind nullFill).isSome) :
    DataSource (SqlTable types) "id" nullFill where
  loadRecords s := s.rows.map SqlRow.record
  loadUserIds s := s.users
  applyFixes s deleteIds updates :=
    s.commit scan (fixRows (stamps s.now) deleteIds updates s.rows)
  replaceAll s rows := s.commit scan (rows.mapM insertRow)
  ordered := false
  filling := mapFill types.stored nullFill
  stamps s := asFields (stamps s.now)
  filling_blank := blank_mapFill fun e _ => SqlTypes.isBlank_stored e.1 e.2
  loadRecords_applyFixes s deleteIds updates same := by
    obtain ⟨cells, hcells⟩ := Option.isSome_iff_exists.mp fits
    exact arranged_fixRows hcells deleteIds same
  loadRecords_replaceAll s rows sublist := by
    obtain ⟨cells, hcells⟩ := Option.isSome_iff_exists.mp fits
    exact arranged_insertRows hcells sublist
  loadUserIds_applyFixes s deleteIds updates := s.users_commit scan _
  loadUserIds_replaceAll s rows := s.users_commit scan _

end Tables

/-! ## SQLite -/

/-- The columns that are `NOT NULL` in both databases. -/
def Column.required : Column → Bool
  | userId | chatId | score => true
  | _ => false

/-- What SQLite and its module make of values: a timestamp is bound as a text. -/
structure SqliteText extends SqliteEngine where
  str : Int → String
  asNumber_empty : asNumber "" = none
  numberText_ne : ∀ q, numberText q ≠ ""
  str_ne : ∀ t, str t ≠ ""

namespace SqliteText

variable (sqlite : SqliteText)

def ofString (column : Column) (s : String) : Value :=
  if column.isText then .str s else ((sqlite.asNumber s).map .num).getD (.str s)

/-- A value as it is stored in a column. -/
def value (column : Column) : Value → Value
  | .none => .none
  | .num q => if column.isText then .str (sqlite.numberText q) else .num q
  | .str s => sqlite.ofString column s
  | .datetime t => sqlite.ofString column (sqlite.str t)

theorem value_ofString (column : Column) (s : String) :
    sqlite.value column (sqlite.ofString column s) = sqlite.ofString column s := by
  cases h : column.isText with
  | true => simp [ofString, value, h]
  | false => cases hnumber : sqlite.asNumber s <;> simp [ofString, value, h, hnumber]

theorem value_value (column : Column) (v : Value) :
    sqlite.value column (sqlite.value column v) = sqlite.value column v := by
  cases v with
  | none => rfl
  | num q => cases h : column.isText <;> simp [value, ofString, h]
  | str s => exact sqlite.value_ofString column s
  | datetime t => exact sqlite.value_ofString column (sqlite.str t)

theorem isBlank_ofString (column : Column) (s : String) :
    isBlank (sqlite.ofString column s) = isBlank (.str s) := by
  cases h : column.isText with
  | true => simp [ofString, h]
  | false =>
      by_cases hs : s = ""
      · simp [ofString, h, hs, sqlite.asNumber_empty]
      · cases hnumber : sqlite.asNumber s <;> simp [ofString, h, hnumber, isBlank, hs]

theorem isBlank_value (column : Column) (v : Value) :
    isBlank (sqlite.value column v) = isBlank v := by
  cases v with
  | none => rfl
  | num q => cases h : column.isText <;> simp [value, h, isBlank, sqlite.numberText_ne]
  | str s => exact sqlite.isBlank_ofString column s
  | datetime t =>
      rw [value, sqlite.isBlank_ofString]
      simp [isBlank, sqlite.str_ne]

theorem ofString_ne_none (column : Column) (s : String) : sqlite.ofString column s ≠ .none := by
  cases h : column.isText with
  | true => simp [ofString, h]
  | false => cases hnumber : sqlite.asNumber s <;> simp [ofString, h, hnumber]

theorem eq_none_of_value {column : Column} {v : Value} (h : sqlite.value column v = .none) :
    v = .none := by
  cases v with
  | none => rfl
  | num q => cases hcolumn : column.isText <;> simp [value, hcolumn] at h
  | str s => exact absurd h (sqlite.ofString_ne_none column s)
  | datetime t => exact absurd h (sqlite.ofString_ne_none column _)

def types : SqlTypes where
  store column v := if column.required ∧ v = .none then none else some (sqlite.value column v)
  coerce _ v := v
  store_store h := by
    obtain ⟨hstored, hvalue⟩ := Option.ite_none_left_eq_some.mp h
    cases hvalue
    rw [sqlite.value_value]
    exact if_neg fun hnone => hstored ⟨hnone.1, sqlite.eq_none_of_value hnone.2⟩
  store_blank h := by
    obtain ⟨-, hvalue⟩ := Option.ite_none_left_eq_some.mp h
    cases hvalue
    exact sqlite.isBlank_value _ _
  coerce_eq _ := rfl

end SqliteText

/-- `SQLiteSource`. -/
def sqliteRows (sqlite : SqliteText) (scan : Scan sqlite.types)
    (nullFill : List (String × Value)) (fits : (sqlite.types.bind nullFill).isSome) :
    DataSource (SqlTable sqlite.types) "id" nullFill :=
  sqlRows sqlite.types scan (fun _ => []) nullFill fits

/-! ## Postgres -/

namespace Postgres

/-- A value in a column of `ReputationRecord`. -/
def store (column : Column) : Value → Option Value
  | .none =>
      if column.required ∨ column.isText then none else some .none
  | .num q => if column.isText = false ∧ q.den = 1 then some (.num q) else none
  | .str _ => none
  | .datetime t => if column.isText then some (.datetime t) else none

/-- `_coerce_row`. A text that is no timestamp is refused by the column, instead of raising
right away. -/
def coerce (fromisoformat : String → Option Int) (column : Column) : Value → Value
  | .str s => if column.isText then ((fromisoformat s).map .datetime).getD (.str s) else .str s
  | v => v

theorem store_eq {column : Column} {v w : Value} (h : store column v = some w) : w = v := by
  cases v with
  | none => exact (Option.some.inj (Option.ite_none_left_eq_some.mp h).2).symm
  | num q => exact (Option.some.inj (Option.ite_none_right_eq_some.mp h).2).symm
  | str s => cases h
  | datetime t => exact (Option.some.inj (Option.ite_none_right_eq_some.mp h).2).symm

def types (fromisoformat : String → Option Int) : SqlTypes where
  store := store
  coerce := coerce fromisoformat
  store_store h := by
    obtain rfl := store_eq h
    exact h
  store_blank h := by rw [store_eq h]
  coerce_eq {column v w} h := by
    cases v with
    | str s => cases h
    | none | num | datetime => rfl

/-- `onupdate=func.now()`. -/
def stamps (fromisoformat : String → Option Int) (now : Int) :
    List (SqlCell (types fromisoformat)) := [⟨.updatedAt, .datetime now, rfl⟩]

end Postgres

/-- `PostgresSource`. -/
def postgresRows (fromisoformat : String → Option Int)
    (scan : Scan (Postgres.types fromisoformat)) (nullFill : List (String × Value))
    (fits : ((Postgres.types fromisoformat).bind nullFill).isSome) :
    DataSource (SqlTable (Postgres.types fromisoformat)) "id" nullFill :=
  sqlRows (Postgres.types fromisoformat) scan (Postgres.stamps fromisoformat) nullFill fits

/-- `PostgresSource` for the profile of `reputation_records`, with tables that are scanned in
the order in which they have been written. -/
def reputationTable : DataSource (SqlTable (Postgres.types fun _ => none)) REPUTATION.idField
    REPUTATION.nullFill :=
  postgresRows (fun _ => none) ⟨id, List.Perm.refl⟩ REPUTATION.nullFill (by decide)

end UserTgBot.Maintenance
