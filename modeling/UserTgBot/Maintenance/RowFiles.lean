import UserTgBot.Maintenance.Check

/-!
# Rows in files

How the sources for JSON and CSV meet the contract of a source, row by row. They share the loop
of `apply_fixes`. A row that has an update but lacks the id key makes it raise, so the rows of a
file carry that key here. What a file does to a value is the `filling` of its source: JSON has
no timestamps, and CSV has texts only.

A dictionary with a field that is no column of a CSV file is no `null_fill` for it: the writer
drops such a field, unless the first row has it.
-/

namespace UserTgBot.Maintenance

open PyValue

/-- `null_fill` with its values replaced. -/
def mapFill (g : String → Value → Value) (values : List (String × Value)) :
    List (String × Value) := values.map fun e => (e.1, g e.1 e.2)

theorem lookup_mapFill (g : String → Value → Value) (values : List (String × Value))
    (field : String) : (mapFill g values).lookup field = (values.lookup field).map (g field) :=
  lookup_map_values g values field

theorem blank_mapFill {g : String → Value → Value} {values : List (String × Value)}
    (h : ∀ e ∈ values, isBlank (g e.1 e.2) = isBlank e.2) :
    (mapFill g values).map (fun e => (e.1, isBlank e.2)) =
      values.map fun e => (e.1, isBlank e.2) := by
  rw [mapFill, List.map_map]
  exact List.map_congr_left fun e he => Prod.ext rfl (h e he)

/-- A row keeps the keys that it has. -/
theorem isSome_update {r : Record} {field : String} (h : (r.fields field).isSome)
    (values : List (String × Value)) : ((r.update values).fields field).isSome := by
  show ((values.lookup field).orElse fun _ => r.fields field).isSome
  cases values.lookup field with
  | none => exact h
  | some v => rfl

section Files

variable (idField : String)

/-- What the loop of `apply_fixes` makes of a row. It asks for an update with
`row.get(id_field)` and takes it with `row[id_field]`, which raises if there is no id. -/
def patchRow (updates : List (Value × List (String × Value))) (r : Record) : Option Record :=
  if (updates.lookup (r.get idField)).isSome then
    ((r.fields idField).bind fun id => updates.lookup id).map r.update
  else some r

/-- The rows that `apply_fixes` writes; nothing if it raises. -/
def patchRows (deleteIds : List Value) (updates : List (Value × List (String × Value)))
    (rows : List Record) : Option (List Record) :=
  (rows.filter fun r => r.get idField ∉ deleteIds).mapM (patchRow idField updates)

variable {idField} {updates : List (Value × List (String × Value))} {rows : List Record}
variable {nullFill : List (String × Value)}

theorem patchRow_eq {r : Record} (id : (r.fields idField).isSome)
    (same : ∀ update ∈ updates, update.2 = nullFill) : patchRow idField updates r =
      some (if r.get idField ∈ updates.map Prod.fst then r.update nullFill else r) := by
  obtain ⟨v, hv⟩ := Option.isSome_iff_exists.mp id
  have hget : r.get idField = v := by rw [Record.get, hv, Option.getD_some]
  rw [patchRow, hget, hv, Option.bind_some, lookup_of_forall same]
  split <;> rfl

theorem mapM_eq_some {α β : Type} {f : α → Option β} {g : α → β} {xs : List α}
    (h : ∀ x ∈ xs, f x = some (g x)) : xs.mapM f = some (xs.map g) := by
  induction xs with
  | nil => rfl
  | cons x xs ih =>
      obtain ⟨hx, hxs⟩ := List.forall_mem_cons.mp h
      rw [List.mapM_cons, hx, ih hxs]
      rfl

/-- Where all rows have their ids nothing raises. -/
theorem patchRows_eq (ids : ∀ r ∈ rows, (r.fields idField).isSome)
    (same : ∀ update ∈ updates, update.2 = nullFill) (deleteIds : List Value) :
    patchRows idField deleteIds updates rows =
      some ((rows.filter fun r => r.get idField ∉ deleteIds).map fun r =>
        if r.get idField ∈ updates.map Prod.fst then r.update nullFill else r) :=
  mapM_eq_some fun r hr => patchRow_eq (ids r (List.mem_of_mem_filter hr)) same

/-- A row that is patched or filled still has its id. -/
theorem isSome_ite_update {r : Record} (id : (r.fields idField).isSome) (p : Prop) [Decidable p]
    (values : List (String × Value)) :
    ((if p then r.update values else r).fields idField).isSome := by
  split
  · exact isSome_update id values
  · exact id

/-! ## JSON -/

/-- `json.dumps(.., default=str)` of a value, loaded again. -/
def asJson (str : Int → String) : Value → Value
  | .datetime t => .str (str t)
  | v => v

/-- The rows of a JSON file, all with their ids. -/
structure JsonRows (idField : String) where
  records : List Record
  users : Option (List Value)
  ids : ∀ r ∈ records, (r.fields idField).isSome
  plain : ∀ r ∈ records, ∀ field t, r.fields field ≠ some (.datetime t)

variable (str : Int → String)

def Record.asJson (r : Record) : Record :=
  { r with fields := fun field => (r.fields field).map (Maintenance.asJson str) }

/-- `_write`; rows without an id are not followed. -/
def JsonRows.write (s : JsonRows idField) (rows : List Record) : JsonRows idField :=
  if ids : ∀ r ∈ rows, (r.fields idField).isSome then
    { s with
      records := rows.map (Record.asJson str)
      ids := by
        intro r hr
        obtain ⟨r, hmem, rfl⟩ := List.mem_map.mp hr
        exact Option.isSome_map.trans (ids r hmem)
      plain := by
        intro r hr field t heq
        obtain ⟨r, -, rfl⟩ := List.mem_map.mp hr
        obtain ⟨v, -, hv⟩ := Option.map_eq_some_iff.mp heq
        cases v <;> cases hv }
  else s

theorem JsonRows.records_write {s : JsonRows idField}
    (ids : ∀ r ∈ rows, (r.fields idField).isSome) :
    (s.write str rows).records = rows.map (Record.asJson str) := by
  rw [JsonRows.write, dif_pos ids]

theorem JsonRows.users_write (s : JsonRows idField) (rows : List Record) :
    (s.write str rows).users = s.users := by
  rw [JsonRows.write]
  split <;> rfl

theorem asJson_update {r : Record} (plain : ∀ field t, r.fields field ≠ some (.datetime t))
    (p : Prop) [Decidable p] : (if p then r.update nullFill else r).asJson str =
      if p then r.update (mapFill (fun _ => asJson str) nullFill) else r := by
  have hsame : ∀ field, (r.fields field).map (asJson str) = r.fields field := by
    intro field
    cases hfield : r.fields field with
    | none => rfl
    | some v =>
        cases v with
        | datetime t => exact absurd hfield (plain field t)
        | none | num | str => rfl
  split
  · refine congrArg (Record.mk r.position) (funext fun field => ?_)
    show ((nullFill.lookup field).orElse fun _ => r.fields field).map (asJson str) =
      ((mapFill (fun _ => asJson str) nullFill).lookup field).orElse fun _ => r.fields field
    rw [lookup_mapFill]
    cases nullFill.lookup field with
    | none => exact hsame field
    | some v => rfl
  · exact congrArg (Record.mk r.position) (funext hsame)

/-- `JSONSource`; it knows users in one of its shapes. -/
def jsonRows (idField : String) (nullFill : List (String × Value)) (str : Int → String)
    (str_ne : ∀ t, str t ≠ "") : DataSource (JsonRows idField) idField nullFill where
  loadRecords s := s.records
  loadUserIds s := s.users
  applyFixes s deleteIds updates :=
    (patchRows idField deleteIds updates s.records).elim s (s.write str)
  replaceAll s rows := s.write str rows
  ordered := true
  filling := mapFill (fun _ => asJson str) nullFill
  stamps _ := []
  filling_blank := blank_mapFill fun e _ => by
    cases e.2 with
    | datetime t => exact decide_eq_false fun h => str_ne t (Value.str.inj h)
    | none | num | str => rfl
  loadRecords_applyFixes s deleteIds updates same := by
    refine .of_eq ?_
    rw [patchRows_eq s.ids same, Option.elim_some, List.append_nil, JsonRows.records_write,
      List.map_map]
    · exact List.map_congr_left fun r hr =>
        asJson_update str (s.plain r (List.mem_of_mem_filter hr)) _
    · intro r hr
      obtain ⟨r, hmem, rfl⟩ := List.mem_map.mp hr
      exact isSome_ite_update (s.ids r (List.mem_of_mem_filter hmem)) _ _
  loadRecords_replaceAll s rows sublist := by
    have hmem : ∀ row ∈ rows, row.1 ∈ s.records :=
      fun row hrow => sublist.subset (List.mem_map_of_mem hrow)
    refine .of_eq ?_
    rw [JsonRows.records_write, List.map_map]
    · exact List.map_congr_left fun row hrow => asJson_update str (s.plain _ (hmem row hrow)) _
    · intro r hr
      obtain ⟨row, hrow, rfl⟩ := List.mem_map.mp hr
      exact isSome_ite_update (s.ids _ (hmem row hrow)) _ _
  loadUserIds_applyFixes s deleteIds updates := by
    cases patchRows idField deleteIds updates s.records with
    | none => rfl
    | some rows => exact s.users_write str rows
  loadUserIds_replaceAll s rows := s.users_write str rows

/-! ## CSV -/

/-- What the `csv` module writes of a value: a text as it is, nothing for `None`. -/
structure CsvText where
  text : Value → String
  text_str : ∀ s, text (.str s) = s
  text_blank : ∀ v, isBlank (.str (text v)) = isBlank v

variable (csv : CsvText)

/-- A row as it is written under these columns and read again. -/
def Record.asCsv (columns : String → Bool) (r : Record) : Record :=
  { r with fields := fun field =>
      if columns field then some (.str (csv.text (r.get field))) else none }

/-- The rows of a CSV file, which all have the columns of the file. Among these are the id and
the fields that are filled in. -/
structure CsvRows (idField : String) (nullFill : List (String × Value)) where
  columns : String → Bool
  records : List Record
  users : Option (List Value)
  read : ∀ r ∈ records, r.asCsv csv columns = r
  covered : records ≠ [] → columns idField ∧ ∀ e ∈ nullFill, columns e.1

theorem asCsv_asCsv (columns : String → Bool) (r : Record) :
    (r.asCsv csv columns).asCsv csv columns = r.asCsv csv columns := by
  refine congrArg (Record.mk r.position) (funext fun field => ?_)
  cases hcolumn : columns field with
  | false => rfl
  | true => simp [Record.get, Record.asCsv, hcolumn, csv.text_str]

variable {csv} (headerless : Bool)

/-- `_fieldnames`: the columns of the profile, or the keys of the first row. -/
def CsvRows.fieldnames (s : CsvRows csv idField nullFill) (rows : List Record) :
    String → Bool :=
  if headerless then s.columns
  else
    match rows with
    | [] => fun _ => false
    | first :: _ => fun field => (first.fields field).isSome

/-- `_write_all`; rows without one of the fields are not followed. -/
def CsvRows.write (s : CsvRows csv idField nullFill) (rows : List Record) :
    CsvRows csv idField nullFill :=
  let columns := s.fieldnames headerless rows
  if covered : rows ≠ [] → columns idField ∧ ∀ e ∈ nullFill, columns e.1 then
    { columns
      records := rows.map (Record.asCsv csv columns)
      users := s.users
      read := by
        intro r hr
        obtain ⟨r, -, rfl⟩ := List.mem_map.mp hr
        exact asCsv_asCsv csv columns r
      covered := fun hne => covered fun hnil => hne (by rw [hnil, List.map_nil]) }
  else s

theorem CsvRows.records_write_of {s : CsvRows csv idField nullFill} {rows : List Record}
    (covered : rows ≠ [] → s.fieldnames headerless rows idField ∧
      ∀ e ∈ nullFill, s.fieldnames headerless rows e.1) :
    (s.write headerless rows).records =
      rows.map (Record.asCsv csv (s.fieldnames headerless rows)) := by
  rw [CsvRows.write, dif_pos covered]

theorem CsvRows.users_write (s : CsvRows csv idField nullFill) (rows : List Record) :
    (s.write headerless rows).users = s.users := by
  rw [CsvRows.write]
  split <;> rfl

theorem isSome_of_asCsv {columns : String → Bool} {r : Record} (read : r.asCsv csv columns = r)
    (field : String) : (r.fields field).isSome = columns field := by
  rw [← read]
  show (if columns field then some (Value.str (csv.text (r.get field))) else none).isSome = _
  cases columns field <;> rfl

/-- A patch of fields that are there adds no key. -/
theorem isSome_update_eq {columns : String → Bool} {r : Record}
    (read : r.asCsv csv columns = r) (covered : ∀ e ∈ nullFill, columns e.1) (p : Prop)
    [Decidable p] (field : String) :
    ((if p then r.update nullFill else r).fields field).isSome = columns field := by
  split
  · show ((nullFill.lookup field).orElse fun _ => r.fields field).isSome = _
    cases hlookup : nullFill.lookup field with
    | none => exact isSome_of_asCsv read field
    | some v =>
        obtain ⟨first, rest, heq, -⟩ := List.lookup_eq_some_iff.mp hlookup
        exact (covered (field, v) (heq ▸ List.mem_append_right _ List.mem_cons_self)).symm
  · exact isSome_of_asCsv read field

theorem asCsv_update {columns : String → Bool} {r : Record} (read : r.asCsv csv columns = r)
    (covered : ∀ e ∈ nullFill, columns e.1) (p : Prop) [Decidable p] :
    (if p then r.update nullFill else r).asCsv csv columns =
      if p then r.update (mapFill (fun _ v => .str (csv.text v)) nullFill) else r := by
  by_cases hp : p
  · rw [if_pos hp, if_pos hp]
    refine congrArg (Record.mk r.position) (funext fun field => ?_)
    show (if columns field then some (Value.str (csv.text ((r.update nullFill).get field)))
      else none) = ((mapFill _ nullFill).lookup field).orElse fun _ => r.fields field
    rw [lookup_mapFill]
    cases hlookup : nullFill.lookup field with
    | none =>
        rw [Record.get_update_of_lookup_none hlookup]
        exact congrFun (congrArg Record.fields read) field
    | some v =>
        obtain ⟨first, rest, heq, -⟩ := List.lookup_eq_some_iff.mp hlookup
        have hcolumn : columns field :=
          covered (field, v) (heq ▸ List.mem_append_right _ List.mem_cons_self)
        rw [if_pos hcolumn, Record.get_update_of_lookup hlookup]
        rfl
  · rw [if_neg hp, if_neg hp, read]

/-- Rows of the file, a few of them filled, are written under its columns. -/
theorem CsvRows.records_write (s : CsvRows csv idField nullFill) {α : Type} {rows : List α}
    {row : α → Record} {p : α → Prop} [DecidablePred p] (hrows : ∀ x ∈ rows, row x ∈ s.records) :
    (s.write headerless (rows.map fun x =>
        if p x then (row x).update nullFill else row x)).records =
      rows.map fun x =>
        if p x then (row x).update (mapFill (fun _ v => .str (csv.text v)) nullFill) else row x := by
  cases rows with
  | nil => exact CsvRows.records_write_of headerless fun hne => absurd rfl hne
  | cons first rest =>
      have hne : s.records ≠ [] := List.ne_nil_of_mem (hrows first List.mem_cons_self)
      obtain ⟨hid, hfilled⟩ := s.covered hne
      have hread : ∀ x ∈ first :: rest, (row x).asCsv csv s.columns = row x :=
        fun x hx => s.read _ (hrows x hx)
      have hcolumns : s.fieldnames headerless ((first :: rest).map fun x =>
          if p x then (row x).update nullFill else row x) = s.columns := by
        cases headerless with
        | true => rfl
        | false =>
            funext field
            exact isSome_update_eq (hread first List.mem_cons_self) hfilled _ field
      rw [CsvRows.records_write_of headerless fun _ => by rw [hcolumns]; exact ⟨hid, hfilled⟩]
      rw [hcolumns, List.map_map]
      exact List.map_congr_left fun x hx => asCsv_update (hread x hx) hfilled _

/-- `CSVSource`, with a header or with the columns of a profile. The users are in a file beside
it. -/
def csvRows (idField : String) (nullFill : List (String × Value)) (csv : CsvText)
    (headerless : Bool) : DataSource (CsvRows csv idField nullFill) idField nullFill where
  loadRecords s := s.records
  loadUserIds s := s.users
  applyFixes s deleteIds updates :=
    (patchRows idField deleteIds updates s.records).elim s (s.write headerless)
  replaceAll s rows := s.write headerless rows
  ordered := true
  filling := mapFill (fun _ v => .str (csv.text v)) nullFill
  stamps _ := []
  filling_blank := blank_mapFill fun e _ => csv.text_blank e.2
  loadRecords_applyFixes s deleteIds updates same := by
    refine .of_eq ?_
    have ids : ∀ r ∈ s.records, (r.fields idField).isSome := by
      intro r hr
      rw [isSome_of_asCsv (s.read r hr)]
      exact (s.covered (List.ne_nil_of_mem hr)).1
    rw [patchRows_eq ids same, Option.elim_some, List.append_nil]
    exact s.records_write headerless fun r hr => List.mem_of_mem_filter hr
  loadRecords_replaceAll s rows sublist := by
    refine .of_eq (s.records_write headerless fun row hrow => ?_)
    exact sublist.subset (List.mem_map_of_mem hrow)
  loadUserIds_applyFixes s deleteIds updates := by
    cases patchRows idField deleteIds updates s.records with
    | none => rfl
    | some rows => exact s.users_write headerless rows
  loadUserIds_replaceAll s rows := s.users_write headerless rows

end Files

end UserTgBot.Maintenance
