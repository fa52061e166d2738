import UserTgBot.Maintenance.Converge
import UserTgBot.Maintenance.RowTables

/-!
# Two strategies, one result

A fix by id works from the report and from sets of ids, a rebuild from indices and in another
order of passes, and they break ties between equally late duplicates by id and by index. Where
ids are distinct and grow from row to row they are as good as indices.

The rows that are left are the same, but not always to the last field: a fix by id updates the
rows that it fills, and an update of Postgres is also seen in `updated_at`.
-/

namespace UserTgBot.Maintenance

open PyValue

/-- Ids are distinct and strictly increasing in the order of the rows. -/
def IdsIncrease (config : CheckConfig) (records : List Record) : Prop :=
  records.Pairwise fun r q => (config.rowId r).Lt (config.rowId q)

section Indices

variable {config : CheckConfig} {records : List Record} {row row' : Record × Nat}

theorem IdsIncrease.nodup (increase : IdsIncrease config records) :
    (records.map config.rowId).Nodup :=
  List.pairwise_map.mpr (increase.imp fun h => h.2.2)

theorem IdsIncrease.lt_of_lt (increase : IdsIncrease config records)
    (hrow : row ∈ records.zipIdx) (hrow' : row' ∈ records.zipIdx) (h : row.2 < row'.2) :
    (config.rowId row.1).Lt (config.rowId row'.1) := by
  obtain ⟨hi, heq⟩ := List.getElem?_eq_some_iff.mp (List.mem_zipIdx_iff_getElem?.mp hrow)
  obtain ⟨hj, heq'⟩ := List.getElem?_eq_some_iff.mp (List.mem_zipIdx_iff_getElem?.mp hrow')
  rw [← heq, ← heq']
  exact List.pairwise_iff_getElem.mp increase _ _ hi hj h

/-- Two rows with the same index are one. -/
theorem eq_of_index_eq (hrow : row ∈ records.zipIdx) (hrow' : row' ∈ records.zipIdx)
    (h : row.2 = row'.2) : row = row' := by
  rw [List.mem_zipIdx_iff_getElem?] at hrow hrow'
  rw [h, hrow', Option.some.injEq] at hrow
  exact Prod.ext hrow.symm h

theorem IdsIncrease.rowId_le_iff (increase : IdsIncrease config records)
    (hrow : row ∈ records.zipIdx) (hrow' : row' ∈ records.zipIdx) :
    (config.rowId row.1).le (config.rowId row'.1) ↔ row.2 ≤ row'.2 := by
  constructor
  · intro hle
    by_contra hlater
    obtain ⟨-, hle', hne⟩ := increase.lt_of_lt hrow' hrow (by omega)
    exact hne (hle'.antisymm hle)
  · intro hle
    obtain hlt | heq := Nat.lt_or_eq_of_le hle
    · exact (increase.lt_of_lt hrow hrow' hlt).2.1
    · rw [eq_of_index_eq hrow hrow' heq]
      exact (Value.le.total _ _).elim id id

/-- Both sort keys order the rows alike. -/
theorem IdsIncrease.keyLe_iff (increase : IdsIncrease config records)
    (hrow : row ∈ records.zipIdx) (hrow' : row' ∈ records.zipIdx) :
    keyLe (config.idKey row.1) (config.idKey row'.1) ↔
      keyLe (config.indexKey row) (config.indexKey row') := by
  have hid := increase.rowId_le_iff hrow hrow'
  have hindex : (Value.num row.2).le (.num row'.2) ↔ row.2 ≤ row'.2 := Nat.cast_le
  rw [keyLe, keyLe, CheckConfig.idKey, CheckConfig.idKey, CheckConfig.indexKey,
    CheckConfig.indexKey]
  dsimp only
  rw [hid, hindex]

/-- And a sort by either of them raises where one by the other does. -/
theorem IdsIncrease.keyComparable_iff (increase : IdsIncrease config records)
    (hrow : row ∈ records.zipIdx) (hrow' : row' ∈ records.zipIdx) (hne : row ≠ row') :
    KeyComparable (config.idKey row.1) (config.idKey row'.1) ↔
      KeyComparable (config.indexKey row) (config.indexKey row') := by
  have hid : (config.rowId row.1).Comparable (config.rowId row'.1) := by
    obtain hlt | heq | hgt := Nat.lt_trichotomy row.2 row'.2
    · exact (increase.lt_of_lt hrow hrow' hlt).1
    · exact absurd (eq_of_index_eq hrow hrow' heq) hne
    · exact (increase.lt_of_lt hrow' hrow hgt).1.symm
  have hindex : (Value.num row.2).Comparable (.num row'.2) := trivial
  rw [KeyComparable, KeyComparable, CheckConfig.idKey, CheckConfig.idKey, CheckConfig.indexKey,
    CheckConfig.indexKey]
  dsimp only
  split
  · exact iff_of_true (.inr hid) (.inr hindex)
  · exact Iff.rfl

end Indices

section Losers

variable {config : CheckConfig} {records older : List Record} {older' : List (Record × Nat)}
variable {row : Record × Nat}

theorem exists_index {r : Record} (hr : r ∈ records) : ∃ row ∈ records.zipIdx, row.1 = r := by
  obtain ⟨i, hi⟩ := List.mem_iff_getElem?.mp hr
  exact ⟨(r, i), List.mk_mem_zipIdx_iff_getElem?.mpr hi, rfl⟩

theorem IdsIncrease.eq_of_fst_eq (increase : IdsIncrease config records) {row' : Record × Nat}
    (hrow : row ∈ records.zipIdx) (hrow' : row' ∈ records.zipIdx) (h : row.1 = row'.1) :
    row = row' := by
  obtain hlt | heq | hgt := Nat.lt_trichotomy row.2 row'.2
  · exact absurd (congrArg config.rowId h) (increase.lt_of_lt hrow hrow' hlt).2.2
  · exact eq_of_index_eq hrow hrow' heq
  · exact absurd (congrArg config.rowId h).symm (increase.lt_of_lt hrow' hrow hgt).2.2

/-- A row loses its group in the one strategy if it does in the other. -/
theorem IdsIncrease.mem_older_iff (increase : IdsIncrease config records)
    (holder : allButLatest config.idKey ((config.duplicates records).map (config.group records)) =
      some older)
    (holder' : allButLatest config.indexKey ((config.duplicates records).map fun key =>
      records.zipIdx.filter fun row => config.dupKey row.1 = key) = some older')
    (hrow : row ∈ records.zipIdx) : row.1 ∈ older ↔ row ∈ older' := by
  by_cases hkeys : config.duplicateKeys = []
  · rw [duplicates_of_no_keys hkeys] at holder holder'
    cases holder
    cases holder'
    exact iff_of_false List.not_mem_nil List.not_mem_nil
  · have hmem := List.fst_mem_of_mem_zipIdx hrow
    have huntied : ∀ r ∈ records, ∀ q ∈ records, config.idKey q = config.idKey r → q = r :=
      fun r hr q hq heq =>
        List.inj_on_of_nodup_map increase.nodup hq hr (congrArg Prod.snd heq)
    have huntied' : ∀ row ∈ records.zipIdx, ∀ row' ∈ records.zipIdx,
        config.indexKey row' = config.indexKey row → row' = row := by
      intro row hrow row' hrow' heq
      have hindex := congrArg Prod.snd heq
      simp only [CheckConfig.indexKey, Value.num.injEq, Nat.cast_inj] at hindex
      exact eq_of_index_eq hrow' hrow hindex
    rw [(isGrouping_byId records hkeys).mem_losers_iff increase.nodup.of_map huntied holder,
      (isGrouping_byRebuild records hkeys).mem_losers_iff (nodup_zipIdx records) huntied' holder',
      and_iff_right hmem, and_iff_right hrow]
    constructor
    · rintro ⟨q, hq, hne, hname, hle⟩
      obtain ⟨row', hrow', rfl⟩ := exists_index hq
      refine ⟨row', hrow', fun heq => hne (congrArg Prod.fst heq), hname, ?_⟩
      exact (increase.keyLe_iff hrow hrow').mp hle
    · rintro ⟨row', hrow', hne, hname, hle⟩
      refine ⟨row'.1, List.fst_mem_of_mem_zipIdx hrow', fun heq => hne ?_, hname, ?_⟩
      · exact increase.eq_of_fst_eq hrow' hrow heq
      · exact (increase.keyLe_iff hrow hrow').mpr hle

/-- One strategy raises if the other one does. -/
theorem IdsIncrease.isSome_iff (increase : IdsIncrease config records)
    {ids : Option (List Value)} {report : CheckReport}
    (hreport : report.duplicates = config.duplicates records) :
    (config.fixById records report).isSome ↔ (config.fixByRebuild ids records).isSome := by
  by_cases hkeys : config.duplicateKeys = []
  · exact iff_of_true (fixById_runs_of_no_keys hkeys hreport) (fixByRebuild_runs_of_no_keys hkeys)
  · rw [fixById_isSome, fixByRebuild_isSome, hreport,
      (isGrouping_byId records hkeys).isSome_iff increase.nodup.of_map,
      (isGrouping_byRebuild records hkeys).isSome_iff (nodup_zipIdx records)]
    constructor
    · intro h row hrow row' hrow' hne hname
      apply (increase.keyComparable_iff hrow hrow' hne).mp
      apply h _ (List.fst_mem_of_mem_zipIdx hrow) _ (List.fst_mem_of_mem_zipIdx hrow') _ hname
      exact fun heq => hne (increase.eq_of_fst_eq hrow hrow' heq)
    · intro h r hr q hq hne hname
      obtain ⟨row, hrow, rfl⟩ := exists_index hr
      obtain ⟨row', hrow', rfl⟩ := exists_index hq
      have hrows : row ≠ row' := fun heq => hne (congrArg Prod.fst heq)
      exact (increase.keyComparable_iff hrow hrow' hrows).mpr
        (h row hrow row' hrow' hrows hname)

end Losers

section Agree

variable {σ : Type} {config : CheckConfig}
  {source : DataSource σ config.idField config.nullFill} {s : σ}

/-- A row is deleted by its id if it is dropped by its index. -/
theorem IdsIncrease.deleted_iff (increase : IdsIncrease config (source.loadRecords s))
    (keeps : ∀ f ∈ config.nullFill.map Prod.fst, config.orphanField ≠ some f)
    {fixes : Fixes} {older : List (Record × Nat)} {drop : List Nat}
    (h : config.fixById (source.loadRecords s) (runCheck config source s) = some fixes)
    (holder : allButLatest config.indexKey ((config.duplicates (source.loadRecords s)).map
      fun key => (source.loadRecords s).zipIdx.filter fun row => config.dupKey row.1 = key) =
        some older)
    (hdrop : ∀ row ∈ (source.loadRecords s).zipIdx, row.2 ∉ drop ↔
      row.2 ∉ older.map Prod.snd ∧ (config.nullFill = [] → ¬config.hasBlank row.1) ∧
        ¬config.isOrphan (userIds config source s) (config.fill row.1))
    {row : Record × Nat} (hrow : row ∈ (source.loadRecords s).zipIdx) :
    config.rowId row.1 ∈ fixes.deleteIds ↔ row.2 ∈ drop := by
  obtain ⟨older', holder', hdelete, -⟩ := loadRecords_byId h
  have hmem := List.fst_mem_of_mem_zipIdx hrow
  have hloser : (∃ q ∈ older', config.rowId q = config.rowId row.1) ↔
      row.2 ∈ older.map Prod.snd := by
    constructor
    · rintro ⟨q, hq, hid⟩
      obtain ⟨rows, hrows, hmem'⟩ := exists_group_of_loser holder' hq
      obtain ⟨key, -, rfl⟩ := List.mem_map.mp hrows
      obtain rfl := List.inj_on_of_nodup_map increase.nodup (mem_group.mp hmem').2.1 hmem hid
      exact List.mem_map_of_mem ((increase.mem_older_iff holder' holder hrow).mp hq)
    · intro hloses
      obtain ⟨row', hrow', heq⟩ := List.mem_map.mp hloses
      obtain ⟨rows, hrows, hmem'⟩ := exists_group_of_loser holder hrow'
      obtain ⟨key, -, rfl⟩ := List.mem_map.mp hrows
      obtain rfl := eq_of_index_eq (List.mem_of_mem_filter hmem') hrow heq
      exact ⟨row'.1, (increase.mem_older_iff holder' holder hrow).mpr hrow', rfl⟩
  rw [← not_iff_not, hdrop row hrow, ← hloser, hdelete, isOrphan_fill keeps]
  constructor
  · intro hkept
    refine ⟨fun ⟨q, hq, hid⟩ => hkept ⟨q, hid, .inl hq⟩, fun hfill hblank => ?_, fun hids => ?_⟩
    · exact hkept ⟨row.1, rfl, .inr ⟨hmem, .inr ⟨hfill, hblank⟩⟩⟩
    · exact hkept ⟨row.1, rfl, .inr ⟨hmem, .inl hids⟩⟩
  · rintro ⟨hwins, hfull, hreferenced⟩ ⟨q, hid, hq | ⟨hq, hbad⟩⟩
    · exact hwins ⟨q, hq, hid⟩
    · obtain rfl := List.inj_on_of_nodup_map increase.nodup hq hmem hid
      obtain hids | ⟨hfill, hblank⟩ := hbad
      · exact hreferenced hids
      · exact hfull hfill hblank

/-- Some of the rows, and which of them are filled. -/
structure Survivors (config : CheckConfig) (records : List Record)
    (kept : List (Record × Bool)) : Prop where
  sublist : (kept.map Prod.fst).Sublist records
  blank : ∀ row ∈ kept, row.2 → config.hasBlank row.1

/-- The rows, with these values in those that are filled. -/
def filledWith (values : List (String × Value)) (kept : List (Record × Bool)) : List Record :=
  kept.map fun row => if row.2 then row.1.update values else row.1

/-- Both strategies keep the same rows, and count the same deletions. -/
theorem IdsIncrease.fix_agree (increase : IdsIncrease config (source.loadRecords s))
    (keeps : ∀ f ∈ config.nullFill.map Prod.fst, config.orphanField ≠ some f)
    {fixes : Fixes} {rows : List Record} {report : FixReport}
    (h : config.fixById (source.loadRecords s) (runCheck config source s) = some fixes)
    (h' : config.fixByRebuild (userIds config source s) (source.loadRecords s) =
      some (rows, report)) :
    (∃ kept, Survivors config (source.loadRecords s) kept ∧
      Arranged source.ordered
        (source.loadRecords (source.applyFixes s fixes.deleteIds fixes.updates))
        (filledWith (source.filling ++ source.stamps s) kept) ∧
      Arranged source.ordered (source.loadRecords (source.replaceAll s rows))
        (filledWith source.filling kept)) ∧
      fixes.deleteIds.eraseDups.length = report.deleted := by
  obtain ⟨older', holder', hdelete, hload⟩ := loadRecords_byId h
  obtain ⟨older, drop, holder, hindices, hdrop, rfl, hdeleted⟩ := fixByRebuild_drop h'
  have hsame : ∀ row ∈ (source.loadRecords s).zipIdx,
      (config.rowId row.1 ∈ fixes.deleteIds ↔ row.2 ∈ drop) :=
    fun row hrow => increase.deleted_iff keeps h holder hdrop hrow
  have hfst : (source.loadRecords s).zipIdx.map Prod.fst = source.loadRecords s :=
    List.zipIdx_map_fst ..
  have hfilter : ∀ p : Record → Bool, (source.loadRecords s).filter p =
      ((source.loadRecords s).zipIdx.filter fun row => p row.1).map Prod.fst := by
    intro p
    conv_lhs => rw [← hfst, List.filter_map]
    rfl
  constructor
  · refine ⟨((source.loadRecords s).zipIdx.filter fun row => row.2 ∉ drop).map fun row =>
      (row.1, config.hasBlank row.1), ⟨?_, ?_⟩, hload.trans (.of_eq ?_), ?_⟩
    · rw [List.map_map]
      refine (List.filter_sublist.map Prod.fst).trans ?_
      rw [List.zipIdx_map_fst]
    · intro row hrow hmark
      obtain ⟨row', -, rfl⟩ := List.mem_map.mp hrow
      exact hmark
    · rw [List.map_congr_left fun r hr =>
        patched_eq increase.nodup (List.mem_of_mem_filter hr), hfilter, List.map_map,
        List.filter_congr fun row hrow => decide_eq_decide.mpr (not_congr (hsame row hrow)),
        filledWith, List.map_map]
      rfl
    · rw [filledWith, List.map_map]
      exact loadRecords_byRebuild _
  · have hnamed : ∀ v ∈ fixes.deleteIds, ∃ r ∈ source.loadRecords s, config.rowId r = v := by
      intro v hv
      obtain ⟨r, hid, hr | ⟨hr, -⟩⟩ := (hdelete v).mp hv
      · obtain ⟨rows, hrows, hmem⟩ := exists_group_of_loser holder' hr
        obtain ⟨key, -, rfl⟩ := List.mem_map.mp hrows
        exact ⟨r, (mem_group.mp hmem).2.1, hid⟩
      · exact ⟨r, hr, hid⟩
    have hdistinct : ((source.loadRecords s).zipIdx.map Prod.snd).Nodup := by
      rw [List.zipIdx_map_snd]
      exact List.nodup_range'
    rw [hdeleted, length_eraseDups_eq increase.nodup hnamed,
      length_eraseDups_eq hdistinct hindices, hfilter, List.length_map]
    rw [List.filter_congr fun row hrow => decide_eq_decide.mpr (hsame row hrow)]

variable (config source s) in
/-- The rows after a check and a fix, and the number of deleted ones unless the fix raises. -/
def outcome : List Record × Option Nat :=
  (source.loadRecords (afterFix config source s),
    (runFix config source s (runCheck config source s)).map fun out => out.2.deleted)

theorem outcome_of_unbroken (h : (runCheck config source s).brokenCount = 0) :
    outcome config source s = (source.loadRecords s, some 0) := by
  rw [outcome, afterFix_of_unbroken h, runFix, if_pos h]
  rfl

theorem outcome_byId (h : (runCheck config source s).brokenCount ≠ 0)
    (hunique : config.uniqueId = true) {found : Option Fixes}
    (hfound : config.fixById (source.loadRecords s) (runCheck config source s) = found) :
    outcome config source s =
      ((found.map fun fixes => source.loadRecords
          (source.applyFixes s fixes.deleteIds fixes.updates)).getD (source.loadRecords s),
        found.map fun fixes => fixes.deleteIds.eraseDups.length) := by
  rw [outcome, afterFix, runFix, if_neg h, if_pos hunique, hfound]
  cases found with
  | none => rfl
  | some fixes => rfl

theorem outcome_byRebuild (h : (runCheck config source s).brokenCount ≠ 0)
    (hunique : config.uniqueId = false) {found : Option (List Record × FixReport)}
    (hfound : config.fixByRebuild (userIds config source s) (source.loadRecords s) = found) :
    outcome config source s =
      ((found.map fun out => source.loadRecords (source.replaceAll s out.1)).getD
          (source.loadRecords s),
        found.map fun out => out.2.deleted) := by
  rw [outcome, afterFix, runFix, if_neg h, if_neg (Bool.eq_false_iff.mp hunique), hfound]
  cases found with
  | none => rfl
  | some out => rfl

variable (source s) in
/-- Two outcomes with the same count of deletions and the same rows, those of the one filled with
`values`, those of the other with `values'`. -/
def FilledAlike (config : CheckConfig) (values values' : List (String × Value))
    (out out' : List Record × Option Nat) : Prop :=
  (∃ kept, Survivors config (source.loadRecords s) kept ∧
    Arranged source.ordered out.1 (filledWith values kept) ∧
    Arranged source.ordered out'.1 (filledWith values' kept)) ∧
  out.2 = out'.2

/-- Nothing has been written. -/
theorem FilledAlike.unchanged {values values' : List (String × Value)} (deleted : Option Nat) :
    FilledAlike source s config values values' (source.loadRecords s, deleted)
      (source.loadRecords s, deleted) := by
  have hall : ∀ values, filledWith values ((source.loadRecords s).map (·, false)) =
      source.loadRecords s := by
    intro values
    rw [filledWith, List.map_map]
    exact List.map_id _
  refine ⟨⟨(source.loadRecords s).map (·, false), ⟨?_, ?_⟩, .of_eq (hall _).symm,
    .of_eq (hall _).symm⟩, rfl⟩
  · rw [List.map_map]
    show ((source.loadRecords s).map id).Sublist _
    rw [List.map_id]
  · intro row hrow hmark
    obtain ⟨r, -, rfl⟩ := List.mem_map.mp hrow
    cases hmark

/-- What a fix by id finds, if it finds anything, is what a rebuild finds. -/
theorem IdsIncrease.found_agree (increase : IdsIncrease config (source.loadRecords s))
    (keeps : ∀ f ∈ config.nullFill.map Prod.fst, config.orphanField ≠ some f)
    {found : Option Fixes} {found' : Option (List Record × FixReport)}
    (h : config.fixById (source.loadRecords s) (runCheck config source s) = found)
    (h' : config.fixByRebuild (userIds config source s) (source.loadRecords s) = found') :
    FilledAlike source s config (source.filling ++ source.stamps s) source.filling
      ((found.map fun fixes => source.loadRecords
          (source.applyFixes s fixes.deleteIds fixes.updates)).getD (source.loadRecords s),
        found.map fun fixes => fixes.deleteIds.eraseDups.length)
      ((found'.map fun out => source.loadRecords (source.replaceAll s out.1)).getD
          (source.loadRecords s),
        found'.map fun out => out.2.deleted) := by
  have hruns : found.isSome ↔ found'.isSome := by
    rw [← h, ← h']
    exact increase.isSome_iff rfl
  cases found with
  | none =>
      obtain rfl : found' = none := by simpa using hruns
      exact .unchanged none
  | some fixes =>
      obtain ⟨⟨rows, report⟩, rfl⟩ := Option.isSome_iff_exists.mp (hruns.mp rfl)
      obtain ⟨hrows, hdeleted⟩ := increase.fix_agree keeps h h'
      exact ⟨hrows, congrArg some hdeleted⟩

theorem fillOrDrop_uniqueId (config : CheckConfig) (unique : Bool) (drop : List Nat)
    (indexed : List (Record × Nat)) :
    { config with uniqueId := unique }.fillOrDrop drop indexed =
      config.fillOrDrop drop indexed := by
  induction indexed generalizing drop with
  | nil => rfl
  | cons row indexed ih =>
      obtain ⟨row, idx⟩ := row
      rw [CheckConfig.fillOrDrop, CheckConfig.fillOrDrop, ih, ih]
      rfl

theorem fixByRebuild_uniqueId (config : CheckConfig) (unique : Bool)
    (ids : Option (List Value)) (records : List Record) :
    { config with uniqueId := unique }.fixByRebuild ids records =
      config.fixByRebuild ids records := by
  simp only [CheckConfig.fixByRebuild, fillOrDrop_uniqueId]
  rfl

/-- Where an update sets nothing besides and the rows have an order, the outcomes are equal. -/
theorem FilledAlike.eq {values : List (String × Value)} {out out' : List Record × Option Nat}
    (h : FilledAlike source s config values values out out') (ordered : source.ordered = true) :
    out = out' := by
  obtain ⟨⟨kept, -, hrows, hrows'⟩, hdeleted⟩ := h
  exact Prod.ext ((hrows.2 ordered).trans (hrows'.2 ordered).symm) hdeleted

/-- With ids that grow from row to row, and a `null_fill` that does not touch the reference to
a user, a profile leaves the same rows and reports the same number of deleted ones whether or
not it calls its ids unique. Only what an update of the source sets besides is missing in the
rows that a rebuild fills; where there is no such thing and the rows have an order, the sequence
of the rows is the same. -/
theorem strategies_agree (increase : IdsIncrease config (source.loadRecords s))
    (keeps : ∀ f ∈ config.nullFill.map Prod.fst, config.orphanField ≠ some f) :
    FilledAlike source s config (source.filling ++ source.stamps s) source.filling
      (outcome { config with uniqueId := true } source s)
      (outcome { config with uniqueId := false } source s) ∧
    (source.stamps s = [] → source.ordered = true →
      outcome { config with uniqueId := true } source s =
        outcome { config with uniqueId := false } source s) := by
  have halike : FilledAlike source s config (source.filling ++ source.stamps s) source.filling
      (outcome { config with uniqueId := true } source s)
      (outcome { config with uniqueId := false } source s) := by
    by_cases h : (runCheck config source s).brokenCount = 0
    · have hid : outcome { config with uniqueId := true } source s = _ := outcome_of_unbroken h
      have hrebuild : outcome { config with uniqueId := false } source s = _ :=
        outcome_of_unbroken h
      rw [hid, hrebuild]
      exact .unchanged (some 0)
    · have hid : (runCheck { config with uniqueId := true } source s).brokenCount ≠ 0 := h
      have hrebuild : (runCheck { config with uniqueId := false } source s).brokenCount ≠ 0 := h
      have hout : outcome { config with uniqueId := true } source s = _ :=
        outcome_byId hid rfl rfl
      have hout' : outcome { config with uniqueId := false } source s = _ :=
        outcome_byRebuild hrebuild rfl rfl
      rw [hout, hout']
      exact increase.found_agree keeps rfl (fixByRebuild_uniqueId config false _ _).symm
  refine ⟨halike, fun hstamps hordered => ?_⟩
  rw [hstamps, List.append_nil] at halike
  exact halike.eq hordered

end Agree

/-! A dump with duplicates that are equally late, a blank row and an orphan. -/

def dumpRow (position : Nat) (userId positive : Value) : Record where
  position := position
  fields := fun field =>
    [("id", .num position), ("user_id", userId), ("chat_id", .num 1),
      ("positive_count", positive), ("negative_count", .num 2),
      ("updated_at", .datetime 0)].lookup field

def dump : List Record :=
  [dumpRow 0 (.num 1) (.num 3), dumpRow 1 (.num 1) (.num 4), dumpRow 2 (.num 2) .none,
    dumpRow 3 (.num 9) (.num 3)]

def dumpSource : DataSource (List Record) REPUTATION.idField REPUTATION.nullFill :=
  memorySource (some [.num 1, .num 2]) REPUTATION

/-- Both strategies keep the later duplicate and the blank row. -/
theorem dump_agree :
    outcome { REPUTATION with uniqueId := true } dumpSource dump =
      outcome { REPUTATION with uniqueId := false } dumpSource dump ∧
    ((outcome { REPUTATION with uniqueId := true } dumpSource dump).1.map Record.position,
      (outcome { REPUTATION with uniqueId := true } dumpSource dump).2) = ([1, 2], some 2) := by
  have increase : IdsIncrease REPUTATION (dumpSource.loadRecords dump) := by
    rw [IdsIncrease]
    decide +kernel
  exact ⟨(strategies_agree increase (by decide)).2 rfl rfl, by decide +kernel⟩

/-! A table of Postgres with a blank row. -/

/-- A rating of user 1, last updated at time zero. -/
def ratedAt (id : Nat) (positive : Value)
    (h : Postgres.store .positiveCount positive = some positive) :
    SqlRow (Postgres.types fun _ => none) where
  position := id
  id := id
  values := fun
    | .positiveCount => positive
    | .chatId => .num id
    | .createdAt | .updatedAt => .datetime 0
    | _ => .num 1
  stored := by
    intro column
    cases column
    case positiveCount => exact h
    all_goals rfl

def agedRatings : SqlTable (Postgres.types fun _ => none) where
  rows := [ratedAt 1 .none rfl, ratedAt 2 (.num 3) rfl]
  users := some [.num 1]
  now := 100
  distinct := by decide

/-- On Postgres the strategies differ in the time of the last update. -/
theorem aged_differ :
    ((outcome { REPUTATION with uniqueId := true } reputationTable agedRatings).1.map
        fun r => (r.get "positive_count", r.get "updated_at")) =
      [(.num 0, .datetime 100), (.num 3, .datetime 0)] ∧
    ((outcome { REPUTATION with uniqueId := false } reputationTable agedRatings).1.map
        fun r => (r.get "positive_count", r.get "updated_at")) =
      [(.num 0, .datetime 0), (.num 3, .datetime 0)] ∧
    ¬∀ (σ : Type) (config : CheckConfig)
        (source : DataSource σ config.idField config.nullFill) (s : σ),
      IdsIncrease config (source.loadRecords s) →
      (∀ f ∈ config.nullFill.map Prod.fst, config.orphanField ≠ some f) →
        (outcome { config with uniqueId := true } source s).1.Perm
          (outcome { config with uniqueId := false } source s).1 := by
  have hid : ((outcome { REPUTATION with uniqueId := true } reputationTable agedRatings).1.map
      fun r => (r.get "positive_count", r.get "updated_at")) =
        [(.num 0, .datetime 100), (.num 3, .datetime 0)] := by
    decide +kernel
  have hrebuild : ((outcome { REPUTATION with uniqueId := false } reputationTable agedRatings).1.map
      fun r => (r.get "positive_count", r.get "updated_at")) =
        [(.num 0, .datetime 0), (.num 3, .datetime 0)] := by
    decide +kernel
  refine ⟨hid, hrebuild, fun h => ?_⟩
  have increase : IdsIncrease REPUTATION (reputationTable.loadRecords agedRatings) := by
    rw [IdsIncrease]
    decide +kernel
  have hperm := (h _ REPUTATION reputationTable agedRatings increase (by decide)).map
    fun r => (r.get "positive_count", r.get "updated_at")
  rw [hid, hrebuild] at hperm
  exact absurd hperm (by decide +kernel)

end UserTgBot.Maintenance
