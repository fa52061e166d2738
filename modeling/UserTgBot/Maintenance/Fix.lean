import UserTgBot.Library.Dedup
import UserTgBot.Maintenance.Check

/-!
# `fix`

`commands/fix.py` repairs what a check has found, in one of two ways. Where ids are unique it
asks the source to delete and patch rows by id; else it rebuilds the list of rows in memory and
writes it back. Both keep the latest row of each group of duplicates, fill blank rows or remove
them if there is nothing to fill them with, and remove orphans.

The backup that is taken first is not part of the model.
-/

namespace UserTgBot.Maintenance

open PyValue

structure FixReport where
  fixed : Nat := 0
  deleted : Nat := 0
deriving DecidableEq

/-- The arguments of `apply_fixes`. -/
structure Fixes where
  deleteIds : List Value
  updates : List (Value × List (String × Value))

/-- The rows with their indices, and the indices to be dropped, during a rebuild. -/
structure Rebuild where
  drop : List Nat
  rows : List (Record × Nat)
  fixed : Nat

namespace CheckConfig

variable (config : CheckConfig)

/-- The sort key of `_fix_by_id`. -/
def idKey (r : Record) : SortKey := ((r.get config.sortField).orEmpty, config.rowId r)

/-- The sort key of `_fix_by_rebuild`. -/
def indexKey (row : Record × Nat) : SortKey :=
  ((row.1.get config.sortField).orEmpty, .num row.2)

/-- One round of the loop over the null violations in `_fix_by_id`. -/
def fillOrDelete (fixes : Fixes) (rowId : Value) : Fixes :=
  if rowId ∈ fixes.deleteIds then fixes
  else if config.nullFill = [] then { fixes with deleteIds := rowId :: fixes.deleteIds }
  else { fixes with updates := (rowId, config.nullFill) :: fixes.updates }

/-- `_fix_by_id`; nothing if sorting a group raises a `TypeError`. -/
def fixById (records : List Record) (report : CheckReport) : Option Fixes := do
  let older ← allButLatest config.idKey (report.duplicates.map (config.group records))
  let deleteIds := older.map config.rowId ++ report.orphans
  return report.nullViolations.foldl config.fillOrDelete ⟨deleteIds, []⟩

/-- The second pass of `_fix_by_rebuild`. -/
def fillOrDrop (drop : List Nat) : List (Record × Nat) → Rebuild
  | [] => ⟨drop, [], 0⟩
  | (row, idx) :: indexed =>
      if idx ∉ drop ∧ config.hasBlank row then
        if config.nullFill = [] then
          let rest := fillOrDrop (idx :: drop) indexed
          { rest with rows := (row, idx) :: rest.rows }
        else
          let rest := fillOrDrop drop indexed
          { rest with
            rows := (row.update config.nullFill, idx) :: rest.rows
            fixed := rest.fixed + 1 }
      else
        let rest := fillOrDrop drop indexed
        { rest with rows := (row, idx) :: rest.rows }

/-- `_fix_by_rebuild` up to `replace_all`; nothing if sorting a group raises a `TypeError`. -/
def fixByRebuild (userIds : Option (List Value)) (records : List Record) :
    Option (List Record × FixReport) := do
  let indexed := records.zipIdx
  let groups := (config.duplicates records).map fun key =>
    indexed.filter fun row => config.dupKey row.1 = key
  let older ← allButLatest config.indexKey groups
  let filled := config.fillOrDrop (older.map Prod.snd) indexed
  let orphans := filled.rows.filter fun row => config.isOrphan userIds row.1
  let drop := filled.drop ++ orphans.map Prod.snd
  let kept := filled.rows.filter fun row => row.2 ∉ drop
  return (kept.map Prod.fst, { fixed := filled.fixed, deleted := drop.eraseDups.length })

end CheckConfig

section Fix

variable {σ : Type} (config : CheckConfig)
  (source : DataSource σ config.idField config.nullFill)

/-- `run_fix`: the source afterwards and the report; nothing if it raises. -/
def runFix (s : σ) (report : CheckReport) : Option (σ × FixReport) :=
  if report.brokenCount = 0 then some (s, {})
  else if config.uniqueId then do
    let fixes ← config.fixById (source.loadRecords s) report
    let fixed := (fixes.updates.map Prod.fst).eraseDups.length
    return (source.applyFixes s fixes.deleteIds fixes.updates,
      { fixed, deleted := fixes.deleteIds.eraseDups.length })
  else do
    let (kept, fixReport) ← config.fixByRebuild (userIds config source s) (source.loadRecords s)
    return (source.replaceAll s kept, fixReport)

/-- No sort raises in the strategy of the profile. -/
def fixRuns (s : σ) : Bool :=
  if config.uniqueId then
    (config.fixById (source.loadRecords s) (runCheck config source s)).isSome
  else (config.fixByRebuild (userIds config source s) (source.loadRecords s)).isSome

/-- The source after a check and a fix. A fix that raises has not written anything. -/
def afterFix (s : σ) : σ :=
  ((runFix config source s (runCheck config source s)).map Prod.fst).getD s

/-- What a fix has written into a blank row, as it is read again: `null_fill`, and by id what
the source sets besides. -/
def written (s : σ) : List (String × Value) :=
  if config.uniqueId then source.filling ++ source.stamps s else source.filling

/-- A row as a fix leaves it, if the fix leaves it. -/
def refill (s : σ) (r : Record) : Record :=
  if config.hasBlank r then r.update (written config source s) else r

end Fix

/-! ## What the passes do to a row -/

/-- A blank row has `nullFill` written over it. -/
def CheckConfig.fill (config : CheckConfig) (r : Record) : Record :=
  if config.hasBlank r then r.update config.nullFill else r

theorem Record.update_nil (r : Record) : r.update [] = r := rfl

section Passes

variable {config : CheckConfig}

@[simp] theorem fill_position (r : Record) : (config.fill r).position = r.position := by
  rw [CheckConfig.fill]
  split <;> rfl

/-- The null pass deletes more only if there is nothing to fill in. -/
theorem mem_deleteIds_foldl {ids : List Value} {fixes : Fixes} {v : Value} :
    v ∈ (ids.foldl config.fillOrDelete fixes).deleteIds ↔
      v ∈ fixes.deleteIds ∨ (config.nullFill = [] ∧ v ∈ ids) := by
  induction ids generalizing fixes with
  | nil => simp
  | cons rowId ids ih =>
      rw [List.foldl_cons, ih]
      rw [CheckConfig.fillOrDelete]
      split_ifs with hmem hfill
      · constructor
        · exact Or.imp_right (And.imp_right (List.mem_cons_of_mem _))
        · rintro (hv | ⟨hfill, hv⟩)
          · exact .inl hv
          · obtain rfl | hv := List.mem_cons.mp hv
            · exact .inl hmem
            · exact .inr ⟨hfill, hv⟩
      · simp [hfill, or_assoc, or_left_comm]
      · simp [hfill]

/-- Who is not deleted is patched if it is a violation. -/
theorem mem_updates_foldl {ids : List Value} {fixes : Fixes} {v : Value}
    (kept : v ∉ (ids.foldl config.fillOrDelete fixes).deleteIds) :
    v ∈ (ids.foldl config.fillOrDelete fixes).updates.map Prod.fst ↔
      v ∈ ids ∨ v ∈ fixes.updates.map Prod.fst := by
  induction ids generalizing fixes with
  | nil => simp
  | cons rowId ids ih =>
      rw [List.foldl_cons] at kept ⊢
      rw [ih kept, List.mem_cons]
      obtain ⟨hv, hempty⟩ := not_or.mp (mem_deleteIds_foldl.not.mp kept)
      rw [CheckConfig.fillOrDelete] at hv ⊢
      split_ifs at hv ⊢ with hmem hfill
      · have hne : v ≠ rowId := fun heq => hv (heq ▸ hmem)
        rw [or_iff_right hne]
      · have hne : v ≠ rowId := fun heq => hv (heq ▸ List.mem_cons_self)
        rw [or_iff_right hne]
      · rw [List.map_cons, List.mem_cons]
        exact or_left_comm.trans (or_assoc.symm)

/-- All patches are the same. -/
theorem updates_foldl {ids : List Value} {fixes : Fixes}
    (h : ∀ update ∈ fixes.updates, update.2 = config.nullFill) :
    ∀ update ∈ (ids.foldl config.fillOrDelete fixes).updates, update.2 = config.nullFill := by
  induction ids generalizing fixes with
  | nil => exact h
  | cons rowId ids ih =>
      refine ih ?_
      rw [CheckConfig.fillOrDelete]
      split_ifs
      · exact h
      · exact h
      · exact List.forall_mem_cons.mpr ⟨rfl, h⟩

theorem mem_drop_fillOrDrop {drop : List Nat} {indexed : List (Record × Nat)} {i : Nat} :
    i ∈ (config.fillOrDrop drop indexed).drop ↔
      i ∈ drop ∨ (config.nullFill = [] ∧ ∃ row ∈ indexed, config.hasBlank row.1 ∧ row.2 = i) := by
  induction indexed generalizing drop with
  | nil => simp [CheckConfig.fillOrDrop]
  | cons row indexed ih =>
      obtain ⟨row, idx⟩ := row
      rw [CheckConfig.fillOrDrop]
      rw [List.exists_mem_cons_iff]
      split_ifs with hblank hfill
      · simp only [ih, List.mem_cons, hfill, hblank.2, true_and]
        grind
      · simp [ih, hfill]
      · simp only [ih]
        grind

/-- The null pass fills the rows that are not dropped already. -/
theorem rows_fillOrDrop {drop : List Nat} {indexed : List (Record × Nat)} :
    (config.fillOrDrop drop indexed).rows =
      indexed.map fun row => if row.2 ∈ drop then row else (config.fill row.1, row.2) := by
  induction indexed generalizing drop with
  | nil => rfl
  | cons row indexed ih =>
      obtain ⟨row, idx⟩ := row
      rw [CheckConfig.fillOrDrop]
      split_ifs with hblank hfill
      · -- with nothing to fill in, no row changes in this pass
        have hfixed : ∀ r : Record, config.fill r = r := by
          intro r
          simp [CheckConfig.fill, hfill, Record.update_nil]
        simp [ih, hfixed]
      · simp [ih, hblank.1, CheckConfig.fill, hblank.2]
      · simp only [List.map_cons, ih]
        by_cases hmem : idx ∈ drop
        · simp [hmem]
        · have hfull : config.hasBlank row = false := by
            simpa [hmem] using hblank
          simp [hmem, CheckConfig.fill, hfull]

end Passes

/-! ## What is left -/

section Outcome

variable {σ : Type} {config : CheckConfig}
  {source : DataSource σ config.idField config.nullFill} {s : σ} {records : List Record}

@[simp] theorem refill_position {r : Record} :
    (refill config source s r).position = r.position := by
  rw [refill]
  split <;> rfl

theorem isGrouping_byId (records : List Record) (h : config.duplicateKeys ≠ []) :
    IsGrouping config.dupKey records ((config.duplicates records).map (config.group records)) := by
  intro rows
  simp only [List.mem_map, mem_duplicates, group_eq h]
  constructor
  · rintro ⟨key, hlength, rfl⟩
    exact ⟨hlength, key, rfl⟩
  · rintro ⟨hlength, key, rfl⟩
    exact ⟨key, hlength, rfl⟩

theorem nodup_zipIdx (l : List Record) : l.zipIdx.Nodup := by
  have hsnd : (l.zipIdx.map Prod.snd).Nodup := by
    rw [List.zipIdx_map_snd]
    exact List.nodup_range'
  exact hsnd.of_map

/-- The groups of a rebuild have the members that the check has counted. -/
theorem isGrouping_byRebuild (records : List Record) (h : config.duplicateKeys ≠ []) :
    IsGrouping (fun row : Record × Nat => config.dupKey row.1) records.zipIdx
      ((config.duplicates records).map fun key =>
        records.zipIdx.filter fun row => config.dupKey row.1 = key) := by
  intro rows
  have hlength : ∀ key, (config.group records key).length =
      (records.zipIdx.filter fun row => config.dupKey row.1 = key).length := by
    intro key
    rw [group_eq h, ← List.countP_eq_length_filter, ← List.countP_eq_length_filter]
    conv_lhs => rw [← List.zipIdx_map_fst 0 records, List.countP_map]
    rfl
  simp only [List.mem_map, mem_duplicates, hlength]
  constructor
  · rintro ⟨key, hlength, rfl⟩
    exact ⟨hlength, key, rfl⟩
  · rintro ⟨hlength, key, rfl⟩
    exact ⟨key, hlength, rfl⟩

theorem duplicates_of_no_keys (h : config.duplicateKeys = []) :
    config.duplicates records = [] := by
  simp [CheckConfig.duplicates, CheckConfig.group, h]

/-- A fix by id removes losers, orphans and blank rows that cannot be filled, and with them
every row that shares an id with them. -/
theorem loadRecords_byId {fixes : Fixes}
    (h : config.fixById (source.loadRecords s) (runCheck config source s) = some fixes) :
    ∃ older, allButLatest config.idKey ((config.duplicates (source.loadRecords s)).map
        (config.group (source.loadRecords s))) = some older ∧
      (∀ v, v ∈ fixes.deleteIds ↔ ∃ r, config.rowId r = v ∧ (r ∈ older ∨
        (r ∈ source.loadRecords s ∧ (config.isOrphan (userIds config source s) r ∨
          (config.nullFill = [] ∧ config.hasBlank r))))) ∧
      Arranged source.ordered
        (source.loadRecords (source.applyFixes s fixes.deleteIds fixes.updates))
        (((source.loadRecords s).filter fun r => config.rowId r ∉ fixes.deleteIds).map fun r =>
          if config.rowId r ∈ (runCheck config source s).nullViolations
          then r.update (source.filling ++ source.stamps s) else r) := by
  simp only [CheckConfig.fixById, Option.bind_eq_bind, Option.bind_eq_some_iff, Option.pure_def,
    Option.some.injEq] at h
  obtain ⟨older, holder, rfl⟩ := h
  refine ⟨older, holder, ?_, ?_⟩
  · intro v
    rw [mem_deleteIds_foldl]
    simp only [runCheck, List.mem_append, List.mem_map, List.mem_filter]
    grind
  · refine (source.loadRecords_applyFixes s _ _ (updates_foldl (List.forall_mem_nil _))).trans
      (.of_eq (List.map_congr_left fun r hr => ?_))
    have hkept := of_decide_eq_true (List.mem_filter.mp hr).2
    exact if_congr ((mem_updates_foldl hkept).trans (or_iff_left List.not_mem_nil)) rfl rfl

/-- The indices that a rebuild drops are those of the rows that lose their group, are orphans or
hopelessly blank; the other rows are kept, filled. -/
theorem fixByRebuild_drop {ids : Option (List Value)} {kept : List Record} {report : FixReport}
    (h : config.fixByRebuild ids records = some (kept, report)) :
    ∃ older, ∃ drop : List Nat, allButLatest config.indexKey ((config.duplicates records).map fun key =>
        records.zipIdx.filter fun row => config.dupKey row.1 = key) = some older ∧
      (∀ i ∈ drop, ∃ row ∈ records.zipIdx, row.2 = i) ∧
      (∀ row ∈ records.zipIdx, row.2 ∉ drop ↔ row.2 ∉ older.map Prod.snd ∧
        (config.nullFill = [] → ¬config.hasBlank row.1) ∧
          ¬config.isOrphan ids (config.fill row.1)) ∧
      kept = (records.zipIdx.filter fun row => row.2 ∉ drop).map (fun row => config.fill row.1) ∧
      report.deleted = drop.eraseDups.length := by
  simp only [CheckConfig.fixByRebuild, Option.bind_eq_bind, Option.bind_eq_some_iff,
    Option.pure_def, Option.some.injEq, Prod.mk.injEq] at h
  obtain ⟨older, holder, rfl, rfl⟩ := h
  have hunique : ∀ row ∈ records.zipIdx, ∀ row' ∈ records.zipIdx, row'.2 = row.2 → row' = row := by
    intro row hrow row' hrow' heq
    rw [List.mem_zipIdx_iff_getElem?] at hrow hrow'
    rw [heq, hrow, Option.some.injEq] at hrow'
    exact Prod.ext hrow'.symm heq
  have holder_mem : ∀ row ∈ older, row ∈ records.zipIdx := by
    intro row hrow
    obtain ⟨rows, hrows, hmem⟩ := exists_group_of_loser holder hrow
    obtain ⟨key, -, rfl⟩ := List.mem_map.mp hrows
    exact List.mem_of_mem_filter hmem
  rw [rows_fillOrDrop, List.filter_map, List.map_map]
  set after : Record × Nat → Record × Nat := fun row =>
    if row.2 ∈ older.map Prod.snd then row else (config.fill row.1, row.2) with hafter
  have hsnd : ∀ row, (after row).2 = row.2 := by
    intro row
    rw [hafter]
    dsimp only
    split <;> rfl
  have hfst : ∀ row, row.2 ∉ older.map Prod.snd → (after row).1 = config.fill row.1 := by
    intro row hrow
    simp only [hafter, if_neg hrow]
  -- an index is dropped because of the row it belongs to
  have hdrop : ∀ row ∈ records.zipIdx, (row.2 ∈ (config.fillOrDrop (older.map Prod.snd)
      records.zipIdx).drop ↔ row.2 ∈ older.map Prod.snd ∨
        (config.nullFill = [] ∧ config.hasBlank row.1)) := by
    intro row hrow
    rw [mem_drop_fillOrDrop]
    refine or_congr_right (and_congr_right fun _ => ⟨?_, fun hblank => ⟨row, hrow, hblank, rfl⟩⟩)
    rintro ⟨row', hrow', hblank, heq⟩
    rwa [hunique row hrow row' hrow' heq] at hblank
  have horphan : ∀ row ∈ records.zipIdx, (row.2 ∈ ((records.zipIdx.map after).filter fun row =>
      config.isOrphan ids row.1).map Prod.snd ↔ config.isOrphan ids (after row).1) := by
    intro row hrow
    simp only [List.mem_map, List.mem_filter]
    constructor
    · rintro ⟨_, ⟨⟨row', hrow', rfl⟩, hids⟩, heq⟩
      rw [hsnd] at heq
      rwa [hunique row hrow row' hrow' heq] at hids
    · intro hids
      exact ⟨after row, ⟨⟨row, hrow, rfl⟩, hids⟩, hsnd row⟩
  have hsame : ∀ row ∈ records.zipIdx, (row.2 ∉ (config.fillOrDrop (older.map Prod.snd)
      records.zipIdx).drop ++ ((records.zipIdx.map after).filter fun row =>
        config.isOrphan ids row.1).map Prod.snd ↔ row.2 ∉ older.map Prod.snd ∧
          (config.nullFill = [] → ¬config.hasBlank row.1) ∧
            ¬config.isOrphan ids (config.fill row.1)) := by
    intro row hrow
    rw [List.mem_append, hdrop row hrow, horphan row hrow, not_or, not_or, not_and, and_assoc]
    refine and_congr_right fun hloser => ?_
    rw [hfst row hloser]
  refine ⟨older, _, holder, ?_, hsame, ?_, rfl⟩
  · intro i hi
    obtain hi | hi := List.mem_append.mp hi
    · obtain hi | ⟨-, row, hrow, -, rfl⟩ := mem_drop_fillOrDrop.mp hi
      · obtain ⟨row, hrow, rfl⟩ := List.mem_map.mp hi
        exact ⟨row, holder_mem row hrow, rfl⟩
      · exact ⟨row, hrow, rfl⟩
    · obtain ⟨_, hmem, rfl⟩ := List.mem_map.mp hi
      obtain ⟨row, hrow, rfl⟩ := List.mem_map.mp (List.mem_of_mem_filter hmem)
      exact ⟨row, hrow, (hsnd row).symm⟩
  · simp only [Function.comp_def, hsnd]
    refine List.map_congr_left fun row hrow => ?_
    have hkept := of_decide_eq_true (List.mem_filter.mp hrow).2
    exact hfst row ((hsame row (List.mem_of_mem_filter hrow)).mp hkept).1

/-- A rebuild keeps the rows that win their group and are neither orphans nor hopelessly blank,
filled. -/
theorem fixByRebuild_eq_some {ids : Option (List Value)} {kept : List Record} {report : FixReport}
    (h : config.fixByRebuild ids records = some (kept, report)) :
    ∃ older, allButLatest config.indexKey ((config.duplicates records).map fun key =>
        records.zipIdx.filter fun row => config.dupKey row.1 = key) = some older ∧
      kept = (records.zipIdx.filter fun row => row.2 ∉ older.map Prod.snd ∧
        (config.nullFill = [] → ¬config.hasBlank row.1) ∧
          ¬config.isOrphan ids (config.fill row.1)).map fun row => config.fill row.1 := by
  obtain ⟨older, drop, holder, -, hdrop, rfl, -⟩ := fixByRebuild_drop h
  refine ⟨older, holder, ?_⟩
  rw [List.filter_congr fun row hrow => decide_eq_decide.mpr (hdrop row hrow)]

theorem fixById_isSome {report : CheckReport} : (config.fixById records report).isSome ↔
    (allButLatest config.idKey (report.duplicates.map (config.group records))).isSome := by
  simp [CheckConfig.fixById, Option.isSome_bind]

theorem fixByRebuild_isSome {ids : Option (List Value)} :
    (config.fixByRebuild ids records).isSome ↔
      (allButLatest config.indexKey ((config.duplicates records).map fun key =>
        records.zipIdx.filter fun row => config.dupKey row.1 = key)).isSome := by
  simp [CheckConfig.fixByRebuild, Option.isSome_bind]

/-- Without duplicate keys nothing is sorted, so no sort raises. -/
theorem fixById_runs_of_no_keys {report : CheckReport} (hkeys : config.duplicateKeys = [])
    (hreport : report.duplicates = config.duplicates records) :
    (config.fixById records report).isSome := by
  rw [fixById_isSome, hreport, duplicates_of_no_keys hkeys]
  rfl

theorem fixByRebuild_runs_of_no_keys {ids : Option (List Value)}
    (hkeys : config.duplicateKeys = []) : (config.fixByRebuild ids records).isSome := by
  rw [fixByRebuild_isSome, duplicates_of_no_keys hkeys]
  rfl

theorem fixRuns_byId (hunique : config.uniqueId = true) : fixRuns config source s =
    (config.fixById (source.loadRecords s) (runCheck config source s)).isSome := if_pos hunique

theorem fixRuns_byRebuild (hunique : config.uniqueId = false) : fixRuns config source s =
    (config.fixByRebuild (userIds config source s) (source.loadRecords s)).isSome := by
  simp [fixRuns, hunique]

/-- Nothing is written if a sort raises. -/
theorem afterFix_of_raise (h : fixRuns config source s = false) :
    afterFix config source s = s := by
  rw [fixRuns] at h
  rw [afterFix, runFix]
  split_ifs at h ⊢ <;> simp_all

/-- A report without anything that a fix repairs. -/
structure CheckReport.Clean (report : CheckReport) : Prop where
  nullViolations : report.nullViolations = []
  orphans : report.orphans = []
  duplicates : report.duplicates = []

theorem clean_of_brokenCount {report : CheckReport} (h : report.brokenCount = 0) :
    report.Clean := by
  obtain ⟨hnull, horphan, -, hdup⟩ := brokenCount_eq_zero.mp h
  exact ⟨hnull, horphan, hdup⟩

theorem clean_runCheck_iff : (runCheck config source s).Clean ↔
    (∀ r ∈ source.loadRecords s, ¬config.hasBlank r) ∧
      (∀ r ∈ source.loadRecords s, ¬config.isOrphan (userIds config source s) r) ∧
        config.duplicates (source.loadRecords s) = [] := by
  constructor
  · rintro ⟨hnull, horphan, hdup⟩
    simp only [runCheck, List.map_eq_nil_iff, List.filter_eq_nil_iff] at hnull horphan hdup
    exact ⟨hnull, horphan, hdup⟩
  · rintro ⟨hnull, horphan, hdup⟩
    constructor <;> simpa only [runCheck, List.map_eq_nil_iff, List.filter_eq_nil_iff]

/-- A fix by id of clean rows changes none of them. -/
theorem byId_of_clean {fixes : Fixes} (clean : (runCheck config source s).Clean)
    (h : config.fixById (source.loadRecords s) (runCheck config source s) = some fixes)
    (values : List (String × Value)) :
    (((source.loadRecords s).filter fun r => config.rowId r ∉ fixes.deleteIds).map fun r =>
      if config.rowId r ∈ (runCheck config source s).nullViolations
      then r.update values else r) = source.loadRecords s := by
  obtain ⟨older, holder, hdelete, -⟩ := loadRecords_byId h
  obtain ⟨hblank, horphan, hdup⟩ := clean_runCheck_iff.mp clean
  have hnone : ∀ r ∈ source.loadRecords s, config.rowId r ∉ fixes.deleteIds := by
    intro r _ hmem
    rw [hdup] at holder
    cases holder
    obtain ⟨q, -, hq | ⟨hq, hids | ⟨-, hnull⟩⟩⟩ := (hdelete _).mp hmem
    · cases hq
    · exact horphan q hq hids
    · exact hblank q hq hnull
  rw [clean.nullViolations, List.filter_eq_self.mpr fun r hr => decide_eq_true (hnone r hr)]
  simp

/-- A rebuild of clean rows keeps all of them, whatever it would fill in. -/
theorem byRebuild_of_clean {older : List (Record × Nat)}
    (clean : (runCheck config source s).Clean)
    (h : allButLatest config.indexKey ((config.duplicates (source.loadRecords s)).map fun key =>
      (source.loadRecords s).zipIdx.filter fun row => config.dupKey row.1 = key) = some older) :
    ((source.loadRecords s).zipIdx.filter fun row => row.2 ∉ older.map Prod.snd ∧
      (config.nullFill = [] → ¬config.hasBlank row.1) ∧
        ¬config.isOrphan (userIds config source s) (config.fill row.1)).map
          (fun row => refill config source s row.1) = source.loadRecords s := by
  obtain ⟨hblank, horphan, hdup⟩ := clean_runCheck_iff.mp clean
  rw [hdup] at h
  cases h
  have hmem : ∀ row ∈ (source.loadRecords s).zipIdx, row.1 ∈ source.loadRecords s :=
    fun row hrow => List.fst_mem_of_mem_zipIdx hrow
  have hfill : ∀ row ∈ (source.loadRecords s).zipIdx, config.fill row.1 = row.1 :=
    fun row hrow => if_neg (hblank row.1 (hmem row hrow))
  have hrefill : ∀ row ∈ (source.loadRecords s).zipIdx, refill config source s row.1 = row.1 :=
    fun row hrow => if_neg (hblank row.1 (hmem row hrow))
  rw [List.filter_eq_self.mpr, List.map_congr_left hrefill, List.zipIdx_map_fst]
  intro row hrow
  simp [hfill row hrow, hblank row.1 (hmem row hrow), horphan row.1 (hmem row hrow)]

theorem afterFix_of_unbroken (h : (runCheck config source s).brokenCount = 0) :
    afterFix config source s = s := by
  simp [afterFix, runFix, h]

/-- The records after a fix by id, whether or not it has been necessary. -/
theorem loadRecords_afterFix_byId (hunique : config.uniqueId = true) {fixes : Fixes}
    (h : config.fixById (source.loadRecords s) (runCheck config source s) = some fixes) :
    Arranged source.ordered (source.loadRecords (afterFix config source s))
      (((source.loadRecords s).filter fun r => config.rowId r ∉ fixes.deleteIds).map fun r =>
        if config.rowId r ∈ (runCheck config source s).nullViolations
        then r.update (written config source s) else r) := by
  rw [written, if_pos hunique]
  by_cases hbroken : (runCheck config source s).brokenCount = 0
  · rw [afterFix_of_unbroken hbroken, byId_of_clean (clean_of_brokenCount hbroken) h]
    exact .refl _
  · have hafter : afterFix config source s =
        source.applyFixes s fixes.deleteIds fixes.updates := by
      simp [afterFix, runFix, hbroken, hunique, h]
    obtain ⟨-, -, -, hload⟩ := loadRecords_byId h
    rw [hafter]
    exact hload

/-- What is loaded again of the rows that a rebuild writes. -/
theorem loadRecords_byRebuild (p : Record × Nat → Bool) :
    Arranged source.ordered
      (source.loadRecords (source.replaceAll s
        (((source.loadRecords s).zipIdx.filter p).map fun row => config.fill row.1)))
      (((source.loadRecords s).zipIdx.filter p).map fun row =>
        if config.hasBlank row.1 then row.1.update source.filling else row.1) := by
  have hsublist : ((((source.loadRecords s).zipIdx.filter p).map fun row =>
      (row.1, config.hasBlank row.1)).map Prod.fst).Sublist (source.loadRecords s) := by
    rw [List.map_map]
    refine (List.filter_sublist.map Prod.fst).trans ?_
    rw [List.zipIdx_map_fst]
  have hload := source.loadRecords_replaceAll s _ hsublist
  rw [List.map_map, List.map_map] at hload
  exact hload

/-- The records after a rebuild, whether or not it has been necessary. -/
theorem loadRecords_afterFix_byRebuild (hunique : config.uniqueId = false) {kept : List Record}
    {report : FixReport}
    (h : config.fixByRebuild (userIds config source s) (source.loadRecords s) =
      some (kept, report)) :
    ∃ older, allButLatest config.indexKey ((config.duplicates (source.loadRecords s)).map
        fun key => (source.loadRecords s).zipIdx.filter fun row => config.dupKey row.1 = key) =
          some older ∧
      Arranged source.ordered (source.loadRecords (afterFix config source s))
        (((source.loadRecords s).zipIdx.filter fun row => row.2 ∉ older.map Prod.snd ∧
          (config.nullFill = [] → ¬config.hasBlank row.1) ∧
            ¬config.isOrphan (userIds config source s) (config.fill row.1)).map
              fun row => refill config source s row.1) := by
  obtain ⟨older, holder, hkept⟩ := fixByRebuild_eq_some h
  refine ⟨older, holder, ?_⟩
  by_cases hbroken : (runCheck config source s).brokenCount = 0
  · rw [afterFix_of_unbroken hbroken, byRebuild_of_clean (clean_of_brokenCount hbroken) holder]
    exact .refl _
  · have hafter : afterFix config source s = source.replaceAll s kept := by
      simp [afterFix, runFix, hbroken, hunique, h]
    have hwritten : written config source s = source.filling := if_neg (by simp [hunique])
    rw [hafter, hkept]
    simp only [refill, hwritten]
    exact loadRecords_byRebuild _

/-- A fix of clean rows leaves them exactly as they are. -/
theorem loadRecords_afterFix_of_clean (clean : (runCheck config source s).Clean) :
    Arranged source.ordered (source.loadRecords (afterFix config source s))
      (source.loadRecords s) := by
  have hdup : config.duplicates (source.loadRecords s) = [] := (clean_runCheck_iff.mp clean).2.2
  cases hunique : config.uniqueId with
  | true =>
      have hsome : (config.fixById (source.loadRecords s) (runCheck config source s)).isSome := by
        rw [fixById_isSome, clean.duplicates]
        rfl
      obtain ⟨fixes, h⟩ := Option.isSome_iff_exists.mp hsome
      have hafter := loadRecords_afterFix_byId hunique h
      rwa [byId_of_clean clean h] at hafter
  | false =>
      have hsome : (config.fixByRebuild (userIds config source s)
          (source.loadRecords s)).isSome := by
        rw [fixByRebuild_isSome, hdup]
        rfl
      obtain ⟨⟨kept, report⟩, h⟩ := Option.isSome_iff_exists.mp hsome
      obtain ⟨older, holder, hafter⟩ := loadRecords_afterFix_byRebuild hunique h
      rwa [byRebuild_of_clean clean holder] at hafter

theorem userIds_afterFix :
    userIds config source (afterFix config source s) = userIds config source s := by
  have hload : source.loadUserIds (afterFix config source s) = source.loadUserIds s := by
    rw [afterFix, runFix]
    split_ifs
    · rfl
    · cases config.fixById (source.loadRecords s) (runCheck config source s) with
      | none => rfl
      | some fixes => exact source.loadUserIds_applyFixes ..
    · cases config.fixByRebuild (userIds config source s) (source.loadRecords s) with
      | none => rfl
      | some kept => exact source.loadUserIds_replaceAll ..
  simp [userIds, hload]

end Outcome

end UserTgBot.Maintenance
