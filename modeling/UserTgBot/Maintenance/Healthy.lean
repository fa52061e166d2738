import UserTgBot.Maintenance.Fix

/-!
# Entities with a healthy record

The passes of a fix do not look at each other: the row that deduplication keeps is the latest
one, whether or not a later pass removes it. So a fix can erase a group that has a healthy row,
namely if its latest row is blank and cannot be filled, or an orphan. When ids repeat although
they should not, a row also goes with any row of its id.
-/

namespace UserTgBot.Maintenance

open PyValue

/-- Positions are indices. -/
def Labelled (records : List Record) : Prop := ∀ row ∈ records.zipIdx, row.1.position = row.2

section Healthy

variable (config : CheckConfig) (ids : Option (List Value)) (records : List Record)

/-- No required field is blank, and the reference is not broken. -/
def Healthy (r : Record) : Prop := ¬config.hasBlank r ∧ ¬config.isOrphan ids r

/-- What either strategy compares the rows of a group by. -/
def CheckConfig.latestKey (r : Record) : SortKey :=
  if config.uniqueId then config.idKey r else config.indexKey (r, r.position)

/-- The row is later than every other row of its group. -/
def Latest (r : Record) : Prop :=
  ∀ q ∈ records, q.position ≠ r.position → config.dupKey q = config.dupKey r →
    ¬keyLe (config.latestKey r) (config.latestKey q)

/-- No pass removes the row. -/
def Spared (r : Record) : Prop :=
  if config.uniqueId then ∀ q ∈ records, config.rowId q = config.rowId r →
    Latest config records q ∧ (config.nullFill = [] → ¬config.hasBlank q) ∧ ¬config.isOrphan ids q
  else Latest config records r ∧ (config.nullFill = [] → ¬config.hasBlank r) ∧
    ¬config.isOrphan ids (config.fill r)

/-- Deduplication keeps the row. -/
def Undisputed (r : Record) : Prop := config.duplicateKeys ≠ [] → Latest config records r

/-- No pass removes the row, whether or not the profile has duplicate keys. -/
def Stays (r : Record) : Prop :=
  if config.uniqueId then ∀ q ∈ records, config.rowId q = config.rowId r →
    Undisputed config records q ∧ (config.nullFill = [] → ¬config.hasBlank q) ∧
      ¬config.isOrphan ids q
  else Undisputed config records r ∧ (config.nullFill = [] → ¬config.hasBlank r) ∧
    ¬config.isOrphan ids (config.fill r)

/-- Two rows of a group cannot be sorted. -/
def Unsortable : Prop :=
  ∃ r ∈ records, ∃ q ∈ records, r.position ≠ q.position ∧ config.dupKey r = config.dupKey q ∧
    ¬KeyComparable (config.latestKey r) (config.latestKey q)

instance (r : Record) : Decidable (Healthy config ids r) := by
  rw [Healthy]
  infer_instance

instance (r : Record) : Decidable (Latest config records r) := by
  rw [Latest]
  infer_instance

instance (r : Record) : Decidable (Spared config ids records r) := by
  rw [Spared]
  infer_instance

instance (r : Record) : Decidable (Undisputed config records r) := by
  rw [Undisputed]
  infer_instance

instance (r : Record) : Decidable (Stays config ids records r) := by
  rw [Stays]
  infer_instance

instance : Decidable (Unsortable config records) := by
  rw [Unsortable]
  infer_instance

variable {config records} in
theorem undisputed_iff_latest (hkeys : config.duplicateKeys ≠ []) {r : Record} :
    Undisputed config records r ↔ Latest config records r :=
  forall_prop_of_true hkeys

variable {config ids records} in
theorem stays_iff_spared (hkeys : config.duplicateKeys ≠ []) {r : Record} :
    Stays config ids records r ↔ Spared config ids records r := by
  simp only [Stays, Spared, undisputed_iff_latest hkeys]

end Healthy

section Labelled

variable {config : CheckConfig} {records : List Record}

theorem Labelled.mem (labelled : Labelled records) {r : Record} :
    r ∈ records ↔ (r, r.position) ∈ records.zipIdx := by
  constructor
  · intro hr
    obtain ⟨i, hi⟩ := List.mem_iff_getElem?.mp hr
    have hmem := List.mk_mem_zipIdx_iff_getElem?.mpr hi
    have hposition : r.position = i := labelled _ hmem
    rwa [hposition]
  · exact List.fst_mem_of_mem_zipIdx

theorem Labelled.eq_of_mem (labelled : Labelled records) {row : Record × Nat}
    (h : row ∈ records.zipIdx) : row = (row.1, row.1.position) :=
  Prod.ext rfl (labelled row h).symm

theorem Labelled.injective (labelled : Labelled records) {r q : Record} (hr : r ∈ records)
    (hq : q ∈ records) (h : r.position = q.position) : r = q := by
  have hr' := List.mk_mem_zipIdx_iff_getElem?.mp (labelled.mem.mp hr)
  have hq' := List.mk_mem_zipIdx_iff_getElem?.mp (labelled.mem.mp hq)
  rw [h, hq'] at hr'
  exact (Option.some.inj hr').symm

theorem Labelled.position_ne (labelled : Labelled records) {r q : Record} (hr : r ∈ records)
    (hq : q ∈ records) : r ≠ q ↔ r.position ≠ q.position := by
  constructor
  · exact fun hne heq => hne (labelled.injective hr hq heq)
  · rintro hne rfl
    exact hne rfl

theorem Labelled.nodup (labelled : Labelled records) : records.Nodup := by
  have hpos : records.map Record.position = List.range' 0 records.length := by
    rw [← List.zipIdx_map_snd 0 records, ← List.map_congr_left labelled]
    conv_lhs => rw [← List.zipIdx_map_fst 0 records, List.map_map]
    rfl
  exact List.Nodup.of_map Record.position (hpos ▸ List.nodup_range')

end Labelled

section Present

variable {σ : Type} {config : CheckConfig}
  {source : DataSource σ config.idField config.nullFill} {s : σ}

/-- The row is still there, perhaps filled. -/
def Present (records : List Record) (r : Record) : Prop := ∃ q ∈ records, q.position = r.position

/-- Among the rows of one id somebody loses exactly if somebody is not the latest. -/
theorem exists_loser_iff (labelled : Labelled (source.loadRecords s))
    (hkeys : config.duplicateKeys ≠ []) (hunique : config.uniqueId = true) {older : List Record}
    (holder : allButLatest config.idKey ((config.duplicates (source.loadRecords s)).map
      (config.group (source.loadRecords s))) = some older) (v : Value) :
    (∃ r, config.rowId r = v ∧ r ∈ older) ↔ ∃ r ∈ source.loadRecords s, config.rowId r = v ∧
      ¬Latest config (source.loadRecords s) r := by
  have hg := isGrouping_byId (source.loadRecords s) hkeys
  have hkey : config.latestKey = config.idKey := by
    funext r
    simp [CheckConfig.latestKey, hunique]
  unfold Latest
  rw [hkey]
  constructor
  · rintro ⟨r, rfl, hr⟩
    obtain ⟨hmem, q, hq, hne, hname, hle⟩ := hg.exists_rival labelled.nodup holder hr
    exact ⟨r, hmem, rfl, fun hlatest =>
      hlatest q hq ((labelled.position_ne hq hmem).mp hne) hname hle⟩
  · rintro ⟨r, hr, rfl, hlatest⟩
    push Not at hlatest
    obtain ⟨q, hq, hne, hname, hle⟩ := hlatest
    obtain h | ⟨h, heq⟩ := hg.loses holder hr hq ((labelled.position_ne hq hr).mpr hne) hname hle
    · exact ⟨r, rfl, h⟩
    · -- equally late rows share their id, so both of them go
      exact ⟨q, congrArg Prod.snd heq, h⟩

/-- The ids of the losers of a fix by id are those of the disputed rows. -/
theorem exists_disputed_iff (labelled : Labelled (source.loadRecords s))
    (hunique : config.uniqueId = true) {older : List Record}
    (holder : allButLatest config.idKey ((config.duplicates (source.loadRecords s)).map
      (config.group (source.loadRecords s))) = some older) (v : Value) :
    (∃ r, config.rowId r = v ∧ r ∈ older) ↔ ∃ r ∈ source.loadRecords s, config.rowId r = v ∧
      ¬Undisputed config (source.loadRecords s) r := by
  by_cases hkeys : config.duplicateKeys = []
  · rw [duplicates_of_no_keys hkeys] at holder
    cases holder
    refine iff_of_false (fun ⟨_, _, hr⟩ => by cases hr) fun ⟨_, _, _, hr⟩ => ?_
    exact hr fun hne => absurd hkeys hne
  · simp only [undisputed_iff_latest hkeys]
    exact exists_loser_iff labelled hkeys hunique holder v

theorem notMem_deleteIds_iff (labelled : Labelled (source.loadRecords s))
    (hunique : config.uniqueId = true) {fixes : Fixes}
    (h : config.fixById (source.loadRecords s) (runCheck config source s) = some fixes)
    {r : Record} : config.rowId r ∉ fixes.deleteIds ↔
      Stays config (userIds config source s) (source.loadRecords s) r := by
  obtain ⟨older, holder, hdelete, -⟩ := loadRecords_byId h
  have hlosers := exists_disputed_iff labelled hunique holder (config.rowId r)
  rw [hdelete, Stays, if_pos hunique]
  constructor
  · intro hkept q hq hid
    refine ⟨?_, fun hfill hblank => ?_, fun hids => ?_⟩
    · by_contra hdisputed
      obtain ⟨x, hx, hxs⟩ := hlosers.mpr ⟨q, hq, hid, hdisputed⟩
      exact hkept ⟨x, hx, .inl hxs⟩
    · exact hkept ⟨q, hid, .inr ⟨hq, .inr ⟨hfill, hblank⟩⟩⟩
    · exact hkept ⟨q, hid, .inr ⟨hq, .inl hids⟩⟩
  · rintro hstays ⟨q, hid, hq | ⟨hq, hids | ⟨hfill, hblank⟩⟩⟩
    · obtain ⟨x, hx, hxid, hdisputed⟩ := hlosers.mp ⟨q, hid, hq⟩
      exact hdisputed (hstays x hx hxid).1
    · exact (hstays q hq hid).2.2 hids
    · exact (hstays q hq hid).2.1 hfill hblank

theorem present_byId_iff (labelled : Labelled (source.loadRecords s))
    (hkeys : config.duplicateKeys ≠ []) (hunique : config.uniqueId = true) {fixes : Fixes}
    (h : config.fixById (source.loadRecords s) (runCheck config source s) = some fixes)
    {r : Record} (hr : r ∈ source.loadRecords s) :
    Present (source.loadRecords (afterFix config source s)) r ↔
      Spared config (userIds config source s) (source.loadRecords s) r := by
  have hload : ∀ r', r' ∈ source.loadRecords (afterFix config source s) ↔ _ :=
    fun _ => (loadRecords_afterFix_byId hunique h).mem_iff
  rw [← stays_iff_spared hkeys, ← notMem_deleteIds_iff labelled hunique h, Present]
  simp only [hload, List.mem_map, List.mem_filter, decide_eq_true_eq]
  constructor
  · rintro ⟨_, ⟨q, ⟨hq, hkept⟩, rfl⟩, hposition⟩
    have heq : q.position = r.position := by
      rw [← hposition]
      split <;> rfl
    rwa [labelled.injective hq hr heq] at hkept
  · intro hkept
    refine ⟨_, ⟨r, ⟨hr, hkept⟩, rfl⟩, ?_⟩
    split <;> rfl

/-- In a rebuild the losers are the rows that are not the latest. -/
theorem mem_losers_iff {records : List Record} (labelled : Labelled records)
    (hkeys : config.duplicateKeys ≠ []) (hunique : config.uniqueId = false)
    {older : List (Record × Nat)}
    (holder : allButLatest config.indexKey ((config.duplicates records).map fun key =>
      records.zipIdx.filter fun row => config.dupKey row.1 = key) = some older)
    {r : Record} (hr : r ∈ records) :
    r.position ∈ older.map Prod.snd ↔ ¬Latest config records r := by
  have hg := isGrouping_byRebuild records hkeys
  have hkey : ∀ q, config.latestKey q = config.indexKey (q, q.position) := by
    intro q
    simp [CheckConfig.latestKey, hunique]
  have hrow := labelled.mem.mp hr
  rw [Latest]
  simp only [hkey]
  constructor
  · intro hloses
    obtain ⟨row, hmem, hposition⟩ := List.mem_map.mp hloses
    obtain ⟨hrow', rival, hrival, hne, hname, hle⟩ :=
      hg.exists_rival (nodup_zipIdx records) holder hmem
    rw [labelled.eq_of_mem hrow'] at hposition hne hname hle
    rw [labelled.eq_of_mem hrival] at hne hname hle
    have hmem' := List.fst_mem_of_mem_zipIdx hrow'
    have heq : row.1 = r := labelled.injective hmem' hr hposition
    rw [heq] at hne hname hle
    refine fun hlatest => hlatest rival.1 (List.fst_mem_of_mem_zipIdx hrival) ?_ hname hle
    exact fun hpos => hne (by rw [labelled.injective (List.fst_mem_of_mem_zipIdx hrival) hr hpos])
  · intro hlatest
    push Not at hlatest
    obtain ⟨q, hq, hne, hname, hle⟩ := hlatest
    have hne' : (q, q.position) ≠ (r, r.position) := fun heq => hne (congrArg Prod.snd heq)
    obtain h | ⟨-, heq⟩ := hg.loses holder hrow (labelled.mem.mp hq) hne' hname hle
    · exact List.mem_map_of_mem h
    · -- no two rows have the same index
      have hposition := congrArg Prod.snd heq
      simp only [CheckConfig.indexKey, Value.num.injEq, Nat.cast_inj] at hposition
      exact absurd hposition hne

theorem notMem_losers_iff {records : List Record} (labelled : Labelled records)
    (hunique : config.uniqueId = false) {older : List (Record × Nat)}
    (holder : allButLatest config.indexKey ((config.duplicates records).map fun key =>
      records.zipIdx.filter fun row => config.dupKey row.1 = key) = some older)
    {r : Record} (hr : r ∈ records) :
    r.position ∉ older.map Prod.snd ↔ Undisputed config records r := by
  by_cases hkeys : config.duplicateKeys = []
  · rw [duplicates_of_no_keys hkeys] at holder
    cases holder
    exact iff_of_true List.not_mem_nil fun hne => absurd hkeys hne
  · rw [undisputed_iff_latest hkeys, mem_losers_iff labelled hkeys hunique holder hr, not_not]

/-- A rebuild leaves the rows that stay, filled. -/
theorem mem_afterFix_byRebuild_iff (labelled : Labelled (source.loadRecords s))
    (hunique : config.uniqueId = false) {kept : List Record} {report : FixReport}
    (h : config.fixByRebuild (userIds config source s) (source.loadRecords s) =
      some (kept, report)) {r' : Record} :
    r' ∈ source.loadRecords (afterFix config source s) ↔ ∃ r ∈ source.loadRecords s,
      Stays config (userIds config source s) (source.loadRecords s) r ∧
        refill config source s r = r' := by
  obtain ⟨older, holder, hload⟩ := loadRecords_afterFix_byRebuild hunique h
  rw [hload.mem_iff]
  simp only [List.mem_map, List.mem_filter, decide_eq_true_eq]
  have hstays : ∀ r ∈ source.loadRecords s,
      Stays config (userIds config source s) (source.loadRecords s) r ↔
        r.position ∉ older.map Prod.snd ∧ (config.nullFill = [] → ¬config.hasBlank r) ∧
          ¬config.isOrphan (userIds config source s) (config.fill r) := by
    intro r hr
    rw [Stays, if_neg (by simp [hunique]), notMem_losers_iff labelled hunique holder hr]
  constructor
  · rintro ⟨row, ⟨hrow, hkept⟩, rfl⟩
    have hmem := List.fst_mem_of_mem_zipIdx hrow
    rw [labelled.eq_of_mem hrow] at hkept
    exact ⟨row.1, hmem, (hstays _ hmem).mpr (by simpa using hkept), rfl⟩
  · rintro ⟨r, hr, hkept, rfl⟩
    exact ⟨(r, r.position), ⟨labelled.mem.mp hr, by simpa using (hstays r hr).mp hkept⟩, rfl⟩

theorem present_byRebuild_iff (labelled : Labelled (source.loadRecords s))
    (hkeys : config.duplicateKeys ≠ []) (hunique : config.uniqueId = false) {kept : List Record}
    {report : FixReport} (h : config.fixByRebuild (userIds config source s)
      (source.loadRecords s) = some (kept, report))
    {r : Record} (hr : r ∈ source.loadRecords s) :
    Present (source.loadRecords (afterFix config source s)) r ↔
      Spared config (userIds config source s) (source.loadRecords s) r := by
  have hload := @mem_afterFix_byRebuild_iff _ _ _ _ labelled hunique _ _ h
  rw [← stays_iff_spared hkeys, Present]
  constructor
  · rintro ⟨r', hr', hposition⟩
    obtain ⟨q, hq, hstays, rfl⟩ := hload.mp hr'
    rw [refill_position] at hposition
    rwa [labelled.injective hq hr hposition] at hstays
  · intro hstays
    exact ⟨refill config source s r, hload.mpr ⟨r, hr, hstays, rfl⟩, refill_position⟩

theorem fixById_isSome_iff (labelled : Labelled (source.loadRecords s))
    (hkeys : config.duplicateKeys ≠ []) (hunique : config.uniqueId = true) :
    (config.fixById (source.loadRecords s) (runCheck config source s)).isSome ↔
      ¬Unsortable config (source.loadRecords s) := by
  rw [fixById_isSome]
  refine ((isGrouping_byId _ hkeys).isSome_iff labelled.nodup).trans ?_
  unfold Unsortable CheckConfig.latestKey
  simp only [hunique, if_true]
  push Not
  refine forall₂_congr fun r hr => forall₂_congr fun q hq => ?_
  rw [labelled.position_ne hr hq]

theorem fixByRebuild_isSome_iff {records : List Record} {ids : Option (List Value)}
    (labelled : Labelled records) (hkeys : config.duplicateKeys ≠ [])
    (hunique : config.uniqueId = false) :
    (config.fixByRebuild ids records).isSome ↔ ¬Unsortable config records := by
  rw [fixByRebuild_isSome]
  refine ((isGrouping_byRebuild _ hkeys).isSome_iff (nodup_zipIdx records)).trans ?_
  unfold Unsortable CheckConfig.latestKey
  simp only [hunique, Bool.false_eq_true, if_false]
  push Not
  constructor
  · intro h r hr q hq hne hname
    exact h _ (labelled.mem.mp hr) _ (labelled.mem.mp hq) (fun heq => hne (congrArg Prod.snd heq))
      hname
  · intro h row hrow row' hrow' hne hname
    rw [labelled.eq_of_mem hrow, labelled.eq_of_mem hrow'] at hne hname ⊢
    refine h _ (List.fst_mem_of_mem_zipIdx hrow) _ (List.fst_mem_of_mem_zipIdx hrow') ?_ hname
    intro hposition
    exact hne (by rw [labelled.injective (List.fst_mem_of_mem_zipIdx hrow)
      (List.fst_mem_of_mem_zipIdx hrow') hposition])

/-- With duplicate keys a fix runs exactly if all its groups can be sorted. -/
theorem fixRuns_iff_sortable (labelled : Labelled (source.loadRecords s))
    (hkeys : config.duplicateKeys ≠ []) :
    fixRuns config source s ↔ ¬Unsortable config (source.loadRecords s) := by
  cases hunique : config.uniqueId with
  | true =>
      rw [fixRuns_byId hunique]
      exact fixById_isSome_iff labelled hkeys hunique
  | false =>
      rw [fixRuns_byRebuild hunique]
      exact fixByRebuild_isSome_iff labelled hkeys hunique

/-- A row is still there after a fix if the fix has raised or no pass removes it. -/
theorem present_iff (labelled : Labelled (source.loadRecords s))
    (hkeys : config.duplicateKeys ≠ []) {r : Record} (hr : r ∈ source.loadRecords s) :
    Present (source.loadRecords (afterFix config source s)) r ↔
      Unsortable config (source.loadRecords s) ∨
        Spared config (userIds config source s) (source.loadRecords s) r := by
  have hruns := fixRuns_iff_sortable labelled hkeys
  by_cases hsort : Unsortable config (source.loadRecords s)
  · have hafter : afterFix config source s = s :=
      afterFix_of_raise (Bool.eq_false_of_not_eq_true fun h => hruns.mp h hsort)
    rw [hafter]
    exact iff_of_true ⟨r, hr, rfl⟩ (.inl hsort)
  · rw [or_iff_right hsort]
    have runs := hruns.mpr hsort
    cases hunique : config.uniqueId with
    | true =>
        rw [fixRuns_byId hunique] at runs
        obtain ⟨fixes, hfixes⟩ := Option.isSome_iff_exists.mp runs
        exact present_byId_iff labelled hkeys hunique hfixes hr
    | false =>
        rw [fixRuns_byRebuild hunique] at runs
        obtain ⟨⟨kept, report⟩, hkept⟩ := Option.isSome_iff_exists.mp runs
        exact present_byRebuild_iff labelled hkeys hunique hkept hr

variable (config source s) in
/-- Each group with a healthy row keeps one of its rows. -/
def KeepsHealthy : Prop :=
  ∀ r ∈ source.loadRecords s, Healthy config (userIds config source s) r →
    ∃ r' ∈ source.loadRecords s, config.dupKey r' = config.dupKey r ∧
      Present (source.loadRecords (afterFix config source s)) r'

/-- A fix keeps an entity that has a healthy record exactly if it raises or some row of the
entity gets through all passes: its latest row, if that one is no orphan and can be filled. -/
theorem keepsHealthy_iff (labelled : Labelled (source.loadRecords s))
    (hkeys : config.duplicateKeys ≠ []) :
    KeepsHealthy config source s ↔ Unsortable config (source.loadRecords s) ∨
      ∀ r ∈ source.loadRecords s, Healthy config (userIds config source s) r →
        ∃ r' ∈ source.loadRecords s, config.dupKey r' = config.dupKey r ∧
          Spared config (userIds config source s) (source.loadRecords s) r' := by
  rw [KeepsHealthy]
  by_cases hsort : Unsortable config (source.loadRecords s)
  · refine iff_of_true (fun r hr _ => ⟨r, hr, rfl, ?_⟩) (.inl hsort)
    exact (present_iff labelled hkeys hr).mpr (.inl hsort)
  · rw [or_iff_right hsort]
    refine forall₂_congr fun r _ => forall_congr' fun _ => exists_congr fun r' => ?_
    refine and_congr_right fun hr' => and_congr_right fun _ => ?_
    rw [present_iff labelled hkeys hr', or_iff_right hsort]

end Present

section Contacts

/-- A row of a contacts dump. -/
def contact (position : Nat) (telegramId phoneNumber : String) : Record where
  position := position
  fields := fun field =>
    [("telegram_id", .str telegramId), ("phone_number", .str phoneNumber)].lookup field

theorem newest_contact_kept : KeepsHealthy CONTACTS (memorySource none CONTACTS)
    [contact 0 "1" "79001112233", contact 1 "1" "79004445566", contact 2 "2" ""] :=
  (keepsHealthy_iff (by unfold Labelled; decide) (by decide)).mpr (.inr (by decide +kernel))

/-- The newest of two rows has no phone number: deduplication removes the other one. -/
theorem contact_erased : ¬KeepsHealthy CONTACTS (memorySource none CONTACTS)
    [contact 0 "1" "79001112233", contact 1 "1" ""] := by
  have hempty : ((memorySource none CONTACTS).loadRecords (afterFix CONTACTS
      (memorySource none CONTACTS) [contact 0 "1" "79001112233", contact 1 "1" ""])).length
      = 0 := by
    decide +kernel
  intro h
  obtain ⟨r, -, -, q, hq, -⟩ := h (contact 0 "1" "79001112233") List.mem_cons_self
    (by decide +kernel)
  rw [List.length_eq_zero_iff] at hempty
  rw [hempty] at hq
  cases hq

end Contacts

end UserTgBot.Maintenance
