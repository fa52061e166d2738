import UserTgBot.Maintenance.Fix

/-!
# One pass is enough

A fix that runs leaves clean rows, and a fix of clean rows does nothing. What can keep it from
running is the sort of a group of duplicates: `or ""`, there for missing sort values, also turns
the number zero into a string, which does not compare with other numbers.
-/

namespace UserTgBot.Maintenance

open PyValue

/-- What is filled in makes no row blank, and leaves identity and references alone. -/
structure CheckConfig.FillSound (config : CheckConfig) : Prop where
  full : config.nullFill = [] ∨
    ∀ f ∈ config.requiredFields, ∃ v, config.nullFill.lookup f = some v ∧ ¬isBlank v
  keeps : ∀ f ∈ config.nullFill.map Prod.fst,
    f ≠ config.idField ∧ f ∉ config.duplicateKeys ∧ config.orphanField ≠ some f

/-- What an update of the source sets by itself leaves identity and references alone, too. -/
def StampsApart {σ : Type} (config : CheckConfig)
    (source : DataSource σ config.idField config.nullFill) (s : σ) : Prop :=
  config.uniqueId = true → ∀ f ∈ (source.stamps s).map Prod.fst,
    f ≠ config.idField ∧ f ∉ config.duplicateKeys ∧ config.orphanField ≠ some f

/-- The value a row is sorted by; a missing one counts as the empty string. -/
def CheckConfig.sortValue (config : CheckConfig) (r : Record) : Value :=
  (r.get config.sortField).noneAsEmpty

def SortValuesCompare (config : CheckConfig) (records : List Record) : Prop :=
  ∀ r ∈ records, ∀ q ∈ records, (config.sortValue r).Comparable (config.sortValue q)

/-- Ids are distinct and comparable where the profile calls them unique. -/
def IdsUnique (config : CheckConfig) (records : List Record) : Prop :=
  config.uniqueId = true → (records.map config.rowId).Nodup ∧
    records.Pairwise fun r q => (config.rowId r).Comparable (config.rowId q)

/-- What rows look like after a fix: some of the original ones, filled, and at most one of each
group. -/
structure Repaired {σ : Type} (config : CheckConfig)
    (source : DataSource σ config.idField config.nullFill) (s : σ) (repaired : List Record) :
    Prop where
  survivors : ∃ kept : List Record, kept.Sublist (source.loadRecords s) ∧
    Arranged source.ordered repaired (kept.map (refill config source s)) ∧
      (config.duplicateKeys ≠ [] → (kept.map config.dupKey).Nodup)
  full : ∀ r ∈ repaired, ¬config.hasBlank r
  referenced : ∀ r ∈ repaired, ¬config.isOrphan (userIds config source s) r

section Fill

variable {σ : Type} {config : CheckConfig}
  {source : DataSource σ config.idField config.nullFill} {s : σ}

theorem isOrphan_update {values : List (String × Value)}
    (keeps : ∀ f ∈ values.map Prod.fst, config.orphanField ≠ some f)
    (ids : Option (List Value)) (r : Record) :
    config.isOrphan ids (r.update values) = config.isOrphan ids r := by
  unfold CheckConfig.isOrphan
  cases hfield : config.orphanField with
  | none => rfl
  | some field =>
      have hget : (r.update values).get field = r.get field :=
        Record.get_update_of_ne fun hmem => keeps field hmem hfield
      cases ids <;> simp only [hget]

theorem isOrphan_fill (keeps : ∀ f ∈ config.nullFill.map Prod.fst, config.orphanField ≠ some f)
    (ids : Option (List Value)) (r : Record) :
    config.isOrphan ids (config.fill r) = config.isOrphan ids r := by
  rw [CheckConfig.fill]
  split
  · exact isOrphan_update keeps ids r
  · rfl

theorem filling_fields (source : DataSource σ config.idField config.nullFill) :
    source.filling.map Prod.fst = config.nullFill.map Prod.fst := by
  have h := congrArg (List.map Prod.fst) source.filling_blank
  rw [List.map_map, List.map_map] at h
  exact h

/-- What is written is what is filled in, or set by the source. -/
theorem mem_written {f : String} (h : f ∈ (written config source s).map Prod.fst) :
    f ∈ config.nullFill.map Prod.fst ∨
      config.uniqueId = true ∧ f ∈ (source.stamps s).map Prod.fst := by
  rw [written] at h
  split at h
  · rename_i hunique
    rw [List.map_append, List.mem_append, filling_fields] at h
    exact h.imp id fun hstamps => ⟨hunique, hstamps⟩
  · rw [filling_fields] at h
    exact .inl h

theorem written_keeps (sound : config.FillSound) (apart : StampsApart config source s)
    {f : String} (h : f ∈ (written config source s).map Prod.fst) :
    f ≠ config.idField ∧ f ∉ config.duplicateKeys ∧ config.orphanField ≠ some f := by
  obtain h | ⟨hunique, h⟩ := mem_written h
  · exact sound.keeps f h
  · exact apart hunique f h

/-- A field that is filled in with a value is found with one. -/
theorem lookup_written {f : String} {v : Value} (h : config.nullFill.lookup f = some v)
    (hv : ¬isBlank v) : ∃ v', (written config source s).lookup f = some v' ∧ ¬isBlank v' := by
  have hblank : (source.filling.lookup f).map isBlank = some (isBlank v) := by
    rw [← lookup_map_values (fun _ => isBlank), source.filling_blank,
      lookup_map_values (fun _ => isBlank), h]
    rfl
  obtain ⟨v', hv', heq⟩ := Option.map_eq_some_iff.mp hblank
  refine ⟨v', ?_, heq ▸ hv⟩
  rw [written]
  split
  · rw [List.lookup_append, hv']
    rfl
  · exact hv'

theorem dupKey_refill (sound : config.FillSound) (apart : StampsApart config source s)
    (r : Record) : config.dupKey (refill config source s r) = config.dupKey r := by
  rw [refill]
  split
  · refine List.map_congr_left fun f hf => Record.get_update_of_ne fun hmem => ?_
    exact (written_keeps sound apart hmem).2.1 hf
  · rfl

theorem isOrphan_refill (sound : config.FillSound) (apart : StampsApart config source s)
    (ids : Option (List Value)) (r : Record) :
    config.isOrphan ids (refill config source s r) = config.isOrphan ids r := by
  rw [refill]
  split
  · exact isOrphan_update (fun f hf => (written_keeps sound apart hf).2.2) ids r
  · rfl

/-- A filled row is not blank, if there was something to fill in. -/
theorem hasBlank_refill (sound : config.FillSound) {r : Record}
    (h : config.nullFill = [] → ¬config.hasBlank r) :
    ¬config.hasBlank (refill config source s r) := by
  rw [refill]
  split
  · rename_i hblank
    have hne : config.nullFill ≠ [] := fun hempty => h hempty hblank
    have hfull := sound.full.resolve_left hne
    simp only [CheckConfig.hasBlank, List.any_eq_true, not_exists, not_and]
    intro f hf
    obtain ⟨v, hlookup, hv⟩ := hfull f hf
    obtain ⟨v', hlookup', hv'⟩ := lookup_written hlookup hv
    rwa [Record.get_update_of_lookup hlookup']
  · assumption

/-- Rows with different keys are no duplicates. -/
theorem duplicates_eq_nil {records : List Record}
    (h : config.duplicateKeys ≠ [] → (records.map config.dupKey).Nodup) :
    config.duplicates records = [] := by
  refine List.eq_nil_iff_forall_not_mem.mpr fun key hkey => ?_
  have hlength := mem_duplicates.mp hkey
  by_cases hkeys : config.duplicateKeys = []
  · simp [CheckConfig.group, hkeys] at hlength
  · have hcount := List.nodup_iff_count_le_one.mp (h hkeys) key
    rw [List.count, List.countP_map, List.countP_eq_length_filter] at hcount
    rw [group_eq hkeys] at hlength
    have hsame : (records.filter fun r => config.dupKey r = key).length =
        (records.filter ((· == key) ∘ config.dupKey)).length := by
      congr 1
      exact List.filter_congr fun r _ => (beq_eq_decide _ _).symm
    omega

end Fill

section Repaired

variable {σ : Type} {config : CheckConfig}
  {source : DataSource σ config.idField config.nullFill} {s : σ}

theorem Repaired.clean (sound : config.FillSound) (apart : StampsApart config source s)
    (h : Repaired config source s (source.loadRecords (afterFix config source s))) :
    (runCheck config source (afterFix config source s)).Clean := by
  refine clean_runCheck_iff.mpr ⟨h.full, ?_, duplicates_eq_nil fun hkeys => ?_⟩
  · rw [userIds_afterFix]
    exact h.referenced
  · obtain ⟨kept, -, harranged, hdistinct⟩ := h.survivors
    rw [(harranged.1.map config.dupKey).nodup_iff, List.map_map]
    have hsame : config.dupKey ∘ refill config source s = config.dupKey :=
      funext (dupKey_refill sound apart)
    rw [hsame]
    exact hdistinct hkeys

/-- Of the rows that are not dropped, no two have the same key. -/
theorem nodup_kept {α : Type} {key : α → SortKey} {name : α → List Value} {l : List α}
    {groups : List (List α)} {older : List α} {p : α → Bool} (hg : IsGrouping name l groups)
    (distinct : l.Nodup) (holder : allButLatest key groups = some older)
    (hp : ∀ x ∈ l, p x → x ∉ older) : ((l.filter p).map name).Nodup := by
  refine List.Nodup.map_on (fun x hx y hy hname => ?_) (distinct.filter p)
  obtain ⟨hxl, hxp⟩ := List.mem_filter.mp hx
  obtain ⟨hyl, hyp⟩ := List.mem_filter.mp hy
  by_contra hne
  obtain h | h := hg.one_loses holder hxl hyl (Ne.symm hne) hname.symm
  · exact hp x hxl hxp h
  · exact hp y hyl hyp h

/-- Where ids are distinct, a row whose id is listed is the listed row. -/
theorem patched_eq (distinct : ((source.loadRecords s).map config.rowId).Nodup) {r : Record}
    (hr : r ∈ source.loadRecords s) {values : List (String × Value)} :
    (if config.rowId r ∈ (runCheck config source s).nullViolations then r.update values else r) =
      if config.hasBlank r then r.update values else r := by
  have hnull : config.rowId r ∈ (runCheck config source s).nullViolations ↔
      config.hasBlank r := by
    simp only [runCheck, List.mem_map, List.mem_filter]
    constructor
    · rintro ⟨q, ⟨hq, hblank⟩, hid⟩
      rwa [List.inj_on_of_nodup_map distinct hq hr hid] at hblank
    · exact fun hblank => ⟨r, ⟨hr, hblank⟩, rfl⟩
  simp only [hnull]

theorem repaired_byId (sound : config.FillSound) (apart : StampsApart config source s)
    (hunique : config.uniqueId = true)
    (distinct : ((source.loadRecords s).map config.rowId).Nodup) {fixes : Fixes}
    (h : config.fixById (source.loadRecords s) (runCheck config source s) = some fixes) :
    Repaired config source s (source.loadRecords (afterFix config source s)) := by
  obtain ⟨older, holder, hdelete, -⟩ := loadRecords_byId h
  have hload : Arranged source.ordered (source.loadRecords (afterFix config source s))
      (((source.loadRecords s).filter fun r => config.rowId r ∉ fixes.deleteIds).map
        (refill config source s)) := by
    refine (loadRecords_afterFix_byId hunique h).trans (.of_eq ?_)
    exact List.map_congr_left fun r hr => patched_eq distinct (List.mem_of_mem_filter hr)
  have hkept : ∀ r ∈ source.loadRecords s, config.rowId r ∉ fixes.deleteIds → r ∉ older ∧
      (config.nullFill = [] → ¬config.hasBlank r) ∧
        ¬config.isOrphan (userIds config source s) r := by
    intro r hr hkept
    rw [hdelete] at hkept
    refine ⟨fun hmem => hkept ⟨r, rfl, .inl hmem⟩, fun hfill hblank => ?_, fun hids => ?_⟩
    · exact hkept ⟨r, rfl, .inr ⟨hr, .inr ⟨hfill, hblank⟩⟩⟩
    · exact hkept ⟨r, rfl, .inr ⟨hr, .inl hids⟩⟩
  refine ⟨⟨_, List.filter_sublist, hload, fun hkeys => ?_⟩, ?_, ?_⟩
  · exact nodup_kept (isGrouping_byId _ hkeys) distinct.of_map holder fun r hr hp =>
      (hkept r hr (of_decide_eq_true hp)).1
  · intro _ hmem
    obtain ⟨r, hkeep, rfl⟩ := List.mem_map.mp (hload.mem_iff.mp hmem)
    obtain ⟨hr, hp⟩ := List.mem_filter.mp hkeep
    exact hasBlank_refill sound (hkept r hr (of_decide_eq_true hp)).2.1
  · intro _ hmem
    obtain ⟨r, hkeep, rfl⟩ := List.mem_map.mp (hload.mem_iff.mp hmem)
    obtain ⟨hr, hp⟩ := List.mem_filter.mp hkeep
    rw [isOrphan_refill sound apart]
    exact (hkept r hr (of_decide_eq_true hp)).2.2

theorem repaired_byRebuild (sound : config.FillSound) (apart : StampsApart config source s)
    (hunique : config.uniqueId = false) {kept : List Record} {report : FixReport}
    (h : config.fixByRebuild (userIds config source s) (source.loadRecords s) =
      some (kept, report)) :
    Repaired config source s (source.loadRecords (afterFix config source s)) := by
  obtain ⟨older, holder, hload⟩ := loadRecords_afterFix_byRebuild hunique h
  have hmap : ∀ rows : List (Record × Nat),
      rows.map (fun row => refill config source s row.1) =
        (rows.map Prod.fst).map (refill config source s) := by
    intro rows
    rw [List.map_map]
    rfl
  refine ⟨⟨_, ?_, hload.trans (.of_eq (hmap _)), fun hkeys => ?_⟩, ?_, ?_⟩
  · refine (List.filter_sublist.map Prod.fst).trans ?_
    rw [List.zipIdx_map_fst]
  · rw [List.map_map]
    refine nodup_kept (isGrouping_byRebuild _ hkeys) (nodup_zipIdx _) holder ?_
    exact fun row _ hp hmem => (of_decide_eq_true hp).1 (List.mem_map_of_mem hmem)
  · intro _ hr
    obtain ⟨row, hrow, rfl⟩ := List.mem_map.mp (hload.mem_iff.mp hr)
    exact hasBlank_refill sound (of_decide_eq_true (List.mem_filter.mp hrow).2).2.1
  · intro _ hr
    obtain ⟨row, hrow, rfl⟩ := List.mem_map.mp (hload.mem_iff.mp hr)
    have hids := (of_decide_eq_true (List.mem_filter.mp hrow).2).2.2
    rw [isOrphan_fill fun f hf => (sound.keeps f hf).2.2] at hids
    rwa [isOrphan_refill sound apart]

/-- A fix that runs repairs. -/
theorem repaired_of_runs (sound : config.FillSound) (apart : StampsApart config source s)
    (unique : IdsUnique config (source.loadRecords s))
    (runs : fixRuns config source s) :
    Repaired config source s (source.loadRecords (afterFix config source s)) := by
  cases hunique : config.uniqueId with
  | true =>
      rw [fixRuns_byId hunique] at runs
      obtain ⟨fixes, hfixes⟩ := Option.isSome_iff_exists.mp runs
      exact repaired_byId sound apart hunique (unique hunique).1 hfixes
  | false =>
      rw [fixRuns_byRebuild hunique] at runs
      obtain ⟨⟨kept, report⟩, hkept⟩ := Option.isSome_iff_exists.mp runs
      exact repaired_byRebuild sound apart hunique hkept

end Repaired

section Sorts

variable {σ : Type} {config : CheckConfig}
  {source : DataSource σ config.idField config.nullFill} {s : σ} {records : List Record}

/-- No group of duplicates has a row with the sort value zero and one with another. -/
def ZeroUnmixed (config : CheckConfig) (records : List Record) : Prop :=
  config.duplicateKeys ≠ [] → ∀ r ∈ records, ∀ q ∈ records, config.dupKey r = config.dupKey q →
    (config.sortValue r = .num 0 ↔ config.sortValue q = .num 0)

/-- With comparable sort values and second components the keys compare unless one sort value is
the number zero and the other one is not. -/
theorem keyComparable_iff {r q : Record} (compare : (config.sortValue r).Comparable
    (config.sortValue q)) {v w : Value} (hvw : v.Comparable w) :
    KeyComparable ((r.get config.sortField).orEmpty, v) ((q.get config.sortField).orEmpty, w) ↔
      (config.sortValue r = .num 0 ↔ config.sortValue q = .num 0) := by
  have horEmpty := Value.orEmpty_comparable_iff compare
  simp only [CheckConfig.sortValue, Value.orEmpty_noneAsEmpty] at horEmpty
  rw [CheckConfig.sortValue, CheckConfig.sortValue, ← horEmpty]
  rw [KeyComparable]
  dsimp only
  split
  · rename_i heq
    exact iff_of_true (.inr hvw) (.inl heq)
  · rename_i hne
    exact (or_iff_right hne).symm

theorem fixById_runs_iff (hunique : config.uniqueId = true)
    (compare : SortValuesCompare config (source.loadRecords s))
    (unique : IdsUnique config (source.loadRecords s)) :
    (config.fixById (source.loadRecords s) (runCheck config source s)).isSome ↔
      ZeroUnmixed config (source.loadRecords s) := by
  rw [ZeroUnmixed]
  by_cases hkeys : config.duplicateKeys = []
  · exact iff_of_true (fixById_runs_of_no_keys hkeys rfl) fun h => absurd hkeys h
  · rw [fixById_isSome]
    obtain ⟨distinct, hids⟩ := unique hunique
    have symm : Std.Symm fun r q : Record => (config.rowId r).Comparable (config.rowId q) :=
      ⟨fun _ _ h => h.symm⟩
    refine ((isGrouping_byId _ hkeys).isSome_iff distinct.of_map).trans ?_
    have hpair : ∀ r ∈ source.loadRecords s, ∀ q ∈ source.loadRecords s, r ≠ q →
        (KeyComparable (config.idKey r) (config.idKey q) ↔
          (config.sortValue r = .num 0 ↔ config.sortValue q = .num 0)) :=
      fun r hr q hq hne => keyComparable_iff (compare r hr q hq) (hids.forall hr hq hne)
    constructor
    · intro h _ r hr q hq hname
      by_cases heq : r = q
      · rw [heq]
      · exact (hpair r hr q hq heq).mp (h r hr q hq heq hname)
    · exact fun h r hr q hq hne hname => (hpair r hr q hq hne).mpr (h hkeys r hr q hq hname)

theorem fixByRebuild_runs_iff (compare : SortValuesCompare config records)
    {ids : Option (List Value)} :
    (config.fixByRebuild ids records).isSome ↔ ZeroUnmixed config records := by
  rw [ZeroUnmixed]
  by_cases hkeys : config.duplicateKeys = []
  · exact iff_of_true (fixByRebuild_runs_of_no_keys hkeys) fun h => absurd hkeys h
  · rw [fixByRebuild_isSome]
    refine ((isGrouping_byRebuild _ hkeys).isSome_iff (nodup_zipIdx records)).trans ?_
    have hpair : ∀ row ∈ records.zipIdx, ∀ row' ∈ records.zipIdx,
        (KeyComparable (config.indexKey row) (config.indexKey row') ↔
          (config.sortValue row.1 = .num 0 ↔ config.sortValue row'.1 = .num 0)) :=
      fun row hrow row' hrow' => keyComparable_iff (compare _ (List.fst_mem_of_mem_zipIdx hrow) _
        (List.fst_mem_of_mem_zipIdx hrow')) trivial
    constructor
    · intro h _ r hr q hq hname
      obtain ⟨i, hi⟩ := List.mem_iff_getElem?.mp hr
      obtain ⟨j, hj⟩ := List.mem_iff_getElem?.mp hq
      have hrow := List.mk_mem_zipIdx_iff_getElem?.mpr hi
      have hrow' := List.mk_mem_zipIdx_iff_getElem?.mpr hj
      by_cases heq : r = q
      · rw [heq]
      · have hne : (r, i) ≠ (q, j) := fun h => heq (congrArg Prod.fst h)
        exact (hpair _ hrow _ hrow').mp (h _ hrow _ hrow' hne hname)
    · exact fun h row hrow row' hrow' _ hname => (hpair row hrow row' hrow').mpr
        (h hkeys _ (List.fst_mem_of_mem_zipIdx hrow) _ (List.fst_mem_of_mem_zipIdx hrow') hname)

/-- Rows of one key are duplicates. -/
theorem duplicates_ne_nil (hkeys : config.duplicateKeys ≠ []) {r q : Record} (hr : r ∈ records)
    (hq : q ∈ records) (hne : q ≠ r) (hname : config.dupKey q = config.dupKey r) :
    config.duplicates records ≠ [] := by
  obtain ⟨rows, hrows, -⟩ := (isGrouping_byId _ hkeys).exists_group hr hq hne hname
  intro hnone
  rw [hnone] at hrows
  cases hrows

/-- After a check and a fix a second check finds nothing to repair, and a second fix repairs
nothing; what is left are some of the rows, filled, at most one of each group. -/
structure Converges (config : CheckConfig)
    (source : DataSource σ config.idField config.nullFill) (s : σ) : Prop where
  clean : (runCheck config source (afterFix config source s)).Clean
  stable : Arranged source.ordered
    (source.loadRecords (afterFix config source (afterFix config source s)))
    (source.loadRecords (afterFix config source s))
  survivors : ∃ kept : List Record, kept.Sublist (source.loadRecords s) ∧
    Arranged source.ordered (source.loadRecords (afterFix config source s))
      (kept.map (refill config source s)) ∧
        (config.duplicateKeys ≠ [] → (kept.map config.dupKey).Nodup)

/-- A fix converges in one pass exactly if no group of duplicates mixes the sort value zero with
other sort values. -/
theorem converges_iff (sound : config.FillSound) (apart : StampsApart config source s)
    (compare : SortValuesCompare config (source.loadRecords s))
    (unique : IdsUnique config (source.loadRecords s)) :
    Converges config source s ↔ ZeroUnmixed config (source.loadRecords s) := by
  have hruns : fixRuns config source s ↔ ZeroUnmixed config (source.loadRecords s) := by
    cases hunique : config.uniqueId with
    | true =>
        rw [fixRuns_byId hunique]
        exact fixById_runs_iff hunique compare unique
    | false =>
        rw [fixRuns_byRebuild hunique]
        exact fixByRebuild_runs_iff compare
  constructor
  · intro h
    by_contra hmixed
    have hafter : afterFix config source s = s :=
      afterFix_of_raise (Bool.eq_false_of_not_eq_true (hruns.not.mpr hmixed))
    have hclean := (clean_runCheck_iff.mp (hafter ▸ h.clean)).2.2
    -- only a group with two different rows can be mixed
    rw [ZeroUnmixed] at hmixed
    push Not at hmixed
    obtain ⟨hkeys, r, hr, q, hq, hname, hzero⟩ := hmixed
    have hne : q ≠ r := by
      rintro rfl
      simp at hzero
    exact duplicates_ne_nil hkeys hr hq hne hname.symm hclean
  · intro h
    have hrepaired := repaired_of_runs sound apart unique (hruns.mpr h)
    have hclean := hrepaired.clean sound apart
    exact ⟨hclean, loadRecords_afterFix_of_clean hclean, hrepaired.survivors⟩

end Sorts

section Reputation

/-- A reputation record of user 1 in chat 10. -/
def reputation (id updatedAt : Nat) : Record where
  position := id
  fields := fun field =>
    [("id", Value.num id), ("user_id", .num 1), ("chat_id", .num 10), ("score", .num 0),
      ("positive_count", .num 0), ("negative_count", .num 0),
      ("updated_at", .num updatedAt)].lookup field

def reputationSource : DataSource (List Record) REPUTATION.idField REPUTATION.nullFill :=
  memorySource (some [.num 1]) REPUTATION

theorem reputation_fillSound : REPUTATION.FillSound where
  full := .inr (by decide)
  keeps := by decide

theorem reputation_converges :
    Converges REPUTATION reputationSource [reputation 1 1700000000, reputation 2 1750000000] := by
  have compare : SortValuesCompare REPUTATION
      [reputation 1 1700000000, reputation 2 1750000000] := by
    rw [SortValuesCompare]
    decide +kernel
  have unique : IdsUnique REPUTATION [reputation 1 1700000000, reputation 2 1750000000] := by
    rw [IdsUnique]
    decide +kernel
  have unmixed : ZeroUnmixed REPUTATION [reputation 1 1700000000, reputation 2 1750000000] := by
    rw [ZeroUnmixed]
    decide +kernel
  exact (converges_iff reputation_fillSound (fun _ => List.forall_mem_nil _) compare
    unique).mpr unmixed

/-- Two records, one of them updated at time zero: the sort raises, and the duplicates stay. -/
theorem reputation_stays_duplicated :
    SortValuesCompare REPUTATION [reputation 1 0, reputation 2 5] ∧
      IdsUnique REPUTATION [reputation 1 0, reputation 2 5] ∧ REPUTATION.FillSound ∧
        ¬Converges REPUTATION reputationSource [reputation 1 0, reputation 2 5] := by
  refine ⟨?_, ?_, reputation_fillSound, fun h => ?_⟩
  · rw [SortValuesCompare]
    decide +kernel
  · rw [IdsUnique]
    decide +kernel
  · have hduplicates : (runCheck REPUTATION reputationSource (afterFix REPUTATION reputationSource
        [reputation 1 0, reputation 2 5])).duplicates ≠ [] := by
      decide +kernel
    exact hduplicates h.clean.duplicates

end Reputation

end UserTgBot.Maintenance
