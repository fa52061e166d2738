import UserTgBot.Maintenance.Healthy
import UserTgBot.Maintenance.RowTables

/-!
# What filling overwrites

A violation is one blank field of a row, its repair is the whole dictionary `null_fill`. It is
written over every field that it names, blank or not, and by id also over all rows that share
their id with the blank one. An update by id may set more than that: on Postgres it also puts
the time of the update into `updated_at`.
-/

namespace UserTgBot.Maintenance

open PyValue

section NullFill

variable (config : CheckConfig) (ids : Option (List Value)) (records : List Record)

/-- If the row stays, it is written over. -/
def Patched (r : Record) : Prop :=
  if config.uniqueId then ∃ q ∈ records, config.rowId q = config.rowId r ∧ config.hasBlank q
  else config.hasBlank r

instance (r : Record) : Decidable (Patched config records r) := by
  rw [Patched]
  infer_instance

/-- Every field that is written was blank, or had that value before. -/
def FillsBlanks (values : List (String × Value)) (r : Record) : Prop :=
  ∀ field v, values.lookup field = some v → isBlank (r.get field) ∨ r.get field = v

theorem fillsBlanks_iff {values : List (String × Value)} {r : Record} :
    FillsBlanks values r ↔ ∀ e ∈ values,
      values.lookup e.1 = some e.2 → isBlank (r.get e.1) ∨ r.get e.1 = e.2 := by
  constructor
  · exact fun h e _ => h e.1 e.2
  · intro h field v hlookup
    obtain ⟨first, rest, heq, -⟩ := List.lookup_eq_some_iff.mp hlookup
    exact h (field, v) (heq ▸ List.mem_append_right _ List.mem_cons_self) hlookup

instance (values : List (String × Value)) (r : Record) : Decidable (FillsBlanks values r) :=
  decidable_of_iff _ fillsBlanks_iff.symm

/-- The sort of some group raises a `TypeError`. -/
def SortRaises : Prop := config.duplicateKeys ≠ [] ∧ Unsortable config records

end NullFill

section Frame

variable {σ : Type} {config : CheckConfig}
  {source : DataSource σ config.idField config.nullFill} {s : σ} {r r' : Record}

variable (config source s) in
/-- A row that stays, as it is afterwards. -/
def patch (r : Record) : Record :=
  if Patched config (source.loadRecords s) r then r.update (written config source s) else r

@[simp] theorem patch_position : (patch config source s r).position = r.position := by
  rw [patch]
  split <;> rfl

theorem fixRuns_iff (labelled : Labelled (source.loadRecords s)) :
    fixRuns config source s ↔ ¬SortRaises config (source.loadRecords s) := by
  by_cases hkeys : config.duplicateKeys = []
  · refine iff_of_true ?_ fun h => h.1 hkeys
    cases hunique : config.uniqueId with
    | true =>
        rw [fixRuns_byId hunique]
        exact fixById_runs_of_no_keys hkeys rfl
    | false =>
        rw [fixRuns_byRebuild hunique]
        exact fixByRebuild_runs_of_no_keys hkeys
  · rw [SortRaises, and_iff_right hkeys]
    exact fixRuns_iff_sortable labelled hkeys

/-- What is there after a fix that runs: the rows that stay, patched. -/
theorem mem_afterFix_iff (labelled : Labelled (source.loadRecords s))
    (runs : fixRuns config source s) :
    r' ∈ source.loadRecords (afterFix config source s) ↔ ∃ r ∈ source.loadRecords s,
      Stays config (userIds config source s) (source.loadRecords s) r ∧
        patch config source s r = r' := by
  cases hunique : config.uniqueId with
  | true =>
      rw [fixRuns_byId hunique] at runs
      obtain ⟨fixes, h⟩ := Option.isSome_iff_exists.mp runs
      have hpatch : ∀ r : Record, (if config.rowId r ∈ (runCheck config source s).nullViolations
          then r.update (written config source s) else r) = patch config source s r := by
        intro r
        have hnull : config.rowId r ∈ (runCheck config source s).nullViolations ↔
            Patched config (source.loadRecords s) r := by
          rw [Patched, if_pos hunique]
          simp only [runCheck, List.mem_map, List.mem_filter]
          exact exists_congr fun q => by rw [and_assoc, and_comm (a := config.hasBlank q = true)]
        simp only [patch, hnull]
      rw [(loadRecords_afterFix_byId hunique h).mem_iff]
      simp only [hpatch, List.mem_map, List.mem_filter, decide_eq_true_eq,
        notMem_deleteIds_iff labelled hunique h, and_assoc]
  | false =>
      rw [fixRuns_byRebuild hunique] at runs
      obtain ⟨⟨kept, report⟩, h⟩ := Option.isSome_iff_exists.mp runs
      have hpatch : patch config source s = refill config source s := by
        funext r
        simp only [patch, Patched, hunique, Bool.false_eq_true, if_false, refill]
      rw [mem_afterFix_byRebuild_iff labelled hunique h, hpatch]

variable (config source s) in
/-- Whatever row is still there has lost no value. -/
def KeepsData : Prop :=
  ∀ r ∈ source.loadRecords s, ∀ r' ∈ source.loadRecords (afterFix config source s),
    r'.position = r.position → ∀ field, ¬isBlank (r.get field) → r'.get field = r.get field

/-- A fix destroys no data exactly if it raises, or each row that stays and is patched was blank
in all the fields that are written, up to fields that had the value already. -/
theorem keepsData_iff (labelled : Labelled (source.loadRecords s)) :
    KeepsData config source s ↔ SortRaises config (source.loadRecords s) ∨
      ∀ r ∈ source.loadRecords s,
        Stays config (userIds config source s) (source.loadRecords s) r →
          Patched config (source.loadRecords s) r →
            FillsBlanks (written config source s) r := by
  by_cases hraises : SortRaises config (source.loadRecords s)
  · have hafter : afterFix config source s = s :=
      afterFix_of_raise (Bool.eq_false_of_not_eq_true fun runs =>
        (fixRuns_iff labelled).mp runs hraises)
    refine iff_of_true (fun r hr r' hr' hposition field _ => ?_) (.inl hraises)
    rw [hafter] at hr'
    rw [labelled.injective hr' hr hposition]
  · have runs := (fixRuns_iff labelled).mpr hraises
    rw [or_iff_right hraises]
    constructor
    · intro h r hr hstays hpatched field v hlookup
      have hupdated : r.update (written config source s) ∈
          source.loadRecords (afterFix config source s) :=
        (mem_afterFix_iff labelled runs).mpr ⟨r, hr, hstays, if_pos hpatched⟩
      by_cases hblank : isBlank (r.get field)
      · exact .inl hblank
      · have hkept := h r hr _ hupdated rfl field hblank
        rw [Record.get_update_of_lookup hlookup] at hkept
        exact .inr hkept.symm
    · intro h r hr r' hr' hposition field hfull
      obtain ⟨q, hq, hstays, rfl⟩ := (mem_afterFix_iff labelled runs).mp hr'
      rw [patch_position] at hposition
      obtain rfl := labelled.injective hq hr hposition
      rw [patch]
      split
      · rename_i hpatched
        cases hlookup : (written config source s).lookup field with
        | none => exact Record.get_update_of_lookup_none hlookup
        | some v =>
            rw [Record.get_update_of_lookup hlookup]
            obtain hblank | heq := h q hq hstays hpatched field v hlookup
            · exact absurd hblank hfull
            · exact heq.symm
      · rfl

end Frame

/-! Reputation rows, with and without a count that is missing alone. -/

def reputationRow (position : Nat) (positive negative : Value) : Record where
  position := position
  fields := fun field =>
    [("id", .num position), ("user_id", .num position), ("chat_id", .num 1),
      ("positive_count", positive), ("negative_count", negative), ("score", .none),
      ("updated_at", .datetime 0)].lookup field

/-- Both counts of a row are missing, and no row loses anything. -/
theorem uncounted_keepsData : KeepsData REPUTATION (memorySource none REPUTATION)
    [reputationRow 0 .none .none, reputationRow 1 (.num 3) (.num 7)] :=
  (keepsData_iff (by unfold Labelled; decide +kernel)).mpr (.inr (by decide +kernel))

/-- The positive count of a row is missing, and its negative count is reset with it. -/
theorem halfCounted_loses : ¬KeepsData REPUTATION (memorySource none REPUTATION)
    [reputationRow 0 .none (.num 7)] := by
  have hreset : ((memorySource none REPUTATION).loadRecords (afterFix REPUTATION
      (memorySource none REPUTATION) [reputationRow 0 .none (.num 7)])).map
        (fun r => (r.position, r.get "negative_count")) = [(0, .num 0)] := by
    decide +kernel
  intro h
  obtain ⟨r', hr', heq⟩ := List.mem_map.mp (hreset ▸ List.mem_singleton_self _)
  obtain ⟨hposition, hnegative⟩ := Prod.mk.inj heq
  have hkept := h _ List.mem_cons_self r' hr' hposition "negative_count" (by decide +kernel)
  rw [hnegative] at hkept
  exact absurd hkept (by decide +kernel)

/-! On Postgres a row that is patched loses the time of its last update, even if nothing else. -/

/-- A rating that lacks both counts, last updated at time zero; by now it is 100. -/
def uncountedTable : SqlTable (Postgres.types fun _ => none) where
  rows := [{
    position := 0
    id := 1
    values := fun
      | .positiveCount | .negativeCount => .none
      | .createdAt | .updatedAt => .datetime 0
      | _ => .num 1
    stored := by
      intro column
      cases column <;> rfl }]
  users := some [.num 1]
  now := 100
  distinct := by decide

theorem uncounted_restamped : ¬KeepsData REPUTATION reputationTable uncountedTable := by
  have hrestamped : (reputationTable.loadRecords
      (afterFix REPUTATION reputationTable uncountedTable)).map
        (fun r => (r.position, r.get "updated_at")) = [(0, .datetime 100)] := by
    decide +kernel
  intro h
  obtain ⟨r', hr', heq⟩ := List.mem_map.mp (hrestamped ▸ List.mem_singleton_self _)
  obtain ⟨hposition, hupdated⟩ := Prod.mk.inj heq
  have hkept := h _ List.mem_cons_self r' hr' hposition "updated_at" (by decide +kernel)
  rw [hupdated] at hkept
  exact absurd hkept (by decide +kernel)

end UserTgBot.Maintenance
