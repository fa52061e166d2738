import UserTgBot.Maintenance.Fix
import UserTgBot.Maintenance.Sources

/-!
# `fix` and `restore`

The commands of `cli.py` with `commands/restore.py` and `restore_records`. What a check finds
and what a fix makes of it depends on the profile; here it is any function of the rows, since a
restore overwrites all of them. `CheckConfig.decision` is such a function.

`restore_undoes_fix_iff` says when the rows are as they were after `fix` and `restore`. A fix
that finds nothing broken takes no backup, so the restore after it looks for an older one; and
if there is none, or it is not found, the restore changes nothing.
-/

namespace UserTgBot.Maintenance

open Glob (Plain)
open PyText (Text text)
open PyValue (Value)

/-- What `fix` does about the rows that it has loaded. -/
inductive Decision (ρ : Type) where
  /-- `run_check` raises. -/
  | raises
  /-- `broken_count` is 0. -/
  | clean
  /-- The rows have been backed up, and sorting a group of duplicates raises. -/
  | fails
  | leaves (rows : List ρ)

def Decision.takesBackup {ρ : Type} : Decision ρ → Bool
  | raises | clean => false
  | fails | leaves _ => true

/-- The file that `restore_records` reads, and what is in it. -/
def found {β : Type} (backupDir : Directory β) (label : Text) : Option (Text × Snapshot β) :=
  (latestBackup backupDir label).join.bind fun name => (content backupDir name).map (name, ·)

namespace Source

variable (source : Source) (decide : List source.Row → Decision source.Row) (now : UtcTime)

/-- The call of `backup_records`. -/
def call (s : source.State) : Call source.Backed where
  source := source.origin
  createdAt := now
  rows := (source.load s).map source.dump

/-- The backups after this call. -/
def backup (s : source.State) (backupDir : Directory source.Backed) : Directory source.Backed :=
  (source.call now s).perform backupDir

/-- `fix`: the source and the backups after it. -/
def fix (s : source.State) (backupDir : Directory source.Backed) :
    source.State × Directory source.Backed :=
  match decide (source.load s) with
  | .raises | .clean => (s, backupDir)
  | .fails => (s, source.backup now s backupDir)
  | .leaves rows => ((source.write rows s).getD s, source.backup now s backupDir)

/-- `restore`; nothing is changed if it raises. -/
def restore (s : source.State) (backupDir : Directory source.Backed) : source.State :=
  match found backupDir source.origin.label with
  | some (_, snapshot) => (source.replaceAll snapshot.rows s).getD s
  | none => s

/-- What is loaded after the two commands is what was loaded before them. -/
def Undone (s : source.State) (backupDir : Directory source.Backed) : Prop :=
  let (s', backupDir') := source.fix decide now s backupDir
  source.Same (source.load (source.restore s' backupDir')) (source.load s)

/-- The fix changes no row of what it has found. -/
def Unfixed (s : source.State) : Prop :=
  match decide (source.load s) with
  | .leaves rows => source.Spares rows s
  | _ => True

/-- The backup of this fix is found, and has kept all there was; or another one is found, and
holds what the source held before the fix, or is refused after a fix without effect; or none is
found after such a fix. -/
def LeadsBack (s : source.State) (backupDir : Directory source.Backed) : Prop :=
  let takesBackup := (decide (source.load s)).takesBackup
  match found (if takesBackup then source.backup now s backupDir else backupDir)
      source.origin.label with
  | none => source.Unfixed decide s
  | some (name, snapshot) =>
      if takesBackup ∧ name = fileName source.origin.label now then
        source.Lossless (source.load s)
      else
        (source.Accepts snapshot.rows s → source.Holds snapshot.rows s) ∧
          (¬source.Accepts snapshot.rows s → source.Unfixed decide s)

variable {source decide now} {s : source.State} {backupDir : Directory source.Backed}

variable (source decide s) in
/-- The source after the fix. -/
def fixed : source.State :=
  match decide (source.load s) with
  | .leaves rows => (source.write rows s).getD s
  | _ => s

theorem fix_eq : source.fix decide now s backupDir = (source.fixed decide s,
    if (decide (source.load s)).takesBackup then source.backup now s backupDir else backupDir) := by
  rw [fix, fixed]
  cases decide (source.load s) <;> rfl

theorem unfixed_iff :
    source.Unfixed decide s ↔ source.Same (source.load (source.fixed decide s)) (source.load s) := by
  rw [Unfixed, fixed]
  cases decide (source.load s) with
  | leaves rows =>
      show source.Spares rows s ↔
        source.Same (source.load ((source.write rows s).getD s)) (source.load s)
      rw [← source.spares_iff]
      cases source.write rows s with
      | none => exact iff_of_true (fun _ h => by cases h) (source.same_refl _)
      | some t =>
          constructor
          · intro h
            exact h t rfl
          · rintro h t' ⟨⟩
            exact h
  | raises => exact iff_of_true trivial (source.same_refl _)
  | clean => exact iff_of_true trivial (source.same_refl _)
  | fails => exact iff_of_true trivial (source.same_refl _)

/-- A backup is accepted after the fix if it is before. -/
theorem isSome_replaceAll_fixed (rows : List source.Backed) :
    (source.replaceAll rows (source.fixed decide s)).isSome =
      (source.replaceAll rows s).isSome := by
  rw [fixed]
  cases decide (source.load s) with
  | leaves left =>
      show (source.replaceAll rows ((source.write left s).getD s)).isSome = _
      cases hwrite : source.write left s with
      | none => rfl
      | some t => exact source.isSome_replaceAll hwrite rows
  | raises => rfl
  | clean => rfl
  | fails => rfl

/-- The backup of this call is what is in its file. -/
theorem content_backup : content (source.backup now s backupDir)
    (fileName source.origin.label now) = some (source.call now s).snapshot := by
  rw [backup, content_perform]
  exact if_pos rfl

theorem content_found {β : Type} {backupDir : Directory β} {label name : Text}
    {snapshot : Snapshot β} (h : found backupDir label = some (name, snapshot)) :
    content backupDir name = some snapshot := by
  obtain ⟨name', -, hcontent⟩ := Option.bind_eq_some_iff.mp h
  obtain ⟨snapshot', hsnapshot, hpair⟩ := Option.map_eq_some_iff.mp hcontent
  cases hpair
  exact hsnapshot

/-- What is loaded after a restore that finds a backup. -/
theorem load_getD_replaceAll (rows : List source.Backed) (t : source.State) :
    source.load ((source.replaceAll rows t).getD t) =
      if (source.replaceAll rows t).isSome then source.reread rows else source.load t := by
  cases hreplace : source.replaceAll rows t with
  | none => rfl
  | some t' => exact source.load_replaceAll hreplace

theorem undone_iff : source.Undone decide now s backupDir ↔
    source.LeadsBack decide now s backupDir := by
  rw [Undone, fix_eq, LeadsBack]
  dsimp only
  rw [restore]
  cases hfound : found (if (decide (source.load s)).takesBackup then source.backup now s backupDir
    else backupDir) source.origin.label with
  | none => exact unfixed_iff.symm
  | some file =>
      obtain ⟨name, snapshot⟩ := file
      dsimp only
      rw [load_getD_replaceAll, isSome_replaceAll_fixed]
      have hrows : (decide (source.load s)).takesBackup ∧
          name = fileName source.origin.label now →
            snapshot.rows = (source.load s).map source.dump := by
        rintro ⟨htakes, hname⟩
        have hcontent := content_found hfound
        rw [if_pos htakes, hname, content_backup, Option.some.injEq] at hcontent
        rw [← hcontent]
        rfl
      rw [← source.accepts_iff]
      split_ifs with haccepted hown hown
      · rw [hrows hown]
        exact source.lossless_iff s
      · rw [source.holds_iff ((source.accepts_iff _ _).mp haccepted)]
        exact ⟨fun h => ⟨fun _ => h, fun hnot => absurd haccepted hnot⟩, fun h => h.1 haccepted⟩
      · rw [hrows hown] at haccepted
        exact absurd (source.accepts_own s) haccepted
      · rw [← unfixed_iff]
        exact ⟨fun h => ⟨fun hyes => absurd hyes haccepted, fun _ => h⟩, fun h => h.2 haccepted⟩

/-! ## Directories with backups of one source -/

/-- Of the backups of one source the last one is found, if its label has no special characters. -/
theorem found_backups {β : Type} {origin : Origin} (plain : Plain origin.label)
    {calls : List (Call β)} {c : Call β} (own : ∀ d ∈ calls ++ [c], d.source = origin)
    (ordered : (calls ++ [c]).Pairwise fun c d => c.createdAt ≤ d.createdAt) :
    found (backups (calls ++ [c])) origin.label = some (c.fileName, c.snapshot) := by
  have hlast : lastCall origin.label (calls ++ [c]) = some c := by
    have hall : (calls ++ [c]).filter (fun d => d.source.label = origin.label) = calls ++ [c] :=
      List.filter_eq_self.mpr fun d hd => decide_eq_true (congrArg Origin.label (own d hd))
    rw [lastCall, hall, List.getLast?_concat]
  have hnewest : latestBackup (backups (calls ++ [c])) origin.label = some (some c.fileName) := by
    have h := newest_iff (by simp) ordered (not_refused_of_plain plain)
    rw [hlast] at h
    refine h.mpr ⟨?_, fun d hd hne => absurd (congrArg Origin.label (own d hd)) hne⟩
    rintro _ ⟨⟩
    have hlabel := congrArg Origin.label (own c (by simp))
    exact (fnmatch_of_plain plain c).mpr (.inl hlabel)
  have hcontent : content (backups (calls ++ [c])) c.fileName = some c.snapshot := by
    rw [backups_concat, content_perform, if_pos rfl]
  rw [found, hnewest]
  show (content (backups (calls ++ [c])) c.fileName).map (c.fileName, ·) = _
  rw [hcontent]
  rfl

/-- A fix that has taken a backup is undone if nothing is lost in it. -/
theorem undone_iff_lossless (plain : Plain source.origin.label) {calls : List (Call source.Backed)}
    (own : ∀ d ∈ calls, d.source = source.origin)
    (ordered : calls.Pairwise fun c d => c.createdAt ≤ d.createdAt)
    (past : ∀ d ∈ calls, d.createdAt ≤ now) (takes : (decide (source.load s)).takesBackup = true) :
    source.Undone decide now s (backups calls) ↔ source.Lossless (source.load s) := by
  have hown : ∀ d ∈ calls ++ [source.call now s], d.source = source.origin := by
    intro d hd
    cases List.mem_append.mp hd with
    | inl hbefore => exact own d hbefore
    | inr hnew => rw [List.mem_singleton.mp hnew, call]
  have hordered : (calls ++ [source.call now s]).Pairwise
      fun c d => c.createdAt ≤ d.createdAt := by
    refine List.pairwise_append.mpr ⟨ordered, List.pairwise_singleton _ _, fun d hd c hc => ?_⟩
    rw [List.mem_singleton.mp hc]
    exact past d hd
  have hfound := found_backups plain hown hordered
  rw [backups_concat] at hfound
  simp only [undone_iff, LeadsBack, takes, if_true, backup, hfound]
  exact iff_of_eq (if_pos ⟨trivial, rfl⟩)

/-- A fix that has nothing to do is followed by a restore of the backup before it. -/
theorem undone_iff_of_clean (plain : Plain source.origin.label)
    {calls : List (Call source.Backed)} {c : Call source.Backed}
    (own : ∀ d ∈ calls ++ [c], d.source = source.origin)
    (ordered : (calls ++ [c]).Pairwise fun c d => c.createdAt ≤ d.createdAt)
    (clean : decide (source.load s) = .clean) (accepted : source.Accepts c.rows s) :
    source.Undone decide now s (backups (calls ++ [c])) ↔ source.Holds c.rows s := by
  have hfound := found_backups plain own ordered
  have htakes : (decide (source.load s)).takesBackup = false := by
    rw [clean]
    rfl
  have hrows : c.snapshot.rows = c.rows := rfl
  simp [undone_iff, LeadsBack, htakes, hfound, hrows, accepted]

end Source

/-- The rows are as they were before `fix` and `restore` exactly if the commands lead back. -/
theorem restore_undoes_fix_iff (supported : Supported)
    (decide : List supported.source.Row → Decision supported.source.Row) (now : UtcTime)
    (s : supported.source.State) (backupDir : Directory supported.source.Backed) :
    supported.source.Undone decide now s backupDir ↔
      supported.source.LeadsBack decide now s backupDir :=
  Source.undone_iff

/-! ## A contacts dump -/

/-- The row as `check` sees it. -/
def CsvRow.record (position : Nat) (row : CsvRow) : Record where
  position
  fields field :=
    if field ∈ row.keys then some (((row.value field).map Value.str).getD .none) else none

/-- `run_check` and `run_fix` for a profile that fills nothing in; it only removes rows. -/
def CheckConfig.decision (config : CheckConfig) (userIds : Option (List Value))
    (rows : List CsvRow) : Decision CsvRow :=
  let records := rows.mapIdx CsvRow.record
  let source := memorySource userIds config
  let report := runCheck config source records
  if report.brokenCount = 0 then .clean
  else
    match runFix config source records report with
    | none => .fails
    | some (left, _) => .leaves (left.filterMap fun r => rows[r.position]?)

/-- `people.csv` with the profile `contacts`. -/
def contactsDump : Supported :=
  .headerlessCsv ⟨text "people", by decide, by decide⟩
    ⟨["telegram_id", "first_name", "username", "phone_number"], by decide⟩

/-- One contact twice. -/
def annTwice : List (List String) := [["7", "Ann", "ann", "+1"], ["7", "Ann", "ann", "+2"]]

/-- The fix leaves one row, and after the restore there are three, the header among them. -/
theorem contacts_not_undone :
    ¬ contactsDump.source.Undone (CONTACTS.decision none) (noonAt 0) annTwice none := by
  have hplain : Plain contactsDump.source.origin.label := by decide +kernel
  have htakes : (CONTACTS.decision none (contactsDump.source.load annTwice)).takesBackup = true :=
    by decide +kernel
  have hlossless : contactsDump.source.Undone (CONTACTS.decision none) (noonAt 0) annTwice
      (backups []) ↔ contactsDump.source.Lossless (contactsDump.source.load annTwice) :=
    Source.undone_iff_lossless hplain (List.forall_mem_nil _) .nil (List.forall_mem_nil _) htakes
  intro hundone
  exact hlossless.mp hundone

end UserTgBot.Maintenance
