import UserTgBot.Library.Glob
import UserTgBot.Library.Loops
import UserTgBot.Library.OrderBy
import UserTgBot.Library.PaddedDecimal

/-!
# Backups

`db_maintenance/backup.py`. A backup is a file whose name is the label of the source and the
second it was taken in; the newest backup of a source is the last of the names that match a
pattern made from its label. `recoverable_iff` says when that is the backup the source took
last. A label may extend another one, may contain characters that are special in a pattern,
and two backups of one source may fall in one second.
-/

namespace UserTgBot.Maintenance

open PyText (Text CodePoint text padded)
open Glob (Plain)
open Loops (Dict)

/-! ## Sources and their labels -/

/-- `path.stem` of a file. -/
structure Stem where
  text : Text
  nonempty : text ≠ []
  embedded : PyText.ofChar '/' ∉ text ∧ PyText.ofChar '\x00' ∉ text
deriving DecidableEq

/-- What `resolve_source` returns, as far as the label depends on it. -/
inductive Origin where
  | postgres
  | sqlite (path : Stem)
  | csv (path : Stem)
  | json (path : Stem)
deriving DecidableEq

def Origin.label : Origin → Text
  | .postgres => text "postgres"
  | .sqlite path => text "sqlite_" ++ path.text
  | .csv path => text "csv_" ++ path.text
  | .json path => text "json_" ++ path.text

/-! ## Times -/

/-- `datetime.now(timezone.utc)`: the clock counts from 1970, and the last year is 9999. -/
structure UtcTime where
  year : Nat
  month : Nat
  day : Nat
  hour : Nat
  minute : Nat
  second : Nat
  microsecond : Nat
  year_mem : 1970 ≤ year ∧ year < 10000
  month_mem : 1 ≤ month ∧ month ≤ 12
  day_mem : 1 ≤ day ∧ day ≤ 31
  hour_lt : hour < 24
  minute_lt : minute < 60
  second_lt : second < 60
  microsecond_lt : microsecond < 1000000
deriving DecidableEq

namespace UtcTime

def fields (t : UtcTime) : List Nat :=
  [t.year, t.month, t.day, t.hour, t.minute, t.second, t.microsecond]

/-- Datetimes are compared field by field. -/
instance : LE UtcTime := ⟨fun t t' => t.fields ≤ t'.fields⟩

instance (t t' : UtcTime) : Decidable (t ≤ t') := inferInstanceAs (Decidable (t.fields ≤ t'.fields))

/-- `strftime('%Y%m%dT%H%M%S')`. -/
def stamp (t : UtcTime) : Text :=
  padded 4 t.year ++ (padded 2 t.month ++ (padded 2 t.day ++ (text "T" ++
    (padded 2 t.hour ++ (padded 2 t.minute ++ padded 2 t.second)))))

@[simp] theorem length_stamp (t : UtcTime) : t.stamp.length = 15 := by
  simp [stamp, text]

theorem stamp_le {t t' : UtcTime} (le : t ≤ t') : t.stamp ≤ t'.stamp := by
  have hmonth := t'.month_mem.2
  have hday := t'.day_mem.2
  have hhour := t'.hour_lt
  have hminute := t'.minute_lt
  have hsecond := t'.second_lt
  refine PyText.padded_append_le t'.year_mem.2 le fun le => ?_
  refine PyText.padded_append_le (by omega) le fun le => ?_
  refine PyText.padded_append_le (by omega) le fun le => PyText.append_left_le _ ?_
  refine PyText.padded_append_le (by omega) le fun le => ?_
  refine PyText.padded_append_le (by omega) le fun le => ?_
  rw [← List.append_nil (padded 2 t.second), ← List.append_nil (padded 2 t'.second)]
  exact PyText.padded_append_le (by omega) le fun _ => le_refl _

end UtcTime

/-! ## The backup directory -/

variable {ρ : Type*}

/-- The content of a backup. -/
structure Snapshot (ρ : Type*) where
  source : Text
  createdAt : UtcTime
  rows : List ρ
deriving DecidableEq

/-- `settings.backup_dir`; nothing if it does not exist. -/
abbrev Directory (ρ : Type*) := Option (Dict Text (Snapshot ρ))

structure BackupHandle where
  sourceLabel : Text
  path : Text
  createdAt : UtcTime
  rowCount : Nat
deriving DecidableEq

def fileName (label : Text) (createdAt : UtcTime) : Text :=
  label ++ (text "_" ++ (createdAt.stamp ++ text ".json"))

/-- The rows have been loaded at the time at which the clock is read. -/
def backupRecords (backupDir : Directory ρ) (source : Origin) (createdAt : UtcTime)
    (rows : List ρ) : Directory ρ × BackupHandle :=
  let existing := backupDir.getD ∅
  let path := fileName source.label createdAt
  (some (existing.insert path ⟨source.label, createdAt, rows⟩),
    ⟨source.label, path, createdAt, rows.length⟩)

/-- `Path.glob`; nothing if it raises a `ValueError`. -/
def glob (files : Dict Text (Snapshot ρ)) (pattern : Text) : Option (List Text) :=
  if text "**" <:+: pattern then none
  else some (files.keys.filter fun name => Glob.fnmatch name pattern)

def backupPattern (label : Text) : Text := label ++ text "_*.json"

/-- The name of the newest backup. The outer option is empty if the pattern is refused. -/
def latestBackup (backupDir : Directory ρ) (label : Text) : Option (Option Text) :=
  match backupDir with
  | none => some none
  | some files => (glob files (backupPattern label)).map OrderBy.lastSorted

/-! ## Runs -/

/-- A call of `backup_records`, with the clock and the rows as it reads them. -/
structure Call (ρ : Type*) where
  source : Origin
  createdAt : UtcTime
  rows : List ρ
deriving DecidableEq

namespace Call

def snapshot (c : Call ρ) : Snapshot ρ := ⟨c.source.label, c.createdAt, c.rows⟩

def fileName (c : Call ρ) : Text := Maintenance.fileName c.source.label c.createdAt

def perform (backupDir : Directory ρ) (c : Call ρ) : Directory ρ :=
  (backupRecords backupDir c.source c.createdAt c.rows).1

end Call

/-- The directory after these calls; it does not exist before them. -/
def backups (calls : List (Call ρ)) : Directory ρ := calls.foldl Call.perform none

def content (backupDir : Directory ρ) (name : Text) : Option (Snapshot ρ) :=
  backupDir.bind fun files => files.lookup name

/-- The last call for the source with this label. -/
def lastCall (label : Text) (calls : List (Call ρ)) : Option (Call ρ) :=
  (calls.filter fun c => c.source.label = label).getLast?

/-- No snapshot is overwritten by another one at any time, and the newest backup of each of
the sources is its own last one. -/
structure Recovers (sources : List Origin) (calls : List (Call ρ)) : Prop where
  kept : ∀ past c later rest, calls = past ++ c :: (later ++ rest) →
    content (backups (past ++ c :: later)) c.fileName = some c.snapshot
  newest : ∀ source ∈ sources, latestBackup (backups calls) source.label =
    some ((lastCall source.label calls).map Call.fileName)

/-- Backups of one source in one second are equal, each source's pattern is accepted and
matches the name of its own last backup, and what else it matches sorts before that name. -/
structure Recoverable (sources : List Origin) (calls : List (Call ρ)) : Prop where
  spaced : calls.Pairwise fun c d => c.source.label = d.source.label →
    c.createdAt.stamp = d.createdAt.stamp → c.snapshot = d.snapshot
  globbed : calls ≠ [] → ∀ source ∈ sources, ¬ text "**" <:+: backupPattern source.label
  found : ∀ source ∈ sources, ∀ c ∈ lastCall source.label calls,
    Glob.fnmatch c.fileName (backupPattern source.label) = true
  foreign : ∀ source ∈ sources, ∀ d ∈ calls, d.source.label ≠ source.label →
    Glob.fnmatch d.fileName (backupPattern source.label) = true →
      ∃ c ∈ lastCall source.label calls, d.fileName < c.fileName

/-! ## File names -/

/-- A file name says which label and which second it was made from. -/
theorem fileName_inj {label label' : Text} {t t' : UtcTime} :
    fileName label t = fileName label' t' ↔ label = label' ∧ t.stamp = t'.stamp := by
  constructor
  · intro h
    obtain ⟨hlabel, hrest⟩ := List.append_inj' h (by simp)
    have hstamp := List.append_cancel_left hrest
    exact ⟨hlabel, List.append_cancel_right hstamp⟩
  · rintro ⟨rfl, hstamp⟩
    rw [fileName, fileName, hstamp]

theorem fileName_le {t t' : UtcTime} (label : Text) (le : t ≤ t') :
    fileName label t ≤ fileName label t' := by
  apply PyText.append_left_le
  apply PyText.append_left_le
  cases lt_or_eq_of_le (UtcTime.stamp_le le) with
  | inl hlt => exact le_of_lt (PyText.append_lt_append (by simp) hlt _ _)
  | inr heq => rw [heq]

theorem Call.fileName_eq_iff {c d : Call ρ} : c.fileName = d.fileName ↔
    c.source.label = d.source.label ∧ c.createdAt.stamp = d.createdAt.stamp :=
  fileName_inj

/-! ## What the directory holds -/

theorem content_perform (backupDir : Directory ρ) (c : Call ρ) (name : Text) :
    content (c.perform backupDir) name =
      if name = c.fileName then some c.snapshot else content backupDir name := by
  cases backupDir with
  | none =>
      simp only [content, Call.perform, backupRecords, Option.bind_some, Option.bind_none,
        Dict.lookup_insert_eq]
      rfl
  | some files =>
      simp only [content, Call.perform, backupRecords, Option.bind_some,
        Dict.lookup_insert_eq]
      rfl

theorem backups_concat (calls : List (Call ρ)) (c : Call ρ) :
    backups (calls ++ [c]) = c.perform (backups calls) := by
  simp [backups]

/-- A file holds the snapshot of the last call that wrote it. -/
theorem content_backups (calls : List (Call ρ)) (name : Text) :
    content (backups calls) name =
      (calls.filter fun c => name = c.fileName).getLast?.map Call.snapshot := by
  induction calls using List.reverseRecOn with
  | nil => rfl
  | append_singleton calls c ih =>
      rw [backups_concat, content_perform, ih, List.filter_append]
      by_cases heq : name = c.fileName
      · simp [heq]
      · simp [heq]

theorem backups_of_ne_nil {calls : List (Call ρ)} (h : calls ≠ []) :
    ∃ files, backups calls = some files := by
  obtain ⟨before, c, rfl⟩ := (List.eq_nil_or_concat' calls).resolve_left h
  exact ⟨_, backups_concat before c⟩

theorem mem_keys_backups {calls : List (Call ρ)} {files : Dict Text (Snapshot ρ)}
    (h : backups calls = some files) (name : Text) :
    name ∈ files.keys ↔ ∃ c ∈ calls, name = c.fileName := by
  have hcontent := content_backups calls name
  rw [h] at hcontent
  have hlookup : files.lookup name =
      (calls.filter fun c => name = c.fileName).getLast?.map Call.snapshot := hcontent
  rw [← AList.mem_keys, ← AList.lookup_isSome, hlookup, Option.isSome_map,
    List.getLast?_isSome, Ne, List.filter_eq_nil_iff]
  simp

/-! ## The newest backup -/

theorem lastCall_mem {label : Text} {calls : List (Call ρ)} {c : Call ρ}
    (h : c ∈ lastCall label calls) : c ∈ calls ∧ c.source.label = label := by
  simpa using List.mem_of_getLast? h

theorem exists_lastCall {calls : List (Call ρ)} {d : Call ρ} (hd : d ∈ calls) :
    ∃ c, c ∈ lastCall d.source.label calls := by
  have hmem : d ∈ calls.filter fun c => c.source.label = d.source.label := by
    simp [hd]
  exact ⟨_, List.getLast?_eq_some_getLast (List.ne_nil_of_mem hmem)⟩

/-- No call for the label is later than the last one. -/
theorem le_lastCall {calls : List (Call ρ)} {c d : Call ρ}
    (ordered : calls.Pairwise fun c d => c.createdAt ≤ d.createdAt) (hd : d ∈ calls)
    (hlast : c ∈ lastCall d.source.label calls) : d.createdAt ≤ c.createdAt := by
  obtain ⟨before, hsplit⟩ := List.getLast?_eq_some_iff.mp hlast
  have hmem : d ∈ before ++ [c] := hsplit ▸ by simp [hd]
  have hsorted : (before ++ [c]).Pairwise fun c d => c.createdAt ≤ d.createdAt :=
    hsplit ▸ ordered.filter _
  cases List.mem_append.mp hmem with
  | inl hbefore =>
      exact (List.pairwise_append.mp hsorted).2.2 d hbefore c (List.mem_singleton_self c)
  | inr heq =>
      rw [List.mem_singleton.mp heq]
      exact le_refl c.createdAt.fields

/-- What a label's pattern finds, unless it is refused. -/
theorem latestBackup_backups {calls : List (Call ρ)} {label : Text} (h : calls ≠ [])
    (globbed : ¬ text "**" <:+: backupPattern label) (name : Text) :
    (latestBackup (backups calls) label = some (some name) ↔
      (∃ c ∈ calls, name = c.fileName) ∧ Glob.fnmatch name (backupPattern label) = true ∧
        ∀ d ∈ calls, Glob.fnmatch d.fileName (backupPattern label) = true →
          d.fileName ≤ name) ∧
    (latestBackup (backups calls) label = some none ↔
      ∀ d ∈ calls, Glob.fnmatch d.fileName (backupPattern label) = false) := by
  obtain ⟨files, hfiles⟩ := backups_of_ne_nil h
  have hkeys := mem_keys_backups hfiles
  rw [hfiles, latestBackup, glob, if_neg globbed, Option.map_some, Option.some.injEq,
    Option.some.injEq, OrderBy.lastSorted_eq_some, OrderBy.lastSorted_eq_none,
    List.filter_eq_nil_iff]
  simp only [List.mem_filter, hkeys, Bool.not_eq_true]
  constructor
  · constructor
    · rintro ⟨⟨hname, hmatch⟩, hmax⟩
      exact ⟨hname, hmatch, fun d hd hdmatch => hmax _ ⟨⟨d, hd, rfl⟩, hdmatch⟩⟩
    · rintro ⟨hname, hmatch, hmax⟩
      refine ⟨⟨hname, hmatch⟩, ?_⟩
      rintro _ ⟨⟨d, hd, rfl⟩, hdmatch⟩
      exact hmax d hd hdmatch
  · constructor
    · intro hnone d hd
      exact hnone _ ⟨d, hd, rfl⟩
    · rintro hnone _ ⟨d, hd, rfl⟩
      exact hnone d hd

theorem latestBackup_isSome {calls : List (Call ρ)} {label : Text} (h : calls ≠ [])
    (isSome : (latestBackup (backups calls) label).isSome) :
    ¬ text "**" <:+: backupPattern label := by
  obtain ⟨files, hfiles⟩ := backups_of_ne_nil h
  intro hinfix
  rw [hfiles, latestBackup, glob, if_pos hinfix] at isSome
  cases isSome

/-! ## When the newest backup is the source's own -/

theorem pairwise_of_splits {α : Type*} {R : α → α → Prop} {l : List α}
    (h : ∀ past a between b rest, l = past ++ a :: (between ++ b :: rest) → R a b) :
    l.Pairwise R := by
  induction l with
  | nil => exact .nil
  | cons a l ih =>
      refine List.pairwise_cons.mpr ⟨fun b hb => ?_, ih fun past c between b rest hl => ?_⟩
      · obtain ⟨between, rest, rfl⟩ := List.append_of_mem hb
        exact h [] a between b rest rfl
      · exact h (a :: past) c between b rest (congrArg (a :: ·) hl)

/-- A file is never overwritten by another snapshot exactly if calls that agree in the label
and in the second agree altogether. -/
theorem kept_iff {calls : List (Call ρ)} :
    (∀ past c later rest, calls = past ++ c :: (later ++ rest) →
      content (backups (past ++ c :: later)) c.fileName = some c.snapshot) ↔
    calls.Pairwise fun c d => c.source.label = d.source.label →
      c.createdAt.stamp = d.createdAt.stamp → c.snapshot = d.snapshot := by
  constructor
  · intro h
    refine pairwise_of_splits fun past c between d rest hcalls hlabel hstamp => ?_
    have hcontent := h past c (between ++ [d]) rest (by simpa using hcalls)
    have hconcat : past ++ c :: (between ++ [d]) = (past ++ c :: between) ++ [d] := by simp
    have hname : c.fileName = d.fileName := Call.fileName_eq_iff.mpr ⟨hlabel, hstamp⟩
    rw [hconcat, backups_concat, content_perform, if_pos hname] at hcontent
    exact (Option.some.inj hcontent).symm
  · intro hspaced past c later
    induction later using List.reverseRecOn with
    | nil =>
        intro rest _
        rw [backups_concat, content_perform, if_pos rfl]
    | append_singleton later d ih =>
        intro rest hcalls
        have hconcat : past ++ c :: (later ++ [d]) = (past ++ c :: later) ++ [d] := by simp
        rw [hconcat, backups_concat, content_perform]
        by_cases hname : c.fileName = d.fileName
        · obtain ⟨hlabel, hstamp⟩ := Call.fileName_eq_iff.mp hname
          have hfrom : (c :: ((later ++ [d]) ++ rest)).Pairwise fun c d =>
              c.source.label = d.source.label → c.createdAt.stamp = d.createdAt.stamp →
                c.snapshot = d.snapshot :=
            (List.pairwise_append.mp (hcalls ▸ hspaced)).2.1
          have hd : d ∈ (later ++ [d]) ++ rest := by simp
          rw [if_pos hname, (List.pairwise_cons.mp hfrom).1 d hd hlabel hstamp]
        · rw [if_neg hname]
          exact ih (d :: rest) (by simpa using hcalls)

/-- For one source whose pattern is accepted. -/
theorem newest_iff {calls : List (Call ρ)} {label : Text} (h : calls ≠ [])
    (ordered : calls.Pairwise fun c d => c.createdAt ≤ d.createdAt)
    (globbed : ¬ text "**" <:+: backupPattern label) :
    latestBackup (backups calls) label = some ((lastCall label calls).map Call.fileName) ↔
      (∀ c ∈ lastCall label calls, Glob.fnmatch c.fileName (backupPattern label) = true) ∧
      ∀ d ∈ calls, d.source.label ≠ label →
        Glob.fnmatch d.fileName (backupPattern label) = true →
          ∃ c ∈ lastCall label calls, d.fileName < c.fileName := by
  cases hlast : lastCall label calls with
  | none =>
      have hother : ∀ d ∈ calls, d.source.label ≠ label := by
        rintro d hd rfl
        obtain ⟨c, hc⟩ := exists_lastCall hd
        rw [hlast] at hc
        cases hc
      rw [Option.map_none, (latestBackup_backups h globbed []).2]
      simp only [← Bool.not_eq_true]
      constructor
      · intro hnone
        exact ⟨nofun, fun d hd _ hmatch => absurd hmatch (hnone d hd)⟩
      · rintro ⟨-, hforeign⟩ d hd hmatch
        obtain ⟨c, hc, -⟩ := hforeign d hd (hother d hd) hmatch
        cases hc
  | some c =>
      obtain ⟨hc, hclabel⟩ := lastCall_mem hlast
      rw [Option.map_some, (latestBackup_backups h globbed c.fileName).1]
      constructor
      · rintro ⟨-, hmatch, hmax⟩
        refine ⟨fun c' hc' => Option.some.inj hc' ▸ hmatch, fun d hd hne hdmatch => ?_⟩
        refine ⟨c, rfl, lt_of_le_of_ne (hmax d hd hdmatch) fun heq => hne ?_⟩
        rw [(Call.fileName_eq_iff.mp heq).1, hclabel]
      · rintro ⟨hfound, hforeign⟩
        refine ⟨⟨c, hc, rfl⟩, hfound c rfl, fun d hd hdmatch => ?_⟩
        by_cases hown : d.source.label = label
        · have hlate : d.createdAt ≤ c.createdAt :=
            le_lastCall ordered hd (by rw [hown]; exact hlast)
          rw [Call.fileName, Call.fileName, hclabel, hown]
          exact fileName_le label hlate
        · obtain ⟨c', hc', hlt⟩ := hforeign d hd hown hdmatch
          rw [Option.some.inj hc']
          exact le_of_lt hlt

/-- A source restores its own last backup, and every backup is kept, exactly when its calls
are `Recoverable`. -/
theorem recoverable_iff {sources : List Origin} {calls : List (Call ρ)}
    (ordered : calls.Pairwise fun c d => c.createdAt ≤ d.createdAt) :
    Recovers sources calls ↔ Recoverable sources calls := by
  by_cases h : calls = []
  · subst h
    constructor
    · intro _
      refine ⟨.nil, fun hne => absurd rfl hne, fun _ _ _ hlast => ?_, fun _ _ _ hmem => ?_⟩
      · cases hlast
      · cases hmem
    · intro hmeets
      exact ⟨kept_iff.mpr hmeets.spaced, fun _ _ => rfl⟩
  · constructor
    · intro hrecovers
      have hglobbed : ∀ source ∈ sources, ¬ text "**" <:+: backupPattern source.label := by
        intro source hsource
        apply latestBackup_isSome h
        rw [hrecovers.newest source hsource]
        rfl
      have hnewest := fun source hsource =>
        (newest_iff h ordered (hglobbed source hsource)).mp (hrecovers.newest source hsource)
      exact ⟨kept_iff.mp hrecovers.kept, fun _ => hglobbed,
        fun source hsource => (hnewest source hsource).1,
        fun source hsource => (hnewest source hsource).2⟩
    · intro hmeets
      refine ⟨kept_iff.mpr hmeets.spaced, fun source hsource => ?_⟩
      exact (newest_iff h ordered (hmeets.globbed h source hsource)).mpr
        ⟨hmeets.found source hsource, hmeets.foreign source hsource⟩

/-! ## Labels without special characters -/

theorem underscore_not_mem_padded (width n : Nat) :
    PyText.ofChar '_' ∉ padded width n := by
  induction width generalizing n with
  | zero => exact List.not_mem_nil
  | succ width ih =>
      rw [padded, List.mem_append, List.mem_singleton, not_or]
      refine ⟨ih (n / 10), fun heq => ?_⟩
      have hval : (0x5f : Nat) = 0x30 + n % 10 := congrArg Fin.val heq
      omega

theorem underscore_not_mem_stamp (t : UtcTime) : PyText.ofChar '_' ∉ t.stamp := by
  simp only [UtcTime.stamp, List.mem_append, underscore_not_mem_padded, false_or, or_false]
  decide

/-- The pattern of such a label finds the backups of the sources whose label is this one or
continues it after an underscore. -/
theorem fnmatch_of_plain {label : Text} (plain : Plain label) (d : Call ρ) :
    Glob.fnmatch d.fileName (backupPattern label) = true ↔
      d.source.label = label ∨ label ++ text "_" <+: d.source.label := by
  have hplain : Plain (label ++ text "_") := by
    intro c hc
    cases List.mem_append.mp hc with
    | inl hlabel => exact plain c hlabel
    | inr hunderscore => exact (show Plain (text "_") by decide) c hunderscore
  have hpattern : backupPattern label =
      (label ++ text "_") ++ PyText.ofChar '*' :: text ".json" := by
    rw [backupPattern, List.append_assoc]
    rfl
  rw [hpattern, Glob.fnmatch_literal_star hplain (by decide)]
  constructor
  · rintro ⟨between, hname⟩
    have hsplit : d.source.label ++ (text "_" ++ d.createdAt.stamp) =
        (label ++ text "_") ++ between := by
      refine List.append_cancel_right (?_ : _ ++ text ".json" = _)
      rw [List.append_assoc, List.append_assoc, List.append_assoc (label ++ text "_")]
      exact hname
    cases List.append_eq_append_iff.mp hsplit with
    | inr h =>
        obtain ⟨rest, hlabel, -⟩ := h
        exact .inr ⟨rest, hlabel.symm⟩
    | inl h =>
        obtain ⟨rest, hlabel, hrest⟩ := h
        cases rest using List.reverseRecOn with
        | nil => exact .inr (by simp_all)
        | append_singleton rest c =>
            cases rest with
            | nil =>
                exact .inl (List.append_inj' hlabel rfl).1.symm
            | cons b rest =>
                have hlast : text "_" = [c] :=
                  (List.append_inj' (hlabel.trans (List.append_assoc _ _ _).symm) rfl).2
                have hstamp : d.createdAt.stamp = rest ++ [c] ++ between :=
                  (List.cons.inj hrest).2
                have hc : PyText.ofChar '_' ∈ d.createdAt.stamp := by
                  rw [hstamp, ← hlast]
                  simp [text]
                exact absurd hc (underscore_not_mem_stamp d.createdAt)
  · rintro (hlabel | ⟨rest, hlabel⟩)
    · refine ⟨d.createdAt.stamp, ?_⟩
      rw [Call.fileName, fileName, hlabel, List.append_assoc]
    · refine ⟨rest ++ (text "_" ++ d.createdAt.stamp), ?_⟩
      rw [Call.fileName, fileName, ← hlabel]
      simp only [List.append_assoc]

theorem not_refused_of_plain {label : Text} (plain : Plain label) :
    ¬ text "**" <:+: backupPattern label := by
  intro hinfix
  have hcount := hinfix.sublist.count_le (PyText.ofChar '*')
  have hlabel : label.count (PyText.ofChar '*') = 0 :=
    List.count_eq_zero.mpr fun hmem => plain _ hmem List.mem_cons_self
  rw [backupPattern, List.count_append, hlabel] at hcount
  revert hcount
  decide

/-- Labels without special characters, none of which continues another one after an
underscore. -/
theorem recoverable_of_plain {sources : List Origin} {calls : List (Call ρ)}
    (plain : ∀ source ∈ sources, Plain source.label)
    (members : ∀ c ∈ calls, c.source ∈ sources)
    (apart : ∀ source ∈ sources, ∀ other ∈ sources,
      ¬ source.label ++ text "_" <+: other.label)
    (spaced : calls.Pairwise fun c d => c.source.label = d.source.label →
      c.createdAt.stamp = d.createdAt.stamp → c.snapshot = d.snapshot) :
    Recoverable sources calls where
  spaced := spaced
  globbed := fun _ source hsource => not_refused_of_plain (plain source hsource)
  found := by
    intro source hsource c hc
    exact (fnmatch_of_plain (plain source hsource) c).mpr (.inl (lastCall_mem hc).2)
  foreign := by
    intro source hsource d hd hne hmatch
    cases (fnmatch_of_plain (plain source hsource) d).mp hmatch with
    | inl hlabel => exact absurd hlabel hne
    | inr hprefix => exact absurd hprefix (apart source hsource d.source (members d hd))

/-! ## Two tables of one export -/

/-- `data.json`. -/
def dataJson : Origin := .json ⟨text "data", by decide, by decide⟩

/-- `data_old.json`. -/
def dataOldJson : Origin := .json ⟨text "data_old", by decide, by decide⟩

/-- `contacts.csv`. -/
def contactsCsv : Origin := .csv ⟨text "contacts", by decide, by decide⟩

def noonAt (second : Nat) (lt : second < 60 := by decide) : UtcTime where
  year := 2026
  month := 3
  day := 1
  hour := 12
  minute := 0
  second := second
  microsecond := 0
  year_mem := by decide
  month_mem := by decide
  day_mem := by decide
  hour_lt := by decide
  minute_lt := by decide
  second_lt := lt
  microsecond_lt := by decide

def contactsSchedule : List (Call Nat) :=
  [⟨dataJson, noonAt 0, [1, 2]⟩, ⟨contactsCsv, noonAt 0, [7]⟩, ⟨dataJson, noonAt 5, [1]⟩]

/-- Each table gets its own last backup. -/
theorem contacts_recover : Recovers [dataJson, contactsCsv] contactsSchedule :=
  (recoverable_iff (by decide +kernel)).mpr
    (recoverable_of_plain (by decide +kernel) (by decide +kernel) (by decide +kernel)
      (by decide +kernel))

def oldSchedule : List (Call Nat) := [⟨dataJson, noonAt 0, [1, 2]⟩, ⟨dataOldJson, noonAt 5, [9]⟩]

/-- The newest backup of `data.json` is that of `data_old.json`. -/
theorem old_not_recovers :
    ¬ ∀ (sources : List Origin) (calls : List (Call Nat)),
      (sources.map Origin.label).Nodup → (∀ c ∈ calls, c.source ∈ sources) →
        (calls.Pairwise fun c d => c.createdAt ≤ d.createdAt) → Recovers sources calls := by
  intro h
  have hrecovers := h [dataJson, dataOldJson] oldSchedule (by decide) (by decide +kernel)
    (by decide +kernel)
  have hnewest := hrecovers.newest dataJson List.mem_cons_self
  revert hnewest
  decide +kernel

end UserTgBot.Maintenance
