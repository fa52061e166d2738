import UserTgBot.Library.JsonText
import UserTgBot.Library.TextFile
import UserTgBot.Maintenance.Check

/-!
# The log of maintenance runs

`db_maintenance/metrics/store.py` and what `cli.py` writes into it. Each run appends one line of
JSON to a file; `stats` and `report` read the last lines of it. `readLast_appends` says that
they see the runs that have been recorded, in order and nothing else.
-/

namespace UserTgBot.Maintenance.Metrics

open PyText (Text TextFile text Scalar splitlines)
open JsonText

variable {φ : Type}

/-- A dataclass does not check what it is given for its fields. -/
structure RunMetrics (φ : Type) where
  startedAt : Value φ
  command : Value φ
  durationSeconds : Value φ
  scanned : Value φ
  broken : Value φ
  fixed : Value φ
  deleted : Value φ
  source : Value φ

def fieldNames : List Text :=
  [text "started_at", text "command", text "duration_seconds", text "scanned", text "broken",
    text "fixed", text "deleted", text "source"]

namespace RunMetrics

def values (run : RunMetrics φ) : List (Value φ) :=
  [run.startedAt, run.command, run.durationSeconds, run.scanned, run.broken, run.fixed,
    run.deleted, run.source]

/-- `asdict(run)`. -/
def asdict (run : RunMetrics φ) : List (Text × Value φ) := fieldNames.zip run.values

/-- `RunMetrics(**kwargs)`; nothing if it raises a `TypeError`. -/
def ofKwargs (kwargs : List (Text × Value φ)) : Option (RunMetrics φ) :=
  if kwargs.all fun e => fieldNames.contains e.1 then do
    return {
      startedAt := ← kwargs.lookup (text "started_at")
      command := ← kwargs.lookup (text "command")
      durationSeconds := ← kwargs.lookup (text "duration_seconds")
      scanned := ← kwargs.lookup (text "scanned")
      broken := ← kwargs.lookup (text "broken")
      fixed := ← kwargs.lookup (text "fixed")
      deleted := ← kwargs.lookup (text "deleted")
      source := (kwargs.lookup (text "source")).getD (.str (text "postgres")) }
  else none

theorem ofKwargs_asdict (run : RunMetrics φ) : ofKwargs run.asdict = some run := rfl

/-- The fields can be written and read again. -/
def Regular (run : RunMetrics φ) : Prop := ∀ v ∈ run.values, v.Regular

instance (run : RunMetrics φ) : Decidable run.Regular :=
  inferInstanceAs (Decidable (∀ v ∈ run.values, v.Regular))

theorem regular_asdict {run : RunMetrics φ} (h : run.Regular) :
    (Value.dict run.asdict).Regular := by
  have hfst : run.asdict.map Prod.fst = fieldNames := rfl
  have hsnd : run.asdict.map Prod.snd = run.values := rfl
  have hkeys : ∀ key ∈ fieldNames, Joined key := by decide
  refine regular_dict (by rw [hfst]; decide) fun e he => ⟨hkeys e.1 ?_, h e.2 ?_⟩
  · rw [← hfst]
    exact List.mem_map_of_mem he
  · rw [← hsnd]
    exact List.mem_map_of_mem he

end RunMetrics

section Log

variable (floats : Floats φ)

/-- `append`: the file is opened in any case, and `false` is an exception. -/
def append (log : Option TextFile) (run : RunMetrics φ) : TextFile × Bool :=
  let opened := log.getD .empty
  match (dumps floats none (.dict run.asdict)).bind fun s =>
      opened.append (s ++ [PyText.ofChar '\n']) with
  | some file => (file, true)
  | none => (opened, false)

/-- The run of a line; nothing if it raises. -/
def readLine (line : Text) : Option (RunMetrics φ) :=
  (loads floats line).bind fun v =>
    match v with
    | .dict kwargs => RunMetrics.ofKwargs kwargs
    | _ => none

/-- `xs[-n:]`. -/
def lastItems {α : Type} (n : Int) (xs : List α) : List α :=
  if 0 < n then xs.drop (xs.length - n.toNat) else xs.drop (-n).toNat

/-- `read_last`; nothing if it raises. -/
def readLast (log : Option TextFile) (n : Int) : Option (List (RunMetrics φ)) :=
  match log with
  | none => some []
  | some file => (lastItems n (splitlines file.read)).mapM (readLine floats)

/-- The runs that `report` renders. -/
def reported (log : Option TextFile) (n : Int) : Option (List (RunMetrics φ)) :=
  readLast floats log (if n = 0 then 10000000 else n)

/-- The log after these runs. -/
def appends (log : Option TextFile) (runs : List (RunMetrics φ)) : Option TextFile :=
  runs.foldl (fun log run => some (append floats log run).1) log

/-- `_record_metrics`. -/
def recordMetrics (startedAt command sourceLabel : Text) (duration : φ) (report : CheckReport)
    (fixed deleted : Nat) : RunMetrics φ where
  startedAt := .str startedAt
  command := .str command
  durationSeconds := .float duration
  scanned := .int report.scanned
  broken := .int report.brokenCount
  fixed := .int fixed
  deleted := .int deleted
  source := .str sourceLabel

end Log

/-! ## A line of the log -/

section Lines

variable {floats : Floats φ} {run : RunMetrics φ}

/-- What the command line records is regular, unless there are more rows than `str` can count. -/
theorem regular_recordMetrics {startedAt command sourceLabel : Text} (duration : φ)
    {report : CheckReport} {fixed deleted : Nat} (hstarted : Joined startedAt)
    (hcommand : Joined command) (hlabel : Joined sourceLabel)
    (hcounts : ∀ n ∈ [report.scanned, report.brokenCount, fixed, deleted],
      n < 10 ^ PyText.maxStrDigits) :
    (recordMetrics startedAt command sourceLabel duration report fixed deleted).Regular := by
  have hint : ∀ n : Nat, n < 10 ^ PyText.maxStrDigits → (Value.int n : Value φ).Regular := by
    intro n hn
    apply regular_int
    rw [Int.natAbs_natCast]
    exact PyText.length_strOfNat_le (by decide) hn
  simp only [List.forall_mem_cons] at hcounts
  obtain ⟨hscanned, hbroken, hfixed, hdeleted, -⟩ := hcounts
  simp only [RunMetrics.Regular, RunMetrics.values, recordMetrics, List.forall_mem_cons]
  exact ⟨regular_str hstarted, regular_str hcommand, rfl, hint _ hscanned, hint _ hbroken,
    hint _ hfixed, hint _ hdeleted, regular_str hlabel, fun _ h => absurd h List.not_mem_nil⟩

theorem isLineBreak_of_written {c : PyText.CodePoint} (h : Written none c) :
    PyText.isLineBreak c = false := by
  rcases h with ⟨hlow, hhigh⟩ | ⟨hindent, -⟩
  · simp [PyText.isLineBreak]
    omega
  · cases hindent

/-- A run is the last line of the log once it has been recorded. -/
theorem append_eq (floats : Floats φ) (log : Option TextFile)
    (complete : TextFile.Complete (log.getD .empty).content) (hrun : run.Regular) :
    ∃ file line, append floats log run = (file, true) ∧ TextFile.Complete file.content ∧
      splitlines file.read = splitlines (log.getD .empty).read ++ [line] ∧
        readLine floats line = some run := by
  obtain ⟨line, hdumps, hloads⟩ := loads_dumps floats none (RunMetrics.regular_asdict hrun)
  have hwritten := written_dumps floats none hdumps
  have hbreak : ∀ c ∈ line, PyText.isLineBreak c = false :=
    fun c hc => isLineBreak_of_written (hwritten c hc)
  have hscalar : Scalar line := by
    intro c hc
    rcases hwritten c hc with ⟨-, hhigh⟩ | ⟨hindent, -⟩
    · rw [PyText.isSurrogate, Bool.and_eq_false_iff, decide_eq_false_iff_not]
      exact .inl (by omega)
    · cases hindent
  obtain ⟨file, happend, hcomplete, hlines⟩ := TextFile.lines_append complete hscalar hbreak
  refine ⟨file, line, ?_, hcomplete, hlines, ?_⟩
  · rw [append, hdumps, Option.bind_some, happend]
  · rw [readLine, hloads]
    exact RunMetrics.ofKwargs_asdict run

end Lines

/-! ## The log -/

section Runs

variable {floats : Floats φ}

/-- The lines of the log; there are none before it exists. -/
def lines (log : Option TextFile) : List Text := splitlines (log.getD .empty).read

theorem mapM_drop {α β : Type} {f : α → Option β} {xs : List α} {ys : List β}
    (h : xs.mapM f = some ys) (k : Nat) :
    (xs.drop k).mapM f = some (ys.drop k) ∧ xs.length = ys.length := by
  induction xs generalizing ys k with
  | nil =>
      obtain rfl : [] = ys := Option.some.inj h
      rw [List.drop_nil, List.drop_nil]
      exact ⟨rfl, rfl⟩
  | cons x xs ih =>
      have hall := h
      rw [List.mapM_cons] at h
      obtain ⟨y, hy, h⟩ := Option.bind_eq_some_iff.mp h
      obtain ⟨rest, hrest, h⟩ := Option.bind_eq_some_iff.mp h
      cases h
      refine ⟨?_, congrArg (· + 1) (ih hrest 0).2⟩
      cases k with
      | zero => exact hall
      | succ k => exact (ih hrest k).1

theorem mapM_lastItems {α β : Type} {f : α → Option β} {xs : List α} {ys : List β}
    (h : xs.mapM f = some ys) (n : Int) :
    (lastItems n xs).mapM f = some (lastItems n ys) := by
  rw [lastItems, lastItems, (mapM_drop h 0).2]
  split
  · exact (mapM_drop h _).1
  · exact (mapM_drop h _).1

theorem mapM_append {α β : Type} {f : α → Option β} {xs xs' : List α} {ys ys' : List β}
    (h : xs.mapM f = some ys) (h' : xs'.mapM f = some ys') :
    (xs ++ xs').mapM f = some (ys ++ ys') := by
  rw [List.mapM_append, h, h']
  rfl

theorem readLast_eq {log : Option TextFile} {runs : List (RunMetrics φ)}
    (h : (lines log).mapM (readLine floats) = some runs) (n : Int) :
    readLast floats log n = some (lastItems n runs) := by
  cases log with
  | none =>
      obtain rfl : [] = runs := Option.some.inj h
      have hnone : lastItems n ([] : List (RunMetrics φ)) = [] := by
        rw [lastItems]
        split <;> exact List.drop_nil
      rw [hnone]
      rfl
  | some file => exact mapM_lastItems h n

theorem mapM_lines {log : Option TextFile} {runs : List (RunMetrics φ)}
    (h : readLast floats log 0 = some runs) : (lines log).mapM (readLine floats) = some runs := by
  cases log with
  | none => exact h
  | some file => exact h

/-- `stats` and `report` read the runs that were in the log and those that have been recorded
since, in order: the last `n` of them, or all for `0`. -/
theorem readLast_appends {log : Option TextFile} {past : List (RunMetrics φ)}
    (complete : TextFile.Complete (log.getD .empty).content)
    (hpast : readLast floats log 0 = some past) {runs : List (RunMetrics φ)}
    (hruns : ∀ run ∈ runs, run.Regular) (n : Int) :
    readLast floats (appends floats log runs) n = some (lastItems n (past ++ runs)) := by
  have hlines : ∀ (runs : List (RunMetrics φ)) (log : Option TextFile) (past : List (RunMetrics φ)),
      TextFile.Complete (log.getD .empty).content → (∀ run ∈ runs, run.Regular) →
      (lines log).mapM (readLine floats) = some past →
        (lines (appends floats log runs)).mapM (readLine floats) = some (past ++ runs) := by
    intro runs
    induction runs with
    | nil =>
        intro log past _ _ hpast
        rw [List.append_nil]
        exact hpast
    | cons run runs ih =>
        intro log past complete hruns hpast
        obtain ⟨hrun, hrest⟩ := List.forall_mem_cons.mp hruns
        obtain ⟨file, line, happend, hcomplete, hsplit, hline⟩ :=
          append_eq floats log complete hrun
        have hlast : [line].mapM (readLine floats) = some [run] := by
          rw [List.mapM_cons, hline]
          rfl
        have hmore : (lines (some file)).mapM (readLine floats) = some (past ++ [run]) := by
          show (splitlines file.read).mapM _ = _
          rw [hsplit]
          exact mapM_append hpast hlast
        rw [appends, List.foldl_cons, happend, List.append_cons]
        exact ih (some file) (past ++ [run]) hcomplete hrest hmore
  exact readLast_eq (hlines runs log past complete hruns (mapM_lines hpast)) n

/-- A run that found `broken` rows among ten. -/
def recorded (broken : Nat) : RunMetrics {t : Text // matchNumber t = some (t, true, [])} where
  startedAt := .str (text "2026-01-01T00:00:00+00:00")
  command := .str (text "check")
  durationSeconds := .float ⟨text "0.25", by decide⟩
  scanned := .int 10
  broken := .int broken
  fixed := .int 0
  deleted := .int 0
  source := .str (text "json_ratings")

theorem recorded_readLast :
    readLast literalFloats (appends literalFloats none [recorded 3, recorded 2, recorded 0]) 2 =
      some [recorded 2, recorded 0] := by
  have hruns : ∀ run ∈ [recorded 3, recorded 2, recorded 0], run.Regular := by decide +kernel
  have hcomplete : TextFile.Complete ((none : Option TextFile).getD .empty).content :=
    TextFile.complete_nil
  exact readLast_appends hcomplete rfl hruns 2

end Runs

end UserTgBot.Maintenance.Metrics
