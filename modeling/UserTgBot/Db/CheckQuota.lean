import Mathlib
import UserTgBot.Library.Noninterference
import UserTgBot.Library.PyDate

/-!
# The monthly quota of `.check`

`peek_check_quota` and `consume_check` of `db/queries.py` keep one row for each user: the first
day of a month and the number of checks spent since. The row is set back when it is next
looked at, in a peek as well as in a consume. With dates that never go back this is a counter
for each user and each calendar month: the row is the counter of its own month, and all later
months are still at zero.
-/

namespace UserTgBot.CheckQuota

open Noninterference

/-- `check_usage`, addressed by its `user_id`. -/
structure CheckUsage where
  periodStart : PyDate
  used : Nat
deriving DecidableEq

abbrev Usage := Nat → Option CheckUsage

structure QuotaResult where
  allowed : Bool
  used : Nat
  quota : Int
deriving DecidableEq

/-- `_get_or_reset_usage`: the row as the caller sees it, which is also what is saved. -/
def getOrResetUsage (usage : Usage) (userId : Nat) (today : PyDate) : CheckUsage :=
  let period := today.monthStart
  match usage userId with
  | none => ⟨period, 0⟩
  | some row => if row.periodStart < period then ⟨period, 0⟩ else row

def save (usage : Usage) (userId : Nat) (row : CheckUsage) : Usage :=
  Function.update usage userId (some row)

def peekCheckQuota (usage : Usage) (userId : Nat) (quota : Int) (today : PyDate) :
    Usage × QuotaResult :=
  let row := getOrResetUsage usage userId today
  (save usage userId row, ⟨row.used < quota, row.used, quota⟩)

/-- `consume_check`. -/
def consumeCheck (usage : Usage) (userId : Nat) (quota : Int) (today : PyDate) :
    Usage × QuotaResult :=
  let row := getOrResetUsage usage userId today
  if quota ≤ row.used then (save usage userId row, ⟨false, row.used, quota⟩)
  else
    let spent := { row with used := row.used + 1 }
    (save usage userId spent, ⟨true, spent.used, quota⟩)

inductive Kind where
  | peek
  | consume
deriving DecidableEq

/-- One call in a transaction of its own. -/
structure Call where
  kind : Kind
  userId : Nat
  quota : Int
  today : PyDate
deriving DecidableEq

def step (usage : Usage) (c : Call) : Usage × QuotaResult :=
  match c.kind with
  | .peek => peekCheckQuota usage c.userId c.quota c.today
  | .consume => consumeCheck usage c.userId c.quota c.today

/-- The table before the first call. -/
def empty : Usage := fun _ => none

/-! ## The plain counter -/

/-- How many checks a user was allowed in a calendar month. -/
abbrev Counter := Nat → ℕ ×ₗ ℕ → Nat

namespace Counter

/-- The counter of a call's user and month. -/
def current (counter : Counter) (c : Call) : Nat := counter c.userId c.today.calendarMonth

def count (counter : Counter) (userId : Nat) (month : ℕ ×ₗ ℕ) : Counter :=
  Function.update counter userId
    (Function.update (counter userId) month (counter userId month + 1))

/-- What a call with `n` allowed consumes before it returns. -/
def answer (n : Nat) (c : Call) : QuotaResult :=
  match c.kind with
  | .peek => ⟨n < c.quota, n, c.quota⟩
  | .consume => ⟨n < c.quota, if n < c.quota then n + 1 else n, c.quota⟩

/-- A call that is counted. -/
def Counts (c : Call) (r : QuotaResult) : Bool := c.kind = .consume && r.allowed

def step (counter : Counter) (c : Call) : Counter × QuotaResult :=
  let r := answer (counter.current c) c
  (if Counts c r then counter.count c.userId c.today.calendarMonth else counter, r)

end Counter

section Refinement

variable {usage : Usage} {counter counter' : Counter} {row : CheckUsage} {c : Call}
variable {today today' : PyDate} {userId : Nat}

/-- The row is the counter of its month, and the later months are at zero. -/
structure RowAgrees (row : CheckUsage) (counts : ℕ ×ₗ ℕ → Nat) : Prop where
  first : row.periodStart.monthStart = row.periodStart
  used : row.used = counts row.periodStart.calendarMonth
  later : ∀ month, row.periodStart.calendarMonth < month → counts month = 0

/-- The table agrees with the counters, and its rows are of no month after `today`. -/
def Agrees (today : PyDate) (usage : Usage) (counter : Counter) : Prop :=
  ∀ userId, (usage userId = none ∧ ∀ month, counter userId month = 0) ∨
    ∃ row, usage userId = some row ∧ RowAgrees row (counter userId) ∧
      row.periodStart.calendarMonth ≤ today.calendarMonth

theorem agrees_empty (today : PyDate) : Agrees today empty fun _ _ => 0 :=
  fun _ => .inl ⟨rfl, fun _ => rfl⟩

/-- The lazy reset: the row that a call works on is the counter of the current month. -/
theorem getOrResetUsage_agrees (userId : Nat) (h : Agrees today usage counter) (hle : today ≤ today') :
    RowAgrees (getOrResetUsage usage userId today') (counter userId) ∧
      (getOrResetUsage usage userId today').periodStart.calendarMonth =
        today'.calendarMonth := by
  obtain ⟨hnone, hzero⟩ | ⟨row, hrow, hagrees, hmonth⟩ := h userId
  · rw [getOrResetUsage, hnone]
    exact ⟨⟨rfl, (hzero _).symm, fun month _ => hzero month⟩, rfl⟩
  · simp only [getOrResetUsage, hrow]
    have hlt : row.periodStart < today'.monthStart ↔
        row.periodStart.calendarMonth < today'.calendarMonth := by
      rw [← PyDate.monthStart_lt_iff, hagrees.first]
    by_cases hreset : row.periodStart < today'.monthStart
    · rw [if_pos hreset]
      have hnew := hlt.mp hreset
      refine ⟨⟨rfl, (hagrees.later _ hnew).symm, fun month hmonth => ?_⟩, rfl⟩
      exact hagrees.later month (hnew.trans hmonth)
    · rw [if_neg hreset]
      refine ⟨hagrees, le_antisymm ?_ (not_lt.mp (hlt.not.mp hreset))⟩
      exact hmonth.trans (PyDate.calendarMonth_mono hle)

theorem save_agrees (h : Agrees today usage counter) (hle : today ≤ today')
    (hrow : RowAgrees row (counter' userId))
    (hmonth : row.periodStart.calendarMonth = today'.calendarMonth)
    (hothers : ∀ other, other ≠ userId → counter' other = counter other) :
    Agrees today' (save usage userId row) counter' := by
  intro other
  by_cases heq : other = userId
  · subst heq
    exact .inr ⟨row, Function.update_self .., hrow, hmonth.le⟩
  · rw [save, Function.update_of_ne heq, hothers other heq]
    obtain hnone | ⟨row', hrow', hagrees, hmonth'⟩ := h other
    · exact .inl hnone
    · exact .inr ⟨row', hrow', hagrees, hmonth'.trans (PyDate.calendarMonth_mono hle)⟩

/-- One more check of the current month. -/
theorem RowAgrees.spend {counts : ℕ ×ₗ ℕ → Nat} (h : RowAgrees row counts) :
    RowAgrees { row with used := row.used + 1 }
      (Function.update counts row.periodStart.calendarMonth
        (counts row.periodStart.calendarMonth + 1)) := by
  refine ⟨h.first, ?_, fun month hmonth => ?_⟩
  · change row.used + 1 = _
    rw [Function.update_self, h.used]
  · rw [Function.update_of_ne hmonth.ne']
    exact h.later month hmonth

/-- A call answers as the counter does, and keeps the agreement. -/
theorem step_agrees (h : Agrees today usage counter) (hle : today ≤ c.today) :
    (step usage c).2 = (counter.step c).2 ∧
      Agrees c.today (step usage c).1 (counter.step c).1 := by
  obtain ⟨hrow, hmonth⟩ := getOrResetUsage_agrees c.userId h hle
  have hused : (getOrResetUsage usage c.userId c.today).used = counter.current c := by
    rw [hrow.used, hmonth]
    rfl
  cases hkind : c.kind with
  | peek =>
      simp only [step, Counter.step, Counter.answer, Counter.Counts, peekCheckQuota, hkind,
        hused, reduceCtorEq, decide_false, Bool.false_and, Bool.false_eq_true, if_false]
      exact ⟨trivial, save_agrees h hle hrow hmonth fun _ _ => rfl⟩
  | consume =>
      simp only [step, Counter.step, Counter.answer, Counter.Counts, consumeCheck, hkind,
        hused, decide_true, Bool.true_and, decide_eq_true_eq]
      by_cases hallowed : (counter.current c : Int) < c.quota
      · rw [if_neg (not_le.mpr hallowed), if_pos hallowed, if_pos hallowed,
          decide_eq_true hallowed]
        refine ⟨rfl, save_agrees h hle ?_ hmonth fun other hne => ?_⟩
        · rw [Counter.count, Function.update_self, ← hmonth, ← hused]
          exact hrow.spend
        · exact Function.update_of_ne hne _ _
      · rw [if_pos (not_lt.mp hallowed), if_neg hallowed, if_neg hallowed,
          decide_eq_false hallowed]
        exact ⟨rfl, save_agrees h hle hrow hmonth fun _ _ => rfl⟩

/-- A run in the order of its dates answers as the counters do. -/
theorem trace_eq_counter {calls : List Call} (h : Agrees today usage counter)
    (hle : ∀ c ∈ calls, today ≤ c.today) (inOrder : calls.Pairwise (·.today ≤ ·.today)) :
    trace step usage calls = trace Counter.step counter calls := by
  induction calls generalizing today usage counter with
  | nil => rfl
  | cons c calls ih =>
      obtain ⟨hanswer, hagrees⟩ := step_agrees h (hle c List.mem_cons_self)
      obtain ⟨hlater, hrest⟩ := List.pairwise_cons.mp inOrder
      have htail := ih hagrees hlater hrest
      rw [trace, trace, hanswer, htail]

theorem trace_empty_eq_counter {calls : List Call}
    (inOrder : calls.Pairwise (·.today ≤ ·.today)) :
    trace step empty calls = trace Counter.step (fun _ _ => 0) calls := by
  cases calls with
  | nil => rfl
  | cons c calls =>
      refine trace_eq_counter (agrees_empty c.today) (fun c' hc' => ?_) inOrder
      obtain rfl | hlater := List.mem_cons.mp hc'
      · exact le_rfl
      · exact (List.pairwise_cons.mp inOrder).1 c' hlater

end Refinement

section Counting

variable {counter : Counter} {calls : List Call} {c : Call} {r : QuotaResult}
variable {userId : Nat} {month : ℕ ×ₗ ℕ} {past later : List (Call × QuotaResult)}

/-- The consumes of a user that were allowed in a calendar month. -/
def allowedIn (userId : Nat) (month : ℕ ×ₗ ℕ) (log : List (Call × QuotaResult)) : Nat :=
  log.countP fun e => Counter.Counts e.1 e.2 && e.1.userId = userId &&
    e.1.today.calendarMonth = month

theorem Counter.count_apply (counter : Counter) (userId user : Nat) (month month' : ℕ ×ₗ ℕ) :
    counter.count user month' userId month =
      counter userId month + if user = userId ∧ month' = month then 1 else 0 := by
  by_cases huser : userId = user
  · subst huser
    rw [Counter.count, Function.update_self]
    by_cases hmonth : month = month'
    · subst hmonth
      rw [Function.update_self, if_pos ⟨rfl, rfl⟩]
    · rw [Function.update_of_ne hmonth, if_neg fun h => hmonth h.2.symm, Nat.add_zero]
  · rw [Counter.count, Function.update_of_ne huser, if_neg fun h => huser h.1.symm, Nat.add_zero]

theorem Counter.step_apply (counter : Counter) (c : Call) (userId : Nat) (month : ℕ ×ₗ ℕ) :
    (counter.step c).1 userId month = counter userId month +
      allowedIn userId month [(c, (counter.step c).2)] := by
  rw [allowedIn, List.countP_singleton, Counter.step]
  dsimp only
  by_cases hcounts : Counts c (answer (counter.current c) c) = true
  · rw [if_pos hcounts, Counter.count_apply, hcounts]
    simp
  · rw [if_neg hcounts, eq_false_of_ne_true hcounts]
    simp

theorem allowedIn_append (userId : Nat) (month : ℕ ×ₗ ℕ)
    (first rest : List (Call × QuotaResult)) :
    allowedIn userId month (first ++ rest) =
      allowedIn userId month first + allowedIn userId month rest :=
  List.countP_append

/-- The plain counter counts what its name says. -/
theorem after_step (counter : Counter) (calls : List Call) (userId : Nat) (month : ℕ ×ₗ ℕ) :
    after Counter.step counter calls userId month =
      counter userId month + allowedIn userId month (trace Counter.step counter calls) := by
  induction calls generalizing counter with
  | nil => rfl
  | cons c calls ih =>
      have hcons := allowedIn_append userId month [(c, (counter.step c).2)]
        (trace Counter.step (counter.step c).1 calls)
      have hstep := counter.step_apply c userId month
      have hrest := ih (counter.step c).1
      rw [List.singleton_append] at hcons
      rw [after, trace]
      omega

/-- An entry of a log is the answer for the number of consumes that were allowed before. -/
theorem Counter.answer_of_trace (h : trace Counter.step (fun _ _ => 0) calls =
    past ++ (c, r) :: later) :
    r = Counter.answer (allowedIn c.userId c.today.calendarMonth past) c := by
  obtain ⟨hpast, hr, -⟩ := trace_eq_append_cons h
  rw [hr]
  change answer (after Counter.step _ _ c.userId c.today.calendarMonth) c = _
  rw [after_step, ← hpast, Nat.zero_add]

theorem Counter.step_of_not_counts (h : Counts c (counter.step c).2 = false) :
    (counter.step c).1 = counter :=
  if_neg (Bool.eq_false_iff.mp h)

/-- A call that is not counted can be left out. -/
theorem Counter.trace_erase (h : trace Counter.step counter calls = past ++ (c, r) :: later)
    (hr : Counts c r = false) :
    trace Counter.step counter ((past ++ later).map Prod.fst) = past ++ later := by
  obtain ⟨hpast, rfl, hlater⟩ := trace_eq_append_cons h
  rw [Counter.step_of_not_counts hr] at hlater
  rw [List.map_append, trace_append, ← hpast, ← hlater]

theorem Counter.step_other (counter : Counter) (h : userId ≠ c.userId) :
    (counter.step c).1 userId = counter userId := by
  rw [Counter.step]
  dsimp only
  split
  · exact Function.update_of_ne h _ _
  · rfl

theorem Counter.current_congr {counter counter' : Counter}
    (h : counter c.userId = counter' c.userId) : counter.current c = counter'.current c :=
  congrFun h _

/-- A user sees nothing of the calls for other users. -/
theorem Counter.unwinding (userId : Nat) :
    Unwinding Counter.step (fun c => c.userId = userId) (fun c => !decide (c.userId = userId))
      fun counter counter' => counter userId = counter' userId where
  apart c h := by simpa using h
  skip counter counter' c related h := by
    have hne : userId ≠ c.userId := fun heq => by simp [heq] at h
    rw [Counter.step_other counter hne, related]
  together counter counter' c related h := by
    obtain rfl : c.userId = userId := by simpa using h
    have hcurrent := Counter.current_congr related
    funext month
    rw [Counter.step_apply, Counter.step_apply, related, Counter.step, Counter.step, hcurrent]
  agree counter counter' c related h := by
    obtain rfl : c.userId = userId := by simpa using h
    rw [Counter.step, Counter.step, Counter.current_congr related]

/-- Nothing is allowed beyond a quota that was asked for. -/
theorem allowedIn_le_quota (userId : Nat) (month : ℕ ×ₗ ℕ) {log : List (Call × QuotaResult)}
    (h : ∀ past c r later, log = past ++ (c, r) :: later →
      r = Counter.answer (allowedIn c.userId c.today.calendarMonth past) c) :
    allowedIn userId month log = 0 ∨ ∃ e ∈ log, e.1.kind = .consume ∧ e.1.userId = userId ∧
      e.1.today.calendarMonth = month ∧ (allowedIn userId month log : Int) ≤ e.1.quota := by
  induction log using List.reverseRecOn with
  | nil => exact .inl rfl
  | append_singleton log e ih =>
      obtain ⟨c, r⟩ := e
      have hprefix := ih fun past c' r' later heq =>
        h past c' r' (later ++ [(c, r)]) (by rw [heq]; simp)
      have hr := h log c r [] rfl
      rw [allowedIn_append]
      cases hcounted : Counter.Counts c r && c.userId = userId &&
          c.today.calendarMonth = month with
      | false =>
          have hlast : allowedIn userId month [(c, r)] = 0 := by
            rw [allowedIn, List.countP_singleton, hcounted]
            rfl
          rw [hlast, Nat.add_zero]
          exact hprefix.imp_right fun ⟨e, hmem, he⟩ => ⟨e, List.mem_append_left _ hmem, he⟩
      | true =>
          have hlast : allowedIn userId month [(c, r)] = 1 := by
            rw [allowedIn, List.countP_singleton, hcounted]
            rfl
          obtain ⟨⟨hcounts, huser⟩, hmonth⟩ :
              (Counter.Counts c r = true ∧ c.userId = userId) ∧
                c.today.calendarMonth = month := by simpa using hcounted
          obtain ⟨hkind, hallowed⟩ : c.kind = .consume ∧ r.allowed = true := by
            simpa [Counter.Counts] using hcounts
          have hroom : (allowedIn userId month log : Int) < c.quota := by
            rw [hr, Counter.answer, hkind, huser, hmonth] at hallowed
            exact of_decide_eq_true hallowed
          refine .inr ⟨(c, r), by simp, hkind, huser, hmonth, ?_⟩
          dsimp only
          omega

/-- In a run with dates that never go back, every call answers as a plain counter of the
allowed consumes of its user and its month. Calls that are not counted can be left out, so
can the calls for other users, and no more consumes of a month are allowed than some quota
that was asked for in it. -/
theorem quota_eq_counter {calls : List Call} (inOrder : calls.Pairwise (·.today ≤ ·.today)) :
    (∀ past c r later, trace step empty calls = past ++ (c, r) :: later →
      r = Counter.answer (allowedIn c.userId c.today.calendarMonth past) c) ∧
    (∀ past c r later, trace step empty calls = past ++ (c, r) :: later →
      c.kind = .peek ∨ r.allowed = false →
        trace step empty ((past ++ later).map Prod.fst) = past ++ later) ∧
    (∀ userId, observed step (fun c => c.userId = userId) empty calls =
      observed step (fun c => c.userId = userId) empty
        (calls.filter fun c => c.userId = userId)) ∧
    ∀ userId month, allowedIn userId month (trace step empty calls) = 0 ∨
      ∃ e ∈ trace step empty calls, e.1.kind = .consume ∧ e.1.userId = userId ∧
        e.1.today.calendarMonth = month ∧
          (allowedIn userId month (trace step empty calls) : Int) ≤ e.1.quota := by
  have hanswers : ∀ past c r later, trace step empty calls = past ++ (c, r) :: later →
      r = Counter.answer (allowedIn c.userId c.today.calendarMonth past) c := by
    intro past c r later h
    rw [trace_empty_eq_counter inOrder] at h
    exact Counter.answer_of_trace h
  refine ⟨hanswers, ?_, ?_, fun userId month => allowedIn_le_quota userId month hanswers⟩
  · intro past c r later h huncounted
    have hcounts : Counter.Counts c r = false := by
      obtain hpeek | hrefused := huncounted
      · simp [Counter.Counts, hpeek]
      · simp [Counter.Counts, hrefused]
    have hcalls : calls = past.map Prod.fst ++ c :: later.map Prod.fst := by
      rw [← trace_map_fst step empty calls, h, List.map_append, List.map_cons]
    have hsub : ((past ++ later).map Prod.fst).Sublist calls := by
      rw [hcalls, List.map_append]
      exact (List.Sublist.refl _).append (List.sublist_cons_self _ _)
    rw [trace_empty_eq_counter inOrder] at h
    rw [trace_empty_eq_counter (inOrder.sublist hsub)]
    exact Counter.trace_erase h hcounts
  · intro userId
    have hunwound : observed Counter.step (fun c => c.userId = userId) (fun _ _ => 0) calls =
        observed Counter.step (fun c => c.userId = userId) (fun _ _ => 0)
          (calls.filter fun c => !!decide (c.userId = userId)) :=
      (Counter.unwinding userId).observed_eq rfl calls
    simp only [Bool.not_not] at hunwound
    rw [observed, observed, trace_empty_eq_counter inOrder,
      trace_empty_eq_counter (inOrder.sublist List.filter_sublist)]
    exact hunwound

/-! A month with a change of tariff, and the next one. -/

def august : PyDate := ⟨2026, 8, 22, by decide, by decide, by decide⟩

def september : PyDate := ⟨2026, 9, 1, by decide, by decide, by decide⟩

def upgradeCalls : List Call :=
  [⟨.consume, 1, 1, august⟩, ⟨.consume, 1, 1, august⟩, ⟨.consume, 1, 2, august⟩,
    ⟨.peek, 1, 2, august⟩, ⟨.consume, 2, 1, august⟩, ⟨.consume, 1, 2, september⟩]

/-- The second check is refused, allowed by a bigger quota, and counted anew in September. -/
theorem upgradeCalls_allowed :
    ((trace step empty upgradeCalls).map Prod.snd =
      [⟨true, 1, 1⟩, ⟨false, 1, 1⟩, ⟨true, 2, 2⟩, ⟨false, 2, 2⟩, ⟨true, 1, 1⟩, ⟨true, 1, 2⟩]) ∧
    ∀ userId month, allowedIn userId month (trace step empty upgradeCalls) = 0 ∨
      ∃ e ∈ trace step empty upgradeCalls, e.1.kind = .consume ∧ e.1.userId = userId ∧
        e.1.today.calendarMonth = month ∧
          (allowedIn userId month (trace step empty upgradeCalls) : Int) ≤ e.1.quota :=
  ⟨by decide +kernel, (quota_eq_counter (by decide +kernel)).2.2.2⟩

end Counting

end UserTgBot.CheckQuota
