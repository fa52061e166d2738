import Mathlib
import UserTgBot.Library.Noninterference
import UserTgBot.Library.SlidingWindow

/-!
# Flood control

`RateLimitMiddleware` of `shared/ratelimit.py` keeps for each user a deque of the times at
which an event of the user was let through. The deque is pruned from the front when the user's
next event comes, and that event is dropped when the deque is still full.

The readings of `time.monotonic()` are exact rationals here, and so is what is subtracted from
them. The code has floats, which may round a difference that is next to the window.
-/

namespace UserTgBot.RateLimit

open Noninterference SlidingWindow

/-- What the constructor is given. -/
structure RateLimitMiddleware where
  maxEvents : Nat
  windowSeconds : ℚ

/-- An event with the value of `time.monotonic()` when it comes. -/
structure Event where
  fromUser : Option Int
  now : ℚ
  isCallbackQuery : Bool
deriving DecidableEq

inductive Outcome where
  | handled
  /-- Dropped, with the empty answer that a callback query still gets. -/
  | dropped (answered : Bool)
deriving DecidableEq

/-- `self._hits`, a `defaultdict` of deques by user id. -/
abbrev Hits := Int → List ℚ

/-- `__call__`. -/
def call (m : RateLimitMiddleware) (hits : Hits) (event : Event) : Hits × Outcome :=
  match event.fromUser with
  | none => (hits, .handled)
  | some user =>
      let recent := prune m.windowSeconds event.now (hits user)
      if m.maxEvents ≤ recent.length then
        (Function.update hits user recent, .dropped event.isCallbackQuery)
      else (Function.update hits user (recent ++ [event.now]), .handled)

def empty : Hits := fun _ => []

/-- The times of a user's events that reached the handler. -/
def handledAt (user : Int) (log : List (Event × Outcome)) : List ℚ :=
  (log.filter fun e => e.1.fromUser = some user && e.2 = .handled).map (·.1.now)

/-- How many of a user's events reached the handler in a closed interval. -/
def handledIn (user : Int) (first last : ℚ) (log : List (Event × Outcome)) : Nat :=
  within first last (handledAt user log)

/-! ## The window over everything that was let through -/

/-- The times of all events that were let through, by user. -/
abbrev Admitted := Int → List ℚ

namespace Admitted

/-- What is decided with `n` events let through in the window before. -/
def answer (m : RateLimitMiddleware) (n : Nat) (event : Event) : Outcome :=
  if m.maxEvents ≤ n then .dropped event.isCallbackQuery else .handled

def step (m : RateLimitMiddleware) (log : Admitted) (event : Event) : Admitted × Outcome :=
  match event.fromUser with
  | none => (log, .handled)
  | some user =>
      let outcome := answer m (within (event.now - m.windowSeconds) event.now (log user)) event
      (if outcome = .handled then Function.update log user (log user ++ [event.now]) else log,
        outcome)

end Admitted

section Refinement

variable {m : RateLimitMiddleware} {hits : Hits} {log : Admitted} {now : ℚ} {event : Event}

/-- Every deque is what its user's log has left of it. -/
def Agrees (m : RateLimitMiddleware) (now : ℚ) (hits : Hits) (log : Admitted) : Prop :=
  ∀ user, Covers m.windowSeconds now (log user) (hits user)

theorem agrees_empty (m : RateLimitMiddleware) (now : ℚ) : Agrees m now empty fun _ => [] :=
  fun _ => covers_nil _ _

theorem Agrees.mono {now' : ℚ} (h : Agrees m now hits log) (hle : now ≤ now') :
    Agrees m now' hits log :=
  fun user => (h user).mono hle

theorem Agrees.update (h : Agrees m now hits log) (user : Int) {deque times : List ℚ}
    (hcovers : Covers m.windowSeconds now times deque) :
    Agrees m now (Function.update hits user deque) (Function.update log user times) := by
  intro other
  by_cases hother : other = user
  · subst hother
    rwa [Function.update_self, Function.update_self]
  · rw [Function.update_of_ne hother, Function.update_of_ne hother]
    exact h other

/-- The middleware decides as the log does, and its deques stay what is left of the log. -/
theorem call_agrees (h : Agrees m now hits log) (hle : now ≤ event.now) :
    (call m hits event).2 = (log.step m event).2 ∧
      Agrees m event.now (call m hits event).1 (log.step m event).1 := by
  have hnow := h.mono hle
  cases huser : event.fromUser with
  | none =>
      rw [call, Admitted.step, huser]
      exact ⟨rfl, hnow⟩
  | some user =>
      have hprune := (hnow user).prune
      have hlength := (hnow user).length_prune
      simp only [call, Admitted.step, huser, hlength]
      by_cases hfull : m.maxEvents ≤
          within (event.now - m.windowSeconds) event.now (log user)
      · simp only [Admitted.answer, if_pos hfull, reduceCtorEq, if_false]
        have hupdate := hnow.update user hprune
        rw [Function.update_eq_self] at hupdate
        exact ⟨trivial, hupdate⟩
      · simp only [Admitted.answer, if_neg hfull, if_true]
        exact ⟨trivial, hnow.update user hprune.push⟩

theorem trace_eq_admitted {events : List Event} (h : Agrees m now hits log)
    (hle : ∀ e ∈ events, now ≤ e.now) (inOrder : events.Pairwise (·.now ≤ ·.now)) :
    trace (call m) hits events = trace (Admitted.step m) log events := by
  induction events generalizing now hits log with
  | nil => rfl
  | cons event events ih =>
      obtain ⟨houtcome, hagrees⟩ := call_agrees h (hle event List.mem_cons_self)
      obtain ⟨hlater, hrest⟩ := List.pairwise_cons.mp inOrder
      rw [trace, trace, houtcome, ih hagrees hlater hrest]

theorem trace_empty_eq_admitted {events : List Event}
    (inOrder : events.Pairwise (·.now ≤ ·.now)) :
    trace (call m) empty events = trace (Admitted.step m) (fun _ => []) events := by
  cases events with
  | nil => rfl
  | cons event events =>
      refine trace_eq_admitted (agrees_empty m event.now) (fun e he => ?_) inOrder
      obtain rfl | hlater := List.mem_cons.mp he
      · exact le_rfl
      · exact (List.pairwise_cons.mp inOrder).1 e hlater

end Refinement

section Counting

variable {m : RateLimitMiddleware} {log : Admitted} {events : List Event} {event : Event}
variable {outcome : Outcome} {user : Int} {past later : List (Event × Outcome)}

theorem handledAt_append (user : Int) (first rest : List (Event × Outcome)) :
    handledAt user (first ++ rest) = handledAt user first ++ handledAt user rest := by
  rw [handledAt, List.filter_append, List.map_append]
  rfl

theorem handledAt_singleton (user : Int) (event : Event) (outcome : Outcome) :
    handledAt user [(event, outcome)] =
      if event.fromUser = some user ∧ outcome = .handled then [event.now] else [] := by
  by_cases h : event.fromUser = some user ∧ outcome = .handled
  · rw [if_pos h, handledAt, List.filter_cons_of_pos (by simp [h])]
    rfl
  · rw [if_neg h, handledAt, List.filter_cons_of_neg (by simpa using h)]
    rfl

theorem Admitted.step_apply (m : RateLimitMiddleware) (log : Admitted) (event : Event)
    (user : Int) :
    (log.step m event).1 user = log user ++ handledAt user [(event, (log.step m event).2)] := by
  rw [handledAt_singleton]
  cases hsender : event.fromUser with
  | none => simp [Admitted.step, hsender]
  | some sender =>
      simp only [Admitted.step, hsender, Option.some.injEq]
      by_cases hadmit : answer m (within (event.now - m.windowSeconds) event.now
          (log sender)) event = .handled
      · rw [if_pos hadmit]
        by_cases huser : user = sender
        · rw [huser, if_pos ⟨rfl, hadmit⟩, Function.update_self]
        · rw [if_neg fun h => huser h.1.symm, Function.update_of_ne huser, List.append_nil]
      · rw [if_neg hadmit, if_neg fun h => hadmit h.2, List.append_nil]

/-- The log is the log of what was let through. -/
theorem after_step (m : RateLimitMiddleware) (log : Admitted) (events : List Event)
    (user : Int) :
    after (Admitted.step m) log events user =
      log user ++ handledAt user (trace (Admitted.step m) log events) := by
  induction events generalizing log with
  | nil => exact (List.append_nil _).symm
  | cons event events ih =>
      rw [after, ih, Admitted.step_apply, List.append_assoc, ← handledAt_append]
      rfl

theorem Admitted.step_handled_iff (m : RateLimitMiddleware) (log : Admitted) (event : Event) :
    (log.step m event).2 = .handled ↔ ∀ user, event.fromUser = some user →
      within (event.now - m.windowSeconds) event.now (log user) < m.maxEvents := by
  cases hsender : event.fromUser with
  | none => simp [Admitted.step, hsender]
  | some sender =>
      simp only [Admitted.step, hsender, answer, Option.some.injEq, forall_eq']
      split <;> simp_all

/-- An event of a log was decided by what its user had let through in the window before. -/
theorem Admitted.handled_of_trace
    (h : trace (Admitted.step m) (fun _ => []) events = past ++ (event, outcome) :: later) :
    outcome = .handled ↔ ∀ user, event.fromUser = some user →
      handledIn user (event.now - m.windowSeconds) event.now past < m.maxEvents := by
  obtain ⟨hpast, rfl, -⟩ := trace_eq_append_cons h
  rw [Admitted.step_handled_iff]
  simp only [after_step, ← hpast, List.nil_append]
  rfl

/-- A dropped event leaves the log alone. -/
theorem Admitted.step_of_dropped (h : (log.step m event).2 ≠ .handled) :
    (log.step m event).1 = log := by
  cases hsender : event.fromUser with
  | none => rw [Admitted.step, hsender]
  | some sender =>
      simp only [Admitted.step, hsender] at h ⊢
      rw [if_neg h]

theorem Admitted.trace_erase
    (h : trace (Admitted.step m) log events = past ++ (event, outcome) :: later)
    (hdropped : outcome ≠ .handled) :
    trace (Admitted.step m) log ((past ++ later).map Prod.fst) = past ++ later := by
  obtain ⟨hpast, rfl, hlater⟩ := trace_eq_append_cons h
  rw [Admitted.step_of_dropped hdropped] at hlater
  rw [List.map_append, trace_append, ← hpast, ← hlater]

/-- A user's decisions depend on the user's own log only. -/
theorem Admitted.unwinding (m : RateLimitMiddleware) (user : Int) :
    Unwinding (Admitted.step m) (fun e => e.fromUser = some user)
      (fun e => !decide (e.fromUser = some user)) fun log log' => log user = log' user where
  apart e h := by simpa using h
  skip log log' e related h := by
    have hother : e.fromUser ≠ some user := by simpa using h
    rw [Admitted.step_apply, handledAt_singleton, if_neg fun hsame => hother hsame.1,
      List.append_nil, related]
  together log log' e related h := by
    have hsame : e.fromUser = some user := by simpa using h
    rw [Admitted.step_apply, Admitted.step_apply, related]
    simp only [Admitted.step, hsame, related]
  agree log log' e related h := by
    have hsame : e.fromUser = some user := by simpa using h
    simp only [Admitted.step, hsame, related]

theorem handledAt_inOrder {log : List (Event × Outcome)}
    (inOrder : (log.map Prod.fst).Pairwise (·.now ≤ ·.now)) (user : Int) :
    (handledAt user log).Pairwise (· ≤ ·) := by
  rw [handledAt, List.pairwise_map]
  exact (List.pairwise_map.mp inOrder).filter _

/-- Where every event was decided by its window, no interval of the window's length has more
events than the limit. -/
theorem handledIn_le {log : List (Event × Outcome)}
    (inOrder : (log.map Prod.fst).Pairwise (·.now ≤ ·.now))
    (decided : ∀ past event outcome later, log = past ++ (event, outcome) :: later →
      (outcome = .handled ↔ ∀ user, event.fromUser = some user →
        handledIn user (event.now - m.windowSeconds) event.now past < m.maxEvents))
    (user : Int) (first : ℚ) :
    handledIn user first (first + m.windowSeconds) log ≤ m.maxEvents := by
  apply within_le_of_admitted (handledAt_inOrder inOrder user)
  intro earlier t later hsplit
  induction log using List.reverseRecOn generalizing later with
  | nil => simp [handledAt] at hsplit
  | append_singleton log e ih =>
      obtain ⟨event, outcome⟩ := e
      have hlog := ih (inOrder.sublist ((List.sublist_append_left _ _).map _))
        fun past event' outcome' rest heq => decided past event' outcome'
          (rest ++ [(event, outcome)]) (by rw [heq]; simp)
      rw [handledAt_append, handledAt_singleton] at hsplit
      by_cases hadmit : event.fromUser = some user ∧ outcome = .handled
      · rw [if_pos hadmit] at hsplit
        induction later using List.reverseRecOn with
        | nil =>
            obtain ⟨hearlier, ht⟩ := List.append_inj' hsplit rfl
            obtain rfl := (List.singleton_inj.mp ht).symm
            have hroom := (decided log event outcome [] rfl).mp hadmit.2 user hadmit.1
            rwa [handledIn, hearlier] at hroom
        | append_singleton later s _ =>
            rw [← List.cons_append, ← List.append_assoc] at hsplit
            obtain ⟨hrest, -⟩ := List.append_inj' hsplit rfl
            exact hlog later hrest
      · rw [if_neg hadmit, List.append_nil] at hsplit
        exact hlog later hsplit

/-- With times that never go back, an event reaches the handler exactly when fewer events of
its user than the limit did so in the window before it. So no closed interval of the window's
length has more of them, a dropped event can be left out, and so can the events of all other
users. -/
theorem floodControl_exact {events : List Event} (m : RateLimitMiddleware)
    (inOrder : events.Pairwise (·.now ≤ ·.now)) :
    (∀ past event outcome later,
      trace (call m) empty events = past ++ (event, outcome) :: later →
        (outcome = .handled ↔ ∀ user, event.fromUser = some user →
          handledIn user (event.now - m.windowSeconds) event.now past < m.maxEvents)) ∧
    (∀ user first, handledIn user first (first + m.windowSeconds)
      (trace (call m) empty events) ≤ m.maxEvents) ∧
    (∀ past event outcome later,
      trace (call m) empty events = past ++ (event, outcome) :: later → outcome ≠ .handled →
        trace (call m) empty ((past ++ later).map Prod.fst) = past ++ later) ∧
    ∀ user, observed (call m) (fun e => e.fromUser = some user) empty events =
      observed (call m) (fun e => e.fromUser = some user) empty
        (events.filter fun e => e.fromUser = some user) := by
  have hdecided : ∀ past event outcome later,
      trace (call m) empty events = past ++ (event, outcome) :: later →
        (outcome = .handled ↔ ∀ user, event.fromUser = some user →
          handledIn user (event.now - m.windowSeconds) event.now past < m.maxEvents) := by
    intro past event outcome later h
    rw [trace_empty_eq_admitted inOrder] at h
    exact Admitted.handled_of_trace h
  refine ⟨hdecided, ?_, ?_, ?_⟩
  · intro user first
    apply handledIn_le _ hdecided
    rwa [trace_map_fst]
  · intro past event outcome later h hdropped
    have hevents : events = past.map Prod.fst ++ event :: later.map Prod.fst := by
      rw [← trace_map_fst (call m) empty events, h, List.map_append, List.map_cons]
    have hsub : ((past ++ later).map Prod.fst).Sublist events := by
      rw [hevents, List.map_append]
      exact (List.Sublist.refl _).append (List.sublist_cons_self _ _)
    rw [trace_empty_eq_admitted inOrder] at h
    rw [trace_empty_eq_admitted (inOrder.sublist hsub)]
    exact Admitted.trace_erase h hdropped
  · intro user
    have hunwound : observed (Admitted.step m) (fun e => e.fromUser = some user) (fun _ => [])
        events = observed (Admitted.step m) (fun e => e.fromUser = some user) (fun _ => [])
          (events.filter fun e => !!decide (e.fromUser = some user)) :=
      (Admitted.unwinding m user).observed_eq rfl events
    simp only [Bool.not_not] at hunwound
    rw [observed, observed, trace_empty_eq_admitted inOrder,
      trace_empty_eq_admitted (inOrder.sublist List.filter_sublist)]
    exact hunwound

/-! Three taps within three seconds, one of them at the edge of the window. -/

def twoPerThreeSeconds : RateLimitMiddleware := ⟨2, 3⟩

def taps : List Event :=
  [⟨some 1, 0, true⟩, ⟨some 1, 1, true⟩, ⟨some 2, 2, false⟩, ⟨some 1, 3, true⟩, ⟨none, 3, false⟩,
    ⟨some 1, 7 / 2, false⟩]

/-- The tap exactly three seconds after the first is still dropped. -/
theorem taps_limited :
    ((trace (call twoPerThreeSeconds) empty taps).map Prod.snd =
      [.handled, .handled, .handled, .dropped true, .handled, .handled]) ∧
    ∀ user first, handledIn user first (first + 3)
      (trace (call twoPerThreeSeconds) empty taps) ≤ 2 :=
  ⟨by decide +kernel, (floodControl_exact twoPerThreeSeconds (by decide +kernel)).2.1⟩

end Counting

end UserTgBot.RateLimit
