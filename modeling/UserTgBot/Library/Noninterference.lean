import Mathlib.Data.List.Basic

/-!
# Noninterference by unwinding

Several parties act on one state; a step returns what the acting party learns from it. To
compare a run with the run in which some actions never happen, relate the two states: hidden
actions on the one side keep the relation, the other actions keep it on both sides at once
and return the same to an observer.
-/

namespace Noninterference

universe u v w

variable {σ : Type u} {α : Type v} {β : Type w}

/-- What each action of a run returned. -/
def trace (step : σ → α → σ × β) : σ → List α → List (α × β)
  | _, [] => []
  | s, a :: as => (a, (step s a).2) :: trace step (step s a).1 as

/-- The state after a run. -/
def after (step : σ → α → σ × β) : σ → List α → σ
  | s, [] => s
  | s, a :: as => after step (step s a).1 as

theorem trace_append (step : σ → α → σ × β) (s : σ) (as bs : List α) :
    trace step s (as ++ bs) = trace step s as ++ trace step (after step s as) bs := by
  induction as generalizing s with
  | nil => rfl
  | cons a as ih => exact congrArg _ (ih (step s a).1)

@[simp] theorem trace_map_fst (step : σ → α → σ × β) (s : σ) (as : List α) :
    (trace step s as).map Prod.fst = as := by
  induction as generalizing s with
  | nil => rfl
  | cons a as ih => exact congrArg _ (ih (step s a).1)

/-- An entry of a trace is what its action returned in the state that the earlier ones led
to, and the later entries are a trace from there. -/
theorem trace_eq_append_cons {step : σ → α → σ × β} {s : σ} {as : List α}
    {past later : List (α × β)} {a : α} {b : β} (h : trace step s as = past ++ (a, b) :: later) :
    past = trace step s (past.map Prod.fst) ∧
      b = (step (after step s (past.map Prod.fst)) a).2 ∧
        later = trace step (step (after step s (past.map Prod.fst)) a).1
          (later.map Prod.fst) := by
  have has : as = past.map Prod.fst ++ a :: later.map Prod.fst := by
    rw [← trace_map_fst step s as, h, List.map_append, List.map_cons]
  rw [has, trace_append] at h
  obtain ⟨hpast, hrest⟩ := List.append_inj h (by
    rw [← List.length_map Prod.fst, trace_map_fst, List.length_map])
  obtain ⟨hentry, hlater⟩ := List.cons.inj hrest
  exact ⟨hpast.symm, (Prod.mk.inj hentry).2.symm, hlater.symm⟩

/-- What the observed actions returned, in order. -/
def observed (step : σ → α → σ × β) (sees : α → Bool) (s : σ) (as : List α) : List β :=
  ((trace step s as).filter fun e => sees e.1).map Prod.snd

@[simp] theorem observed_nil (step : σ → α → σ × β) (sees : α → Bool) (s : σ) :
    observed step sees s [] = [] := rfl

theorem observed_cons (step : σ → α → σ × β) (sees : α → Bool) (s : σ) (a : α) (as : List α) :
    observed step sees s (a :: as) =
      if sees a then (step s a).2 :: observed step sees (step s a).1 as
      else observed step sees (step s a).1 as := by
  simp only [observed, trace, List.filter_cons]
  split <;> rfl

/-- The unwinding conditions for a relation between the states of the two runs. -/
structure Unwinding (step : σ → α → σ × β) (sees hidden : α → Bool) (R : σ → σ → Prop) :
    Prop where
  apart : ∀ a, hidden a = true → sees a = false
  skip : ∀ s s' a, R s s' → hidden a = true → R (step s a).1 s'
  together : ∀ s s' a, R s s' → hidden a = false → R (step s a).1 (step s' a).1
  agree : ∀ s s' a, R s s' → sees a = true → (step s a).2 = (step s' a).2

variable {step : σ → α → σ × β} {sees hidden : α → Bool} {R : σ → σ → Prop}

/-- The observer cannot tell whether the hidden actions happened. -/
theorem Unwinding.observed_eq (unwinding : Unwinding step sees hidden R) {s s' : σ}
    (related : R s s') (as : List α) :
    observed step sees s as = observed step sees s' (as.filter (!hidden ·)) := by
  induction as generalizing s s' with
  | nil => rfl
  | cons a as ih =>
      cases hhidden : hidden a with
      | true =>
          have hrest := ih (unwinding.skip s s' a related hhidden)
          rw [List.filter_cons_of_neg (by simp [hhidden]), observed_cons,
            unwinding.apart a hhidden]
          exact hrest
      | false =>
          have hrest := ih (unwinding.together s s' a related hhidden)
          rw [List.filter_cons_of_pos (by simp [hhidden]), observed_cons, observed_cons, hrest]
          cases hsees : sees a with
          | true => rw [unwinding.agree s s' a related hsees]
          | false => rfl

end Noninterference
