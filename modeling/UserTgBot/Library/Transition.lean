import Mathlib.Data.List.Basic
import Mathlib.Data.Option.Basic

/-!
# Finite runs of executable transition systems

A system is a partial step function `step : σ → α → Option σ`; `none` means that
the action is not enabled in that state. `exec` executes a list of actions, one
after another, so an interleaving of several parties is simply a list of actions
that name the party taking each step.

Inductions over runs are packaged here once. `exec_invariant` is the ordinary
invariant rule. `exec_history` additionally hands the executed prefix to the
invariant, which is how counting arguments about a run are stated. `Meets` says
that every executed action satisfies a condition in the state it was executed in;
`exec_invariant_of_meets` uses it, `forall_prefix_iff_meets` makes it the exact
condition for a run through good states, and `exec_switch` decides a property of
complete runs by one invariant for the runs that meet the condition and another for
the runs that do not.
-/

namespace Transition

universe u v

variable {σ : Type u} {α : Type v} {step : σ → α → Option σ}

/-- Execute the actions from left to right, failing at the first that is not enabled. -/
def exec (step : σ → α → Option σ) : σ → List α → Option σ
  | s, [] => some s
  | s, a :: as => (step s a).bind fun t => exec step t as

@[simp] theorem exec_nil (s : σ) : exec step s [] = some s := rfl

@[simp] theorem exec_cons_eq_some {s u : σ} {a : α} {as : List α} :
    exec step s (a :: as) = some u ↔ ∃ t, step s a = some t ∧ exec step t as = some u :=
  Option.bind_eq_some_iff

/-- A run of a concatenation stops at exactly one state between the two parts. -/
theorem exec_append_eq_some {s u : σ} {first rest : List α} :
    exec step s (first ++ rest) = some u ↔
      ∃ t, exec step s first = some t ∧ exec step t rest = some u := by
  induction first generalizing s with
  | nil => simp
  | cons a first ih =>
      simp only [List.cons_append, exec_cons_eq_some, ih]
      constructor
      · rintro ⟨t, hstep, m, hfirst, hrest⟩
        exact ⟨m, ⟨t, hstep, hfirst⟩, hrest⟩
      · rintro ⟨m, ⟨t, hstep, hfirst⟩, hrest⟩
        exact ⟨t, hstep, m, hfirst, hrest⟩

/-- What one step preserves, a whole run preserves. -/
theorem exec_invariant {I : σ → Prop} (preserved : ∀ s a t, I s → step s a = some t → I t)
    {s t : σ} {as : List α} (start : I s) (run : exec step s as = some t) : I t := by
  induction as generalizing s with
  | nil =>
      cases run
      exact start
  | cons a as ih =>
      obtain ⟨m, hstep, hrest⟩ := exec_cons_eq_some.mp run
      exact ih (preserved s a m start hstep) hrest

/-- The invariant rule for assertions about the executed prefix and the state it led to. -/
theorem exec_history {I : List α → σ → Prop}
    (preserved : ∀ past s a t, I past s → step s a = some t → I (past ++ [a]) t)
    {s t : σ} {as : List α} (start : I [] s) (run : exec step s as = some t) : I as t := by
  have general : ∀ (rest : List α) (past : List α) (m : σ), I past m →
      exec step m rest = some t → I (past ++ rest) t := by
    intro rest
    induction rest with
    | nil =>
        intro past m hm hrun
        cases hrun
        simpa using hm
    | cons a rest ih =>
        intro past m hm hrun
        obtain ⟨m', hstep, hrest⟩ := exec_cons_eq_some.mp hrun
        simpa using ih (past ++ [a]) m' (preserved past m a m' hm hstep) hrest
  simpa using general as [] s start run

/-- Every action of the run satisfies `C` in the state it is executed in. -/
def Meets (step : σ → α → Option σ) (C : σ → α → Prop) : σ → List α → Prop
  | _, [] => True
  | s, a :: as => C s a ∧ ∀ t, step s a = some t → Meets step C t as

@[simp] theorem meets_nil {C : σ → α → Prop} (s : σ) : Meets step C s [] := trivial

theorem meets_cons {C : σ → α → Prop} {s t : σ} {a : α} {as : List α}
    (hstep : step s a = some t) :
    Meets step C s (a :: as) ↔ C s a ∧ Meets step C t as := by
  constructor
  · rintro ⟨here, later⟩
    exact ⟨here, later t hstep⟩
  · rintro ⟨here, later⟩
    refine ⟨here, fun t' hstep' => ?_⟩
    obtain rfl : t = t' := Option.some.inj (hstep.symm.trans hstep')
    exact later

/-- A condition that holds of some actions in every state is met by all runs of them. -/
theorem meets_of_forall {C : σ → α → Prop} {s : σ} {as : List α} (h : ∀ a ∈ as, ∀ t, C t a) :
    Meets step C s as := by
  induction as generalizing s with
  | nil => exact meets_nil s
  | cons a as ih =>
      refine ⟨h a List.mem_cons_self s, fun t _ => ih fun b hb => ?_⟩
      exact h b (List.mem_cons_of_mem a hb)

/-- Two conditions are met together if each of them is. -/
theorem meets_and {C D : σ → α → Prop} {s : σ} {as : List α} :
    Meets step (fun s a => C s a ∧ D s a) s as ↔ Meets step C s as ∧ Meets step D s as := by
  induction as generalizing s with
  | nil => simp
  | cons a as ih =>
      constructor
      · rintro ⟨⟨hC, hD⟩, later⟩
        exact ⟨⟨hC, fun t hstep => (ih.mp (later t hstep)).1⟩,
          ⟨hD, fun t hstep => (ih.mp (later t hstep)).2⟩⟩
      · rintro ⟨⟨hC, laterC⟩, ⟨hD, laterD⟩⟩
        exact ⟨⟨hC, hD⟩, fun t hstep => ih.mpr ⟨laterC t hstep, laterD t hstep⟩⟩

/-- A run meets a condition exactly if each of its actions does where it is executed. -/
theorem meets_iff_split {C : σ → α → Prop} {s : σ} {as : List α} :
    Meets step C s as ↔ ∀ first a rest t, as = first ++ a :: rest →
      exec step s first = some t → C t a := by
  induction as generalizing s with
  | nil => simp
  | cons a as ih =>
      constructor
      · rintro ⟨here, later⟩ first b rest t heq hrun
        cases first with
        | nil =>
            cases heq
            cases hrun
            exact here
        | cons a' first =>
            cases heq
            obtain ⟨m, hstep, hfirst⟩ := exec_cons_eq_some.mp hrun
            exact ih.mp (later m hstep) first b rest t rfl hfirst
      · intro h
        refine ⟨h [] a as s rfl rfl, fun m hstep => ih.mpr ?_⟩
        intro first b rest t heq hrun
        exact h (a :: first) b rest t (congrArg (a :: ·) heq)
          (exec_cons_eq_some.mpr ⟨m, hstep, hrun⟩)

/-- Whether a given run meets a decidable condition can be computed. -/
instance decidableMeets {C : σ → α → Prop} [∀ s a, Decidable (C s a)] :
    ∀ (s : σ) (as : List α), Decidable (Meets step C s as)
  | _, [] => isTrue trivial
  | s, a :: as =>
      match hstep : step s a with
      | none => decidable_of_iff (C s a) (by simp [Meets, hstep])
      | some t =>
          have : Decidable (Meets step C t as) := decidableMeets t as
          decidable_of_iff (C s a ∧ Meets step C t as) (meets_cons hstep).symm

/-- A property kept by the steps that meet the condition holds after every run
whose steps all meet it. -/
theorem exec_invariant_of_meets {C : σ → α → Prop} {I : σ → Prop}
    (preserved : ∀ s a t, I s → C s a → step s a = some t → I t)
    {s t : σ} {as : List α} (start : I s) (meets : Meets step C s as)
    (run : exec step s as = some t) : I t := by
  induction as generalizing s with
  | nil =>
      cases run
      exact start
  | cons a as ih =>
      obtain ⟨m, hstep, hrest⟩ := exec_cons_eq_some.mp run
      obtain ⟨here, later⟩ := (meets_cons hstep).mp meets
      exact ih (preserved s a m start here hstep) later hrest

/-- If a good end is only reached through actions that satisfy `C`, every run to a good end
meets `C`. `I` is kept as long as `D` is met. -/
theorem meets_of_final {C D : σ → α → Prop} {I Good : σ → Prop}
    (kept : ∀ s a t, I s → D s a → step s a = some t → I t)
    (needs : ∀ s a m as t, I s → D s a → step s a = some m → exec step m as = some t →
      Good t → C s a)
    {s t : σ} {as : List α} (start : I s) (meets : Meets step D s as)
    (run : exec step s as = some t) (good : Good t) : Meets step C s as := by
  induction as generalizing s with
  | nil => trivial
  | cons a as ih =>
      obtain ⟨m, hstep, hrest⟩ := exec_cons_eq_some.mp run
      obtain ⟨here, later⟩ := (meets_cons hstep).mp meets
      have hneeds : C s a := needs s a m as t start here hstep hrest good
      exact (meets_cons hstep).mpr ⟨hneeds, ih (kept s a m start here hstep) later hrest⟩

/-- Every state of a run is good exactly if its actions meet a condition that decides, action
by action, whether the next state is good. `Aux` is kept as long as the states are good. -/
theorem forall_prefix_iff_meets {C : σ → α → Prop} (Aux Good : σ → Prop)
    (aux : ∀ s a t, Aux s → Good s → step s a = some t → Aux t)
    (decides : ∀ s a t, Aux s → Good s → step s a = some t → (Good t ↔ C s a))
    {s u : σ} {as : List α} (starts : Aux s) (good : Good s) (run : exec step s as = some u) :
    (∀ first rest t, as = first ++ rest → exec step s first = some t → Good t) ↔
      Meets step C s as := by
  induction as generalizing s with
  | nil =>
      refine iff_of_true (fun first rest t heq hfirst => ?_) trivial
      obtain ⟨rfl, rfl⟩ := List.append_eq_nil_iff.mp heq.symm
      cases hfirst
      exact good
  | cons a as ih =>
      obtain ⟨m, hstep, hrest⟩ := exec_cons_eq_some.mp run
      rw [meets_cons hstep]
      constructor
      · intro h
        have hm : Good m := h [a] as m rfl (exec_cons_eq_some.mpr ⟨m, hstep, rfl⟩)
        refine ⟨(decides s a m starts good hstep).mp hm, ?_⟩
        refine (ih (aux s a m starts good hstep) hm hrest).mp fun first rest t heq hfirst => ?_
        exact h (a :: first) rest t (congrArg (a :: ·) heq)
          (exec_cons_eq_some.mpr ⟨m, hstep, hfirst⟩)
      · rintro ⟨here, later⟩ first rest t heq hfirst
        have hm : Good m := (decides s a m starts good hstep).mpr here
        cases first with
        | nil =>
            cases hfirst
            exact good
        | cons a' first =>
            cases heq
            obtain ⟨m', hstep', hfirst'⟩ := exec_cons_eq_some.mp hfirst
            obtain rfl : m = m' := Option.some.inj (hstep.symm.trans hstep')
            exact (ih (aux s a m starts good hstep) hm hrest).mpr later first rest t rfl hfirst'

/-- Two regimes: `Good` is kept while the condition is met, the first step that
violates it enters `Bad`, and `Bad` is never left. -/
theorem exec_switch {C : σ → α → Prop} {Good Bad : σ → Prop}
    (keep : ∀ s a t, Good s → C s a → step s a = some t → Good t)
    (enter : ∀ s a t, Good s → ¬ C s a → step s a = some t → Bad t)
    (stay : ∀ s a t, Bad s → step s a = some t → Bad t)
    {s t : σ} {as : List α} (start : Good s) (run : exec step s as = some t) :
    (Meets step C s as ∧ Good t) ∨ (¬ Meets step C s as ∧ Bad t) := by
  induction as generalizing s with
  | nil =>
      cases run
      exact .inl ⟨trivial, start⟩
  | cons a as ih =>
      obtain ⟨m, hstep, hrest⟩ := exec_cons_eq_some.mp run
      rw [meets_cons hstep]
      by_cases here : C s a
      · obtain ⟨later, good⟩ | ⟨later, bad⟩ := ih (keep s a m start here hstep) hrest
        · exact .inl ⟨⟨here, later⟩, good⟩
        · exact .inr ⟨fun both => later both.2, bad⟩
      · exact .inr ⟨fun both => here both.1,
          exec_invariant stay (enter s a m start here hstep) hrest⟩

end Transition
