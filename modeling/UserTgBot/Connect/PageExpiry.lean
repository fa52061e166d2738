import UserTgBot.Connect.PageUsable

/-!
# What stays behind an expired page

`expire` shows a screen and `finish` shows another, and neither stops what is in flight. An await
that is answered later still shows the step for the password or saves the attempt that `expire` has
cleared away, and `start` goes on after a first tick that has found the time up. Without these
three the expired screen is final, and no attempt is left behind it or behind the last screen.
-/

namespace UserTgBot.MiniappPage

open Transition

/-- The page shows the expired or the last screen. -/
def Page.Over (page : Page) : Prop := page.active = some .expired ∨ page.active = some .done

instance (page : Page) : Decidable page.Over := inferInstanceAs (Decidable (_ ∨ _))

/-- The expired screen is final, and no attempt is stored behind it or behind the last one. -/
structure Closed (page : Page) : Prop where
  final : page.shown.Pairwise fun later earlier =>
    earlier = .expired → later = .expired ∨ later = .done
  forgotten : page.Over → page.pending = none

/-- The time is not up when the script starts. No sign-in that is answered by the demand for the
password, and no code that is sent and saved, comes too late for the page. -/
def InTime (page : Page) : Action → Prop
  | .start => page.data.initData = true → page.data.expiredOnLoad = false → page.timeUp = false
  | .settle (.signIn _ _) (.threw .sessionPasswordNeeded) => .expired ∉ page.shown
  | .settle .sendCode (.sent _ stored) => stored = true → ¬page.Over
  | _ => True

/-- `InTime` as it is computed. -/
def inTime (page : Page) : Action → Bool
  | .start => page.data.initData → page.data.expiredOnLoad = false → page.timeUp = false
  | .settle (.signIn _ _) (.threw .sessionPasswordNeeded) => .expired ∉ page.shown
  | .settle .sendCode (.sent _ stored) => stored → ¬page.Over
  | _ => true

theorem inTime_iff {page : Page} {action : Action} :
    inTime page action = true ↔ InTime page action := by
  unfold inTime InTime
  split
  · exact decide_eq_true_iff
  · exact decide_eq_true_iff
  · exact decide_eq_true_iff
  · exact iff_of_true rfl trivial

instance (page : Page) (action : Action) : Decidable (InTime page action) :=
  decidable_of_iff _ inTime_iff

/-- A tick that finds time left shows nothing. -/
theorem quiet_startTimer {page : Page} (time : page.timeUp = false) :
    Quiet page page.startTimer := by
  have hticks : ({ page with ringTimer := true } : Page).timeUp = false := time
  unfold Page.startTimer Page.tick
  split
  · rw [hticks]
    exact ⟨rfl, .inl rfl⟩
  · exact ⟨rfl, .inl rfl⟩

namespace Closed

variable {page next : Page}

theorem loaded (data : Data) (pending : Option Pending) (now : Int) :
    Closed (loaded data pending now) where
  final := List.Pairwise.nil
  forgotten := by
    rintro (hexpired | hdone)
    · cases hexpired
    · cases hdone

theorem quiet (h : Closed page) (quiet : Quiet page next) : Closed next where
  final := by
    rw [quiet.shown]
    exact h.final
  forgotten := by
    intro hover
    obtain hpending | hpending := quiet.pending
    · rw [hpending]
      apply h.forgotten
      rwa [Page.Over, Page.active, quiet.shown] at hover
    · exact hpending

/-- A new screen comes before the expired one or is final itself. -/
theorem cons (h : Closed page) {stepId : Step} (shown : next.shown = stepId :: page.shown)
    (final : .expired ∉ page.shown ∨ stepId = .expired ∨ stepId = .done)
    (forgotten : stepId = .expired ∨ stepId = .done → next.pending = none) : Closed next where
  final := by
    rw [shown]
    refine List.pairwise_cons.mpr ⟨fun earlier hearlier hexpired => ?_, h.final⟩
    subst hexpired
    exact final.resolve_left fun hnot => hnot hearlier
  forgotten := by
    intro hover
    apply forgotten
    simpa [Page.Over, Page.active, shown] using hover

/-- What one step in time keeps. -/
theorem step {action : Action} (h : Closed page) (inTime : InTime page action)
    (hstep : step page action = some next) : Closed next := by
  cases step_effect hstep with
  | quiet quiet => exact h.quiet quiet
  | outside fresh shown =>
      refine h.cons shown (.inl ?_) (by simp)
      rw [fresh]
      exact List.not_mem_nil
  | code fresh initData load shown pending =>
      have htimer : Quiet page page.startTimer := quiet_startTimer (inTime initData load)
      refine (h.quiet htimer).cons shown (.inl ?_) (by simp)
      rw [htimer.shown, fresh]
      exact List.not_mem_nil
  | saved shown =>
      have hlive : ¬page.Over := inTime rfl
      refine ⟨?_, fun hover => ?_⟩
      · rw [shown]
        exact h.final
      · rw [Page.Over, Page.active, shown] at hover
        exact absurd hover hlive
  | twoFa shown pending => exact h.cons shown (.inl inTime) (by simp)
  | expired shown pending => exact h.cons shown (.inr (.inl rfl)) fun _ => pending
  | done accepted shown pending => exact h.cons shown (.inr (.inr rfl)) fun _ => pending

/-- A code that is sent to a page that is over leaves an attempt behind it. -/
theorem of_codeSent {phoneCodeHash : JsString} (h : Closed (page.codeSent phoneCodeHash true))
    (connected : page.connected = true) : ¬page.Over := by
  intro hover
  cases hclient : page.client with
  | none => simp [Page.connected, Page.link, hclient] at connected
  | some client =>
      have hforgotten := h.forgotten
      simp only [Page.codeSent, hclient, Page.savePending, if_true, Page.Over, Page.active]
        at hforgotten
      cases hforgotten hover

/-- A step that is not in time does not keep it. -/
theorem inTime_of_step {action : Action} (h : Closed next)
    (hstep : MiniappPage.step page action = some next) : InTime page action := by
  cases action with
  | start =>
      intro hinit hload
      by_contra htime
      obtain ⟨-, hnext⟩ := Option.ite_none_right_eq_some.mp hstep
      cases hnext
      have hstart : page.start = page.expire.begin := by
        rw [← startTimer_of_timeUp (by simpa using htime)]
        simp [Page.start, hinit, hload]
      have hshown : page.start.shown = .code :: .expired :: page.shown := by
        rw [hstart]
        exact (Quiet.begin page.expire).shown
      have hfinal := h.final
      rw [hshown, List.pairwise_cons] at hfinal
      exact absurd (hfinal.1 .expired List.mem_cons_self rfl) (by decide)
  | settle task outcome =>
      obtain ⟨⟨-, hends⟩, hnext⟩ := Option.ite_none_right_eq_some.mp hstep
      cases hnext
      unfold InTime
      split
      · trivial
      · next haction =>
          cases haction
          have hfinal := List.pairwise_cons.mp h.final
          intro hexpired
          exact absurd (hfinal.1 .expired hexpired rfl) (by decide)
      · next stored haction =>
          cases haction
          rintro rfl hover
          exact of_codeSent h hends hover
      · trivial
  | _ => trivial

end Closed

/-- The condition is exact for the states of a run. -/
theorem closed_iff_inTime {data : Data} {pending : Option Pending} {now : Int}
    {actions : List Action} {last : Page}
    (run : exec step (loaded data pending now) actions = some last) :
    (∀ first rest page, actions = first ++ rest →
        exec step (loaded data pending now) first = some page → Closed page) ↔
      Meets step InTime (loaded data pending now) actions := by
  refine forall_prefix_iff_meets (fun _ => True) Closed (fun _ _ _ _ _ _ => trivial) ?_ trivial
    (Closed.loaded data pending now) run
  intro page action next _ hclosed hstep
  exact ⟨fun hnext => hnext.inTime_of_step hstep, fun inTime => hclosed.step inTime hstep⟩

section Runs

end Runs

end UserTgBot.MiniappPage
