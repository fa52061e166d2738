import UserTgBot.Userbot.CaptureLedger

/-!
# The gates of what is saved

Before `_handle` saves a message it looks for a subscription, reads the switches and looks for the
chat among the ignored ones. These are statements of their own, between which payments, settings
and `on_ignore_chat` can commit: every check holds when it is made, not when the message is saved.
-/

namespace UserTgBot.Captures

open Transition
open Notices (HandleArgs)
open Payments (activeRowsFor SubscriptionRow)
open Settings (Features)

/-- What a check of `_handle` demands of the tables. -/
def Gate.Open (w : World) (ownerUserId : Nat) (args : HandleArgs) (now : DateTime) :
    Gate → Prop
  | .subscription => ∃ sub ∈ activeRowsFor w.subs ownerUserId, sub.current now = true
  | .features => ∃ features,
      Features.fromDict (w.settings.loadFeatures ownerUserId) = some features ∧
        match args.eventType with
        | .deleted => features.deleted = true
        | .edited => features.edited = true
  | .ignored => isChatIgnored w.ignored ownerUserId args.chatId = false

/-- What a handler of `_handle` is working on. -/
structure Handling where
  h : Nat
  ownerUserId : Nat
  args : HandleArgs
  origin : Nat
  loop : Loop

namespace Handling

variable (maxSize : Int → Nat) (start : World) (actions : List Action)

/-- Step `n` of the run is the check of that handler, which is passed in the state it is made
in. -/
def Passes (x : Handling) (gate : Gate) (n : Nat) : Prop :=
  ∃ now mid, actions[n]? = some (.resume x.h (.read now)) ∧
    exec (step maxSize) start (actions.take n) = some mid ∧
    mid.handlers x.h = some (x.ownerUserId, .checking gate x.args x.origin x.loop) ∧
    gate.Open mid x.ownerUserId x.args now

/-- Step `n` of the run is the commit of that handler. -/
def Commits (x : Handling) (n : Nat) : Prop :=
  ∃ mid next, actions[n]? = some (.resume x.h .committed) ∧
    exec (step maxSize) start (actions.take n) = some mid ∧
    step maxSize mid (.resume x.h .committed) = some next ∧
    next.saved = mid.saved ++ [(savedMessage x.ownerUserId x.args, x.origin)]

/-- In the first `n` steps the handler has passed this check and those before it. -/
def Cleared (x : Handling) : Gate → Nat → Prop
  | .subscription, n => ∃ i < n, x.Passes maxSize start actions .subscription i
  | .features, n => ∃ i j, i < j ∧ j < n ∧ x.Passes maxSize start actions .subscription i ∧
      x.Passes maxSize start actions .features j
  | .ignored, n => ∃ i j k, i < j ∧ j < k ∧ k < n ∧
      x.Passes maxSize start actions .subscription i ∧
      x.Passes maxSize start actions .features j ∧ x.Passes maxSize start actions .ignored k

/-- A saved message has come through the three checks and has been committed then. -/
def Admits (x : Handling) (s : SavedMessage × Nat) : Prop :=
  s = (savedMessage x.ownerUserId x.args, x.origin) ∧
    ∃ n, x.Cleared maxSize start actions .ignored n ∧ x.Commits maxSize start actions n

end Handling

section Gates

variable {maxSize : Int → Nat} {start w w' : World} {ownerUserId : Nat} {args : HandleArgs}
variable {now : DateTime} {a : Action} {chatId : Int} {gate : Gate} {x : Handling}
variable {actions past : List Action} {n : Nat}

/-- A check that refuses nothing finds its gate open. -/
theorem open_of_refusal?_eq_none (h : w.refusal? ownerUserId args now gate = none) :
    gate.Open w ownerUserId args now := by
  cases gate with
  | subscription =>
      rw [World.refusal?, Payments.getActiveSubscriptionForUser_utc] at h
      have hdesc := OrderBy.desc_sortDesc (fun sub : SubscriptionRow => sub.createdAt)
        (activeRowsFor w.subs ownerUserId)
      cases hfind : (OrderBy.sortDesc (fun sub : SubscriptionRow => sub.createdAt)
          (activeRowsFor w.subs ownerUserId)).find? (·.current now) with
      | none =>
          rw [hfind] at h
          cases h
      | some sub =>
          have hcurrent : sub.current now = true := List.find?_some hfind
          exact ⟨sub, hdesc.mem.mp (List.mem_of_find?_eq_some hfind), hcurrent⟩
  | features =>
      rw [World.refusal?] at h
      cases hfeatures : Features.fromDict (w.settings.loadFeatures ownerUserId) with
      | none =>
          rw [hfeatures] at h
          cases h
      | some features =>
          simp only [hfeatures] at h
          split at h
          · cases h
          case isFalse hdeleted =>
            split at h
            · cases h
            case isFalse hedited =>
              refine ⟨features, hfeatures, ?_⟩
              cases hkind : args.eventType with
              | deleted => exact Bool.eq_true_of_not_eq_false fun hoff => hdeleted ⟨hkind, hoff⟩
              | edited => exact Bool.eq_true_of_not_eq_false fun hoff => hedited ⟨hkind, hoff⟩
  | ignored =>
      rw [World.refusal?] at h
      split at h
      · cases h
      case isFalse hignored => exact Bool.eq_false_of_not_eq_true hignored

namespace Handling

theorem Passes.mono (passes : x.Passes maxSize start past gate n) (grows : past <+: actions) :
    x.Passes maxSize start actions gate n := by
  obtain ⟨now, mid, haction, hrun, hrest⟩ := passes
  refine ⟨now, mid, getElem?_grown grows haction, ?_, hrest⟩
  rw [take_grown grows haction]
  exact hrun

theorem Commits.mono (commits : x.Commits maxSize start past n) (grows : past <+: actions) :
    x.Commits maxSize start actions n := by
  obtain ⟨mid, next, haction, hrun, hrest⟩ := commits
  refine ⟨mid, next, getElem?_grown grows haction, ?_, hrest⟩
  rw [take_grown grows haction]
  exact hrun

theorem Cleared.mono (cleared : x.Cleared maxSize start past gate n) (grows : past <+: actions)
    {n' : Nat} (le : n ≤ n') : x.Cleared maxSize start actions gate n' := by
  cases gate with
  | subscription =>
      obtain ⟨i, hi, hsub⟩ := cleared
      exact ⟨i, by omega, hsub.mono grows⟩
  | features =>
      obtain ⟨i, j, hij, hj, hsub, hfeatures⟩ := cleared
      exact ⟨i, j, hij, by omega, hsub.mono grows, hfeatures.mono grows⟩
  | ignored =>
      obtain ⟨i, j, k, hij, hjk, hk, hsub, hfeatures, hignored⟩ := cleared
      exact ⟨i, j, k, hij, hjk, by omega, hsub.mono grows, hfeatures.mono grows,
        hignored.mono grows⟩

theorem Admits.mono {s : SavedMessage × Nat} (admits : x.Admits maxSize start past s)
    (grows : past <+: actions) : x.Admits maxSize start actions s := by
  obtain ⟨hs, n, hcleared, hcommits⟩ := admits
  exact ⟨hs, n, hcleared.mono grows le_rfl, hcommits.mono grows⟩

/-- The next check is passed after those before it. -/
theorem Cleared.pass
    (before : ∀ gate', gate'.next = some gate → x.Cleared maxSize start actions gate' n)
    (passes : x.Passes maxSize start actions gate n) :
    x.Cleared maxSize start actions gate (n + 1) := by
  cases gate with
  | subscription => exact ⟨n, Nat.lt_succ_self n, passes⟩
  | features =>
      obtain ⟨i, hi, hsub⟩ := before .subscription rfl
      exact ⟨i, n, hi, Nat.lt_succ_self n, hsub, passes⟩
  | ignored =>
      obtain ⟨i, j, hij, hj, hsub, hfeatures⟩ := before .features rfl
      exact ⟨i, j, n, hij, hj, Nat.lt_succ_self n, hsub, hfeatures, passes⟩

end Handling

/-! ## What a run has checked -/

/-- Every handler has come through the checks before the one it is at, and so has everything
that is saved. -/
structure Checked (maxSize : Int → Nat) (start : World) (past : List Action) (w : World) :
    Prop where
  run : exec (step maxSize) start past = some w
  handlers : ∀ (x : Handling) (gate : Gate),
    w.handlers x.h = some (x.ownerUserId, afterCheck gate x.args x.origin x.loop) →
      x.Cleared maxSize start past gate past.length
  saved : ∀ s ∈ w.saved, ∃ x : Handling, x.Admits maxSize start past s

theorem exec_concat {mid : World} (run : exec (step maxSize) start past = some mid)
    (hstep : step maxSize mid a = some w') : exec (step maxSize) start (past ++ [a]) = some w' :=
  exec_append_eq_some.mpr ⟨mid, run, exec_cons_eq_some.mpr ⟨w', hstep, rfl⟩⟩

theorem take_concat_length : (past ++ [a]).take past.length = past := List.take_left' rfl

/-- One step can pass one check, or commit one message. -/
theorem Checked.step (past : List Action) (w : World) (a : Action) (w' : World)
    (checked : Checked maxSize start past w) (hstep : step maxSize w a = some w') :
    Checked maxSize start (past ++ [a]) w' := by
  have hgrows : past <+: past ++ [a] := List.prefix_append _ _
  have hlast : (past ++ [a])[past.length]? = some a := List.getElem?_concat_length ..
  have hrun : exec (Captures.step maxSize) start ((past ++ [a]).take past.length) = some w := by
    rw [take_concat_length]
    exact checked.run
  refine ⟨exec_concat checked.run hstep, fun x gate hx => ?_, fun s hs => ?_⟩
  · rw [List.length_append, List.length_singleton]
    obtain hold | ⟨args, origin, loop, now, haction, hp, hopen, hafter⟩ :=
      passed_step hstep hx (behind?_afterCheck ..)
    · exact (checked.handlers x gate hold).mono hgrows (Nat.le_succ _)
    · obtain ⟨hargs, horigin, hloop⟩ := afterCheck_inj hafter
      rw [← hargs, ← horigin, ← hloop] at hp
      rw [← hargs] at hopen
      refine Handling.Cleared.pass (fun gate' hgate' => ?_) ⟨now, w, ?_, hrun, hp, ?_⟩
      · refine (checked.handlers x gate' ?_).mono hgrows le_rfl
        rw [hp, afterCheck, hgate']
      · rw [hlast, haction]
      · exact open_of_refusal?_eq_none hopen
  · obtain hsame | ⟨h, o, args, origin, loop, haction, hp, hsaved⟩ := saved_step hstep
    · obtain ⟨x, hx⟩ := checked.saved s (hsame ▸ hs)
      exact ⟨x, hx.mono hgrows⟩
    · rw [hsaved] at hs
      obtain hold | hnew := List.mem_append.mp hs
      · obtain ⟨x, hx⟩ := checked.saved s hold
        exact ⟨x, hx.mono hgrows⟩
      · obtain rfl := List.mem_singleton.mp hnew
        obtain rfl := haction
        let x : Handling := ⟨h, o, args, origin, loop⟩
        have hcleared := checked.handlers x .ignored hp
        exact ⟨x, rfl, past.length, hcleared.mono hgrows le_rfl, w, w', hlast, hrun, hstep,
          hsaved⟩

theorem checked_initial (subs : List Subscription) (settings : Settings.Database)
    (ignored : List IgnoredChat) :
    Checked maxSize (.initial subs settings ignored) [] (.initial subs settings ignored) :=
  ⟨rfl, fun _ _ hx => (nomatch hx), fun _ hs => (nomatch hs)⟩

/-! ## Ignored chats -/

theorem ignored_addIgnoredChat {rows : List IgnoredChat} {o : Nat} {chat : Int}
    {title : Option PyText.Text} (h : isChatIgnored rows ownerUserId chatId = true) :
    isChatIgnored (addIgnoredChat rows o chat title) ownerUserId chatId = true := by
  rw [addIgnoredChat]
  split
  · exact h
  · rw [isChatIgnored, List.any_append]
    exact Bool.or_eq_true_iff.mpr (.inl h)

theorem ignored_removeIgnoredChat {rows : List IgnoredChat} {o : Nat} {chat : Int}
    (other : (o, chat) ≠ (ownerUserId, chatId))
    (h : isChatIgnored rows ownerUserId chatId = true) :
    isChatIgnored (removeIgnoredChat rows o chat) ownerUserId chatId = true := by
  obtain ⟨row, hrow, hmatch⟩ := List.any_eq_true.mp h
  obtain ⟨howner, hchat⟩ : row.ownerUserId = ownerUserId ∧ row.chatId = chatId := by
    simpa using hmatch
  refine List.any_eq_true.mpr ⟨row, List.mem_filter.mpr ⟨hrow, ?_⟩, hmatch⟩
  rw [howner, hchat, Bool.not_eq_true', Bool.and_eq_false_iff, decide_eq_false_iff_not,
    decide_eq_false_iff_not]
  by_cases ho : ownerUserId = o
  · exact .inr fun hc => other (by rw [ho, hc])
  · exact .inl ho

/-- A chat stays ignored until it is removed from the list. -/
theorem ignored_step (stays : a ≠ .removeIgnored ownerUserId chatId)
    (hstep : step maxSize w a = some w')
    (h : isChatIgnored w.ignored ownerUserId chatId = true) :
    isChatIgnored w'.ignored ownerUserId chatId = true := by
  cases a with
  | arrive k o event =>
      obtain ⟨-, hstep⟩ := Option.ite_none_right_eq_some.mp hstep
      obtain rfl := Option.some.inj hstep
      exact h
  | resume k reply =>
      obtain ⟨e, -, hr⟩ := Option.bind_eq_some_iff.mp hstep
      obtain ⟨next, frame⟩ := resume_frame hr
      exact frame.ignored ▸ h
  | addIgnored o chat title =>
      obtain rfl := Option.some.inj hstep
      exact ignored_addIgnoredChat h
  | removeIgnored o chat =>
      obtain rfl := Option.some.inj hstep
      refine ignored_removeIgnoredChat (fun heq => ?_) h
      obtain ⟨rfl, rfl⟩ := Prod.mk.inj heq
      exact stays rfl
  | outside subs settings =>
      obtain rfl := Option.some.inj hstep
      exact h

/-- Since `mid` nothing about an ignored chat has been saved but by handlers that were about to
commit then. -/
structure Silent (mid : World) (ownerUserId : Nat) (chatId : Int) (w : World) : Prop where
  ignored : isChatIgnored w.ignored ownerUserId chatId = true
  committing : ∀ h args origin loop, args.chatId = chatId →
    w.handlers h = some (ownerUserId, .committing args origin loop) →
      mid.handlers h = some (ownerUserId, .committing args origin loop)
  saved : ∀ s ∈ w.saved, s.1.ownerUserId = ownerUserId → s.1.chatId = chatId →
    s ∈ mid.saved ∨ ∃ h args loop,
      mid.handlers h = some (ownerUserId, .committing args s.2 loop) ∧
        s.1 = savedMessage ownerUserId args

/-- While the chat is ignored no handler gets past the last check. -/
theorem Silent.step {mid : World} (w : World) (a : Action) (w' : World)
    (silent : Silent mid ownerUserId chatId w) (stays : a ≠ .removeIgnored ownerUserId chatId)
    (hstep : step maxSize w a = some w') : Silent mid ownerUserId chatId w' := by
  refine ⟨ignored_step stays hstep silent.ignored, fun h args origin loop hchat hp => ?_,
    fun s hs howner hchat => ?_⟩
  · obtain hold | ⟨args', origin', loop', now, -, -, hopen, hafter⟩ := passed_step hstep hp rfl
    · exact silent.committing h args origin loop hchat hold
    · have hsame : afterCheck .ignored args origin loop =
          afterCheck .ignored args' origin' loop' := hafter
      obtain ⟨rfl, -⟩ := afterCheck_inj hsame
      have hheeded : isChatIgnored w.ignored ownerUserId args.chatId = false :=
        open_of_refusal?_eq_none hopen
      rw [hchat, silent.ignored] at hheeded
      cases hheeded
  · obtain hsame | ⟨h, o, args, origin, loop, -, hp, hsaved⟩ := saved_step hstep
    · exact silent.saved s (hsame ▸ hs) howner hchat
    · rw [hsaved] at hs
      obtain hold | hnew := List.mem_append.mp hs
      · exact silent.saved s hold howner hchat
      · obtain rfl := List.mem_singleton.mp hnew
        obtain rfl : o = ownerUserId := howner
        exact .inr ⟨h, args, loop, silent.committing h args origin loop hchat hp, rfl⟩

theorem silent_self (h : isChatIgnored w.ignored ownerUserId chatId = true) :
    Silent w ownerUserId chatId w :=
  ⟨h, fun _ _ _ _ _ hk => hk, fun _ hs _ _ => .inl hs⟩

end Gates

/-- A message is only saved by a handler that has found, one after the other, a subscription of its
owner, the switch for such reports, and the chat not ignored. From the moment a chat is ignored
nothing about it is saved any more until it is removed from the list, but by handlers that were
past the last check at that moment. -/
theorem captures_admitted (maxSize : Int → Nat) (subs : List Subscription)
    (settings : Settings.Database) (ignored : List IgnoredChat) {actions : List Action}
    {w : World} (run : exec (step maxSize) (.initial subs settings ignored) actions = some w) :
    (∀ s ∈ w.saved, ∃ x : Handling,
      x.Admits maxSize (.initial subs settings ignored) actions s) ∧
    ∀ first rest mid ownerUserId chatId, actions = first ++ rest →
      exec (step maxSize) (.initial subs settings ignored) first = some mid →
      isChatIgnored mid.ignored ownerUserId chatId = true →
      .removeIgnored ownerUserId chatId ∉ rest →
      ∀ s ∈ w.saved, s.1.ownerUserId = ownerUserId → s.1.chatId = chatId →
        s ∈ mid.saved ∨ ∃ h args loop,
          mid.handlers h = some (ownerUserId, .committing args s.2 loop) ∧
            s.1 = savedMessage ownerUserId args := by
  refine ⟨(exec_history Checked.step (checked_initial subs settings ignored) run).saved, ?_⟩
  rintro first rest mid ownerUserId chatId rfl hfirst hignored stays
  obtain ⟨mid', hfirst', hrest⟩ := exec_append_eq_some.mp run
  obtain rfl := Option.some.inj (hfirst.symm.trans hfirst')
  have hmeets : Meets (step maxSize) (fun _ a => a ≠ .removeIgnored ownerUserId chatId) mid rest :=
    meets_of_forall fun a ha _ heq => stays (heq ▸ ha)
  exact (exec_invariant_of_meets Silent.step (silent_self hignored) hmeets hrest).saved

/-- Of two deletions in the chat that is ignored meanwhile one is refused, and the other is saved
since its handler was about to commit. -/
theorem ignoredMeanwhile_refused : ∃ mid w,
    exec (step fun _ => 10) (.initial subscribed {} []) deletedMeanwhile = some mid ∧
    exec (step fun _ => 10) (.initial subscribed {} []) (deletedMeanwhile ++ ignoredMeanwhile) =
      some w ∧ w.refused = [(.chatIgnored, 12)] ∧ w.saved.map Prod.snd = [3, 4, 1, 9] ∧
    (∀ s ∈ w.saved, ∃ x : Handling, x.Admits (fun _ => 10) (.initial subscribed {} [])
      (deletedMeanwhile ++ ignoredMeanwhile) s) ∧
    ∀ s ∈ w.saved, s.1.ownerUserId = 1 → s.1.chatId = 5 → s ∈ mid.saved ∨ ∃ h args loop,
      mid.handlers h = some (1, .committing args s.2 loop) ∧ s.1 = savedMessage 1 args := by
  have hobserved : (exec (step fun _ => 10) (.initial subscribed {} [])
      (deletedMeanwhile ++ ignoredMeanwhile)).map
        (fun w => (w.refused, w.saved.map Prod.snd)) =
          some ([(.chatIgnored, 12)], [3, 4, 1, 9]) := by
    decide +kernel
  have hignored : (exec (step fun _ => 10) (.initial subscribed {} []) deletedMeanwhile).map
      (fun mid => isChatIgnored mid.ignored 1 5) = some true := by
    decide +kernel
  obtain ⟨w, hrun, hw⟩ := Option.map_eq_some_iff.mp hobserved
  obtain ⟨mid, hfirst, hmid⟩ := Option.map_eq_some_iff.mp hignored
  obtain ⟨hrefused, hsaved⟩ := Prod.mk.inj hw
  obtain ⟨hadmits, hsilent⟩ := captures_admitted _ subscribed {} [] hrun
  have hstays : .removeIgnored 1 5 ∉ ignoredMeanwhile := by simp [ignoredMeanwhile]
  exact ⟨mid, w, hfirst, hrun, hrefused, hsaved, hadmits,
    hsilent deletedMeanwhile ignoredMeanwhile mid 1 5 rfl hfirst hmid hstays⟩

end UserTgBot.Captures
