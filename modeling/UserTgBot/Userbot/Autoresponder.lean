import UserTgBot.Library.Spacing
import UserTgBot.Library.Transition
import UserTgBot.Settings.Schedule

/-!
# The cooldown of the autoresponder

`maybe_reply` and `_respond` of `userbot/handlers/autoresponder.py` in one worker. Every message
is handled by a task of its own, and the tasks take turns at every `await`; what is awaited
answers with an action. The text of the reply and the notice to the owner are left out.

A reply is out before the call that sends it returns, and the table of the last replies is
written only after that. Times are those of `time.monotonic()`, taken as exact rationals: the
code subtracts floats, which may round a difference that is next to the cooldown.
-/

namespace UserTgBot.Autoresponder

open PyJson PyText Settings Spacing Transition

def COOLDOWN_SECONDS : ℚ := 3600

/-- `_on_cooldown` for the entry of a sender. -/
def onCooldown (last : Option ℚ) (now : ℚ) : Bool :=
  match last with
  | none => false
  | some last => now - last < COOLDOWN_SECONDS

/-! ## Interleavings -/

/-- A message, as far as `maybe_reply` looks at it. -/
structure Event where
  isPrivate : Bool
  senderId : Option Int
deriving DecidableEq

/-- What a handler that is not on cooldown has tested: the entry of its sender, and when. -/
structure Test where
  sender : Int
  time : ℚ
  seen : Option ℚ
deriving DecidableEq

/-- How far a handler has come. A reply that is out is `delivered` until its call returns, and
`lost` if the call raises all the same. -/
inductive Phase where
  | idle
  | resolving (test : Test)
  | gating (test : Test)
  | configuring (test : Test)
  | loading (test : Test)
  | sending (test : Test) (photo : Bool)
  | delivered (test : Test) (sent : ℚ)
  | lost (test : Test) (sent : ℚ)
  | notifying (test : Test) (sent : ℚ)
  | replied (test : Test) (sent : ℚ)
  | declined
  | failed
deriving DecidableEq

/-- `last` is `ctx.autoresponder_last`. The handlers whose reply is out are listed in
`replies`, which the code does not have. -/
structure State where
  now : ℚ
  last : Int → Option ℚ
  phase : Nat → Phase
  replies : List Nat

/-- Time passes, a message comes, or an `await` of a handler is answered: the sender, the gate,
the configuration with the time of day, the photo. A reply goes out, its call returns, and the
owner has been notified; or the `await` raises. -/
inductive Action where
  | tick (seconds : ℚ)
  | incoming (id : Nat) (event : Event)
  | sender (id : Nat) (bot : Bool)
  | gate (id : Nat) (granted : Bool)
  | config (id : Nat) (stored : Json) (timeOfDay : PyTime)
  | media (id : Nat) (data : Option (List UInt8))
  | deliver (id : Nat)
  | sent (id : Nat)
  | notified (id : Nat)
  | raise (id : Nat)

namespace State

def setPhase (s : State) (id : Nat) (phase : Phase) : State :=
  { s with phase := Function.update s.phase id phase }

def initial (now : ℚ) (last : Int → Option ℚ) : State := ⟨now, last, fun _ => .idle, []⟩

end State

/-- `maybe_reply` up to its first `await`. -/
def beginReply (s : State) (event : Event) : Phase :=
  match event.isPrivate, event.senderId with
  | true, some sender =>
      if onCooldown (s.last sender) s.now then .declined
      else .resolving ⟨sender, s.now, s.last sender⟩
  | _, _ => .declined

/-- `_respond` with the stored configuration, up to its next `await`. -/
def configure (test : Test) (stored : Json) (timeOfDay : PyTime) : Phase :=
  match Settings.Autoresponder.fromDict stored with
  | none => .failed
  | some ar =>
      match autoresponderShouldFire ar timeOfDay test.sender true with
      | none => .failed
      | some false => .declined
      | some true => if ar.hasPhoto then .loading test else .sending test false

/-- What an exception at an `await` leads to. -/
def Phase.raised? : Phase → Option Phase
  | .resolving _ => some .failed
  | .gating _ => some .failed
  | .configuring _ => some .failed
  | .loading _ => some .failed
  | .sending _ _ => some .failed
  | .delivered test sent => some (.lost test sent)
  | .notifying test sent => some (.replied test sent)
  | _ => none

def step (s : State) : Action → Option State
  | .tick seconds => if 0 ≤ seconds then some { s with now := s.now + seconds } else none
  | .incoming id event =>
      match s.phase id with
      | .idle => some (s.setPhase id (beginReply s event))
      | _ => none
  | .sender id bot =>
      match s.phase id with
      | .resolving test => some (s.setPhase id (if bot then .declined else .gating test))
      | _ => none
  | .gate id granted =>
      match s.phase id with
      | .gating test => some (s.setPhase id (if granted then .configuring test else .declined))
      | _ => none
  | .config id stored timeOfDay =>
      match s.phase id with
      | .configuring test => some (s.setPhase id (configure test stored timeOfDay))
      | _ => none
  | .media id data =>
      match s.phase id with
      -- an empty photo is sent as no photo
      | .loading test => some (s.setPhase id (.sending test (data.getD [] ≠ [])))
      | _ => none
  | .deliver id =>
      match s.phase id with
      | .sending test _ =>
          some { s.setPhase id (.delivered test s.now) with replies := id :: s.replies }
      | _ => none
  | .sent id =>
      match s.phase id with
      | .delivered test sent =>
          some { s.setPhase id (.notifying test sent) with
            last := Function.update s.last test.sender (some s.now) }
      | _ => none
  | .notified id =>
      match s.phase id with
      | .notifying test sent => some (s.setPhase id (.replied test sent))
      | _ => none
  | .raise id => (s.phase id).raised?.map (s.setPhase id)

/-! ## What is wanted -/

/-- To whom and when the reply of a handler went out. -/
def Phase.sent? : Phase → Option (Int × ℚ)
  | .delivered test sent => some (test.sender, sent)
  | .lost test sent => some (test.sender, sent)
  | .notifying test sent => some (test.sender, sent)
  | .replied test sent => some (test.sender, sent)
  | _ => none

/-- The replies to one sender. -/
def State.sentTo (s : State) (sender : Int) (id : Nat) : Option ℚ :=
  match (s.phase id).sent? with
  | some (other, sent) => if other = sender then some sent else none
  | none => none

/-- The reply is out, but not in the table. -/
def Phase.isUnrecorded : Phase → Bool
  | .delivered _ _ => true
  | .lost _ _ => true
  | _ => false

/-- The handler has decided not to reply, or it has failed before its reply was out. -/
def Phase.IsSilent (phase : Phase) : Prop := phase = .declined ∨ phase = .failed

/-- Whose action it is. -/
def Action.handler? : Action → Option Nat
  | .tick _ => none
  | .incoming id _ => some id
  | .sender id _ => some id
  | .gate id _ => some id
  | .config id _ _ => some id
  | .media id _ => some id
  | .deliver id => some id
  | .sent id => some id
  | .notified id => some id
  | .raise id => some id

/-- A reply goes out only while the entry that its handler has tested is still the one in the
table, and no reply to the same sender is out without being in the table. -/
def Fresh (s : State) : Action → Prop
  | .deliver id =>
      match s.phase id with
      | .sending test _ => s.last test.sender = test.seen ∧
          ∀ j ∈ s.replies, (s.phase j).isUnrecorded → s.sentTo test.sender j = none
      | _ => True
  | _ => True

instance (s : State) (a : Action) : Decidable (Fresh s a) := by
  unfold Fresh
  split
  · split <;> infer_instance
  · infer_instance

/-- From its test to its reply a handler takes less than half the cooldown, the call that sends
a reply takes less than that, and none stays out without being in the table for the whole
cooldown. -/
def Prompt (s : State) : Action → Prop
  | .deliver id =>
      match s.phase id with
      | .sending test _ => 2 * (s.now - test.time) < COOLDOWN_SECONDS ∧
          ∀ j ∈ s.replies, (s.phase j).isUnrecorded → ∀ sent ∈ s.sentTo test.sender j,
            s.now - sent < COOLDOWN_SECONDS
      | _ => True
  | .sent id =>
      match s.phase id with
      | .delivered _ sent => 2 * (s.now - sent) < COOLDOWN_SECONDS
      | _ => True
  | _ => True

/-! ## What a step does -/

/-- What a handler has tested, as long as its reply is not out. -/
def Phase.test? : Phase → Option Test
  | .resolving test => some test
  | .gating test => some test
  | .configuring test => some test
  | .loading test => some test
  | .sending test _ => some test
  | _ => none

section Steps

variable {s t : State} {a : Action} {id j : Nat} {phase : Phase} {test : Test} {sender : Int}

@[simp] theorem phase_setPhase_self : (s.setPhase id phase).phase id = phase :=
  Function.update_self ..

theorem phase_setPhase (h : j ≠ id) : (s.setPhase id phase).phase j = s.phase j :=
  Function.update_of_ne h ..

/-- What is true of a phase after a handler has moved is true of its new phase, or it is about
another handler and was true before. -/
theorem of_setPhase {P : Phase → Prop} (h : P ((s.setPhase id phase).phase j)) :
    (j = id ∧ P phase) ∨ (j ≠ id ∧ P (s.phase j)) := by
  by_cases hj : j = id
  · rw [hj, phase_setPhase_self] at h
    exact .inl ⟨hj, h⟩
  · rw [phase_setPhase hj] at h
    exact .inr ⟨hj, h⟩

/-- Everything an enabled step does: time passes; a handler tests the cooldown; it waits for the
next answer or gives up; its reply goes out, is recorded, or only its phase changes then. -/
inductive Moved (s : State) : Action → State → Prop where
  | tick {seconds : ℚ} (positive : 0 ≤ seconds) :
      Moved s (.tick seconds) { s with now := s.now + seconds }
  | test {id : Nat} {event : Event} {test : Test} (idle : s.phase id = .idle)
      (now : test.time = s.now) (seen : test.seen = s.last test.sender)
      (passed : onCooldown test.seen test.time = false) :
      Moved s (.incoming id event) (s.setPhase id (.resolving test))
  | wait {a : Action} {id : Nat} {phase : Phase} {test : Test} (handler : a.handler? = some id)
      (before : (s.phase id).test? = some test) (after : phase.test? = some test) :
      Moved s a (s.setPhase id phase)
  | giveUp {a : Action} {id : Nat} {phase : Phase} (handler : a.handler? = some id)
      (before : (s.phase id).sent? = none) (after : phase.IsSilent) :
      Moved s a (s.setPhase id phase)
  | deliver {id : Nat} {test : Test} {photo : Bool} (sending : s.phase id = .sending test photo) :
      Moved s (.deliver id)
        { s.setPhase id (.delivered test s.now) with replies := id :: s.replies }
  | record {id : Nat} {test : Test} {sent : ℚ} (delivered : s.phase id = .delivered test sent) :
      Moved s (.sent id) { s.setPhase id (.notifying test sent) with
        last := Function.update s.last test.sender (some s.now) }
  | leave {a : Action} {id : Nat} {phase : Phase} (handler : a.handler? = some id)
      (sent : phase.sent? = (s.phase id).sent?) (out : (s.phase id).sent? ≠ none)
      (unrecorded : phase.isUnrecorded = (s.phase id).isUnrecorded) :
      Moved s a (s.setPhase id phase)

theorem step_moved (h : step s a = some t) : Moved s a t := by
  cases a with
  | tick seconds =>
      obtain ⟨hpositive, h⟩ := Option.ite_none_right_eq_some.mp h
      obtain rfl := Option.some.inj h
      exact .tick hpositive
  | incoming id event =>
      cases hphase : s.phase id <;> simp only [step, hphase, reduceCtorEq] at h
      case idle =>
        obtain rfl := Option.some.inj h
        have hdeclined : Moved s (.incoming id event) (s.setPhase id .declined) :=
          .giveUp rfl (by rw [hphase]; rfl) (.inl rfl)
        obtain ⟨isPrivate, senderId⟩ := event
        cases isPrivate with
        | false => exact hdeclined
        | true =>
            cases senderId with
            | none => exact hdeclined
            | some sender =>
                cases hcooldown : onCooldown (s.last sender) s.now with
                | true =>
                    have hbegin : beginReply s ⟨true, some sender⟩ = .declined := if_pos hcooldown
                    rwa [hbegin]
                | false =>
                    have hbegin : beginReply s ⟨true, some sender⟩ =
                        .resolving ⟨sender, s.now, s.last sender⟩ := by
                      simp [beginReply, hcooldown]
                    rw [hbegin]
                    exact .test hphase rfl rfl hcooldown
  | sender id bot =>
      cases hphase : s.phase id <;> simp only [step, hphase, reduceCtorEq] at h
      case resolving test =>
        obtain rfl := Option.some.inj h
        cases bot with
        | true => exact .giveUp rfl (by rw [hphase]; rfl) (.inl rfl)
        | false => exact .wait rfl (by rw [hphase]; rfl) rfl
  | gate id granted =>
      cases hphase : s.phase id <;> simp only [step, hphase, reduceCtorEq] at h
      case gating test =>
        obtain rfl := Option.some.inj h
        cases granted with
        | false => exact .giveUp rfl (by rw [hphase]; rfl) (.inl rfl)
        | true => exact .wait rfl (by rw [hphase]; rfl) rfl
  | config id stored timeOfDay =>
      cases hphase : s.phase id <;> simp only [step, hphase, reduceCtorEq] at h
      case configuring test =>
        obtain rfl := Option.some.inj h
        have hbefore : (s.phase id).test? = some test := by
          rw [hphase]
          rfl
        have hunsent : (s.phase id).sent? = none := by
          rw [hphase]
          rfl
        unfold configure
        split
        · exact .giveUp rfl hunsent (.inr rfl)
        · split
          · exact .giveUp rfl hunsent (.inr rfl)
          · exact .giveUp rfl hunsent (.inl rfl)
          · split
            · exact .wait rfl hbefore rfl
            · exact .wait rfl hbefore rfl
  | media id data =>
      cases hphase : s.phase id <;> simp only [step, hphase, reduceCtorEq] at h
      case loading test =>
        obtain rfl := Option.some.inj h
        exact .wait rfl (by rw [hphase]; rfl) rfl
  | deliver id =>
      cases hphase : s.phase id <;> simp only [step, hphase, reduceCtorEq] at h
      case sending test photo =>
        obtain rfl := Option.some.inj h
        exact .deliver hphase
  | sent id =>
      cases hphase : s.phase id <;> simp only [step, hphase, reduceCtorEq] at h
      case delivered test sent =>
        obtain rfl := Option.some.inj h
        exact .record hphase
  | notified id =>
      cases hphase : s.phase id <;> simp only [step, hphase, reduceCtorEq] at h
      case notifying test sent =>
        obtain rfl := Option.some.inj h
        exact .leave rfl (by rw [hphase]; rfl) (by rw [hphase]; exact Option.some_ne_none _)
          (by rw [hphase]; rfl)
  | raise id =>
      obtain ⟨phase, hraised, rfl⟩ := Option.map_eq_some_iff.mp h
      cases hphase : s.phase id <;> rw [hphase] at hraised <;> obtain ⟨⟩ := hraised
      case delivered | notifying =>
        exact .leave rfl (by rw [hphase]; rfl) (by rw [hphase]; exact Option.some_ne_none _)
          (by rw [hphase]; rfl)
      all_goals exact .giveUp rfl (by rw [hphase]; rfl) (.inr rfl)

theorem sentTo_setPhase_ne (h : j ≠ id) :
    (s.setPhase id phase).sentTo sender j = s.sentTo sender j := by
  rw [State.sentTo, phase_setPhase h, State.sentTo]

theorem sentTo_of_sent? {sent : ℚ} (h : (s.phase j).sent? = some (sender, sent)) :
    s.sentTo sender j = some sent := by
  simp [State.sentTo, h]

theorem sentTo_eq_some {sent : ℚ} :
    s.sentTo sender j = some sent ↔ (s.phase j).sent? = some (sender, sent) := by
  refine ⟨fun h => ?_, sentTo_of_sent?⟩
  rw [State.sentTo] at h
  cases hsent : (s.phase j).sent? with
  | none => simp [hsent] at h
  | some entry =>
      obtain ⟨other, sent'⟩ := entry
      rw [hsent] at h
      obtain ⟨hother, hsent'⟩ := Option.ite_none_right_eq_some.mp h
      rw [hother, Option.some.inj hsent']

theorem Phase.sent?_of_test? (h : phase.test? = some test) : phase.sent? = none := by
  cases phase <;> first | rfl | cases h

/-- A reply that is out stays out, at the same time. -/
theorem sent?_step {entry : Int × ℚ} (hstep : step s a = some t)
    (h : (s.phase j).sent? = some entry) : (t.phase j).sent? = some entry := by
  have hmove : ∀ {id phase}, (s.phase id).sent? = none →
      ((s.setPhase id phase).phase j).sent? = some entry := by
    intro id phase hnone
    have hne : j ≠ id := by
      rintro rfl
      rw [hnone] at h
      cases h
    rwa [phase_setPhase hne]
  have hkeep : ∀ {id phase}, phase.sent? = (s.phase id).sent? →
      ((s.setPhase id phase).phase j).sent? = some entry := by
    intro id phase hsame
    by_cases hj : j = id
    · subst hj
      rwa [phase_setPhase_self, hsame]
    · rwa [phase_setPhase hj]
  cases step_moved hstep with
  | tick => exact h
  | test idle => exact hmove (by rw [idle]; rfl)
  | wait _ before => exact hmove (Phase.sent?_of_test? before)
  | giveUp _ before => exact hmove before
  | deliver sending => exact hmove (by rw [sending]; rfl)
  | record delivered => exact hkeep (by rw [delivered]; rfl)
  | leave _ sent => exact hkeep sent

/-! ## What a handler knows -/

/-- As in a test that the cooldown has let through. `Known` is what else is known of it. -/
structure Tested (Known : Test → Prop) (now : ℚ) (test : Test) : Prop where
  time : test.time ≤ now
  passed : ∀ last, test.seen = some last → COOLDOWN_SECONDS ≤ test.time - last
  known : Known test

structure Inv (Known : Test → Prop) (s : State) : Prop where
  tested : ∀ id test, (s.phase id).test? = some test → Tested Known s.now test
  out : ∀ id sender sent, (s.phase id).sent? = some (sender, sent) → id ∈ s.replies ∧ sent ≤ s.now
  recorded : ∀ id sender sent, (s.phase id).sent? = some (sender, sent) →
    (s.phase id).isUnrecorded = false → ∃ last, s.last sender = some last ∧ sent ≤ last

variable {Known Known' : Test → Prop}

theorem Tested.later {now later : ℚ} (h : Tested Known now test) (le : now ≤ later) :
    Tested Known later test :=
  ⟨h.time.trans le, h.passed, h.known⟩

theorem Inv.mono (h : Inv Known s)
    (imp : ∀ test, test.time ≤ s.now → Known test → Known' test) : Inv Known' s := by
  refine ⟨fun id test htest => ?_, h.out, h.recorded⟩
  have htested := h.tested id test htest
  exact ⟨htested.time, htested.passed, imp test htested.time htested.known⟩

theorem onCooldown_eq_false {seen : Option ℚ} {now : ℚ} (h : onCooldown seen now = false) :
    ∀ last, seen = some last → COOLDOWN_SECONDS ≤ now - last := by
  rintro last rfl
  exact not_lt.mp (of_decide_eq_false h)

/-- A handler changes its phase while no reply goes out and none is recorded. -/
theorem Inv.setPhase (h : Inv Known s)
    (tested : ∀ test, phase.test? = some test → Tested Known s.now test)
    (sent : phase.sent? = (s.phase id).sent?)
    (unrecorded : phase.sent? ≠ none → phase.isUnrecorded = (s.phase id).isUnrecorded) :
    Inv Known (s.setPhase id phase) := by
  refine ⟨fun j test htest => ?_, fun j sender d hd => ?_, fun j sender d hd hrecorded => ?_⟩
  · obtain ⟨-, hnew⟩ | ⟨-, hold⟩ := of_setPhase (P := (·.test? = some test)) htest
    · exact tested test hnew
    · exact h.tested j test hold
  · obtain ⟨rfl, hnew⟩ | ⟨-, hold⟩ := of_setPhase (P := (·.sent? = some (sender, d))) hd
    · exact h.out j sender d (sent ▸ hnew)
    · exact h.out j sender d hold
  · obtain ⟨rfl, hnew, hknown⟩ | ⟨-, hold, hbefore⟩ :=
      of_setPhase (P := fun p => p.sent? = some (sender, d) ∧ p.isUnrecorded = false)
        ⟨hd, hrecorded⟩
    · rw [unrecorded (by rw [hnew]; exact Option.some_ne_none _)] at hknown
      exact h.recorded j sender d (sent ▸ hnew) hknown
    · exact h.recorded j sender d hold hbefore

theorem Inv.deliver (h : Inv Known s) :
    Inv Known { s.setPhase id (.delivered test s.now) with replies := id :: s.replies } := by
  refine ⟨fun j x hx => ?_, fun j sender d hd => ?_, fun j sender d hd hrecorded => ?_⟩
  · obtain ⟨-, hnew⟩ | ⟨-, hold⟩ := of_setPhase (P := (·.test? = some x)) hx
    · cases hnew
    · exact h.tested j x hold
  · obtain ⟨rfl, hnew⟩ | ⟨-, hold⟩ := of_setPhase (P := (·.sent? = some (sender, d))) hd
    · obtain ⟨-, rfl⟩ := Prod.mk.inj (Option.some.inj hnew)
      exact ⟨List.mem_cons_self .., le_refl _⟩
    · obtain ⟨hmem, hle⟩ := h.out j sender d hold
      exact ⟨List.mem_cons_of_mem _ hmem, hle⟩
  · obtain ⟨-, -, hknown⟩ | ⟨-, hold, hbefore⟩ :=
      of_setPhase (P := fun p => p.sent? = some (sender, d) ∧ p.isUnrecorded = false)
        ⟨hd, hrecorded⟩
    · cases hknown
    · exact h.recorded j sender d hold hbefore

theorem Inv.record {sent : ℚ} (h : Inv Known s) (delivered : s.phase id = .delivered test sent) :
    Inv Known { s.setPhase id (.notifying test sent) with
      last := Function.update s.last test.sender (some s.now) } := by
  have hsame : (Phase.notifying test sent).sent? = (s.phase id).sent? := by
    rw [delivered]
    rfl
  have hout : ∀ j sender d, ((s.setPhase id (.notifying test sent)).phase j).sent? =
      some (sender, d) → j ∈ s.replies ∧ d ≤ s.now := by
    intro j sender d hd
    obtain ⟨rfl, hnew⟩ | ⟨-, hold⟩ := of_setPhase (P := (·.sent? = some (sender, d))) hd
    · exact h.out j sender d (hsame ▸ hnew)
    · exact h.out j sender d hold
  refine ⟨fun j x hx => ?_, hout, fun j sender d hd hrecorded => ?_⟩
  · obtain ⟨-, hnew⟩ | ⟨-, hold⟩ := of_setPhase (P := (·.test? = some x)) hx
    · cases hnew
    · have htested := h.tested j x hold
      exact ⟨htested.time, htested.passed, htested.known⟩
  · change ∃ last, Function.update s.last test.sender (some s.now) sender = some last ∧ d ≤ last
    by_cases hsender : sender = test.sender
    · rw [hsender, Function.update_self]
      exact ⟨s.now, rfl, (hout j sender d hd).2⟩
    · rw [Function.update_of_ne hsender]
      obtain ⟨-, hnew, -⟩ | ⟨-, hold, hbefore⟩ :=
        of_setPhase (P := fun p => p.sent? = some (sender, d) ∧ p.isUnrecorded = false)
          ⟨hd, hrecorded⟩
      · exact absurd (congrArg Prod.fst (Option.some.inj hnew)).symm hsender
      · exact h.recorded j sender d hold hbefore

theorem Inv.step (h : Inv Known s)
    (known : ∀ test, test.seen = s.last test.sender → Known test)
    (hstep : Autoresponder.step s a = some t) : Inv Known t := by
  cases step_moved hstep with
  | tick positive =>
      have hlater : s.now ≤ s.now + _ := le_add_of_nonneg_right positive
      refine ⟨fun j x hx => ?_, fun j sender d hd => ?_, h.recorded⟩
      · exact (h.tested j x hx).later hlater
      · obtain ⟨hmem, hle⟩ := h.out j sender d hd
        exact ⟨hmem, hle.trans hlater⟩
  | test idle now seen passed =>
      refine h.setPhase (fun x hx => ?_) (by rw [idle]; rfl) fun hsent => absurd rfl hsent
      obtain rfl := Option.some.inj hx
      exact ⟨le_of_eq now, onCooldown_eq_false passed, known _ seen⟩
  | @wait _ id phase test _ before after =>
      have hunsent := Phase.sent?_of_test? after
      refine h.setPhase (fun x hx => ?_) ?_ fun hsent => absurd hunsent hsent
      · obtain rfl := Option.some.inj (after.symm.trans hx)
        exact h.tested id test before
      · rw [hunsent, Phase.sent?_of_test? before]
  | giveUp _ before after =>
      obtain rfl | rfl := after
      · exact h.setPhase (fun x hx => by cases hx) before.symm fun hsent => absurd rfl hsent
      · exact h.setPhase (fun x hx => by cases hx) before.symm fun hsent => absurd rfl hsent
  | deliver => exact h.deliver
  | record delivered => exact h.record delivered
  | @leave _ id phase _ sent out unrecorded =>
      refine h.setPhase (fun x hx => ?_) sent fun _ => unrecorded
      exact absurd (sent.symm.trans (Phase.sent?_of_test? hx)) out

theorem inv_initial (now : ℚ) (last : Int → Option ℚ) : Inv Known (.initial now last) :=
  ⟨fun _ _ h => (by cases h), fun _ _ _ h => (by cases h), fun _ _ _ h => (by cases h)⟩

end Steps

/-! ## Fresh replies -/

section Runs

variable {s t : State} {a : Action} {id j : Nat} {test : Test} {sender : Int}

theorem sentTo_step {sent : ℚ} (hstep : step s a = some t) (h : s.sentTo sender j = some sent) :
    t.sentTo sender j = some sent :=
  sentTo_of_sent? (sent?_step hstep (sentTo_eq_some.mp h))

/-- Only a reply that goes out adds to the replies to a sender. -/
theorem sentTo_eq_or (hstep : step s a = some t) :
    (∀ sender, t.sentTo sender = s.sentTo sender) ∨
      ∃ id test photo, a = .deliver id ∧ s.phase id = .sending test photo ∧
        t.sentTo test.sender id = some s.now ∧
          (∀ sender, sender ≠ test.sender → t.sentTo sender id = none) ∧
            ∀ sender j, j ≠ id → t.sentTo sender j = s.sentTo sender j := by
  have hsame : ∀ {id phase}, phase.sent? = (s.phase id).sent? →
      ∀ sender, (s.setPhase id phase).sentTo sender = s.sentTo sender := by
    intro id phase hsent sender
    funext j
    by_cases hj : j = id
    · rw [hj, State.sentTo, phase_setPhase_self, hsent, State.sentTo]
    · exact sentTo_setPhase_ne hj
  cases step_moved hstep with
  | tick => exact .inl fun _ => rfl
  | test idle => exact .inl (hsame (by rw [idle]; rfl))
  | wait _ before after =>
      exact .inl (hsame ((Phase.sent?_of_test? after).trans (Phase.sent?_of_test? before).symm))
  | giveUp _ before after =>
      refine .inl (hsame (Eq.trans ?_ before.symm))
      obtain rfl | rfl := after <;> rfl
  | record delivered => exact .inl (hsame (by rw [delivered]; rfl))
  | leave _ sent => exact .inl (hsame sent)
  | @deliver id test photo sending =>
      refine .inr ⟨id, test, photo, rfl, sending, ?_, fun sender hne => ?_, fun sender j hj => ?_⟩
      · exact sentTo_of_sent? (congrArg Phase.sent? phase_setPhase_self)
      · cases hout : State.sentTo _ sender id with
        | none => rfl
        | some sent =>
            have hsent := sentTo_eq_some.mp hout
            change ((s.setPhase id _).phase id).sent? = _ at hsent
            rw [phase_setPhase_self] at hsent
            exact absurd (congrArg Prod.fst (Option.some.inj hsent)).symm hne
      · exact sentTo_setPhase_ne hj

/-- The replies to every sender are the cooldown apart. -/
def Apart (s : State) : Prop := ∀ sender, Spaced COOLDOWN_SECONDS (s.sentTo sender)

/-- A fresh reply is late enough after all others to its sender. -/
theorem apart_step (h : Inv (fun _ => True) s) (apart : Apart s) (fresh : Fresh s a)
    (hstep : step s a = some t) : Apart t := by
  intro sender
  obtain hsame | ⟨id, test, photo, rfl, hphase, hown, hother, hrest⟩ := sentTo_eq_or hstep
  · rw [hsame]
    exact apart sender
  · rw [Fresh, hphase] at fresh
    obtain ⟨hseen, hrecorded⟩ := fresh
    have htested := h.tested id test (by rw [hphase]; rfl)
    by_cases hsender : sender = test.sender
    · subst hsender
      have hlate : ∀ j sent, s.sentTo test.sender j = some sent →
          COOLDOWN_SECONDS ≤ s.now - sent := by
        intro j sent hj
        obtain ⟨hmem, -⟩ := h.out j test.sender sent (sentTo_eq_some.mp hj)
        have hin : (s.phase j).isUnrecorded = false := by
          by_contra hunrecorded
          have hnone := hrecorded j hmem (Bool.not_eq_false _ ▸ hunrecorded)
          rw [hnone] at hj
          cases hj
        obtain ⟨last, hlast, hle⟩ := h.recorded j test.sender sent (sentTo_eq_some.mp hj) hin
        have hpassed := htested.passed last (hseen ▸ hlast)
        have htime := htested.time
        linarith
      apply (apart test.sender).of_late hlate (i := id)
      · intro j sent hj hsent
        rwa [hrest _ j hj] at hsent
      · intro sent hsent
        rw [hown] at hsent
        exact (Option.some.inj hsent).symm
    · refine (apart sender).of_subset fun j sent hsent => ?_
      by_cases hj : j = id
      · rw [hj, hother sender hsender] at hsent
        cases hsent
      · rwa [hrest sender j hj] at hsent

/-- The entry that a handler has tested is still in the table, or a reply has been recorded
since then whose call did not take long. -/
def Recent (s : State) (test : Test) : Prop :=
  s.last test.sender = test.seen ∨ ∃ j sent, s.sentTo test.sender j = some sent ∧
    2 * (test.time - sent) < COOLDOWN_SECONDS ∧ sent ≤ s.now

theorem now_le_step (hstep : step s a = some t) : s.now ≤ t.now := by
  cases step_moved hstep with
  | tick positive => exact le_add_of_nonneg_right positive
  | _ => exact le_refl _

/-- Only the return of a call that sends a reply writes to the table. -/
theorem last_eq_or (hstep : step s a = some t) :
    t.last = s.last ∨ ∃ id test sent, a = .sent id ∧ s.phase id = .delivered test sent ∧
      t.now = s.now ∧ t.phase id = .notifying test sent ∧
        t.last = Function.update s.last test.sender (some s.now) := by
  cases step_moved hstep with
  | @record id test sent delivered =>
      exact .inr ⟨id, test, sent, rfl, delivered, rfl, phase_setPhase_self, rfl⟩
  | _ => exact .inl rfl

theorem recent_step (h : Inv (Recent s) s) (prompt : Prompt s a) (hstep : step s a = some t) :
    Inv (Recent t) t := by
  have hinv : Inv (Recent s) t := h.step (fun _ hseen => .inl hseen.symm) hstep
  refine hinv.mono fun test htime hrecent => ?_
  obtain hsame | ⟨j, sent, hsent, hclose, hle⟩ := hrecent
  · obtain hlast | ⟨id, other, sent, rfl, hphase, hnow, -, hlast⟩ := last_eq_or hstep
    · exact .inl (by rw [hlast, hsame])
    · by_cases hsender : test.sender = other.sender
      · rw [Prompt, hphase] at prompt
        have hout := (h.out id other.sender sent (by rw [hphase]; rfl)).2
        rw [hnow] at htime
        refine .inr ⟨id, sent, ?_, by linarith, hnow ▸ hout⟩
        apply sentTo_step hstep
        rw [hsender]
        exact sentTo_of_sent? (by rw [hphase]; rfl)
      · refine .inl ?_
        rw [hlast, Function.update_of_ne hsender, hsame]
  · exact .inr ⟨j, sent, sentTo_step hstep hsent, hclose, hle.trans (now_le_step hstep)⟩

theorem fresh_or_delivers (a : Action) (s : State) :
    Fresh s a ∨ ∃ id test photo, a = .deliver id ∧ s.phase id = .sending test photo := by
  cases a with
  | deliver id =>
      rw [Fresh]
      cases hphase : s.phase id with
      | sending test photo => exact .inr ⟨id, test, photo, rfl, hphase⟩
      | _ => exact .inl trivial
  | _ => exact .inl trivial

/-- A reply that is not fresh, of a handler that does not take long either, is too close to the
one that has gone out in between. -/
theorem fresh_of_apart (h : Inv (Recent s) s) (prompt : Prompt s a)
    (hstep : step s a = some t) (apart : Apart t) : Fresh s a := by
  obtain hfresh | ⟨id, test, photo, rfl, hphase⟩ := fresh_or_delivers a s
  · exact hfresh
  · have htested := h.tested id test (by rw [hphase]; rfl)
    have hnone : s.sentTo test.sender id = none := by
      simp [State.sentTo, hphase, Phase.sent?]
    have hown : t.sentTo test.sender id = some s.now := by
      rw [step, hphase] at hstep
      obtain rfl := Option.some.inj hstep
      exact sentTo_of_sent? (congrArg Phase.sent? phase_setPhase_self)
    have hlate : ∀ j sent, s.sentTo test.sender j = some sent →
        COOLDOWN_SECONDS ≤ s.now - sent := by
      intro j sent hsent
      have hne : id ≠ j := by
        rintro rfl
        rw [hnone] at hsent
        cases hsent
      have hout := (h.out j test.sender sent (sentTo_eq_some.mp hsent)).2
      exact (apart test.sender).le_sub hne hown (sentTo_step hstep hsent) hout
    rw [Prompt, hphase] at prompt
    rw [Fresh, hphase]
    obtain ⟨htime, hcalls⟩ := prompt
    refine ⟨?_, fun j hj hunrecorded => ?_⟩
    · obtain hsame | ⟨j, sent, hsent, hclose, -⟩ := htested.known
      · exact hsame
      · have hapart := hlate j sent hsent
        linarith
    · cases hsent : s.sentTo test.sender j with
      | none => rfl
      | some sent =>
          have hapart := hlate j sent hsent
          have hopen := hcalls j hj hunrecorded sent hsent
          linarith

theorem apart_of_run {run : List Action} (hrun : exec step s run = some t) (apart : Apart t) :
    Apart s := by
  intro sender
  refine (apart sender).of_subset fun j sent hsent => ?_
  exact exec_invariant (fun _ _ _ h hstep => sentTo_step hstep h) hsent hrun

theorem meets_fresh_of_apart {run : List Action} (h : Inv (Recent s) s)
    (hrun : exec step s run = some t) (prompt : Meets step Prompt s run) (apart : Apart t) :
    Meets step Fresh s run := by
  have hneeds : ∀ s a m rest t, Inv (Recent s) s → Prompt s a → step s a = some m →
      exec step m rest = some t → Apart t → Fresh s a :=
    fun s a m rest t hinv hprompt hstep hrest hapart =>
      fresh_of_apart hinv hprompt hstep (apart_of_run hrest hapart)
  exact meets_of_final (fun s a t => recent_step) hneeds h prompt hrun apart

/-! ## Handlers that do not reply -/

/-- A handler that writes to the table does not end in silence. -/
theorem last_eq_of_silent {run : List Action} {m : State} (hstep : step s a = some m)
    (hrun : exec step m run = some t) (own : a.handler? = some id)
    (silent : (t.phase id).IsSilent) : m.last = s.last := by
  obtain hlast | ⟨id', test, sent, rfl, -, -, hphase, -⟩ := last_eq_or hstep
  · exact hlast
  · obtain rfl : id' = id := Option.some.inj own
    have hsent : (m.phase id').sent? = some (test.sender, sent) := by
      rw [hphase]
      rfl
    have hfinal := exec_invariant (I := fun s => (s.phase id').sent? = some (test.sender, sent))
      (fun _ _ _ h hstep => sent?_step hstep h) hsent hrun
    obtain hphase' | hphase' := silent <;> · rw [hphase'] at hfinal; cases hfinal

end Runs

/-- If every reply goes out only while the entry that its handler has tested is the one in the
table, and no other reply to the sender is out without being there, then any two replies to one
sender are the cooldown apart. Where no handler and no call takes half the cooldown, this is
also necessary. In any case no action of a handler that ends without a reply changes the table. -/
theorem replies_apart_of_fresh (now : ℚ) (last : Int → Option ℚ) (run : List Action) (t : State)
    (hrun : exec step (.initial now last) run = some t) :
    (Meets step Fresh (.initial now last) run →
        ∀ sender, Spaced COOLDOWN_SECONDS (t.sentTo sender)) ∧
      (Meets step Prompt (.initial now last) run →
        (∀ sender, Spaced COOLDOWN_SECONDS (t.sentTo sender)) →
          Meets step Fresh (.initial now last) run) ∧
        ∀ first a rest s m id, run = first ++ a :: rest →
          exec step (.initial now last) first = some s → step s a = some m →
            a.handler? = some id → (t.phase id).IsSilent → m.last = s.last := by
  refine ⟨fun fresh => ?_, fun prompt apart => ?_, ?_⟩
  · have hkept := exec_invariant_of_meets (I := fun s => Inv (fun _ => True) s ∧ Apart s)
      (fun s a t h hfresh hstep =>
        ⟨h.1.step (fun _ _ => trivial) hstep, apart_step h.1 h.2 hfresh hstep⟩)
      ⟨inv_initial now last, fun sender i j a b _ ha => (by cases ha)⟩ fresh hrun
    exact hkept.2
  · exact meets_fresh_of_apart (inv_initial now last) hrun prompt apart
  · rintro first a rest s m id rfl hfirst hstep own silent
    obtain ⟨s', hfirst', hrest⟩ := exec_append_eq_some.mp hrun
    obtain rfl := Option.some.inj (hfirst.symm.trans hfirst')
    obtain ⟨m', hstep', hrest⟩ := exec_cons_eq_some.mp hrest
    obtain rfl := Option.some.inj (hstep.symm.trans hstep')
    exact last_eq_of_silent hstep hrest own silent

/-- The stored configuration of an autoresponder without a photo. -/
def away : Json := .dict [("enabled", .bool true), ("message", .str (text "away"))]

/-- The answers that a handler needs until it sends. -/
def answers (id : Nat) : List Action := [.sender id false, .gate id true, .config id away .midnight]

/-- Two messages of one sender, an hour apart. -/
def hourlyRun : List Action :=
  .incoming 1 ⟨true, some 7⟩ :: answers 1 ++ [.deliver 1, .sent 1, .notified 1, .tick 3600] ++
    .incoming 2 ⟨true, some 7⟩ :: answers 2 ++ [.deliver 2, .sent 2, .notified 2]

/-- Two messages of one sender, a second apart. -/
def burstRun : List Action :=
  [.incoming 1 ⟨true, some 7⟩, .tick 1, .incoming 2 ⟨true, some 7⟩] ++ answers 1 ++ answers 2 ++
    [.deliver 1, .sent 1, .deliver 2, .sent 2]

def nobody : Int → Option ℚ := fun _ => none

theorem hourlyRun_apart : ∃ t, exec step (.initial 0 nobody) hourlyRun = some t ∧
    t.sentTo 7 1 = some 0 ∧ t.sentTo 7 2 = some 3600 ∧ Spaced COOLDOWN_SECONDS (t.sentTo 7) := by
  have hsent : (exec step (.initial 0 nobody) hourlyRun).map
      (fun t => (t.sentTo 7 1, t.sentTo 7 2)) = some (some 0, some 3600) := by
    decide +kernel
  obtain ⟨t, hrun, hpair⟩ := Option.map_eq_some_iff.mp hsent
  obtain ⟨hfirst, hsecond⟩ := Prod.mk.inj hpair
  exact ⟨t, hrun, hfirst, hsecond,
    (replies_apart_of_fresh 0 nobody hourlyRun t hrun).1 (by decide +kernel) 7⟩

theorem burstRun_not_apart : ∃ t, exec step (.initial 0 nobody) burstRun = some t ∧
    t.sentTo 7 1 = some 1 ∧ t.sentTo 7 2 = some 1 ∧
      ¬ Spaced COOLDOWN_SECONDS (t.sentTo 7) := by
  have hsent : (exec step (.initial 0 nobody) burstRun).map
      (fun t => (t.sentTo 7 1, t.sentTo 7 2)) = some (some 1, some 1) := by
    decide +kernel
  obtain ⟨t, hrun, hpair⟩ := Option.map_eq_some_iff.mp hsent
  obtain ⟨hfirst, hsecond⟩ := Prod.mk.inj hpair
  refine ⟨t, hrun, hfirst, hsecond, fun h => ?_⟩
  exact absurd (h 1 2 1 1 (by decide) hfirst hsecond) (by decide +kernel)

end UserTgBot.Autoresponder
