import UserTgBot.Userbot.Supervisor

/-!
# Reporting a dead session

The commit that deactivates a dead session is also what makes the next poll cancel the worker
that has still to send the notice. And a snapshot taken before that commit restarts a worker for
the session, to whom `deactivate_session` reports success once more. As long as neither happens
the owner hears exactly once of each dead session.
-/

namespace UserTgBot.Supervisor

open Transition

/-- The worker owes the notice for that ciphertext. -/
def Worker.notifies (blob : Bytes) (w : Worker) : Bool :=
  w.phase = .notifying ∧ w.args.sessionBlob = blob

def Notice.isAbout (sessionId : Nat) (blob : Bytes) (n : Notice) : Bool :=
  n.sessionId = sessionId ∧ n.sessionBlob = blob

namespace Userbot

/-- How many workers owe the notice. -/
def pending (b : Userbot) (sessionId : Nat) (blob : Bytes) : Nat :=
  (b.slots sessionId).workers.countP (Worker.notifies blob)

/-- How often the notice has been sent. -/
def sent (b : Userbot) (sessionId : Nat) (blob : Bytes) : Nat :=
  b.notices.countP (Notice.isAbout sessionId blob)

/-- Whenever a worker's death has deactivated a session and no worker of it is left, its owner
has been told exactly once. -/
def ReportedOnce (b : Userbot) : Prop :=
  ∀ sessionId blob, (sessionId, blob) ∈ b.deaths →
    (∀ w ∈ (b.slots sessionId).workers, w.phase = .done) → b.sent sessionId blob = 1

/-- A snapshot acted upon stops no worker that has still to report its death; a worker that finds
its session inactive already is not one that came after a death. -/
def InTime (b : Userbot) : Action → Prop
  | .supervise => ∀ active ∈ b.snapshot, ∀ death ∈ b.deaths,
      ∀ task ∈ (b.slots death.1).running, ∀ w ∈ (b.slots death.1).workers[task]?,
        w.notifies death.2 → (b.slots death.1).stops (active death.1) = false
  | .worker sessionId task .deactivate => ∀ w ∈ (b.slots sessionId).workers[task]?,
      ∀ row ∈ b.rows sessionId, row.session.encryptedSession = w.args.sessionBlob →
        row.session.isActive = false → (sessionId, w.args.sessionBlob) ∉ b.deaths
  | _ => True

instance (b : Userbot) (action : Action) : Decidable (b.InTime action) := by
  unfold InTime
  split <;> infer_instance

end Userbot

section Slots

variable {slot : Slot} {active : Option ActiveSession} {task : Nat}

theorem countP_modify {α : Type} {p : α → Bool} {f : α → α} (hf : ∀ a, p (f a) = p a)
    (l : List α) (i : Nat) : (l.modify i f).countP p = l.countP p := by
  induction l generalizing i with
  | nil => cases i <;> rfl
  | cons a l ih =>
      cases i with
      | zero => simp [List.countP_cons, hf]
      | succ i => simp [List.countP_cons, ih]

/-- Supervision neither settles nor makes a debt. -/
theorem countP_supervise (blob : Bytes) :
    (slot.supervise active).workers.countP (Worker.notifies blob) =
      slot.workers.countP (Worker.notifies blob) := by
  have hreap : slot.reap.workers = slot.workers := by
    rw [Slot.reap]
    split
    · rfl
    · split <;> rfl
  have hcancel : (slot.reap.cancel active).workers.countP (Worker.notifies blob) =
      slot.reap.workers.countP (Worker.notifies blob) := by
    rw [Slot.cancel]
    split
    · rfl
    · split
      · exact countP_modify (f := fun w : Worker => { w with cancelled := true }) (fun _ => rfl) _ _
      · rfl
  have hlaunch : ∀ slot : Slot, (slot.launch active).workers.countP (Worker.notifies blob) =
      slot.workers.countP (Worker.notifies blob) := by
    intro slot
    unfold Slot.launch
    split
    · rw [List.countP_append]
      rfl
    · rfl
  rw [Slot.supervise, hlaunch, hcancel, hreap]

theorem mem_cancelWorker {w : Worker} (h : w ∈ slot.cancelWorker task) :
    w ∈ slot.workers ∨
      ∃ w₀, slot.workers[task]? = some w₀ ∧ w = { w₀ with cancelled := true } := by
  obtain ⟨i, hi⟩ := List.mem_iff_getElem?.mp h
  rw [Slot.cancelWorker, List.getElem?_modify, Option.map_eq_map,
    Option.map_eq_some_iff] at hi
  obtain ⟨w₀, hw₀, heq⟩ := hi
  by_cases hsame : task = i
  · subst hsame
    rw [if_pos rfl] at heq
    exact .inr ⟨w₀, hw₀, heq.symm⟩
  · rw [if_neg hsame] at heq
    exact .inl (heq ▸ List.mem_of_getElem? hw₀)

/-- Only the running worker is cancelled, and only if it is to be stopped. -/
theorem mem_supervise {w : Worker} (h : w ∈ (slot.supervise active).workers)
    (hphase : w.phase = .notifying) :
    w ∈ slot.workers ∨ ∃ task w₀, slot.running = some task ∧ slot.workers[task]? = some w₀ ∧
      w = { w₀ with cancelled := true } ∧ slot.stops active = true := by
  have hlaunch : w ∈ (slot.reap.cancel active).workers := by
    unfold Slot.supervise Slot.launch at h
    split at h
    · obtain h | h := List.mem_append.mp h
      · exact h
      · rw [List.mem_singleton] at h
        subst h
        cases hphase
    · exact h
  have hreap : slot.reap = slot ∨ slot.reap = { slot with running := none, startedWith := none } := by
    rw [Slot.reap]
    split
    · exact .inl rfl
    · split
      · exact .inr rfl
      · exact .inl rfl
  cases hreap with
  | inr hgone =>
      rw [hgone] at hlaunch
      exact .inl hlaunch
  | inl hstays =>
      rw [hstays] at hlaunch
      rw [Slot.cancel] at hlaunch
      split at hlaunch
      · exact .inl hlaunch
      · rename_i task hrunning
        split at hlaunch
        · rename_i hstops
          refine (mem_cancelWorker hlaunch).imp_right ?_
          rintro ⟨w₀, hw₀, heq⟩
          exact ⟨task, w₀, hrunning, hw₀, heq, hstops⟩
        · exact .inl hlaunch

end Slots

/-- Each death is reported or still to be reported by one worker, who will not be interrupted;
a session that is active has neither been reported nor is it about to be. -/
structure Inv (b : Userbot) : Prop where
  inactive : ∀ death ∈ b.deaths, ∀ row, b.rows death.1 = some row → row.session.isActive = false
  told : ∀ death ∈ b.deaths, b.sent death.1 death.2 + b.pending death.1 death.2 = 1
  untold : ∀ id row, b.rows id = some row → row.session.isActive = true →
    b.sent id row.session.encryptedSession = 0 ∧ b.pending id row.session.encryptedSession = 0
  uninterrupted : ∀ death ∈ b.deaths, ∀ w ∈ (b.slots death.1).workers, w.notifies death.2 →
    w.cancelled = false

section Workers

variable {b : Userbot} {id task : Nat} {w w' : Worker}

/-- How the debts change with one worker. -/
theorem pending_setWorker (hw : (b.slots id).workers[task]? = some w) (w' : Worker)
    (blob : Bytes) :
    (b.setWorker id task w').pending id blob =
      b.pending id blob - (if w.notifies blob then 1 else 0) +
        (if w'.notifies blob then 1 else 0) := by
  obtain ⟨hlt, heq⟩ := List.getElem?_eq_some_iff.mp hw
  have hset : (b.setWorker id task w').pending id blob =
      ((b.slots id).workers.set task w').countP (Worker.notifies blob) := by
    simp [Userbot.pending, Userbot.setWorker]
  rw [hset, List.countP_set hlt, heq]
  rfl

theorem pending_setWorker_ne {other : Nat} (h : other ≠ id) (w' : Worker) (blob : Bytes) :
    (b.setWorker id task w').pending other blob = b.pending other blob := by
  simp [Userbot.pending, Userbot.setWorker, Function.update_of_ne h]

theorem pending_pos (hw : (b.slots id).workers[task]? = some w) {blob : Bytes}
    (hnotifies : w.notifies blob) : 0 < b.pending id blob :=
  List.countP_pos_iff.mpr ⟨w, List.mem_of_getElem? hw, hnotifies⟩

theorem mem_setWorker {other : Nat} {x : Worker}
    (h : x ∈ ((b.setWorker id task w').slots other).workers) :
    x ∈ (b.slots other).workers ∨ (other = id ∧ x = w') := by
  by_cases heq : other = id
  · subst heq
    have hset : x ∈ (b.slots other).workers.set task w' := by
      simpa [Userbot.setWorker] using h
    exact (List.mem_or_eq_of_mem_set hset).imp_right fun heq => ⟨rfl, heq⟩
  · rw [Userbot.setWorker] at h
    dsimp only at h
    rw [Function.update_of_ne heq] at h
    exact .inl h

/-- A worker may step aside unless it has a death to report. -/
theorem Inv.aside (h : Inv b) (hw : (b.slots id).workers[task]? = some w)
    (hquiet : w'.phase ≠ .notifying)
    (hfree : w.phase = .notifying → (id, w.args.sessionBlob) ∉ b.deaths) :
    Inv (b.setWorker id task w') := by
  have hquiet' : ∀ blob, w'.notifies blob = false := by
    intro blob
    simp [Worker.notifies, hquiet]
  have hle : ∀ other blob, (b.setWorker id task w').pending other blob ≤ b.pending other blob := by
    intro other blob
    by_cases heq : other = id
    · subst heq
      rw [pending_setWorker hw, hquiet']
      exact Nat.sub_le _ _
    · exact Nat.le_of_eq (pending_setWorker_ne heq _ blob)
  refine ⟨h.inactive, ?_, ?_, ?_⟩
  · intro death hdeath
    have hsame : (b.setWorker id task w').pending death.1 death.2 =
        b.pending death.1 death.2 := by
      by_cases heq : death.1 = id
      · have hnot : w.notifies death.2 = false := by
          rw [Bool.eq_false_iff]
          intro hnotifies
          obtain ⟨hphase, hblob⟩ := of_decide_eq_true hnotifies
          refine hfree hphase ?_
          rwa [hblob, ← heq]
        rw [heq, pending_setWorker hw, hquiet', hnot]
        rfl
      · exact pending_setWorker_ne heq _ death.2
    rw [hsame]
    exact h.told death hdeath
  · intro other row hrow hactive
    obtain ⟨hsent, hpending⟩ := h.untold other row hrow hactive
    exact ⟨hsent, Nat.le_zero.mp (hpending ▸ hle other _)⟩
  · intro death hdeath x hx hnotifies
    obtain hx | ⟨-, rfl⟩ := mem_setWorker hx
    · exact h.uninterrupted death hdeath x hx hnotifies
    · cases (hquiet' death.2).symm.trans hnotifies

theorem Inv.send (h : Inv b) (hw : (b.slots id).workers[task]? = some w)
    (hphase : w.phase = .notifying) : Inv (b.send id task w) := by
  have hquiet : ∀ blob, ({ w with phase := .ending } : Worker).notifies blob = false := by
    intro blob
    simp [Worker.notifies]
  have hsent : ∀ other blob, (b.send id task w).sent other blob =
      b.sent other blob + if other = id ∧ w.args.sessionBlob = blob then 1 else 0 := by
    intro other blob
    have habout : (⟨id, w.args.sessionBlob, w.args.ownerTelegramId⟩ : Notice).isAbout other blob =
        decide (other = id ∧ w.args.sessionBlob = blob) := by
      simp [Notice.isAbout, eq_comm]
    unfold Userbot.sent Userbot.send
    rw [List.countP_cons, habout]
    simp
  have hpending : ∀ other blob, (b.send id task w).pending other blob =
      b.pending other blob - if other = id ∧ w.args.sessionBlob = blob then 1 else 0 := by
    intro other blob
    change (b.setWorker id task { w with phase := .ending }).pending other blob = _
    by_cases heq : other = id
    · subst heq
      have hset := pending_setWorker hw { w with phase := .ending } blob
      rw [hquiet] at hset
      simpa [Worker.notifies, hphase] using hset
    · simpa [heq] using pending_setWorker_ne heq { w with phase := .ending } blob
  refine ⟨h.inactive, ?_, ?_, ?_⟩
  · intro death hdeath
    have htold := h.told death hdeath
    rw [hsent, hpending]
    split
    · rename_i hsame
      have hpos : 0 < b.pending death.1 death.2 := by
        rw [hsame.1]
        exact pending_pos hw (by simp [Worker.notifies, hphase, hsame.2])
      omega
    · simpa using htold
  · intro other row hrow hactive
    obtain ⟨hnone, hfree⟩ := h.untold other row hrow hactive
    have hother : ¬(other = id ∧ w.args.sessionBlob = row.session.encryptedSession) := by
      rintro ⟨rfl, hblob⟩
      have hnotifies : w.notifies row.session.encryptedSession := by
        simp [Worker.notifies, hphase, hblob]
      have hpos := pending_pos hw hnotifies
      omega
    rw [hsent, hpending, if_neg hother]
    exact ⟨hnone, hfree⟩
  · intro death hdeath x hx hnotifies
    obtain hx | ⟨-, rfl⟩ := mem_setWorker hx
    · exact h.uninterrupted death hdeath x hx hnotifies
    · cases (hquiet death.2).symm.trans hnotifies

/-- A worker that deactivates its session owes the notice; the session has just died, or it had
been deactivated without a death. -/
theorem Inv.deactivated (h : Inv b) (hw : (b.slots id).workers[task]? = some w)
    (hphase : w.phase = .dying) (hcancelled : w.cancelled = false) {row : SessionRow}
    (hrow : b.rows id = some row) (hblob : row.session.encryptedSession = w.args.sessionBlob)
    (inTime : row.session.isActive = false → (id, w.args.sessionBlob) ∉ b.deaths) :
    Inv { b.setWorker id task { w with phase := .notifying } with
      rows := Function.update b.rows id
        (some { row with session := { row.session with isActive := false } })
      deaths :=
        if row.session.isActive then (id, w.args.sessionBlob) :: b.deaths else b.deaths } := by
  set b' : Userbot := { b.setWorker id task { w with phase := .notifying } with
    rows := Function.update b.rows id
      (some { row with session := { row.session with isActive := false } })
    deaths := if row.session.isActive then (id, w.args.sessionBlob) :: b.deaths else b.deaths }
  have hsent : ∀ other blob, b'.sent other blob = b.sent other blob := fun _ _ => rfl
  have hpending : ∀ other blob, b'.pending other blob = b.pending other blob +
      if other = id ∧ w.args.sessionBlob = blob then 1 else 0 := by
    intro other blob
    change (b.setWorker id task { w with phase := .notifying }).pending other blob = _
    by_cases heq : other = id
    · subst heq
      rw [pending_setWorker hw]
      simp [Worker.notifies, hphase]
    · simpa [heq] using pending_setWorker_ne heq { w with phase := .notifying } blob
  -- this session has not died before
  have hfresh : (id, w.args.sessionBlob) ∉ b.deaths := by
    intro hdeath
    exact inTime (h.inactive _ hdeath row hrow) hdeath
  have hdeaths : ∀ death ∈ b'.deaths, death ∈ b.deaths ∨
      (death = (id, w.args.sessionBlob) ∧ row.session.isActive = true) := by
    intro death hdeath
    change death ∈ if row.session.isActive then _ else _ at hdeath
    split at hdeath
    · rename_i hactive
      exact (List.mem_cons.mp hdeath).symm.imp_right fun heq => ⟨heq, hactive⟩
    · exact .inl hdeath
  have hrows : ∀ other found, b'.rows other = some found →
      found.session.isActive = false ∨ (other ≠ id ∧ b.rows other = some found) := by
    intro other found hfound
    change Function.update b.rows id _ other = some found at hfound
    by_cases heq : other = id
    · subst heq
      rw [Function.update_self] at hfound
      cases hfound
      exact .inl rfl
    · rw [Function.update_of_ne heq] at hfound
      exact .inr ⟨heq, hfound⟩
  constructor
  · intro death hdeath found hfound
    obtain hinactive | ⟨hne, hold⟩ := hrows death.1 found hfound
    · exact hinactive
    · obtain hdeath | ⟨heq, -⟩ := hdeaths death hdeath
      · exact h.inactive death hdeath found hold
      · exact absurd (congrArg Prod.fst heq) hne
  · intro death hdeath
    rw [hsent, hpending]
    obtain hdeath | ⟨rfl, hactive⟩ := hdeaths death hdeath
    · have hne : ¬(death.1 = id ∧ w.args.sessionBlob = death.2) := by
        rintro ⟨hid, heq⟩
        exact hfresh (hid ▸ heq ▸ hdeath)
      rw [if_neg hne]
      exact h.told death hdeath
    · obtain ⟨hnone, hfree⟩ := h.untold id row hrow hactive
      rw [hblob] at hnone hfree
      simp [hnone, hfree]
  · intro other found hfound hactive
    obtain hinactive | ⟨hne, hold⟩ := hrows other found hfound
    · cases hactive.symm.trans hinactive
    · rw [hsent, hpending, if_neg fun hsame => hne hsame.1]
      exact h.untold other found hold hactive
  · intro death hdeath x hx hnotifies
    obtain hx | ⟨-, rfl⟩ := mem_setWorker hx
    · obtain hdeath | ⟨rfl, hactive⟩ := hdeaths death hdeath
      · exact h.uninterrupted death hdeath x hx hnotifies
      · have hfree := (h.untold id row hrow hactive).2
        rw [hblob] at hfree
        have hpos : 0 < b.pending id w.args.sessionBlob :=
          List.countP_pos_iff.mpr ⟨x, hx, hnotifies⟩
        omega
    · exact hcancelled

theorem Inv.deactivate (h : Inv b) (hw : (b.slots id).workers[task]? = some w)
    (hphase : w.phase = .dying) (hcancelled : w.cancelled = false)
    (inTime : b.InTime (.worker id task .deactivate)) : Inv (b.deactivate id task w) := by
  have hdying : w.phase = .notifying → (id, w.args.sessionBlob) ∉ b.deaths := by
    intro hnotifying
    cases hphase.symm.trans hnotifying
  rw [Userbot.deactivate]
  split
  · exact h.aside hw nofun hdying
  · rename_i row hrow
    split
    · exact h.aside hw nofun hdying
    · rename_i session hsession
      obtain ⟨hblob, rfl⟩ := deactivateSession_eq_some.mp hsession
      exact h.deactivated hw hphase hcancelled hrow hblob (inTime w hw row hrow hblob)

theorem Inv.work (h : Inv b) (hw : (b.slots id).workers[task]? = some w) {action : WorkerAction}
    (inTime : b.InTime (.worker id task action)) {b' : Userbot}
    (hwork : b.work id task w action = some b') : Inv b' := by
  have hlive : ∀ {phase : WorkerPhase}, (w.phase = phase ∧ !w.cancelled) →
      w.cancelled = false := fun hguard => by simpa using hguard.2
  have hquiet : ∀ {phase : WorkerPhase}, w.phase = phase → phase ≠ .notifying →
      w.phase = .notifying → (id, w.args.sessionBlob) ∉ b.deaths :=
    fun hphase hne hnotifying => absurd (hphase.symm.trans hnotifying) hne
  cases action <;> dsimp only [Userbot.work] at hwork <;> split at hwork <;> cases hwork <;>
    rename_i hguard
  case die => exact h.aside hw nofun (hquiet hguard.1 nofun)
  case stop => exact h.aside hw nofun (hquiet hguard.1 nofun)
  case deactivate => exact h.deactivate hw hguard.1 (hlive hguard) inTime
  case send => exact h.send hw hguard.1
  case finish => exact h.aside hw nofun (hquiet hguard.1 nofun)
  case interrupt =>
    -- a worker with a death to report is not cancelled
    refine h.aside hw nofun fun hphase hdeath => ?_
    have hnot := h.uninterrupted _ hdeath w (List.mem_of_getElem? hw)
      (by simp [Worker.notifies, hphase])
    cases hguard.1.symm.trans hnot

end Workers

section Rounds

variable {b b' : Userbot}

/-- A snapshot acted upon in time interrupts no report. -/
theorem Inv.supervise (h : Inv b) {active : Nat → Option ActiveSession}
    (hsnapshot : b.snapshot = some active) (inTime : b.InTime .supervise) :
    Inv { b with slots := fun id => (b.slots id).supervise (active id), snapshot := none } := by
  have hpending : ∀ id blob, Userbot.pending { b with
      slots := fun id => (b.slots id).supervise (active id), snapshot := none } id blob =
      b.pending id blob := fun _ _ => countP_supervise _
  refine ⟨h.inactive, ?_, ?_, ?_⟩
  · intro death hdeath
    rw [hpending]
    exact h.told death hdeath
  · intro id row hrow hactive
    rw [hpending]
    exact h.untold id row hrow hactive
  · intro death hdeath w hw hnotifies
    rcases mem_supervise hw (of_decide_eq_true hnotifies).1 with
      hw | ⟨task, w₀, hrunning, hw₀, rfl, hstops⟩
    · exact h.uninterrupted death hdeath w hw hnotifies
    · have hkeeps := inTime active hsnapshot death hdeath task hrunning w₀ hw₀ hnotifies
      cases hstops.symm.trans hkeeps

theorem unlink_isActive {row : SessionRow} {userId : Nat}
    (h : (row.unlink userId).session.isActive = true) : row.unlink userId = row := by
  rw [SessionRow.unlink] at h ⊢
  split
  · rename_i heq
    simp [heq] at h
  · rfl

theorem Inv.unlink (h : Inv b) (userId : Nat) :
    Inv { b with rows := fun id => (b.rows id).map fun row => row.unlink userId } := by
  refine ⟨?_, h.told, ?_, h.uninterrupted⟩
  · intro death hdeath found hfound
    obtain ⟨row, hrow, rfl⟩ := Option.map_eq_some_iff.mp hfound
    have hinactive := h.inactive death hdeath row hrow
    by_contra hactive
    have hsame := unlink_isActive (eq_true_of_ne_false hactive)
    rw [hsame] at hactive
    exact hactive hinactive
  · intro id found hfound hactive
    obtain ⟨row, hrow, rfl⟩ := Option.map_eq_some_iff.mp hfound
    have hsame := unlink_isActive hactive
    rw [hsame] at hactive ⊢
    exact h.untold id row hrow hactive

theorem Inv.step {decrypt : Bytes → Option String} (b : Userbot) (action : Action) (b' : Userbot)
    (h : Inv b) (inTime : b.InTime action) (hstep : step decrypt b action = some b') :
    Inv b' := by
  cases action with
  | load =>
      dsimp only [Supervisor.step] at hstep
      split at hstep
      · cases hstep
        exact ⟨h.inactive, h.told, h.untold, h.uninterrupted⟩
      · cases hstep
  | supervise =>
      obtain ⟨active, hsnapshot, rfl⟩ := Option.map_eq_some_iff.mp hstep
      exact h.supervise hsnapshot inTime
  | worker id task action =>
      obtain ⟨w, hw, hwork⟩ := Option.bind_eq_some_iff.mp hstep
      exact h.work hw inTime hwork
  | unlink userId =>
      cases hstep
      exact h.unlink userId

theorem inv_start (rows : Nat → Option SessionRow) : Inv (start rows) where
  inactive := nofun
  told := nofun
  untold := fun _ _ _ _ => ⟨rfl, rfl⟩
  uninterrupted := nofun

end Rounds

/-- In a run whose steps are all in time, the owner of a session that has died is told exactly
once. -/
theorem reported_once {decrypt : Bytes → Option String} {rows : Nat → Option SessionRow}
    {actions : List Action} {b : Userbot}
    (inTime : Meets (step decrypt) Userbot.InTime (start rows) actions)
    (run : exec (step decrypt) (start rows) actions = some b) : b.ReportedOnce := by
  have h : Inv b := exec_invariant_of_meets Inv.step (inv_start rows) inTime run
  intro id blob hdeath hdone
  have htold := h.told _ hdeath
  have hnone : b.pending id blob = 0 := by
    refine List.countP_eq_zero.mpr fun w hw hnotifies => ?_
    cases (hdone w hw).symm.trans (of_decide_eq_true hnotifies).1
  rw [hnone] at htold
  exact htold

section Runs

/-- One active session with id 1. -/
def oneSession : Nat → Option SessionRow := fun id =>
  if id = 1 then some ⟨7, 700, none, ⟨[1], true⟩⟩ else none

/-- The ciphertext that stands for every session string. -/
def anyString : Bytes → Option String := fun _ => some "session"

def ending : List Action :=
  [.worker 1 0 .deactivate, .worker 1 0 .send, .worker 1 0 .finish]

/-- The worker of the session reports its death between two polls. -/
def timelyReport : List Action :=
  [.load, .supervise, .worker 1 0 .die] ++ ending ++ [.load, .supervise]

theorem timelyReport_once : ∃ b, exec (step anyString) (start oneSession) timelyReport = some b ∧
    b.deaths = [(1, [1])] ∧ b.ReportedOnce := by
  have hobserved : (exec (step anyString) (start oneSession) timelyReport).map Userbot.deaths =
      some [(1, [1])] := by
    decide +kernel
  obtain ⟨b, hrun, hdeaths⟩ := Option.map_eq_some_iff.mp hobserved
  exact ⟨b, hrun, hdeaths, reported_once (by decide +kernel) hrun⟩

/-- A poll falls between the commit and the notice. -/
def lostReport : List Action :=
  [.load, .supervise, .worker 1 0 .die, .worker 1 0 .deactivate, .load, .supervise,
    .worker 1 0 .interrupt]

/-- The snapshot of a poll is from before the commit, and starts a second worker after it. -/
def doubledReport : List Action :=
  [.load, .supervise, .worker 1 0 .die, .load] ++ ending ++
    [.supervise, .worker 1 1 .die, .worker 1 1 .deactivate, .worker 1 1 .send, .worker 1 1 .finish]

/-- What can be seen of a run: the death, that no worker is left, and the notices. -/
def outcome (b : Userbot) : Bool × Bool × Nat :=
  (b.deaths = [(1, [1])], (b.slots 1).workers.all (·.phase = .done), b.sent 1 [1])

theorem not_reportedOnce {b : Userbot} {n : Nat} (h : outcome b = (true, true, n))
    (hn : n ≠ 1) : ¬b.ReportedOnce := by
  simp only [outcome, Prod.mk.injEq, decide_eq_true_eq, List.all_eq_true] at h
  obtain ⟨hdeaths, hdone, hsent⟩ := h
  intro hreported
  exact hn (hsent ▸ hreported 1 [1] (by simp [hdeaths]) hdone)

/-- The notice is lost in one run and sent twice in the other. -/
theorem reports_lost_and_doubled :
    (∃ b, exec (step anyString) (start oneSession) lostReport = some b ∧ b.sent 1 [1] = 0 ∧
      ¬b.ReportedOnce) ∧
    ∃ b, exec (step anyString) (start oneSession) doubledReport = some b ∧ b.sent 1 [1] = 2 ∧
      ¬b.ReportedOnce := by
  have hlost : (exec (step anyString) (start oneSession) lostReport).map outcome =
      some (true, true, 0) := by
    decide +kernel
  have hdoubled : (exec (step anyString) (start oneSession) doubledReport).map outcome =
      some (true, true, 2) := by
    decide +kernel
  obtain ⟨b, hrun, hb⟩ := Option.map_eq_some_iff.mp hlost
  obtain ⟨b', hrun', hb'⟩ := Option.map_eq_some_iff.mp hdoubled
  exact ⟨⟨b, hrun, congrArg (·.2.2) hb, not_reportedOnce hb (by decide)⟩,
    ⟨b', hrun', congrArg (·.2.2) hb', not_reportedOnce hb' (by decide)⟩⟩

end Runs

end UserTgBot.Supervisor
