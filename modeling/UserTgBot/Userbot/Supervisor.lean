import Mathlib.Logic.Function.Basic
import UserTgBot.Db.Queries
import UserTgBot.Library.Transition

/-!
# The supervisor and its workers

`userbot/main.py` polls for active sessions and keeps a worker task for each; `userbot/worker.py`
is the worker. The snapshot of a poll is taken in one step and acted upon in a later one, without
an await in between: it treats the sessions one by one and independently, so here it maps the
slots of all sessions. A worker gives way between its own steps, and a cancelled task gets no
further than its present await. Owners may unlink at any time.

Texts and keyboards of notices are left out, and so is everything a healthy worker does.
-/

namespace UserTgBot.Supervisor

/-- A row of `sessions` with what a poll joins to it. -/
structure SessionRow where
  userId : Nat
  telegramId : Int
  languageCode : Option String
  session : Session
deriving DecidableEq

/-- An active session as `_load_active_sessions` returns it, except for its id. -/
structure ActiveSession where
  ownerUserId : Nat
  ownerTelegramId : Int
  lang : String
  sessionString : String
  sessionBlob : Bytes
deriving DecidableEq

inductive WorkerPhase where
  /-- Connecting, or running until disconnected. -/
  | running
  /-- About to deactivate the session. -/
  | dying
  /-- Deactivated and committed, about to send the notice. -/
  | notifying
  | ending
  | done
deriving DecidableEq

/-- A task that runs `run_worker` with these arguments. -/
structure Worker where
  args : ActiveSession
  phase : WorkerPhase := .running
  cancelled : Bool := false
deriving DecidableEq

/-- What there is under one session id: all tasks started so far, and the entries of the
dictionaries `running` and `started_with`. -/
structure Slot where
  workers : List Worker := []
  running : Option Nat := none
  startedWith : Option String := none
deriving DecidableEq

/-- The `session_invalid` notice of a worker that has found its session dead. -/
structure Notice where
  sessionId : Nat
  sessionBlob : Bytes
  chatId : Int
deriving DecidableEq

structure Userbot where
  rows : Nat → Option SessionRow
  /-- The result of a poll that has not been acted upon yet. -/
  snapshot : Option (Nat → Option ActiveSession)
  slots : Nat → Slot
  notices : List Notice
  /-- The sessions that a worker has turned from active to inactive, by id and ciphertext. -/
  deaths : List (Nat × Bytes)

def start (rows : Nat → Option SessionRow) : Userbot where
  rows := rows
  snapshot := none
  slots := fun _ => {}
  notices := []
  deaths := []

inductive WorkerAction where
  /-- Telegram reports that the session is dead or not authorized. -/
  | die
  /-- The worker crashes or disconnects for another reason. -/
  | stop
  | deactivate
  | send
  | finish
  /-- The `CancelledError` arrives. -/
  | interrupt
deriving DecidableEq

inductive Action where
  | load
  | supervise
  | worker (sessionId task : Nat) (action : WorkerAction)
  | unlink (userId : Nat)
deriving DecidableEq

/-- The part of `_load_active_sessions` that deals with one row; rows that cannot be decrypted
are skipped. -/
def loadActive (decrypt : Bytes → Option String) (row : SessionRow) : Option ActiveSession :=
  if row.session.isActive then
    (decrypt row.session.encryptedSession).map fun sessionString =>
      { ownerUserId := row.userId
        ownerTelegramId := row.telegramId
        lang := if row.languageCode.getD "" = "" then "uk" else row.languageCode.getD ""
        sessionString
        sessionBlob := row.session.encryptedSession }
  else none

namespace Slot

/-- `task.cancel()`. -/
def cancelWorker (slot : Slot) (task : Nat) : List Worker :=
  slot.workers.modify task fun w => { w with cancelled := true }

/-- Forget a task that is done. -/
def reap (slot : Slot) : Slot :=
  match slot.running with
  | none => slot
  | some task =>
      if slot.workers[task]?.any (·.phase = .done) then
        { slot with running := none, startedWith := none }
      else slot

/-- The session is not active any more, or has been linked again. -/
def stops (slot : Slot) : Option ActiveSession → Bool
  | none => true
  | some active => slot.startedWith ≠ some active.sessionString

/-- Cancel the worker of a session that is inactive or linked again. -/
def cancel (slot : Slot) (active : Option ActiveSession) : Slot :=
  match slot.running with
  | none => slot
  | some task =>
      if slot.stops active then
        { workers := slot.cancelWorker task, running := none, startedWith := none }
      else slot

/-- Start a worker for an active session that has none. -/
def launch (slot : Slot) (active : Option ActiveSession) : Slot :=
  match slot.running, active with
  | none, some args =>
      { workers := slot.workers ++ [{ args }]
        running := some slot.workers.length
        startedWith := some args.sessionString }
  | _, _ => slot

/-- One round of `_supervise` for one session. -/
def supervise (slot : Slot) (active : Option ActiveSession) : Slot :=
  (slot.reap.cancel active).launch active

end Slot

namespace Userbot

def setWorker (b : Userbot) (sessionId task : Nat) (w : Worker) : Userbot :=
  { b with
    slots := Function.update b.slots sessionId
      { b.slots sessionId with workers := (b.slots sessionId).workers.set task w } }

/-- `deactivate_session` for the worker's ciphertext, and the commit. -/
def deactivate (b : Userbot) (sessionId task : Nat) (w : Worker) : Userbot :=
  match b.rows sessionId with
  | none => b.setWorker sessionId task { w with phase := .ending }
  | some row =>
      match deactivateSession (some w.args.sessionBlob) row.session with
      | none => b.setWorker sessionId task { w with phase := .ending }
      | some session =>
          let b := b.setWorker sessionId task { w with phase := .notifying }
          { b with
            rows := Function.update b.rows sessionId (some { row with session })
            deaths :=
              if row.session.isActive then (sessionId, w.args.sessionBlob) :: b.deaths
              else b.deaths }

def send (b : Userbot) (sessionId task : Nat) (w : Worker) : Userbot :=
  { b.setWorker sessionId task { w with phase := .ending } with
    notices := ⟨sessionId, w.args.sessionBlob, w.args.ownerTelegramId⟩ :: b.notices }

/-- One step of a worker. -/
def work (b : Userbot) (sessionId task : Nat) (w : Worker) : WorkerAction → Option Userbot
  | .die =>
      if w.phase = .running ∧ !w.cancelled then
        some (b.setWorker sessionId task { w with phase := .dying })
      else none
  | .stop =>
      if w.phase = .running ∧ !w.cancelled then
        some (b.setWorker sessionId task { w with phase := .done })
      else none
  | .deactivate =>
      if w.phase = .dying ∧ !w.cancelled then some (b.deactivate sessionId task w) else none
  | .send =>
      if w.phase = .notifying ∧ !w.cancelled then some (b.send sessionId task w) else none
  | .finish =>
      if w.phase = .ending ∧ !w.cancelled then
        some (b.setWorker sessionId task { w with phase := .done })
      else none
  | .interrupt =>
      if w.cancelled ∧ w.phase ≠ .done then
        some (b.setWorker sessionId task { w with phase := .done })
      else none

end Userbot

/-- `deactivate_user_sessions` on one row. -/
def SessionRow.unlink (row : SessionRow) (userId : Nat) : SessionRow :=
  if row.userId = userId then { row with session := { row.session with isActive := false } }
  else row

/-- One step of the supervisor, of a worker or of an owner. -/
def step (decrypt : Bytes → Option String) (b : Userbot) : Action → Option Userbot
  | .load =>
      if b.snapshot.isNone then
        some { b with snapshot := some fun id => (b.rows id).bind (loadActive decrypt) }
      else none
  | .supervise => b.snapshot.map fun active =>
      { b with slots := fun id => (b.slots id).supervise (active id), snapshot := none }
  | .worker sessionId task action =>
      (b.slots sessionId).workers[task]?.bind fun w => b.work sessionId task w action
  | .unlink userId =>
      some { b with rows := fun id => (b.rows id).map fun row => row.unlink userId }

end UserTgBot.Supervisor
