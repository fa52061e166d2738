import UserTgBot.Library.Loops
import UserTgBot.Userbot.Supervisor

/-!
# The bookkeeping of the supervisor

A poll of `_supervise` with its two dictionaries and its three loops. `_load_active_sessions` may
fail, and then the poll changes nothing. The loops run without an await, so tasks end only
between polls or while the sessions are loaded; how a task ends is of no account here.

Each loop treats a session by itself, and together they do to the session what `Slot.supervise`
does. So the dictionaries are described by an invariant of a single slot.
-/

namespace UserTgBot.Supervisor

open Transition Loops

/-- The tasks that have been created for each session, and the local variables of `_supervise`. -/
structure Pool where
  workers : Nat → List Worker
  running : Dict Nat Nat
  startedWith : Dict Nat String

namespace Pool

def initial : Pool := ⟨fun _ => [], ∅, ∅⟩

/-- `_load_active_sessions` on the joined rows, by the id of the session. -/
def loadActiveSessions (decrypt : Bytes → Option String) (table : Dict Nat SessionRow) :
    List (Nat × ActiveSession) :=
  table.entries.filterMap fun row => (loadActive decrypt row.2).map (row.1, ·)

/-- Delete the entries of a session. -/
def forget (p : Pool) (sessionId : Nat) : Pool :=
  { p with
    running := p.running.erase sessionId
    startedWith := p.startedWith.erase sessionId }

/-- Cancel a task and delete the entries of its session. -/
def stop (p : Pool) (sessionId task : Nat) : Pool :=
  { p.forget sessionId with
    workers := Function.update p.workers sessionId
      ((p.workers sessionId).modify task fun w => { w with cancelled := true }) }

/-- A round of the first loop: reap a task that is done. -/
def reapOne (p : Pool) (sessionId : Nat) : Pool :=
  match p.running.lookup sessionId with
  | none => p
  | some task =>
      if (p.workers sessionId)[task]?.any (·.phase = .done) then p.forget sessionId else p

/-- A round of the second loop: stop a worker whose session is gone or linked again. -/
def stopOne (active : Dict Nat ActiveSession) (p : Pool) (sessionId : Nat) : Pool :=
  match p.running.lookup sessionId with
  | none => p
  | some task =>
      match active.lookup sessionId with
      | none => p.stop sessionId task
      | some session =>
          if p.startedWith.lookup sessionId ≠ some session.sessionString then
            p.stop sessionId task
          else p

/-- A round of the third loop: start a worker for a session without one. -/
def startOne (p : Pool) (session : Σ _ : Nat, ActiveSession) : Pool :=
  if session.1 ∈ p.running then p
  else
    { workers := Function.update p.workers session.1
        (p.workers session.1 ++ [{ args := session.2 }])
      running := p.running.insert session.1 (p.workers session.1).length
      startedWith := p.startedWith.insert session.1 session.2.sessionString }

/-- The part of a poll that follows `_load_active_sessions`. -/
def poll (p : Pool) (sessions : List (Nat × ActiveSession)) : Pool :=
  let active := Dict.ofPairs sessions
  let p := p.running.keys.foldl reapOne p
  let p := p.running.keys.foldl (stopOne active) p
  active.entries.foldl startOne p

/-- A task ends, by itself or because of a `CancelledError`. -/
def finish (p : Pool) (sessionId task : Nat) : Pool :=
  { p with
    workers := Function.update p.workers sessionId
      ((p.workers sessionId).modify task fun w => { w with phase := .done }) }

end Pool

inductive PoolAction where
  | poll (table : Dict Nat SessionRow)
  | pollFails
  | finish (sessionId task : Nat)

def Pool.step (decrypt : Bytes → Option String) (p : Pool) : PoolAction → Option Pool
  | .poll table => some (p.poll (loadActiveSessions decrypt table))
  | .pollFails => some p
  | .finish sessionId task => some (p.finish sessionId task)

/-! ## A poll, session by session -/

@[simp] theorem Slot.launch_none (slot : Slot) : slot.launch none = slot := by
  simp [Slot.launch]

namespace Pool

/-- What there is under one session id. -/
def slot (p : Pool) (sessionId : Nat) : Slot where
  workers := p.workers sessionId
  running := p.running.lookup sessionId
  startedWith := p.startedWith.lookup sessionId

variable {p : Pool} {active : Dict Nat ActiveSession} {id other : Nat}

theorem ite_slot : (if other = id then p.slot id else p.slot other) = p.slot other := by
  split
  · rename_i heq
    rw [heq]
  · rfl

theorem slot_forget : (p.forget id).slot other =
    if other = id then { p.slot id with running := none, startedWith := none }
    else p.slot other := by
  simp only [slot, forget, Dict.lookup_erase_eq]
  split
  · rename_i heq
    rw [heq]
  · rfl

theorem slot_stop {task : Nat} : (p.stop id task).slot other =
    if other = id then
      { workers := (p.slot id).cancelWorker task, running := none, startedWith := none }
    else p.slot other := by
  simp only [slot, stop, forget, Dict.lookup_erase_eq, Function.update_apply]
  split <;> rfl

theorem slot_reapOne : (p.reapOne id).slot other =
    if other = id then (p.slot id).reap else p.slot other := by
  rw [reapOne]
  cases hrunning : p.running.lookup id with
  | none =>
      have hreap : (p.slot id).reap = p.slot id := by
        simp [Slot.reap, slot, hrunning]
      rw [hreap, ite_slot]
  | some task =>
      dsimp only
      split
      · rename_i hdone
        have hreap : (p.slot id).reap =
            { p.slot id with running := none, startedWith := none } := by
          simp [Slot.reap, slot, hrunning, hdone]
        rw [hreap, slot_forget]
      · rename_i hdone
        have hreap : (p.slot id).reap = p.slot id := by
          simp [Slot.reap, slot, hrunning, hdone]
        rw [hreap, ite_slot]

theorem slot_stopOne : (p.stopOne active id).slot other =
    if other = id then (p.slot id).cancel (active.lookup id) else p.slot other := by
  rw [stopOne]
  cases hrunning : p.running.lookup id with
  | none =>
      have hcancel : (p.slot id).cancel (active.lookup id) = p.slot id := by
        simp [Slot.cancel, slot, hrunning]
      rw [hcancel, ite_slot]
  | some task =>
      have hcancel : (p.slot id).cancel (active.lookup id) =
          if (p.slot id).stops (active.lookup id) then
            { workers := (p.slot id).cancelWorker task, running := none, startedWith := none }
          else p.slot id := by
        simp [Slot.cancel, slot, hrunning]
      rw [hcancel]
      cases active.lookup id with
      | none => exact slot_stop
      | some session =>
          dsimp only
          by_cases hstring : p.startedWith.lookup id = some session.sessionString
          · have hkeeps : (p.slot id).stops (some session) = false := by
              simp [Slot.stops, slot, hstring]
            rw [if_neg (not_not.mpr hstring), hkeeps, if_neg Bool.false_ne_true, ite_slot]
          · have hstops : (p.slot id).stops (some session) = true := by
              simp [Slot.stops, slot, hstring]
            rw [if_pos hstring, hstops, if_pos rfl, slot_stop]

theorem slot_startOne {session : ActiveSession} : (p.startOne ⟨id, session⟩).slot other =
    if other = id then (p.slot id).launch (some session) else p.slot other := by
  rw [startOne]
  cases hrunning : p.running.lookup id with
  | none =>
      have hfree : id ∉ p.running := AList.lookup_eq_none.mp hrunning
      rw [if_neg hfree]
      simp only [slot, Slot.launch, hrunning, Dict.lookup_insert_eq, Function.update_apply]
      split <;> rfl
  | some task =>
      have hbusy : id ∈ p.running := AList.lookup_isSome.mp (by rw [hrunning]; rfl)
      have hlaunch : (p.slot id).launch (some session) = p.slot id := by
        simp [Slot.launch, slot, hrunning]
      rw [if_pos hbusy, hlaunch, ite_slot]

/-- A loop over the keys of `running` whose rounds leave a slot without a worker alone. -/
theorem slot_foldl_running {round : Pool → Nat → Pool} (effect : Nat → Slot → Slot)
    (each : ∀ (p : Pool) (id other : Nat), (round p id).slot other =
      if other = id then effect id (p.slot id) else p.slot other)
    (idle : ∀ id slot, slot.running = none → effect id slot = slot) (p : Pool) (id : Nat) :
    (p.running.keys.foldl round p).slot id = effect id (p.slot id) := by
  have hother : ∀ (p : Pool) (id' k : Nat), k ≠ id' → (round p id').slot k = p.slot k := by
    intro p id' k hne
    rw [each, if_neg hne]
  by_cases hmem : id ∈ p.running.keys
  · refine view_foldl_of_mem (fun k : Nat => k) slot effect ?_ hother ?_ hmem p
    · intro p k
      rw [each, if_pos rfl]
    · rw [List.map_id']
      exact p.running.keys_nodup
  · rw [view_foldl_of_notMem (fun k : Nat => k) slot hother (by simpa using hmem)]
    have hnone : p.running.lookup id = none := AList.lookup_eq_none.mpr hmem
    exact (idle id (p.slot id) hnone).symm

theorem slot_foldl_startOne (p : Pool) (active : Dict Nat ActiveSession) (id : Nat) :
    (active.entries.foldl startOne p).slot id = (p.slot id).launch (active.lookup id) := by
  have hother : ∀ (p : Pool) (s : Σ _ : Nat, ActiveSession) (k : Nat), k ≠ s.1 →
      (p.startOne s).slot k = p.slot k := by
    intro p s k hne
    rw [slot_startOne, if_neg hne]
  have hkeys : active.entries.map Sigma.fst = active.keys := rfl
  cases hactive : active.lookup id with
  | none =>
      have hmem : id ∉ active.entries.map Sigma.fst := AList.lookup_eq_none.mp hactive
      rw [view_foldl_of_notMem Sigma.fst slot hother hmem, Slot.launch_none]
  | some session =>
      have hmem : (⟨id, session⟩ : Σ _ : Nat, ActiveSession) ∈ active.entries :=
        AList.mem_lookup_iff.mp hactive
      refine view_foldl_of_mem Sigma.fst slot (fun s slot => slot.launch (some s.2)) ?_ hother
        (hkeys ▸ active.keys_nodup) hmem p
      intro p s
      rw [slot_startOne, if_pos rfl]

/-- The three loops do to every session what `Slot.supervise` does. -/
theorem slot_poll (p : Pool) (sessions : List (Nat × ActiveSession)) (id : Nat) :
    (p.poll sessions).slot id = (p.slot id).supervise ((Dict.ofPairs sessions).lookup id) := by
  have hreap := slot_foldl_running (fun _ => Slot.reap)
    (fun _ _ _ => slot_reapOne) (fun _ slot hidle => by simp [Slot.reap, hidle])
  have hstop := slot_foldl_running
    (fun id slot => slot.cancel ((Dict.ofPairs sessions).lookup id))
    (fun _ _ _ => slot_stopOne) (fun _ slot hidle => by simp [Slot.cancel, hidle])
  rw [poll, slot_foldl_startOne, hstop, hreap, Slot.supervise]

end Pool

/-! ## One slot -/

/-- The worker has neither ended nor been asked to. -/
def Worker.Live (w : Worker) : Prop := w.phase ≠ .done ∧ w.cancelled = false

/-- The entries of a session come and go together and are about a task that has not been
cancelled, and every other task is done or cancelled. -/
structure Slot.Kept (slot : Slot) : Prop where
  together : slot.running = none ↔ slot.startedWith = none
  current : ∀ task, slot.running = some task → ∃ w, slot.workers[task]? = some w ∧
    slot.startedWith = some w.args.sessionString
  past : ∀ task w, slot.workers[task]? = some w → w.Live → slot.running = some task

namespace Slot

variable {slot : Slot} {active : Option ActiveSession}

theorem Kept.reap (h : slot.Kept) : slot.reap.Kept := by
  cases hrunning : slot.running with
  | none =>
      have hsame : slot.reap = slot := by simp [Slot.reap, hrunning]
      exact hsame.symm ▸ h
  | some task =>
      by_cases hdone : slot.workers[task]?.any (·.phase = .done)
      · have hgone : slot.reap = { slot with running := none, startedWith := none } := by
          simp [Slot.reap, hrunning, hdone]
        rw [hgone]
        refine ⟨by simp, nofun, ?_⟩
        intro task' w hw hlive
        -- the only live task would be the one that is done
        have heq : task = task' := Option.some.inj (hrunning.symm.trans (h.past task' w hw hlive))
        rw [heq, hw] at hdone
        exact absurd (by simpa using hdone) hlive.1
      · have hsame : slot.reap = slot := by simp [Slot.reap, hrunning, hdone]
        exact hsame.symm ▸ h

/-- After the second loop a worker is running only with the string just loaded. -/
theorem Kept.cancel (h : slot.Kept) (active : Option ActiveSession) : (slot.cancel active).Kept ∧
    ∀ task, (slot.cancel active).running = some task → ∃ session, active = some session ∧
      (slot.cancel active).startedWith = some session.sessionString := by
  cases hrunning : slot.running with
  | none =>
      have hsame : slot.cancel active = slot := by simp [Slot.cancel, hrunning]
      rw [hsame]
      exact ⟨h, fun task htask => by cases hrunning.symm.trans htask⟩
  | some task =>
      by_cases hstops : slot.stops active
      · have hgone : slot.cancel active =
            { workers := slot.cancelWorker task, running := none, startedWith := none } := by
          simp [Slot.cancel, hrunning, hstops]
        rw [hgone]
        refine ⟨⟨by simp, nofun, ?_⟩, nofun⟩
        intro task' w hw hlive
        simp only [Slot.cancelWorker, List.getElem?_modify, Option.map_eq_map,
          Option.map_eq_some_iff] at hw
        obtain ⟨w₀, hw₀, rfl⟩ := hw
        by_cases heq : task = task'
        · rw [if_pos heq] at hlive
          cases hlive.2
        · rw [if_neg heq] at hlive
          exact absurd (Option.some.inj (hrunning.symm.trans (h.past task' w₀ hw₀ hlive))) heq
      · have hsame : slot.cancel active = slot := by simp [Slot.cancel, hrunning, hstops]
        rw [hsame]
        refine ⟨h, fun _ _ => ?_⟩
        cases active with
        | none => exact absurd rfl hstops
        | some session => exact ⟨session, rfl, by simpa [Slot.stops] using hstops⟩

theorem Kept.launch (h : slot.Kept) : (slot.launch active).Kept := by
  cases hrunning : slot.running with
  | some task =>
      have hsame : slot.launch active = slot := by simp [Slot.launch, hrunning]
      exact hsame.symm ▸ h
  | none =>
      cases active with
      | none =>
          exact slot.launch_none.symm ▸ h
      | some session =>
          simp only [Slot.launch, hrunning]
          refine ⟨by simp, ?_, ?_⟩
          · intro task htask
            cases htask
            exact ⟨{ args := session }, by simp, rfl⟩
          · intro task w hw hlive
            by_cases hlt : task < slot.workers.length
            · rw [List.getElem?_append_left hlt] at hw
              cases hrunning.symm.trans (h.past task w hw hlive)
            · have hle : slot.workers.length ≤ task := Nat.le_of_not_lt hlt
              rw [List.getElem?_append_right hle] at hw
              obtain ⟨hlast, -⟩ := List.getElem?_eq_some_iff.mp hw
              have heq : task = slot.workers.length := by
                rw [List.length_singleton] at hlast
                omega
              rw [heq]

/-- After a poll the entries of a session are those of the session just loaded. -/
theorem Kept.supervise (h : slot.Kept) : (slot.supervise active).Kept ∧
    (slot.supervise active).startedWith = active.map ActiveSession.sessionString := by
  obtain ⟨hcancel, hstring⟩ := h.reap.cancel active
  refine ⟨hcancel.launch, ?_⟩
  rw [Slot.supervise]
  cases hrunning : (slot.reap.cancel active).running with
  | some task =>
      obtain ⟨session, hactive, hstarted⟩ := hstring task hrunning
      have hsame : (slot.reap.cancel active).launch active = slot.reap.cancel active := by
        simp [Slot.launch, hrunning]
      rw [hsame, hstarted, hactive]
      rfl
  | none =>
      cases active with
      | none =>
          rw [Slot.launch_none]
          exact hcancel.together.mp hrunning
      | some session => simp [Slot.launch, hrunning]

end Slot

/-! ## Runs -/

section Runs

variable {decrypt : Bytes → Option String}

/-- The session that a poll loads under an id. -/
def loaded (decrypt : Bytes → Option String) (table : Dict Nat SessionRow) (id : Nat) :
    Option ActiveSession :=
  (table.lookup id).bind (loadActive decrypt)

/-- The sessions of the last poll whose load has not failed. -/
def lastLoaded (decrypt : Bytes → Option String) (actions : List PoolAction) :
    Nat → Option ActiveSession :=
  actions.foldl
    (fun last action =>
      match action with
      | .poll table => loaded decrypt table
      | _ => last)
    fun _ => none

theorem mem_loadActiveSessions {table : Dict Nat SessionRow} {id : Nat}
    {session : ActiveSession} :
    (id, session) ∈ Pool.loadActiveSessions decrypt table ↔
      loaded decrypt table id = some session := by
  rw [Pool.loadActiveSessions, List.mem_filterMap, loaded, Option.bind_eq_some_iff]
  constructor
  · rintro ⟨⟨id', row⟩, hrow, hsession⟩
    obtain ⟨session', hload, heq⟩ := Option.map_eq_some_iff.mp hsession
    cases heq
    exact ⟨row, AList.mem_lookup_iff.mpr hrow, hload⟩
  · rintro ⟨row, hrow, hload⟩
    exact ⟨⟨id, row⟩, AList.mem_lookup_iff.mp hrow, by rw [hload]; rfl⟩

/-- The dictionary `active` of a poll. -/
theorem lookup_active (table : Dict Nat SessionRow) (id : Nat) :
    (Dict.ofPairs (Pool.loadActiveSessions decrypt table)).lookup id =
      loaded decrypt table id := by
  have hdistinct : ((Pool.loadActiveSessions decrypt table).map Prod.fst).Nodup := by
    have hsub : ((Pool.loadActiveSessions decrypt table).map Prod.fst).Sublist
        (table.entries.map Sigma.fst) := by
      rw [Pool.loadActiveSessions]
      induction table.entries with
      | nil => exact .slnil
      | cons row rows ih =>
          cases hload : loadActive decrypt row.2 with
          | none => simpa [List.filterMap_cons, hload] using ih.cons row.1
          | some session => simpa [List.filterMap_cons, hload] using ih.cons_cons row.1
    exact table.keys_nodup.sublist hsub
  apply Option.ext
  intro session
  rw [Dict.lookup_ofPairs hdistinct, mem_loadActiveSessions]

/-- What is known after the actions. -/
structure Booked (decrypt : Bytes → Option String) (actions : List PoolAction) (p : Pool) :
    Prop where
  kept : ∀ id, (p.slot id).Kept
  started : ∀ id, p.startedWith.lookup id =
    (lastLoaded decrypt actions id).map ActiveSession.sessionString

theorem Slot.Kept.finish {slot : Slot} (h : slot.Kept) (task : Nat) :
    ({ slot with workers := slot.workers.modify task fun w => { w with phase := .done } } :
      Slot).Kept := by
  refine ⟨h.together, ?_, ?_⟩
  · intro current hrunning
    obtain ⟨w, hw, hstarted⟩ := h.current current hrunning
    refine ⟨if task = current then { w with phase := .done } else w, ?_, ?_⟩
    · simp only [List.getElem?_modify, hw]
      split <;> rfl
    · split <;> exact hstarted
  · intro other w hw hlive
    simp only [List.getElem?_modify, Option.map_eq_map, Option.map_eq_some_iff] at hw
    obtain ⟨w₀, hw₀, rfl⟩ := hw
    by_cases heq : task = other
    · rw [if_pos heq] at hlive
      exact absurd rfl hlive.1
    · rw [if_neg heq] at hlive
      exact h.past other w₀ hw₀ hlive

theorem Booked.step {past : List PoolAction} {p p' : Pool} {a : PoolAction}
    (h : Booked decrypt past p) (hstep : Pool.step decrypt p a = some p') :
    Booked decrypt (past ++ [a]) p' := by
  cases a with
  | poll table =>
      cases hstep
      have hslot : ∀ id, (p.poll (Pool.loadActiveSessions decrypt table)).slot id =
          (p.slot id).supervise (loaded decrypt table id) := by
        intro id
        rw [Pool.slot_poll, lookup_active]
      constructor
      · intro id
        rw [hslot]
        exact (h.kept id).supervise.1
      · intro id
        have hstarted := congrArg Slot.startedWith (hslot id)
        rw [(h.kept id).supervise.2] at hstarted
        rw [lastLoaded, List.foldl_append]
        exact hstarted
  | pollFails =>
      cases hstep
      exact ⟨h.kept, by simpa [lastLoaded] using h.started⟩
  | finish sessionId task =>
      cases hstep
      constructor
      · intro id
        by_cases heq : id = sessionId
        · subst heq
          simpa [Pool.slot, Pool.finish] using (h.kept id).finish task
        · simpa [Pool.slot, Pool.finish, heq] using h.kept id
      · simpa [lastLoaded, Pool.finish] using h.started

theorem booked_of_run {actions : List PoolAction} {p : Pool}
    (run : exec (Pool.step decrypt) Pool.initial actions = some p) :
    Booked decrypt actions p := by
  have hstart : Booked decrypt [] Pool.initial := by
    constructor
    · intro id
      exact ⟨by simp [Pool.slot, Pool.initial], by simp [Pool.slot, Pool.initial],
        by simp [Pool.slot, Pool.initial]⟩
    · intro id
      rfl
  exact exec_history (fun _ _ _ _ h hstep => h.step hstep) hstart run

/-- In every run: after a poll both dictionaries have the ids of the sessions just loaded, with
their strings; a poll that fails to load changes neither; a task that is not in `running` is
done or cancelled; and at any time a session has at most one live worker, which uses the string
that the last successful poll has loaded. -/
theorem pool_bookkeeping (decrypt : Bytes → Option String) (actions : List PoolAction)
    (p : Pool) (run : exec (Pool.step decrypt) Pool.initial actions = some p) :
    (∀ past table, actions = past ++ [.poll table] →
      (∀ id, id ∈ p.running ↔
        ∃ session, (id, session) ∈ Pool.loadActiveSessions decrypt table) ∧
      ∀ id sessionString, p.startedWith.lookup id = some sessionString ↔
        ∃ session, (id, session) ∈ Pool.loadActiveSessions decrypt table ∧
          session.sessionString = sessionString) ∧
    (∀ p', Pool.step decrypt p .pollFails = some p' →
      p'.running = p.running ∧ p'.startedWith = p.startedWith) ∧
    (∀ (id task : Nat) (w : Worker), (p.workers id)[task]? = some w → p.running.lookup id ≠ some task →
      w.phase = .done ∨ w.cancelled = true) ∧
    (∀ (id task task' : Nat) (w w' : Worker), (p.workers id)[task]? = some w → (p.workers id)[task']? = some w' →
      w.Live → w'.Live → task = task') ∧
    ∀ (id task : Nat) (w : Worker), (p.workers id)[task]? = some w → w.Live →
      ∃ session, lastLoaded decrypt actions id = some session ∧
        w.args.sessionString = session.sessionString := by
  have hbooked := booked_of_run run
  have hcurrent : ∀ (id task : Nat) (w : Worker), (p.workers id)[task]? = some w → w.Live →
      p.running.lookup id = some task := fun id => (hbooked.kept id).past
  refine ⟨?_, ?_, ?_, ?_, ?_⟩
  · rintro past table rfl
    have hlast : lastLoaded decrypt (past ++ [.poll table]) = loaded decrypt table := by
      simp [lastLoaded]
    constructor
    · intro id
      have hnone : p.running.lookup id = none ↔ p.startedWith.lookup id = none :=
        (hbooked.kept id).together
      rw [hbooked.started id, hlast, Option.map_eq_none_iff] at hnone
      rw [← AList.lookup_isSome, ← Option.ne_none_iff_isSome, Ne, hnone]
      simp only [mem_loadActiveSessions, ← Option.ne_none_iff_exists', Ne]
    · intro id sessionString
      rw [hbooked.started id, hlast, Option.map_eq_some_iff]
      simp only [mem_loadActiveSessions]
  · intro p' hstep
    cases hstep
    exact ⟨rfl, rfl⟩
  · intro id task w hw hother
    by_contra hnot
    rw [not_or, Bool.not_eq_true] at hnot
    exact hother (hcurrent id task w hw hnot)
  · intro id task task' w w' hw hw' hlive hlive'
    have hrunning := hcurrent id task w hw hlive
    exact Option.some.inj (hrunning.symm.trans (hcurrent id task' w' hw' hlive'))
  · intro id task w hw hlive
    obtain ⟨w₀, hw₀, hstarted⟩ := (hbooked.kept id).current task (hcurrent id task w hw hlive)
    obtain rfl : w = w₀ := Option.some.inj (hw.symm.trans hw₀)
    have hmap : (lastLoaded decrypt actions id).map ActiveSession.sessionString =
        some w.args.sessionString := (hbooked.started id).symm.trans hstarted
    obtain ⟨session, hsession, heq⟩ := Option.map_eq_some_iff.mp hmap
    exact ⟨session, hsession, heq.symm⟩

end Runs

/-- The table with one active session of id 1. -/
def tableOf (encryptedSession : Bytes) : Dict Nat SessionRow :=
  (∅ : Dict Nat SessionRow).insert 1 ⟨7, 700, none, ⟨encryptedSession, true⟩⟩

/-- Ciphertexts of one byte stand for two different session strings. -/
def decryptByte : Bytes → Option String
  | [1] => some "old"
  | [2] => some "new"
  | _ => none

/-- A worker crashes and is started again, then its session is linked again. -/
def relinkedPolls : List PoolAction :=
  [.poll (tableOf [1]), .finish 1 0, .pollFails, .poll (tableOf [1]), .poll (tableOf [2])]

theorem relinkedPolls_bookkeeping :
    ∃ p, exec (Pool.step decryptByte) Pool.initial relinkedPolls = some p ∧
      p.running.lookup 1 = some 2 ∧ ∀ (id task task' : Nat) (w w' : Worker),
        (p.workers id)[task]? = some w → (p.workers id)[task']? = some w' →
          w.Live → w'.Live → task = task' := by
  have hobserved : (exec (Pool.step decryptByte) Pool.initial relinkedPolls).map
      (fun p => p.running.lookup 1) = some (some 2) := by
    decide +kernel
  obtain ⟨p, hrun, hrunning⟩ := Option.map_eq_some_iff.mp hobserved
  exact ⟨p, hrun, hrunning, (pool_bookkeeping _ _ p hrun).2.2.2.1⟩

end UserTgBot.Supervisor
