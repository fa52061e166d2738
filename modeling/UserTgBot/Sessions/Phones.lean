import UserTgBot.Db.Queries
import UserTgBot.Library.Dedup
import UserTgBot.Library.OrderBy
import UserTgBot.Library.Upsert

/-!
# The remembered phone number

`/connect` starts from the number of the user's session row with the largest id. Rows are never
deleted, and `save_session` writes over the row of a number that was saved before. So the
rows stand in the order in which their numbers were first saved, and saving an old number again
does not make it the remembered one.
-/

namespace UserTgBot.Phones

open OrderBy Upsert

/-- A row of `sessions` with its keys. -/
structure SessionRow where
  id : Nat
  userId : Nat
  phoneNumber : String
  session : Session
deriving DecidableEq, Repr

/-- The columns of the unique constraint. -/
def SessionRow.owner (row : SessionRow) : Nat × String := (row.userId, row.phoneNumber)

/-- `users` by `telegram_id`, and `sessions`; both number their rows. -/
structure Db where
  users : Int → Option Nat := fun _ => none
  nextUserId : Nat := 1
  sessions : List SessionRow := []
  nextSessionId : Nat := 1

namespace Db

/-- `upsert_user`, as far as the id goes. -/
def upsertUser (db : Db) (telegramId : Int) : Db × Nat :=
  match db.users telegramId with
  | some userId => (db, userId)
  | none =>
      ({ db with
          users := Function.update db.users telegramId (some db.nextUserId)
          nextUserId := db.nextUserId + 1 }, db.nextUserId)

/-- `save_session`, with what `encrypt_session` made of the session string. -/
def saveSession (db : Db) (telegramId : Int) (phoneNumber : String) (encrypted : Bytes) : Db :=
  let (db, userId) := db.upsertUser telegramId
  { db with
    sessions := upsert SessionRow.owner (userId, phoneNumber)
      (fun row => { row with session := UserTgBot.saveSession encrypted row.session })
      ⟨db.nextSessionId, userId, phoneNumber, encrypted, true⟩ db.sessions
    nextSessionId :=
      if (userId, phoneNumber) ∈ db.sessions.map SessionRow.owner then db.nextSessionId
      else db.nextSessionId + 1 }

/-- `deactivate_user_sessions`. -/
def deactivateUserSessions (db : Db) (userId : Nat) : Db :=
  { db with sessions := db.sessions.map fun row =>
      if row.userId = userId ∧ row.session.isActive then
        { row with session := { row.session with isActive := false } }
      else row }

/-- `on_unlink`. -/
def unlink (db : Db) (telegramId : Int) : Db :=
  match db.users telegramId with
  | some userId => db.deactivateUserSessions userId
  | none => db

/-- `deactivate_session`. -/
def deactivateSession (db : Db) (sessionId : Nat) (onlyIfSessionIs : Option Bytes) : Db :=
  { db with sessions := db.sessions.map fun row =>
      if row.id = sessionId then
        { row with session :=
            (UserTgBot.deactivateSession onlyIfSessionIs row.session).getD row.session }
      else row }

/-- The sessions joined with the user of a `telegram_id`. -/
def sessionsOf (db : Db) (telegramId : Int) : List SessionRow :=
  db.sessions.filter fun row => db.users telegramId = some row.userId

def getLastKnownPhone (db : Db) (telegramId : Int) : Option String :=
  (sortDesc SessionRow.id (db.sessionsOf telegramId)).head?.map SessionRow.phoneNumber

end Db

inductive ConnectReply where
  | needSubscription
  /-- A page is still open for some minutes. -/
  | alreadyActive (minutes : Nat)
  | dispatchPhone (phoneNumber : String)
  | askPhone
deriving DecidableEq, Repr

/-- `cmd_connect`. -/
def cmdConnect (db : Db) (chatId : Int) (subscribed : Bool) (pendingMinutes : Option Nat) :
    ConnectReply :=
  if !subscribed then .needSubscription
  else
    match pendingMinutes with
    | some minutes => .alreadyActive minutes
    | none =>
        match db.getLastKnownPhone chatId with
        | some knownPhone => if knownPhone = "" then .askPhone else .dispatchPhone knownPhone
        | none => .askPhone

/-- One committed transaction. -/
inductive Action where
  | saveSession (telegramId : Int) (phoneNumber : String) (encrypted : Bytes)
  | unlink (telegramId : Int)
  /-- A worker gives up a session. -/
  | deactivate (sessionId : Nat) (onlyIfSessionIs : Option Bytes)
deriving DecidableEq, Repr

def step (db : Db) : Action → Db
  | .saveSession telegramId phoneNumber encrypted =>
      db.saveSession telegramId phoneNumber encrypted
  | .unlink telegramId => db.unlink telegramId
  | .deactivate sessionId onlyIfSessionIs => db.deactivateSession sessionId onlyIfSessionIs

/-- The database after a sequence of transactions. -/
def run (actions : List Action) : Db := actions.foldl step {}

theorem run_append_singleton (actions : List Action) (action : Action) :
    run (actions ++ [action]) = step (run actions) action := by
  rw [run, List.foldl_append]
  rfl

/-! ## What was saved -/

/-- The number and the ciphertext, if this is a save for the user. -/
def savedBy (telegramId : Int) : Action → Option (String × Bytes)
  | .saveSession user phoneNumber encrypted =>
      if user = telegramId then some (phoneNumber, encrypted) else none
  | _ => none

/-- The saves for a user in their order. -/
def savesOf (telegramId : Int) (actions : List Action) : List (String × Bytes) :=
  actions.filterMap (savedBy telegramId)

def phonesOf (telegramId : Int) (actions : List Action) : List String :=
  (savesOf telegramId actions).map Prod.fst

theorem savesOf_append_singleton (telegramId : Int) (actions : List Action) (action : Action) :
    savesOf telegramId (actions ++ [action]) =
      savesOf telegramId actions ++ (savedBy telegramId action).toList := by
  rw [savesOf, List.filterMap_append]
  cases h : savedBy telegramId action with
  | none => rw [List.filterMap_cons_none h]; rfl
  | some save => rw [List.filterMap_cons_some h]; rfl

/-! ## The tables -/

/-- Numbers ascend and are not given twice, and a (user, phone) pair has one row. -/
structure WellFormed (db : Db) : Prop where
  known : ∀ telegramId userId, db.users telegramId = some userId → userId < db.nextUserId
  single : ∀ telegramId telegramId' userId, db.users telegramId = some userId →
    db.users telegramId' = some userId → telegramId = telegramId'
  owned : ∀ userId ∈ db.sessions.map SessionRow.userId, userId < db.nextUserId
  numbered : ∀ id ∈ db.sessions.map SessionRow.id, id < db.nextSessionId
  ascending : (db.sessions.map SessionRow.id).Pairwise (· < ·)
  unique : (db.sessions.map SessionRow.owner).Nodup

theorem wellFormed_empty : WellFormed {} where
  known _ _ h := nomatch h
  single _ _ _ h := nomatch h
  owned _ h := nomatch h
  numbered _ h := nomatch h
  ascending := .nil
  unique := .nil

section Tables

variable {db : Db} {telegramId other : Int} {phoneNumber : String} {encrypted : Bytes}

theorem sessionsOf_congr {db' : Db} (hrows : db'.sessions = db.sessions)
    (h : ∀ row ∈ db.sessions, db'.users other = some row.userId ↔
      db.users other = some row.userId) : db'.sessionsOf other = db.sessionsOf other := by
  rw [Db.sessionsOf, Db.sessionsOf, hrows]
  exact List.filter_congr fun row hrow => decide_eq_decide.mpr (h row hrow)

/-- The user's id is found or new, and nobody's sessions change. -/
theorem upsertUser_spec (h : WellFormed db) (telegramId : Int) :
    WellFormed (db.upsertUser telegramId).1 ∧
      (db.upsertUser telegramId).1.users telegramId = some (db.upsertUser telegramId).2 ∧
      ∀ other, (db.upsertUser telegramId).1.sessionsOf other = db.sessionsOf other := by
  cases huser : db.users telegramId with
  | some userId =>
      rw [Db.upsertUser, huser]
      exact ⟨h, huser, fun _ => rfl⟩
  | none =>
      rw [Db.upsertUser, huser]
      have hfresh : ∀ other, db.users other ≠ some db.nextUserId := by
        intro other hother
        have hlt := h.known other _ hother
        omega
      refine ⟨⟨?_, ?_, ?_, h.numbered, h.ascending, h.unique⟩, Function.update_self .., ?_⟩
      · intro other userId hother
        dsimp only at hother ⊢
        by_cases heq : other = telegramId
        · rw [heq, Function.update_self, Option.some.injEq] at hother
          omega
        · rw [Function.update_of_ne heq] at hother
          have hlt := h.known other userId hother
          omega
      · intro other other' userId hother hother'
        dsimp only at hother hother'
        by_cases heq : other = telegramId
        · by_cases heq' : other' = telegramId
          · rw [heq, heq']
          · rw [heq, Function.update_self] at hother
            rw [Function.update_of_ne heq'] at hother'
            exact absurd (hother'.trans hother.symm) (hfresh other')
        · rw [Function.update_of_ne heq] at hother
          by_cases heq' : other' = telegramId
          · rw [heq', Function.update_self] at hother'
            exact absurd (hother.trans hother'.symm) (hfresh other)
          · rw [Function.update_of_ne heq'] at hother'
            exact h.single other other' userId hother hother'
      · intro userId huserId
        have hlt := h.owned userId huserId
        dsimp only
        omega
      · intro other
        refine sessionsOf_congr (by rfl) fun row hrow => ?_
        dsimp only
        by_cases heq : other = telegramId
        · have hlt := h.owned row.userId (List.mem_map_of_mem hrow)
          rw [heq, Function.update_self, huser, Option.some.injEq]
          simp only [reduceCtorEq, iff_false]
          omega
        · rw [Function.update_of_ne heq]

/-- A row with the session string of a new login. -/
def relink (encrypted : Bytes) (row : SessionRow) : SessionRow :=
  { row with session := UserTgBot.saveSession encrypted row.session }

/-- What a row remembers of the saves. -/
def SessionRow.saved (row : SessionRow) : String × Bytes :=
  (row.phoneNumber, row.session.encryptedSession)

theorem saveSession_wellFormed (h : WellFormed db) :
    WellFormed (db.saveSession telegramId phoneNumber encrypted) := by
  obtain ⟨hdb, huser, -⟩ := upsertUser_spec h telegramId
  rw [Db.saveSession]
  generalize db.upsertUser telegramId = loaded at hdb huser
  obtain ⟨db, userId⟩ := loaded
  dsimp only at hdb huser ⊢
  have hid := hdb.known telegramId userId huser
  generalize hnew : (⟨db.nextSessionId, userId, phoneNumber, encrypted, true⟩ : SessionRow) = new
  have hids : (upsert SessionRow.owner (userId, phoneNumber) (relink encrypted) new
    db.sessions).map SessionRow.id = _ := map_upsert_of_kept fun _ _ => rfl
  have husers : (upsert SessionRow.owner (userId, phoneNumber) (relink encrypted) new
    db.sessions).map SessionRow.userId = _ := map_upsert_of_kept fun _ _ => rfl
  have howners : (upsert SessionRow.owner (userId, phoneNumber) (relink encrypted) new
    db.sessions).map SessionRow.owner = _ := map_upsert_of_kept fun _ _ => rfl
  subst hnew
  by_cases hold : (userId, phoneNumber) ∈ db.sessions.map SessionRow.owner
  · rw [if_pos hold] at hids husers howners ⊢
    exact ⟨hdb.known, hdb.single, husers ▸ hdb.owned, hids ▸ hdb.numbered, hids ▸ hdb.ascending,
      howners ▸ hdb.unique⟩
  · rw [if_neg hold] at hids husers howners ⊢
    refine ⟨hdb.known, hdb.single, ?_, ?_, ?_, ?_⟩
    · intro id hmem
      obtain hmem | hmem := List.mem_append.mp (husers ▸ hmem)
      · exact hdb.owned id hmem
      · rw [List.mem_singleton.mp hmem]
        exact hid
    · intro id hmem
      obtain hmem | hmem := List.mem_append.mp (hids ▸ hmem)
      · have hlt := hdb.numbered id hmem
        dsimp only
        omega
      · rw [List.mem_singleton.mp hmem]
        exact Nat.lt_succ_self _
    · refine hids ▸ List.pairwise_append.mpr ⟨hdb.ascending, List.pairwise_singleton _ _, ?_⟩
      intro id hmem id' hmem'
      rw [List.mem_singleton.mp hmem']
      exact hdb.numbered id hmem
    · refine howners ▸ List.nodup_append.mpr ⟨hdb.unique, List.nodup_singleton _, ?_⟩
      intro owner hmem owner' hmem' heq
      rw [heq, List.mem_singleton.mp hmem'] at hmem
      exact hold hmem

/-- For its user a save puts the pair into what the rows remember, and for nobody else. -/
theorem saveSession_saved (h : WellFormed db) (other : Int) :
    ((db.saveSession telegramId phoneNumber encrypted).sessionsOf other).map SessionRow.saved =
      if other = telegramId then
        put ((db.sessionsOf other).map SessionRow.saved) (phoneNumber, encrypted)
      else (db.sessionsOf other).map SessionRow.saved := by
  obtain ⟨hdb, huser, hsessions⟩ := upsertUser_spec h telegramId
  rw [← hsessions other, Db.saveSession]
  generalize db.upsertUser telegramId = loaded at hdb huser
  obtain ⟨db, userId⟩ := loaded
  dsimp only at hdb huser ⊢
  by_cases heq : other = telegramId
  · rw [if_pos heq, heq]
    have hselect : (upsert SessionRow.owner (userId, phoneNumber) (relink encrypted)
        ⟨db.nextSessionId, userId, phoneNumber, encrypted, true⟩ db.sessions).filter
          (fun row => db.users telegramId = some row.owner.1) = _ :=
      filter_upsert (p := fun owner : Nat × String => db.users telegramId = some owner.1) (fun _ hrow => hrow)
        rfl (decide_eq_true huser)
    refine (congrArg (List.map SessionRow.saved) hselect).trans ?_
    apply map_upsert
    · intro row hrow
      have howner := of_decide_eq_true (List.mem_filter.mp hrow).2
      have hid : row.userId = userId := Option.some.inj (howner.symm.trans huser)
      rw [SessionRow.owner, Prod.mk.injEq, hid]
      exact and_iff_right rfl
    · intro row _ hrow
      rw [← (Prod.mk.inj hrow).2]
      rfl
  · rw [if_neg heq]
    have hselect : (upsert SessionRow.owner (userId, phoneNumber) (relink encrypted)
        ⟨db.nextSessionId, userId, phoneNumber, encrypted, true⟩ db.sessions).filter
          (fun row => db.users other = some row.owner.1) = _ :=
      filter_upsert_of_not (p := fun owner : Nat × String => db.users other = some owner.1)
        (fun _ hrow => hrow) rfl
        (decide_eq_false fun hother => heq (hdb.single _ _ _ hother huser))
    exact congrArg (List.map SessionRow.saved) hselect

/-- A change of rows that leaves everything but `is_active` alone. -/
structure OnlyActive (f : SessionRow → SessionRow) : Prop where
  id : ∀ row, (f row).id = row.id
  userId : ∀ row, (f row).userId = row.userId
  saved : ∀ row, (f row).saved = row.saved

theorem onlyActive_wellFormed {f : SessionRow → SessionRow} (hf : OnlyActive f)
    (h : WellFormed db) : WellFormed { db with sessions := db.sessions.map f } := by
  have hids : (db.sessions.map f).map SessionRow.id = db.sessions.map SessionRow.id := by
    rw [List.map_map]
    exact List.map_congr_left fun row _ => hf.id row
  have husers : (db.sessions.map f).map SessionRow.userId =
      db.sessions.map SessionRow.userId := by
    rw [List.map_map]
    exact List.map_congr_left fun row _ => hf.userId row
  have howners : (db.sessions.map f).map SessionRow.owner =
      db.sessions.map SessionRow.owner := by
    rw [List.map_map]
    exact List.map_congr_left fun row _ =>
      Prod.ext (hf.userId row) (Prod.mk.inj (hf.saved row)).1
  exact ⟨h.known, h.single, husers ▸ h.owned, hids ▸ h.numbered, hids ▸ h.ascending,
    howners ▸ h.unique⟩

theorem onlyActive_saved {f : SessionRow → SessionRow} (hf : OnlyActive f) (db : Db)
    (other : Int) :
    ((Db.sessionsOf { db with sessions := db.sessions.map f } other).map SessionRow.saved) =
      (db.sessionsOf other).map SessionRow.saved := by
  rw [Db.sessionsOf, Db.sessionsOf, List.filter_map, List.map_map]
  simp only [Function.comp_def, hf.userId, hf.saved]

/-- It is enough that some rows get another session with the same ciphertext. -/
theorem onlyActive_ite {p : SessionRow → Prop} [DecidablePred p] (edit : Session → Session)
    (h : ∀ session, (edit session).encryptedSession = session.encryptedSession) :
    OnlyActive fun row => if p row then { row with session := edit row.session } else row := by
  refine ⟨fun row => ?_, fun row => ?_, fun row => ?_⟩
  · split
    · rfl
    · rfl
  · split
    · rfl
    · rfl
  · split
    · exact Prod.ext rfl (h row.session)
    · rfl

theorem deactivateSession_encrypted (onlyIfSessionIs : Option Bytes) (session : Session) :
    ((UserTgBot.deactivateSession onlyIfSessionIs session).getD session).encryptedSession =
      session.encryptedSession := by
  rw [UserTgBot.deactivateSession]
  split
  · rfl
  · rfl

/-! ## Runs -/

/-- One transaction keeps the tables well formed, and what they remember follows the saves. -/
theorem step_spec (h : WellFormed db) (action : Action) : WellFormed (step db action) ∧
    ∀ other, ((step db action).sessionsOf other).map SessionRow.saved =
      ((savedBy other action).toList).foldl put
        ((db.sessionsOf other).map SessionRow.saved) := by
  cases action with
  | saveSession telegramId phoneNumber encrypted =>
      refine ⟨saveSession_wellFormed h, fun other => ?_⟩
      rw [step, saveSession_saved h, savedBy]
      by_cases heq : other = telegramId
      · rw [if_pos heq, if_pos heq.symm]
        rfl
      · rw [if_neg heq, if_neg (Ne.symm heq)]
        rfl
  | unlink telegramId =>
      rw [step, Db.unlink]
      cases db.users telegramId with
      | none => exact ⟨h, fun _ => rfl⟩
      | some userId =>
          have hf := onlyActive_ite (p := fun row => row.userId = userId ∧ row.session.isActive)
            (fun session => { session with isActive := false }) fun _ => rfl
          exact ⟨onlyActive_wellFormed hf h, onlyActive_saved hf db⟩
  | deactivate sessionId onlyIfSessionIs =>
      have hf := onlyActive_ite (p := fun row => row.id = sessionId) _
        (deactivateSession_encrypted onlyIfSessionIs)
      exact ⟨onlyActive_wellFormed hf h, onlyActive_saved hf db⟩

/-- After any sequence the rows of a user remember the latest save for each number. -/
theorem run_spec (actions : List Action) : WellFormed (run actions) ∧
    ∀ telegramId, ((run actions).sessionsOf telegramId).map SessionRow.saved =
      latest (savesOf telegramId actions) := by
  induction actions using List.reverseRecOn with
  | nil => exact ⟨wellFormed_empty, fun _ => rfl⟩
  | append_singleton actions action ih =>
      obtain ⟨hwellFormed, hsaved⟩ := ih
      obtain ⟨hstep, hput⟩ := step_spec hwellFormed action
      rw [run_append_singleton]
      refine ⟨hstep, fun telegramId => ?_⟩
      rw [hput, hsaved, savesOf_append_singleton, latest, latest, List.foldl_append]

/-- The row with the largest id is the last one. -/
theorem getLastKnownPhone_eq (h : WellFormed db) (telegramId : Int) :
    db.getLastKnownPhone telegramId =
      ((db.sessionsOf telegramId).map SessionRow.phoneNumber).getLast? := by
  have hascending : (db.sessionsOf telegramId).Pairwise fun a b => a.id < b.id :=
    (List.pairwise_map.mp h.ascending).filter _
  rw [Db.getLastKnownPhone, (desc_sortDesc _ _).head?_eq_getLast? hascending, List.getLast?_map]

end Tables

/-! ## What is remembered -/

/-- The remembered number is the one that was saved last for the first time. -/
theorem getLastKnownPhone_run (actions : List Action) (telegramId : Int) :
    (run actions).getLastKnownPhone telegramId =
      (phonesOf telegramId actions).eraseDups.getLast? := by
  obtain ⟨hwellFormed, hsaved⟩ := run_spec actions
  have hphones := congrArg (List.map Prod.fst) (hsaved telegramId)
  rw [map_fst_latest, List.map_map] at hphones
  rw [getLastKnownPhone_eq hwellFormed]
  exact congrArg List.getLast? hphones

/-- What is expected of the tables after a sequence of transactions, for one user. -/
structure RemembersLast (actions : List Action) (telegramId : Int) : Prop where
  unique : ((run actions).sessions.map SessionRow.owner).Nodup
  latest : ∀ phoneNumber,
    (((run actions).sessionsOf telegramId).filter fun row => row.phoneNumber = phoneNumber).map
      (·.session.encryptedSession) =
    (((savesOf telegramId actions).filter fun save => save.1 = phoneNumber).getLast?.map
      Prod.snd).toList
  phone : (run actions).getLastKnownPhone telegramId = (phonesOf telegramId actions).getLast?
  connect : ∀ phoneNumber ∈ (phonesOf telegramId actions).getLast?, phoneNumber ≠ "" →
    cmdConnect (run actions) telegramId true none = .dispatchPhone phoneNumber

/-- No other number of the list came up after the last one had come up for the first time. -/
def NewestLast (phones : List String) : Prop :=
  ∀ phone ∈ phones.getLast?, ∀ other ∈ phones, phones.idxOf other ≤ phones.idxOf phone

instance (phones : List String) : Decidable (NewestLast phones) := by
  unfold NewestLast
  cases phones.getLast? with
  | none => exact .isTrue fun _ h => nomatch h
  | some phone =>
      exact decidable_of_iff (∀ other ∈ phones, phones.idxOf other ≤ phones.idxOf phone)
        ⟨fun h _ hphone => Option.some.inj hphone ▸ h, fun h => h phone rfl⟩

/-- A row for each number of the user, with the last ciphertext, there always is. The number of
the last save is remembered just where it is the user's newest one. -/
theorem remembersLast_iff (actions : List Action) (telegramId : Int) :
    RemembersLast actions telegramId ↔ NewestLast (phonesOf telegramId actions) := by
  rw [NewestLast, ← getLast?_eraseDups_eq_iff, ← getLastKnownPhone_run]
  constructor
  · exact RemembersLast.phone
  · intro hphone
    obtain ⟨hwellFormed, hsaved⟩ := run_spec actions
    refine ⟨hwellFormed.unique, fun phoneNumber => ?_, hphone, ?_⟩
    · have hrows := filter_latest (savesOf telegramId actions) phoneNumber
      rw [← hsaved, List.filter_map] at hrows
      have hvalues := congrArg (List.map Prod.snd) hrows
      rw [List.map_map] at hvalues
      refine hvalues.trans ?_
      cases ((savesOf telegramId actions).filter fun save => save.1 = phoneNumber).getLast? with
      | none => rfl
      | some save => rfl
    · intro phoneNumber hlast hne
      rw [← hphone] at hlast
      have hknown : (run actions).getLastKnownPhone telegramId = some phoneNumber := hlast
      rw [cmdConnect, hknown]
      exact if_neg hne

/-- The old number, a new one, and the old one again. -/
def relinked : List Action :=
  [.saveSession 1001 "+1old" [1], .saveSession 1001 "+2new" [2], .unlink 1001,
    .saveSession 1001 "+1old" [3]]

theorem relinked_forgets :
    ((phonesOf 1001 relinked).getLast? = some "+1old" ∧
      cmdConnect (run relinked) 1001 true none = .dispatchPhone "+2new") ∧
    ¬RemembersLast relinked 1001 := by
  refine ⟨by decide +kernel, fun h => ?_⟩
  have hphone := h.phone
  revert hphone
  decide +kernel

end UserTgBot.Phones
