import Mathlib
import UserTgBot.Connect.InitData
import UserTgBot.Connect.SessionConvert
import UserTgBot.Connect.Tokens
import UserTgBot.Db.Queries
import UserTgBot.Library.Transition

/-!
# Completing a login with a token

`complete_session` of `connect_web/app.py`, one step for each statement and for each check
in between. Any number of requests run concurrently, each in a transaction of its own which
has the number of the request. A refusal (401, 400 or 410) and any other exception before
the commit close the database session, which rolls the transaction back.

Between `get_valid_token` and `consume_token` a request holds nothing, so several requests
can get that far with one token. The guarded update is what singles one of them out: it
locks the token's row until the commit that also publishes the saved session
(`RequestInv.tokenLock`). Whose session is saved is decided earlier, by the row that
`get_valid_token` returned and by `initData`, and neither of them changes afterwards.
-/

namespace UserTgBot.CompleteSession

open PyText ReadCommitted Transition ConnectTokens InitData SessionConvert

/-- The parts of the environment that stay abstract. -/
structure Env where
  lib : Stdlib
  botToken : Text
  /-- `StringSession.save`. -/
  saveString : Int → String → Nat → List UInt8 → Text
  /-- `encrypt_session`, with the random bytes that Fernet draws. -/
  encrypt : Text → Bytes → Bytes

structure SessionPayload where
  initData : Text
  dcId : Int
  authKey : Text

structure Request where
  token : String
  payload : SessionPayload

/-- What the session check reports about the account. -/
structure Account where
  username : Option String
  firstName : Option String
  lastName : Option String
deriving DecidableEq

/-- The two names joined with a blank, or nothing if both are missing or empty. -/
def Account.fullName (account : Account) : Option String :=
  let parts := [account.firstName, account.lastName].filterMap (·.filter (· ≠ ""))
  if parts = [] then none else some (" ".intercalate parts)

/-- The `max_age_seconds` of the call: the lifetime of a token and two minutes. -/
def maxAgeSeconds : Int := 15 * 60 + 120

/-- The local variables of a request after each step. -/
inductive Phase where
  | idle
  | found (row : ConnectToken)
  | authenticated (row : ConnectToken)
  | converted (row : ConnectToken) (sessionString : Text)
  | checked (row : ConnectToken) (sessionString : Text) (account : Account)
  | consumed (row : ConnectToken) (sessionString : Text) (account : Account)
  | userSelected (row : ConnectToken) (sessionString : Text) (account : Account)
      (loaded : Option User)
  | userSaved (row : ConnectToken) (sessionString : Text) (user : User)
  | sessionSelected (row : ConnectToken) (user : User) (encrypted : Bytes)
      (loaded : Option Session)
  | sessionSaved (row : ConnectToken) (user : User) (encrypted : Bytes)
      (loaded : Option Session)
  | committed (row : ConnectToken) (user : User)
  | refused (status : Nat)
  | failed
deriving DecidableEq

namespace Phase

/-- The token has been consumed and the transaction is still open. -/
def Consumed : Phase → Prop
  | .consumed .. => True
  | .userSelected .. => True
  | .userSaved .. => True
  | .sessionSelected .. => True
  | .sessionSaved .. => True
  | _ => False

/-- The user row that the open transaction has saved. -/
def openUser? : Phase → Option (ConnectToken × User)
  | .userSaved row _ user => some (row, user)
  | .sessionSelected row user _ _ => some (row, user)
  | .sessionSaved row user _ _ => some (row, user)
  | _ => none

/-- What the open transaction has encrypted, and the session row that it had found. -/
def stored? : Phase → Option (Bytes × Option Session)
  | .sessionSaved _ _ encrypted loaded => some (encrypted, loaded)
  | _ => none

def IsCommitted : Phase → Prop
  | .committed .. => True
  | _ => False

/-- Refused, or failed before the commit. -/
def IsRejected : Phase → Prop
  | .refused _ => True
  | .failed => True
  | _ => False

/-- The request has no answer yet. -/
def isOpen : Phase → Bool
  | .committed .. => false
  | .refused _ => false
  | .failed => false
  | _ => true

end Phase

structure Database where
  tokens : Tokens Nat
  users : Table Int Nat User
  sessions : Table (Nat × String) Nat Session
  /-- The sequence behind `users.id`. -/
  nextUserId : Nat

namespace Database

def commit (db : Database) (i : Nat) : Database :=
  { db with
    tokens := db.tokens.commit i
    users := db.users.commit i
    sessions := db.sessions.commit i }

def rollback (db : Database) (i : Nat) : Database :=
  { db with
    tokens := db.tokens.rollback i
    users := db.users.rollback i
    sessions := db.sessions.rollback i }

/-- Both databases have the same committed rows. -/
def SameRows (db db' : Database) : Prop :=
  db'.tokens.committed = db.tokens.committed ∧ db'.users.committed = db.users.committed ∧
    db'.sessions.committed = db.sessions.committed

/-- Transaction `i` has written to no row. -/
def NoLocks (db : Database) (i : Nat) : Prop :=
  (∀ k, ¬ (db.tokens k).LockedBy i) ∧ (∀ k, ¬ (db.users k).LockedBy i) ∧
    ∀ k, ¬ (db.sessions k).LockedBy i

end Database

structure World where
  db : Database
  phase : Nat → Phase

def World.advance (w : World) (i : Nat) (db : Database) (p : Phase) : World where
  db := db
  phase := Function.update w.phase i p

/-- An exception leaves the handler: the database session is closed. -/
def World.abort (w : World) (i : Nat) (p : Phase) : World := w.advance i (w.db.rollback i) p

inductive Event where
  | getValidToken (now : DateTime)
  | verify (now : ℚ)
  | convert
  /-- The session check reports the account, or raises. -/
  | check (outcome : Option Account)
  | consumeToken (now : DateTime)
  | selectUser
  | flushUser
  | selectSession (random : Bytes)
  | flushSession
  | commit
  /-- A cancellation, a lost connection or any other exception. -/
  | fail

structure Action where
  request : Nat
  event : Event

def Action.isCommit (a : Action) : Bool :=
  match a.event with
  | .commit => true
  | _ => false

section System

variable (env : Env) (req : Nat → Request)

/-- One step of one request. -/
def step (w : World) (a : Action) : Option World :=
  let i := a.request
  let r := req i
  let db := w.db
  match a.event, w.phase i with
  | .getValidToken now, .idle =>
      match getValidToken db.tokens i r.token now with
      | none => some (w.abort i (.refused 410))
      | some row => some (w.advance i db (.found row))
  | .verify now, .found row =>
      match verifyInitData env.lib now r.payload.initData env.botToken maxAgeSeconds with
      | .error e => some (w.abort i (if e.isValueError then .refused 401 else .failed))
      | .ok user =>
          if user.telegramId = row.telegramId then some (w.advance i db (.authenticated row))
          else some (w.abort i (.refused 401))
  | .convert, .authenticated row =>
      match gramjsToTelethon env.saveString r.payload.dcId r.payload.authKey with
      | .error _ => some (w.abort i (.refused 400))
      | .ok sessionString => some (w.advance i db (.converted row sessionString))
  | .check outcome, .converted row sessionString =>
      match outcome with
      | none => some (w.abort i (.refused 400))
      | some account => some (w.advance i db (.checked row sessionString account))
  | .consumeToken now, .checked row sessionString account =>
      (consumeToken db.tokens i r.token now).map fun out =>
        match out.2 with
        | none => w.abort i (.refused 410)
        | some _ =>
            w.advance i { db with tokens := out.1 } (.consumed row sessionString account)
  | .selectUser, .consumed row sessionString account =>
      let loaded := db.users.read i row.telegramId
      some (w.advance i db (.userSelected row sessionString account loaded))
  | .flushUser, .userSelected row sessionString account none =>
      let user : User := ⟨db.nextUserId, account.username, account.fullName⟩
      (db.users.insert i row.telegramId user).map fun out =>
        let db := { db with users := out.1, nextUserId := db.nextUserId + 1 }
        -- A taken `telegram_id` is an `IntegrityError`.
        if out.2 then w.advance i db (.userSaved row sessionString user)
        else w.advance i (db.rollback i) .failed
  | .flushUser, .userSelected row sessionString account (some loaded) =>
      let edited := upsertUser account.username account.fullName loaded
      (flushUser (db.users row.telegramId) i loaded edited).map fun r =>
        w.advance i { db with users := db.users.set row.telegramId r }
          (.userSaved row sessionString edited)
  | .selectSession random, .userSaved row sessionString user =>
      let loaded := db.sessions.read i (user.id, row.phone)
      some (w.advance i db
        (.sessionSelected row user (env.encrypt sessionString random) loaded))
  | .flushSession, .sessionSelected row user encrypted none =>
      (db.sessions.insert i (user.id, row.phone) ⟨encrypted, true⟩).map fun out =>
        if out.2 then
          w.advance i { db with sessions := out.1 } (.sessionSaved row user encrypted none)
        else w.abort i .failed
  | .flushSession, .sessionSelected row user encrypted (some loaded) =>
      (flushSession (db.sessions (user.id, row.phone)) i loaded
        (saveSession encrypted loaded)).map fun r =>
          w.advance i { db with sessions := db.sessions.set (user.id, row.phone) r }
            (.sessionSaved row user encrypted (some loaded))
  | .commit, .sessionSaved row user _ _ => some (w.advance i (db.commit i) (.committed row user))
  | .fail, p => if p.isOpen then some (w.abort i .failed) else none
  | _, _ => none

/-- The tables before the first request. -/
structure Initial where
  tokens : String → Option ConnectToken
  users : Int → Option User
  sessions : Nat × String → Option Session
  nextUserId : Nat
  distinct : ∀ t t' u u', users t = some u → users t' = some u' → u.id = u'.id → t = t'
  fresh : ∀ t u, users t = some u → u.id < nextUserId

def start (init : Initial) : World where
  db := ⟨.settled init.tokens, .settled init.users, .settled init.sessions, init.nextUserId⟩
  phase := fun _ => .idle

/-- The row is active and carries the ciphertext, unless the row that was found carried it
already: then the flush leaves the column as others may have changed it meanwhile. -/
def Stores (saved : Session) (encrypted : Bytes) (loaded : Option Session) : Prop :=
  saved.isActive = true ∧
    (saved.encryptedSession = encrypted ∨ loaded.map (·.encryptedSession) = some encrypted)

/-- The commit of a request, in phase `p`, that presented accepted `initData` of the token's
owner. It leaves a session row of that owner and of the token's phone, which stores the session
that the request has handed over, and changes no other one. -/
def SavesForOwner (init : Initial) (r : Request) (p : Phase) (before after : Database) : Prop :=
  ∃ (row : ConnectToken) (now : ℚ) (auth : WebAppUser) (user : User) (saved : Session)
    (sessionString : Text) (random : Bytes) (loaded : Option Session),
    init.tokens r.token = some row ∧
    verifyInitData env.lib now r.payload.initData env.botToken maxAgeSeconds = .ok auth ∧
    auth.telegramId = row.telegramId ∧
    after.users.committed row.telegramId = some user ∧
    (∀ t u, after.users.committed t = some u → u.id = user.id → t = row.telegramId) ∧
    after.sessions.committed (user.id, row.phone) = some saved ∧
    gramjsToTelethon env.saveString r.payload.dcId r.payload.authKey = .ok sessionString ∧
    p.stored? = some (env.encrypt sessionString random, loaded) ∧
    Stores saved (env.encrypt sessionString random) loaded ∧
    ∀ k, k ≠ (user.id, row.phone) → after.sessions.committed k = before.sessions.committed k

end System

/-! ## The invariant -/

section Invariant

variable (env : Env) (req : Nat → Request) (init : Initial) (db : Database)

/-- No version of a token is unused after a used one. -/
def Spends (before after : ConnectToken) : Prop := before.usedAt ≠ none → after.usedAt ≠ none

def SameId (before after : User) : Prop := after.id = before.id

/-- No version of a session is inactive after an active one. -/
def StaysActive (before after : Session) : Prop := before.isActive = true → after.isActive = true

/-- What holds of the tables, whatever the requests are doing. -/
structure TableInv : Prop where
  issued : ∀ k v, (db.tokens k).HasVersion v → ∃ issued, init.tokens k = some issued ∧
    v.telegramId = issued.telegramId ∧ v.phone = issued.phone
  spends : ∀ k, (db.tokens k).Grows Spends
  distinct : ∀ k k' u u', (db.users k).HasVersion u → (db.users k').HasVersion u' →
    u.id = u'.id → k = k'
  fresh : ∀ k u, (db.users k).HasVersion u → u.id < db.nextUserId
  sameId : ∀ k, (db.users k).Grows SameId
  active : ∀ k, (db.sessions k).Grows StaysActive

/-- The local copy of the token agrees with the issued one in what never changes. -/
def Read (i : Nat) (row : ConnectToken) : Prop :=
  ∃ issued, init.tokens (req i).token = some issued ∧ row.telegramId = issued.telegramId ∧
    row.phone = issued.phone

/-- The request has proved to come from the owner of the token. -/
def FromOwner (i : Nat) (row : ConnectToken) : Prop :=
  Read req init i row ∧ ∃ now auth, verifyInitData env.lib now (req i).payload.initData
    env.botToken maxAgeSeconds = .ok auth ∧ auth.telegramId = row.telegramId

/-- The payload of the request has been converted. -/
def Converted (i : Nat) (sessionString : Text) : Prop :=
  gramjsToTelethon env.saveString (req i).payload.dcId (req i).payload.authKey =
    .ok sessionString

def Prepared (i : Nat) (row : ConnectToken) (sessionString : Text) : Prop :=
  FromOwner env req init i row ∧ Converted env req i sessionString

def Encrypted (i : Nat) (row : ConnectToken) (encrypted : Bytes) : Prop :=
  FromOwner env req init i row ∧ ∃ sessionString random,
    Converted env req i sessionString ∧ encrypted = env.encrypt sessionString random

/-- The transaction has locked its token. -/
def Holds (i : Nat) : Prop := ∃ v, (db.tokens (req i).token).pending = some (i, v)

/-- The token of the request has been used up. -/
def Spent (i : Nat) : Prop :=
  ∃ c, (db.tokens (req i).token).committed = some c ∧ c.usedAt ≠ none

/-- Transaction `i` sees a user with that Telegram id and row id. -/
def UserKnown (i : Nat) (telegramId : Int) (id : Nat) : Prop :=
  (∃ v, (db.users telegramId).pending = some (i, v) ∧ v.id = id) ∨
    ∃ c, (db.users telegramId).committed = some c ∧ c.id = id

/-- The session that was found under that key is still there, though others may have changed
it. -/
def SessionKnown (k : Nat × String) (loaded : Session) : Prop :=
  ∃ c, (db.sessions k).committed = some c ∧ StaysActive loaded c

/-- Transaction `i` has stored its session in the row, or has found nothing to write. -/
def StoredIn (r : Row Nat Session) (i : Nat) (encrypted : Bytes) (loaded : Option Session) :
    Prop :=
  (∃ v, r.pending = some (i, v) ∧ Stores v encrypted loaded) ∨
    ∃ c, r.committed = some c ∧ c.isActive = true ∧
      loaded.map (·.encryptedSession) = some encrypted

/-- What a request has achieved in each phase. -/
def Progress (i : Nat) : Phase → Prop
  | .idle => True
  | .found row => Read req init i row
  | .authenticated row => FromOwner env req init i row
  | .converted row sessionString => Prepared env req init i row sessionString
  | .checked row sessionString _ => Prepared env req init i row sessionString
  | .consumed row sessionString _ => Prepared env req init i row sessionString ∧ Holds req db i
  | .userSelected row sessionString _ loaded =>
      Prepared env req init i row sessionString ∧ Holds req db i ∧
        ∀ u, loaded = some u → UserKnown db i row.telegramId u.id
  | .userSaved row sessionString user =>
      Prepared env req init i row sessionString ∧ Holds req db i ∧
        UserKnown db i row.telegramId user.id
  | .sessionSelected row user encrypted loaded =>
      Encrypted env req init i row encrypted ∧ Holds req db i ∧
        UserKnown db i row.telegramId user.id ∧
          ∀ s, loaded = some s → SessionKnown db (user.id, row.phone) s
  | .sessionSaved row user encrypted loaded =>
      Encrypted env req init i row encrypted ∧ Holds req db i ∧
        UserKnown db i row.telegramId user.id ∧
          StoredIn (db.sessions (user.id, row.phone)) i encrypted loaded
  | .committed row _ => FromOwner env req init i row ∧ Spent req db i
  | .refused _ => True
  | .failed => True

/-- Request `i` in phase `p`: which rows it has locked, and what it has achieved. -/
structure RequestInv (i : Nat) (p : Phase) : Prop where
  tokenLock : ∀ k v, (db.tokens k).pending = some (i, v) → (req i).token = k ∧ p.Consumed ∧
    v.usedAt ≠ none ∧ ∃ c, (db.tokens k).committed = some c ∧ c.usedAt = none
  userLock : ∀ k v, (db.users k).pending = some (i, v) → ∃ row user,
    p.openUser? = some (row, user) ∧ row.telegramId = k ∧ v.id = user.id
  sessionLock : ∀ k v, (db.sessions k).pending = some (i, v) → ∃ row user encrypted loaded,
    p = .sessionSaved row user encrypted loaded ∧ k = (user.id, row.phone)
  progress : Progress env req init db i p

structure Inv (w : World) : Prop where
  tables : TableInv init w.db
  request : ∀ i, RequestInv env req init w.db i (w.phase i)

/-- The step of one request moves the rows of every table for that transaction only. -/
structure Database.Move (i : Nat) (db' : Database) : Prop where
  tokens : ∀ k, Row.Move i (db.tokens k) (db'.tokens k)
  users : ∀ k, Row.Move i (db.users k) (db'.users k)
  sessions : ∀ k, Row.Move i (db.sessions k) (db'.sessions k)

end Invariant

theorem Spends.refl (row : ConnectToken) : Spends row row := fun h => h

theorem Spends.trans (a b c : ConnectToken) (hab : Spends a b) (hbc : Spends b c) :
    Spends a c := fun h => hbc (hab h)

theorem SameId.refl (row : User) : SameId row row := rfl

theorem SameId.trans (a b c : User) (hab : SameId a b) (hbc : SameId b c) : SameId a c :=
  Eq.trans hbc hab

theorem StaysActive.refl (row : Session) : StaysActive row row := fun h => h

section Preservation

variable {env : Env} {req : Nat → Request} {init : Initial} {db db' : Database}
variable {w w' : World} {i j : Nat} {p p' : Phase}

/-! ### The other requests -/

theorem Holds.other (h : Holds req db j) (move : db.Move i db') (hne : j ≠ i) :
    Holds req db' j := by
  obtain ⟨v, hv⟩ := h
  exact ⟨v, by rw [(move.tokens _).eq_of_pending_other hv hne, hv]⟩

theorem Spent.move (h : Spent req db j) (tables : TableInv init db) (move : db.Move i db') :
    Spent req db' j := by
  obtain ⟨c, hc, hused⟩ := h
  obtain ⟨c', hc', spends⟩ := (move.tokens _).committed (tables.spends _) Spends.refl hc
  exact ⟨c', hc', spends hused⟩

theorem UserKnown.other {telegramId : Int} {id : Nat} (h : UserKnown db j telegramId id)
    (tables : TableInv init db) (move : db.Move i db') (hne : j ≠ i) :
    UserKnown db' j telegramId id := by
  obtain ⟨v, hv, hid⟩ | ⟨c, hc, hid⟩ := h
  · exact .inl ⟨v, by rw [(move.users _).eq_of_pending_other hv hne, hv], hid⟩
  · obtain ⟨c', hc', same⟩ := (move.users _).committed (tables.sameId _) SameId.refl hc
    exact .inr ⟨c', hc', Eq.trans same hid⟩

theorem SessionKnown.move {k : Nat × String} {loaded : Session} (h : SessionKnown db k loaded)
    (tables : TableInv init db) (move : db.Move i db') : SessionKnown db' k loaded := by
  obtain ⟨c, hc, stays⟩ := h
  obtain ⟨c', hc', same⟩ := (move.sessions k).committed (tables.active k) StaysActive.refl hc
  exact ⟨c', hc', fun hactive => same (stays hactive)⟩

theorem StoredIn.other {k : Nat × String} {encrypted : Bytes} {loaded : Option Session}
    (h : StoredIn (db.sessions k) j encrypted loaded) (tables : TableInv init db)
    (move : db.Move i db') (hne : j ≠ i) : StoredIn (db'.sessions k) j encrypted loaded := by
  obtain ⟨v, hv, stores⟩ | ⟨c, hc, hactive, hsame⟩ := h
  · exact .inl ⟨v, by rw [(move.sessions _).eq_of_pending_other hv hne, hv], stores⟩
  · obtain ⟨c', hc', stays⟩ := (move.sessions k).committed (tables.active k) StaysActive.refl hc
    exact .inr ⟨c', hc', stays hactive, hsame⟩

theorem Progress.other (h : Progress env req init db j p) (tables : TableInv init db)
    (move : db.Move i db') (hne : j ≠ i) : Progress env req init db' j p := by
  cases p with
  | idle => trivial
  | found row => exact h
  | authenticated row => exact h
  | converted row s => exact h
  | checked row s account => exact h
  | consumed row s account => exact ⟨h.1, h.2.other move hne⟩
  | userSelected row s account loaded =>
      exact ⟨h.1, h.2.1.other move hne, fun u hu => (h.2.2 u hu).other tables move hne⟩
  | userSaved row s user =>
      exact ⟨h.1, h.2.1.other move hne, h.2.2.other tables move hne⟩
  | sessionSelected row user encrypted loaded =>
      exact ⟨h.1, h.2.1.other move hne, h.2.2.1.other tables move hne,
        fun s hs => (h.2.2.2 s hs).move tables move⟩
  | sessionSaved row user encrypted loaded =>
      exact ⟨h.1, h.2.1.other move hne, h.2.2.1.other tables move hne,
        h.2.2.2.other tables move hne⟩
  | committed row user => exact ⟨h.1, h.2.move tables move⟩
  | refused status => trivial
  | failed => trivial

/-- A step of request `i` keeps what is known of every other request. -/
theorem RequestInv.other (h : RequestInv env req init db j p) (tables : TableInv init db)
    (move : db.Move i db') (hne : j ≠ i) : RequestInv env req init db' j p := by
  refine ⟨?_, ?_, ?_, h.progress.other tables move hne⟩
  · intro k v hv
    have hold := (move.tokens k).pending_other_of hv hne
    rw [(move.tokens k).eq_of_pending_other hold hne]
    exact h.tokenLock k v hold
  · intro k v hv
    exact h.userLock k v ((move.users k).pending_other_of hv hne)
  · intro k v hv
    exact h.sessionLock k v ((move.sessions k).pending_other_of hv hne)

theorem Inv.advance (h : Inv env req init w) (move : w.db.Move i db')
    (tables : TableInv init db') (request : RequestInv env req init db' i p') :
    Inv env req init (w.advance i db' p') := by
  refine ⟨tables, fun j => ?_⟩
  by_cases hj : j = i
  · subst hj
    simpa [World.advance] using request
  · have hphase : (w.advance i db' p').phase j = w.phase j := by
      simp [World.advance, hj]
    rw [hphase]
    exact (h.request j).other h.tables move hj

/-! ### Steps without a write -/

theorem Database.Move.refl (db : Database) (i : Nat) : db.Move i db :=
  ⟨fun _ => .stay, fun _ => .stay, fun _ => .stay⟩

/-- The request goes on to a phase that has the same locks. -/
theorem RequestInv.relabel (h : RequestInv env req init db i p)
    (consumed : p.Consumed → p'.Consumed)
    (user : ∀ saved, p.openUser? = some saved → p'.openUser? = some saved)
    (unsaved : p.stored? = none)
    (progress : Progress env req init db i p') : RequestInv env req init db i p' := by
  refine ⟨?_, ?_, ?_, progress⟩
  · intro k v hv
    obtain ⟨htoken, hconsumed, hrest⟩ := h.tokenLock k v hv
    exact ⟨htoken, consumed hconsumed, hrest⟩
  · intro k v hv
    obtain ⟨row, saved, hp, hrest⟩ := h.userLock k v hv
    exact ⟨row, saved, user _ hp, hrest⟩
  · intro k v hv
    obtain ⟨row, user, encrypted, loaded, rfl, _⟩ := h.sessionLock k v hv
    cases unsaved

theorem Inv.relabel (h : Inv env req init w) (hi : w.phase i = p)
    (consumed : p.Consumed → p'.Consumed)
    (user : ∀ saved, p.openUser? = some saved → p'.openUser? = some saved)
    (unsaved : p.stored? = none)
    (progress : Progress env req init w.db i p → Progress env req init w.db i p') :
    Inv env req init (w.advance i w.db p') := by
  have hrequest := h.request i
  rw [hi] at hrequest
  exact h.advance (.refl w.db i) h.tables
    (hrequest.relabel consumed user unsaved (progress hrequest.progress))

/-- A request without locks satisfies everything but the progress of its phase. -/
theorem RequestInv.of_noLocks (free : db.NoLocks i)
    (progress : Progress env req init db i p) : RequestInv env req init db i p :=
  ⟨fun k v hv => absurd ⟨v, hv⟩ (free.1 k), fun k v hv => absurd ⟨v, hv⟩ (free.2.1 k),
    fun k v hv => absurd ⟨v, hv⟩ (free.2.2 k), progress⟩

/-! ### The end of a transaction -/

theorem Database.move_rollback (db : Database) (i : Nat) : db.Move i (db.rollback i) :=
  ⟨fun _ => .rollback, fun _ => .rollback, fun _ => .rollback⟩

theorem Database.move_commit (db : Database) (i : Nat) : db.Move i (db.commit i) :=
  ⟨fun _ => .commit, fun _ => .commit, fun _ => .commit⟩

theorem Database.noLocks_rollback (db : Database) (i : Nat) : (db.rollback i).NoLocks i :=
  ⟨fun k => (db.tokens k).not_lockedBy_rollback i, fun k => (db.users k).not_lockedBy_rollback i,
    fun k => (db.sessions k).not_lockedBy_rollback i⟩

theorem Database.noLocks_commit (db : Database) (i : Nat) : (db.commit i).NoLocks i :=
  ⟨fun k => (db.tokens k).not_lockedBy_commit i, fun k => (db.users k).not_lockedBy_commit i,
    fun k => (db.sessions k).not_lockedBy_commit i⟩

theorem TableInv.rollback (h : TableInv init db) (i : Nat) : TableInv init (db.rollback i) where
  issued k v hv := h.issued k v (Row.hasVersion_rollback hv)
  spends k := (h.spends k).rollback
  distinct k k' u u' hu hu' := h.distinct k k' u u' (Row.hasVersion_rollback hu)
    (Row.hasVersion_rollback hu')
  fresh k u hu := h.fresh k u (Row.hasVersion_rollback hu)
  sameId k := (h.sameId k).rollback
  active k := (h.active k).rollback

theorem TableInv.commit (h : TableInv init db) (i : Nat) : TableInv init (db.commit i) where
  issued k v hv := h.issued k v (Row.hasVersion_commit hv)
  spends k := (h.spends k).commit
  distinct k k' u u' hu hu' := h.distinct k k' u u' (Row.hasVersion_commit hu)
    (Row.hasVersion_commit hu')
  fresh k u hu := h.fresh k u (Row.hasVersion_commit hu)
  sameId k := (h.sameId k).commit
  active k := (h.active k).commit

theorem Inv.abort (h : Inv env req init w) (rejected : p'.IsRejected) :
    Inv env req init (w.abort i p') := by
  refine h.advance (w.db.move_rollback i) (h.tables.rollback i)
    (.of_noLocks (w.db.noLocks_rollback i) ?_)
  cases p' <;> trivial

/-- The token of a request that is about to commit. -/
theorem RequestInv.held {row : ConnectToken} {user : User} {encrypted : Bytes}
    {loaded : Option Session}
    (h : RequestInv env req init db i (.sessionSaved row user encrypted loaded)) :
    ∃ v c, (db.tokens (req i).token).pending = some (i, v) ∧ v.usedAt ≠ none ∧
      (db.tokens (req i).token).committed = some c ∧ c.usedAt = none := by
  obtain ⟨v, hv⟩ := h.progress.2.1
  obtain ⟨-, -, hused, c, hc, hunused⟩ := h.tokenLock _ v hv
  exact ⟨v, c, hv, hused, hc, hunused⟩

theorem Inv.commit {row : ConnectToken} {user : User} {encrypted : Bytes}
    {loaded : Option Session} (h : Inv env req init w)
    (hi : w.phase i = .sessionSaved row user encrypted loaded) :
    Inv env req init (w.advance i (w.db.commit i) (.committed row user)) := by
  have hrequest := h.request i
  rw [hi] at hrequest
  refine h.advance (w.db.move_commit i) (h.tables.commit i)
    (.of_noLocks (w.db.noLocks_commit i) ⟨hrequest.progress.1.1, ?_⟩)
  obtain ⟨v, c, hv, hused, -⟩ := hrequest.held
  refine ⟨v, ?_, hused⟩
  change ((w.db.tokens (req i).token).commit i).committed = some v
  rw [Row.commit_of_pending hv, Row.settled_committed]

/-! ### Writes -/

theorem not_lockedBy_token (h : RequestInv env req init db i p) (hp : ¬ p.Consumed)
    (k : String) : ¬ (db.tokens k).LockedBy i := by
  rintro ⟨v, hv⟩
  exact hp (h.tokenLock k v hv).2.1

theorem not_lockedBy_user (h : RequestInv env req init db i p) (hp : p.openUser? = none)
    (k : Int) : ¬ (db.users k).LockedBy i := by
  rintro ⟨v, hv⟩
  obtain ⟨row, user, huser, _⟩ := h.userLock k v hv
  rw [hp] at huser
  cases huser

theorem not_lockedBy_session (h : RequestInv env req init db i p)
    (hp : p.stored? = none) (k : Nat × String) : ¬ (db.sessions k).LockedBy i := by
  rintro ⟨v, hv⟩
  obtain ⟨row, user, encrypted, loaded, rfl, _⟩ := h.sessionLock k v hv
  cases hp

/-- Write a new version of a token, derived from the visible one. -/
theorem TableInv.setToken {k : String} {seen v : ConnectToken} (h : TableInv init db)
    (hseen : (db.tokens k).visible i = some seen) (spends : Spends seen v)
    (telegramId : v.telegramId = seen.telegramId) (phone : v.phone = seen.phone) :
    TableInv init { db with
      tokens := db.tokens.set k { db.tokens k with pending := some (i, v) } } := by
  refine ⟨?_, ?_, h.distinct, h.fresh, h.sameId, h.active⟩
  · intro k' version hversion
    by_cases hk : k' = k
    · subst hk
      simp only [Table.set_same] at hversion
      obtain hc | ⟨t, hp⟩ := hversion
      · exact h.issued k' version (.inl hc)
      · obtain ⟨-, rfl⟩ := Prod.mk.inj (Option.some.inj hp)
        obtain ⟨issued, hissued, hid, hphone⟩ :=
          h.issued k' seen (Row.hasVersion_of_visible hseen)
        exact ⟨issued, hissued, telegramId.trans hid, phone.trans hphone⟩
    · simp only [Table.set_ne _ _ hk] at hversion
      exact h.issued k' version hversion
  · intro k'
    by_cases hk : k' = k
    · subst hk
      simp only [Table.set_same]
      exact (h.spends k').lock Spends.trans hseen spends
    · simp only [Table.set_ne _ _ hk]
      exact h.spends k'

theorem Inv.consumeToken {now : DateTime} {row : ConnectToken} {sessionString : Text}
    {account : Account} {tokens : Tokens Nat} {new : ConnectToken} (h : Inv env req init w)
    (hi : w.phase i = .checked row sessionString account)
    (hconsume : ConnectTokens.consumeToken w.db.tokens i (req i).token now =
      some (tokens, some new)) :
    Inv env req init (w.advance i { w.db with tokens := tokens }
      (.consumed row sessionString account)) := by
  have hrequest := h.request i
  rw [hi] at hrequest
  obtain ⟨hfree, ⟨hnone, _⟩ | ⟨seen, v, hseen, hv, _, rfl⟩⟩ := Table.update_cases hconsume
  · cases hnone
  · have hcommitted : (w.db.tokens (req i).token).committed = some seen := by
      rw [← hseen]
      exact (Row.visible_of_not_lockedBy (not_lockedBy_token hrequest id _)).symm
    obtain ⟨hvalid, rfl⟩ := ConnectToken.consumed_eq_some.mp hv
    refine h.advance ⟨Table.update_move hconsume, fun _ => .stay, fun _ => .stay⟩
      (h.tables.setToken hseen (fun _ => by simp) rfl rfl) ⟨?_, ?_, ?_, ?_⟩
    · intro k version hversion
      by_cases hk : k = (req i).token
      · subst hk
        simp only [Table.set_same] at hversion
        obtain ⟨-, rfl⟩ := Prod.mk.inj (Option.some.inj hversion)
        exact ⟨rfl, trivial, by simp, seen, by simpa using hcommitted, hvalid.1⟩
      · simp only [Table.set_ne _ _ hk] at hversion
        exact absurd ⟨version, hversion⟩ (not_lockedBy_token hrequest id k)
    · intro k version hversion
      exact absurd ⟨version, hversion⟩ (not_lockedBy_user hrequest rfl k)
    · intro k version hversion
      exact absurd ⟨version, hversion⟩ (not_lockedBy_session hrequest rfl k)
    · exact ⟨hrequest.progress, { seen with usedAt := some now }, by simp⟩

/-- Write a user under a row id that no other user has. -/
theorem TableInv.setUser {k : Int} {v : User} {next : Nat} (h : TableInv init db)
    (hfree : (db.users k).blocks i = false) (later : db.nextUserId ≤ next)
    (fresh : v.id < next) (own : ∀ k' u, (db.users k').HasVersion u → u.id = v.id → k' = k)
    (same : ∀ seen, (db.users k).visible i = some seen → v.id = seen.id) :
    TableInv init { db with
      users := db.users.set k { db.users k with pending := some (i, v) }, nextUserId := next } := by
  have hversions : ∀ k' u,
      (db.users.set k { db.users k with pending := some (i, v) } k').HasVersion u →
        (db.users k').HasVersion u ∨ (k' = k ∧ u = v) := by
    intro k' u hu
    by_cases hk : k' = k
    · subst hk
      simp only [Table.set_same] at hu
      obtain hc | ⟨t, hp⟩ := hu
      · exact .inl (.inl hc)
      · exact .inr ⟨rfl, (congrArg Prod.snd (Option.some.inj hp)).symm⟩
    · rw [Table.set_ne _ _ hk] at hu
      exact .inl hu
  refine ⟨h.issued, h.spends, ?_, ?_, ?_, h.active⟩
  · intro k₁ k₂ u₁ u₂ h₁ h₂ heq
    rcases hversions k₁ u₁ h₁ with old₁ | ⟨hk₁, hu₁⟩ <;>
      obtain old₂ | ⟨hk₂, hu₂⟩ := hversions k₂ u₂ h₂
    · exact h.distinct k₁ k₂ u₁ u₂ old₁ old₂ heq
    · exact (own k₁ u₁ old₁ (heq.trans (by rw [hu₂]))).trans hk₂.symm
    · exact hk₁.trans (own k₂ u₂ old₂ (heq.symm.trans (by rw [hu₁]))).symm
    · exact hk₁.trans hk₂.symm
  · intro k' u hu
    obtain hu | ⟨-, rfl⟩ := hversions k' u hu
    · exact Nat.lt_of_lt_of_le (h.fresh k' u hu) later
    · exact fresh
  · intro k'
    by_cases hk : k' = k
    · subst hk
      simp only [Table.set_same]
      cases hvisible : (db.users k').visible i with
      | some seen => exact (h.sameId k').lock SameId.trans hvisible (same seen hvisible)
      | none =>
          -- The row was free and invisible, so nothing has been committed there.
          intro c t u hc
          have hnone : (db.users k').committed = none := by
            by_cases hl : (db.users k').LockedBy i
            · obtain ⟨u, hu⟩ := hl
              rw [Row.visible_of_pending hu] at hvisible
              cases hvisible
            · rwa [Row.visible_of_not_lockedBy hl] at hvisible
          rw [hnone] at hc
          cases hc
    · simp only [Table.set_ne _ _ hk]
      exact h.sameId k'

/-- The row of a known user, as the transaction sees it, has the known id. -/
theorem UserKnown.visible {k : Int} {id : Nat} {seen : User} (h : UserKnown db i k id)
    (tables : TableInv init db) (hseen : (db.users k).visible i = some seen) : seen.id = id := by
  obtain ⟨v, hv, hid⟩ | ⟨c, hc, hid⟩ := h
  · rw [Row.visible_of_pending hv] at hseen
    cases hseen
    exact hid
  · obtain hcommitted | ⟨t, hp⟩ := Row.hasVersion_of_visible hseen
    · rw [hc] at hcommitted
      cases hcommitted
      exact hid
    · exact Eq.trans (tables.sameId k c t seen hc hp) hid

theorem Inv.insertUser {row : ConnectToken} {sessionString : Text} {account : Account}
    {user : User} {users : Table Int Nat User} {inserted : Bool} (h : Inv env req init w)
    (hi : w.phase i = .userSelected row sessionString account none)
    (hid : user.id = w.db.nextUserId)
    (hinsert : w.db.users.insert i row.telegramId user = some (users, inserted)) :
    Inv env req init
      (if inserted then
        w.advance i { w.db with users := users, nextUserId := w.db.nextUserId + 1 }
          (.userSaved row sessionString user)
      else
        w.advance i (({ w.db with
          users := users, nextUserId := w.db.nextUserId + 1 } : Database).rollback i) .failed) := by
  have hrequest := h.request i
  rw [hi] at hrequest
  obtain ⟨hfree, ⟨rfl, rfl, _⟩ | ⟨rfl, hnone, rfl⟩⟩ := Table.insert_cases hinsert
  · -- The unique key is taken: the transaction is rolled back, the sequence is not.
    have hnext : TableInv init { w.db with nextUserId := w.db.nextUserId + 1 } :=
      ⟨h.tables.issued, h.tables.spends, h.tables.distinct,
        fun k u hu => Nat.lt_succ_of_lt (h.tables.fresh k u hu), h.tables.sameId,
        h.tables.active⟩
    simp only [Bool.false_eq_true, if_false]
    exact h.advance ⟨fun _ => .rollback, fun _ => .rollback, fun _ => .rollback⟩
      (hnext.rollback i) (.of_noLocks (Database.noLocks_rollback _ i) trivial)
  · simp only [if_true]
    refine h.advance ⟨fun _ => .stay, Table.insert_move hinsert, fun _ => .stay⟩
      (h.tables.setUser hfree (Nat.le_succ _) (by omega) ?_ ?_) ⟨?_, ?_, ?_, ?_⟩
    · intro k u hu heq
      have hlt := h.tables.fresh k u hu
      omega
    · intro seen hseen
      rw [hnone] at hseen
      cases hseen
    · exact fun k v hv => hrequest.tokenLock k v hv
    · intro k v hv
      obtain ⟨rfl, rfl⟩ | hbefore := Table.pending_write hv
      · exact ⟨row, v, rfl, rfl, rfl⟩
      · exact absurd ⟨v, hbefore⟩ (not_lockedBy_user hrequest rfl k)
    · intro k v hv
      exact absurd ⟨v, hv⟩ (not_lockedBy_session hrequest rfl k)
    · exact ⟨hrequest.progress.1, hrequest.progress.2.1, .inl ⟨user, by simp, rfl⟩⟩

theorem Inv.flushUser {row : ConnectToken} {sessionString : Text} {account : Account}
    {loaded edited : User} {r : Row Nat User} (h : Inv env req init w)
    (hi : w.phase i = .userSelected row sessionString account (some loaded))
    (hid : edited.id = loaded.id)
    (hflush : UserTgBot.flushUser (w.db.users row.telegramId) i loaded edited = some r) :
    Inv env req init (w.advance i { w.db with users := w.db.users.set row.telegramId r }
      (.userSaved row sessionString edited)) := by
  have hrequest := h.request i
  rw [hi] at hrequest
  have hknown : UserKnown w.db i row.telegramId edited.id := by
    rw [hid]
    exact hrequest.progress.2.2 loaded rfl
  obtain rfl | ⟨hfree, seen, hseen, rfl⟩ := flushUser_cases hflush
  · rw [Table.set, Function.update_eq_self]
    have hclosed : ∀ saved, (w.phase i).openUser? ≠ some saved := by
      intro saved hsaved
      rw [hi] at hsaved
      cases hsaved
    exact h.advance (.refl w.db i) h.tables (hrequest.relabel id
      (fun saved hsaved => absurd (hi ▸ hsaved) (hclosed saved)) rfl
      ⟨hrequest.progress.1, hrequest.progress.2.1, hknown⟩)
  · have hseenId : seen.id = edited.id := hknown.visible h.tables hseen
    have hsame : ∀ u, (w.db.users row.telegramId).visible i = some u → seen.id = u.id := by
      intro u hu
      rw [hseen] at hu
      cases hu
      rfl
    have hversion := Row.hasVersion_of_visible hseen
    have htables := h.tables.setUser (v := (UserPatch.between loaded edited).apply seen) hfree
      (Nat.le_refl _) (h.tables.fresh _ seen hversion)
      (fun k u hu heq => h.tables.distinct k _ u seen hu hversion heq) hsame
    refine h.advance ⟨fun _ => .stay, Table.write_move _ hfree, fun _ => .stay⟩ htables
      ⟨?_, ?_, ?_, ?_⟩
    · exact fun k v hv => hrequest.tokenLock k v hv
    · intro k v hv
      obtain ⟨rfl, rfl⟩ | hbefore := Table.pending_write hv
      · exact ⟨row, edited, rfl, rfl, hseenId⟩
      · exact absurd ⟨v, hbefore⟩ (not_lockedBy_user hrequest rfl k)
    · intro k v hv
      exact absurd ⟨v, hv⟩ (not_lockedBy_session hrequest rfl k)
    · exact ⟨hrequest.progress.1, hrequest.progress.2.1,
        .inl ⟨(UserPatch.between loaded edited).apply seen, by simp, hseenId⟩⟩

/-- The session row of the request is saved, by a write of its own or as it stands. -/
theorem Inv.saveSession {row : ConnectToken} {user : User} {encrypted : Bytes}
    {loaded : Option Session} {r : Row Nat Session} (h : Inv env req init w)
    (hi : w.phase i = .sessionSelected row user encrypted loaded)
    (move : Row.Move i (w.db.sessions (user.id, row.phone)) r) (active : r.Grows StaysActive)
    (stored : StoredIn r i encrypted loaded) :
    Inv env req init (w.advance i
      { w.db with sessions := w.db.sessions.set (user.id, row.phone) r }
      (.sessionSaved row user encrypted loaded)) := by
  have hrequest := h.request i
  rw [hi] at hrequest
  refine h.advance ⟨fun _ => .stay, fun _ => .stay, fun k => ?_⟩
    ⟨h.tables.issued, h.tables.spends, h.tables.distinct, h.tables.fresh, h.tables.sameId,
      fun k => ?_⟩
    ⟨?_, ?_, ?_, ?_⟩
  · by_cases hk : k = (user.id, row.phone)
    · subst hk
      simpa only [Table.set_same] using move
    · simp only [Table.set_ne _ _ hk]
      exact .stay
  · by_cases hk : k = (user.id, row.phone)
    · subst hk
      simpa only [Table.set_same] using active
    · simp only [Table.set_ne _ _ hk]
      exact h.tables.active k
  · exact fun k v hv => hrequest.tokenLock k v hv
  · exact fun k v hv => hrequest.userLock k v hv
  · intro k v hv
    by_cases hk : k = (user.id, row.phone)
    · exact ⟨row, user, encrypted, loaded, rfl, hk⟩
    · simp only [Table.set_ne _ _ hk] at hv
      exact absurd ⟨v, hv⟩ (not_lockedBy_session hrequest rfl k)
  · exact ⟨hrequest.progress.1, hrequest.progress.2.1, hrequest.progress.2.2.1,
      by simpa only [Table.set_same] using stored⟩

/-- A new version that is active follows whatever was committed. -/
theorem grows_of_active {r : Row Nat Session} {v : Session} (active : v.isActive = true) :
    ({ r with pending := some (i, v) } : Row Nat Session).Grows StaysActive := by
  intro c t v' _ hv' _
  obtain ⟨-, rfl⟩ := Prod.mk.inj (Option.some.inj hv')
  exact active

theorem Inv.insertSession {row : ConnectToken} {user : User} {encrypted : Bytes}
    {sessions : Table (Nat × String) Nat Session} {inserted : Bool} (h : Inv env req init w)
    (hi : w.phase i = .sessionSelected row user encrypted none)
    (hinsert : w.db.sessions.insert i (user.id, row.phone) ⟨encrypted, true⟩ =
      some (sessions, inserted)) :
    Inv env req init
      (if inserted then
        w.advance i { w.db with sessions := sessions } (.sessionSaved row user encrypted none)
      else w.abort i .failed) := by
  obtain ⟨hfree, ⟨rfl, _, _⟩ | ⟨rfl, _, rfl⟩⟩ := Table.insert_cases hinsert
  · exact h.abort trivial
  · exact h.saveSession hi (.write _ hfree) (grows_of_active rfl)
      (.inl ⟨⟨encrypted, true⟩, rfl, rfl, .inl rfl⟩)

/-- On a row that stays active, the flush of `save_session` stores the session. -/
theorem stores_apply {encrypted : Bytes} {loaded seen : Session} (stays : StaysActive loaded seen) :
    Stores ((SessionPatch.between loaded (UserTgBot.saveSession encrypted loaded)).apply seen)
      encrypted (some loaded) := by
  refine ⟨?_, ?_⟩
  · cases hactive : loaded.isActive with
    | true =>
        have hseen : seen.isActive = true := stays hactive
        simp [SessionPatch.between, SessionPatch.apply, UserTgBot.saveSession, hactive, hseen]
    | false => simp [SessionPatch.between, SessionPatch.apply, UserTgBot.saveSession, hactive]
  · by_cases hsame : encrypted = loaded.encryptedSession
    · exact .inr (congrArg some hsame.symm)
    · exact .inl (by
        simp [SessionPatch.between, SessionPatch.apply, UserTgBot.saveSession, hsame])

/-- A flush with nothing to write has found the session stored. -/
theorem stored_of_isEmpty {encrypted : Bytes} {loaded : Session}
    (empty : (SessionPatch.between loaded (UserTgBot.saveSession encrypted loaded)).IsEmpty) :
    loaded.isActive = true ∧ loaded.encryptedSession = encrypted := by
  have hedited := SessionPatch.between_apply loaded (UserTgBot.saveSession encrypted loaded)
  rw [SessionPatch.apply_of_isEmpty empty] at hedited
  exact ⟨congrArg Session.isActive hedited, congrArg Session.encryptedSession hedited⟩

theorem Inv.flushSession {row : ConnectToken} {user : User} {encrypted : Bytes}
    {loaded : Session} {r : Row Nat Session} (h : Inv env req init w)
    (hi : w.phase i = .sessionSelected row user encrypted (some loaded))
    (hflush : UserTgBot.flushSession (w.db.sessions (user.id, row.phone)) i loaded
      (UserTgBot.saveSession encrypted loaded) = some r) :
    Inv env req init (w.advance i
      { w.db with sessions := w.db.sessions.set (user.id, row.phone) r }
      (.sessionSaved row user encrypted (some loaded))) := by
  have hrequest := h.request i
  rw [hi] at hrequest
  obtain ⟨c, hc, stays⟩ := hrequest.progress.2.2.2 loaded rfl
  have hvisible : (w.db.sessions (user.id, row.phone)).visible i = some c :=
    (Row.visible_of_not_lockedBy (not_lockedBy_session hrequest rfl _)).trans hc
  obtain ⟨hempty, rfl⟩ | ⟨hfree, seen, hseen, rfl⟩ | ⟨hnone, -⟩ := flushSession_cases hflush
  · obtain ⟨hactive, hsame⟩ := stored_of_isEmpty hempty
    exact h.saveSession hi .stay (h.tables.active _)
      (.inr ⟨c, hc, stays hactive, congrArg some hsame⟩)
  · obtain rfl : c = seen := Option.some.inj (hvisible.symm.trans hseen)
    have hstores : Stores _ encrypted (some loaded) := stores_apply stays
    exact h.saveSession hi (.write _ hfree) (grows_of_active hstores.1)
      (.inl ⟨_, rfl, hstores⟩)
  · rw [hvisible] at hnone
    cases hnone

theorem Inv.step {a : Action} (h : Inv env req init w)
    (hstep : CompleteSession.step env req w a = some w') : Inv env req init w' := by
  dsimp only [CompleteSession.step] at hstep
  split at hstep
  · -- `get_valid_token`
    rename_i now _ hi
    split at hstep
    · cases hstep
      exact h.abort trivial
    · rename_i row hrow
      cases hstep
      have hvisible : (w.db.tokens (req a.request).token).visible a.request = some row :=
        (Option.filter_eq_some_iff.mp hrow).1
      have hread := h.tables.issued _ row (Row.hasVersion_of_visible hvisible)
      exact h.relabel hi False.elim (by simp [Phase.openUser?]) rfl fun _ => hread
  · -- `verify_init_data` and the owner
    rename_i now row _ hi
    split at hstep
    · cases hstep
      refine h.abort ?_
      split <;> trivial
    · rename_i auth hauth
      split at hstep
      · rename_i howner
        cases hstep
        exact h.relabel hi False.elim (by simp [Phase.openUser?]) rfl
          fun hread => ⟨hread, now, auth, hauth, howner⟩
      · cases hstep
        exact h.abort trivial
  · -- `gramjs_to_telethon`
    rename_i row _ hi
    split at hstep
    · cases hstep
      exact h.abort trivial
    · rename_i sessionString hconverted
      cases hstep
      exact h.relabel hi False.elim (by simp [Phase.openUser?]) rfl
        fun howner => ⟨howner, hconverted⟩
  · -- the session check
    rename_i outcome row sessionString _ hi
    split at hstep
    · cases hstep
      exact h.abort trivial
    · cases hstep
      exact h.relabel hi False.elim (by simp [Phase.openUser?]) rfl id
  · -- `consume_token`
    rename_i now row sessionString account _ hi
    obtain ⟨⟨tokens, result⟩, hconsume, rfl⟩ := Option.map_eq_some_iff.mp hstep
    cases result with
    | none => exact h.abort trivial
    | some new => exact h.consumeToken hi hconsume
  · -- `SELECT` of the user
    rename_i row sessionString account _ hi
    have hrequest := h.request a.request
    rw [hi] at hrequest
    have hcommitted := Row.visible_of_not_lockedBy
      (not_lockedBy_user hrequest rfl row.telegramId)
    cases hstep
    exact h.relabel hi id (by simp [Phase.openUser?]) rfl fun hprogress =>
      ⟨hprogress.1, hprogress.2, fun u hu => .inr ⟨u, hcommitted.symm.trans hu, rfl⟩⟩
  · -- `INSERT` of the user
    rename_i row sessionString account _ hi
    obtain ⟨⟨users, inserted⟩, hinsert, rfl⟩ := Option.map_eq_some_iff.mp hstep
    exact h.insertUser hi rfl hinsert
  · -- `UPDATE` of the user
    rename_i row sessionString account loaded _ hi
    obtain ⟨r, hflush, rfl⟩ := Option.map_eq_some_iff.mp hstep
    exact h.flushUser hi rfl hflush
  · -- `SELECT` of the session
    rename_i random row sessionString user _ hi
    have hrequest := h.request a.request
    rw [hi] at hrequest
    have hcommitted := Row.visible_of_not_lockedBy
      (not_lockedBy_session hrequest rfl (user.id, row.phone))
    cases hstep
    exact h.relabel hi id (by simp [Phase.openUser?]) rfl fun hprogress =>
      ⟨⟨hprogress.1.1, sessionString, random, hprogress.1.2, rfl⟩, hprogress.2.1, hprogress.2.2,
        fun s hs => ⟨s, hcommitted.symm.trans hs, StaysActive.refl s⟩⟩
  · -- `INSERT` of the session
    rename_i row user encrypted _ hi
    obtain ⟨⟨sessions, inserted⟩, hinsert, rfl⟩ := Option.map_eq_some_iff.mp hstep
    exact h.insertSession hi hinsert
  · -- `UPDATE` of the session
    rename_i row user encrypted loaded _ hi
    obtain ⟨r, hflush, rfl⟩ := Option.map_eq_some_iff.mp hstep
    exact h.flushSession hi hflush
  · -- the commit
    rename_i row user encrypted loaded _ hi
    cases hstep
    exact h.commit hi
  · -- any other exception
    split at hstep
    · cases hstep
      exact h.abort trivial
    · cases hstep
  · cases hstep

/-! ### What a step does to the committed rows -/

theorem Database.SameRows.refl (db : Database) : db.SameRows db := ⟨rfl, rfl, rfl⟩

theorem Database.sameRows_rollback (db : Database) (i : Nat) : db.SameRows (db.rollback i) :=
  ⟨Table.committed_rollback _ i, Table.committed_rollback _ i, Table.committed_rollback _ i⟩

theorem step_of_isCommit {a : Action} (hcommit : a.isCommit = true)
    (hstep : CompleteSession.step env req w a = some w') :
    ∃ row user encrypted loaded, w.phase a.request = .sessionSaved row user encrypted loaded ∧
      w' = w.advance a.request (w.db.commit a.request) (.committed row user) := by
  obtain ⟨i, event⟩ := a
  cases event with
  | commit =>
      dsimp only [CompleteSession.step] at hstep
      split at hstep
      all_goals try contradiction
      rename_i row user encrypted loaded _ hi
      cases hstep
      exact ⟨row, user, encrypted, loaded, hi, rfl⟩
  | _ => cases hcommit

/-- A step that is no commit: no committed row changes, and the request does not count as
committed before or after it. -/
structure Quiet (w w' : World) (i : Nat) : Prop where
  sameRows : w.db.SameRows w'.db
  old : ¬ (w.phase i).IsCommitted
  new : ¬ (w'.phase i).IsCommitted
  others : ∀ j, j ≠ i → w'.phase j = w.phase j

theorem quiet_advance (hi : w.phase i = p) (hold : ¬ p.IsCommitted) (hnew : ¬ p'.IsCommitted)
    (same : w.db.SameRows db') : Quiet w (w.advance i db' p') i := by
  refine ⟨same, by rwa [hi], by simpa [World.advance] using hnew, fun j hj => ?_⟩
  simp [World.advance, hj]

theorem quiet_abort (hi : w.phase i = p) (hold : ¬ p.IsCommitted) (hnew : ¬ p'.IsCommitted) :
    Quiet w (w.abort i p') i :=
  quiet_advance hi hold hnew (w.db.sameRows_rollback i)

theorem committed_flushUser {r r' : Row Nat User} {loaded edited : User}
    (h : UserTgBot.flushUser r i loaded edited = some r') : r'.committed = r.committed := by
  rcases flushUser_cases h with rfl | ⟨_, seen, _, rfl⟩ <;> rfl

theorem committed_flushSession {r r' : Row Nat Session} {loaded edited : Session}
    (h : UserTgBot.flushSession r i loaded edited = some r') : r'.committed = r.committed := by
  rcases flushSession_cases h with ⟨_, rfl⟩ | ⟨_, seen, _, rfl⟩ | ⟨_, rfl⟩ <;> rfl

theorem step_of_not_isCommit {a : Action} (hcommit : a.isCommit = false)
    (hstep : CompleteSession.step env req w a = some w') : Quiet w w' a.request := by
  dsimp only [CompleteSession.step] at hstep
  split at hstep
  · rename_i hi
    split at hstep <;> cases hstep
    · exact quiet_abort hi id id
    · exact quiet_advance hi id id (.refl _)
  · rename_i hi
    split at hstep
    · cases hstep
      refine quiet_abort hi id ?_
      split <;> exact id
    · split at hstep <;> cases hstep
      · exact quiet_advance hi id id (.refl _)
      · exact quiet_abort hi id id
  · rename_i hi
    split at hstep <;> cases hstep
    · exact quiet_abort hi id id
    · exact quiet_advance hi id id (.refl _)
  · rename_i hi
    split at hstep <;> cases hstep
    · exact quiet_abort hi id id
    · exact quiet_advance hi id id (.refl _)
  · rename_i hi
    obtain ⟨⟨tokens, result⟩, hconsume, rfl⟩ := Option.map_eq_some_iff.mp hstep
    cases result with
    | none => exact quiet_abort hi id id
    | some new =>
        exact quiet_advance hi id id ⟨Table.committed_update hconsume, rfl, rfl⟩
  · rename_i hi
    cases hstep
    exact quiet_advance hi id id (.refl _)
  · rename_i hi
    obtain ⟨⟨users, inserted⟩, hinsert, rfl⟩ := Option.map_eq_some_iff.mp hstep
    have hsame := Table.committed_insert hinsert
    cases inserted with
    | true => exact quiet_advance hi id id ⟨rfl, hsame, rfl⟩
    | false =>
        exact quiet_advance hi id id ⟨Table.committed_rollback _ _,
          (Table.committed_rollback _ _).trans hsame, Table.committed_rollback _ _⟩
  · rename_i hi
    obtain ⟨r, hflush, rfl⟩ := Option.map_eq_some_iff.mp hstep
    exact quiet_advance hi id id
      ⟨rfl, Table.committed_set (committed_flushUser hflush), rfl⟩
  · rename_i hi
    cases hstep
    exact quiet_advance hi id id (.refl _)
  · rename_i hi
    obtain ⟨⟨sessions, inserted⟩, hinsert, rfl⟩ := Option.map_eq_some_iff.mp hstep
    cases inserted with
    | true => exact quiet_advance hi id id ⟨rfl, rfl, Table.committed_insert hinsert⟩
    | false => exact quiet_abort hi id id
  · rename_i hi
    obtain ⟨r, hflush, rfl⟩ := Option.map_eq_some_iff.mp hstep
    exact quiet_advance hi id id
      ⟨rfl, rfl, Table.committed_set (committed_flushSession hflush)⟩
  · rename_i he hi
    simp [Action.isCommit, he] at hcommit
  · split at hstep
    · rename_i hopen
      cases hstep
      refine quiet_abort rfl ?_ id
      cases hi : w.phase a.request <;> simp_all [Phase.isOpen, Phase.IsCommitted]
    · cases hstep
  · cases hstep

/-! ### Runs -/

theorem inv_start (init : Initial) : Inv env req init (start init) := by
  refine ⟨⟨?_, ?_, ?_, ?_, ?_, ?_⟩, fun i => .of_noLocks ⟨?_, ?_, ?_⟩ trivial⟩
  · rintro k v (hv | ⟨t, hv⟩)
    · exact ⟨v, hv, rfl, rfl⟩
    · cases hv
  · rintro k c t v _ ⟨⟩
  · rintro k k' u u' (hu | ⟨t, hu⟩) (hu' | ⟨t', hu'⟩) heq
    · exact init.distinct k k' u u' hu hu' heq
    all_goals first | cases hu | cases hu'
  · rintro k u (hu | ⟨t, hu⟩)
    · exact init.fresh k u hu
    · cases hu
  · rintro k c t v _ ⟨⟩
  · rintro k c t v _ ⟨⟩
  all_goals
    rintro k ⟨v, hv⟩
    cases hv

/-- A token still being unused, nobody with that token has committed. -/
theorem Inv.unspent {row : ConnectToken} {user : User} {encrypted : Bytes}
    {loaded : Option Session} (h : Inv env req init w)
    (hi : w.phase i = .sessionSaved row user encrypted loaded) (hj : (w.phase j).IsCommitted)
    (same : (req j).token = (req i).token) : False := by
  have hrequest := h.request i
  rw [hi] at hrequest
  obtain ⟨v, c, -, -, hc, hunused⟩ := hrequest.held
  have hspent : Spent req w.db j := by
    have hprogress := (h.request j).progress
    cases hp : w.phase j with
    | committed row user =>
        rw [hp] at hprogress
        exact hprogress.2
    | _ => simp [hp, Phase.IsCommitted] at hj
  obtain ⟨c', hc', hused⟩ := hspent
  rw [same, hc] at hc'
  cases hc'
  exact hused hunused

/-- What the commit of a request publishes. -/
theorem Inv.savesForOwner {row : ConnectToken} {user : User} {encrypted : Bytes}
    {loaded : Option Session} (h : Inv env req init w)
    (hi : w.phase i = .sessionSaved row user encrypted loaded) :
    SavesForOwner env init (req i) (w.phase i) w.db (w.db.commit i) := by
  have hrequest := h.request i
  rw [hi] at hrequest ⊢
  obtain ⟨⟨⟨⟨issued, hissued, hid, hphone⟩, now, auth, hauth, howner⟩, sessionString, random,
    hconverted, rfl⟩, -, hknown, hsession⟩ := hrequest.progress
  have htables := h.tables.commit i
  obtain ⟨u, hu, huid⟩ : ∃ u, (w.db.commit i).users.committed row.telegramId = some u ∧
      u.id = user.id := by
    obtain ⟨v, hv, hvid⟩ | ⟨c, hc, hcid⟩ := hknown
    · refine ⟨v, ?_, hvid⟩
      change ((w.db.users row.telegramId).commit i).committed = some v
      rw [Row.commit_of_pending hv, Row.settled_committed]
    · obtain ⟨c', hc', same⟩ :=
        (h.tables.sameId row.telegramId).committed_commit (t := i) SameId.refl hc
      exact ⟨c', hc', Eq.trans same hcid⟩
  obtain ⟨saved, hsaved, hstores⟩ : ∃ s,
      (w.db.commit i).sessions.committed (user.id, row.phone) = some s ∧
        Stores s (env.encrypt sessionString random) loaded := by
    obtain ⟨v, hv, hstores⟩ | ⟨c, hc, hactive, hsame⟩ := hsession
    · refine ⟨v, ?_, hstores⟩
      change ((w.db.sessions (user.id, row.phone)).commit i).committed = some v
      rw [Row.commit_of_pending hv, Row.settled_committed]
    · obtain ⟨c', hc', stays⟩ := (h.tables.active (user.id, row.phone)).committed_commit (t := i)
        StaysActive.refl hc
      exact ⟨c', hc', stays hactive, .inr hsame⟩
  refine ⟨issued, now, auth, u, saved, sessionString, random, loaded, hissued, hauth,
    howner.trans hid, ?_, ?_, ?_, hconverted, rfl, hstores, ?_⟩
  · rw [← hid]
    exact hu
  · intro t u' hu' heq
    rw [← hid]
    exact htables.distinct t _ u' u (.inl hu') (.inl hu) heq
  · rw [huid, ← hphone]
    exact hsaved
  · intro k hk
    have hfree : ¬ (w.db.sessions k).LockedBy i := by
      rintro ⟨v, hv⟩
      obtain ⟨row', user', encrypted', loaded', hphase, hkey⟩ := hrequest.sessionLock k v hv
      cases hphase
      rw [huid, ← hphone] at hk
      exact hk hkey
    change ((w.db.sessions k).commit i).committed = (w.db.sessions k).committed
    rw [Row.commit_of_not_lockedBy hfree]

/-- The tokens of the committing requests, in the order of their commits. -/
def committedTokens (req : Nat → Request) (actions : List Action) : List String :=
  (actions.filter Action.isCommit).map fun a => (req a.request).token

/-- What the executed prefix tells about the state it led to. -/
structure History (env : Env) (req : Nat → Request) (init : Initial) (past : List Action)
    (w : World) : Prop where
  inv : Inv env req init w
  committed : ∀ i, (w.phase i).IsCommitted ↔ ∃ a ∈ past, a.request = i ∧ a.isCommit = true
  once : (committedTokens req past).Nodup

theorem exists_commit_append {past : List Action} {a : Action} {i : Nat} :
    (∃ b ∈ past ++ [a], b.request = i ∧ b.isCommit = true) ↔
      (∃ b ∈ past, b.request = i ∧ b.isCommit = true) ∨
        (a.request = i ∧ a.isCommit = true) := by
  simp [or_and_right, exists_or]

/-- A request that commits is the first to do so for its token. -/
theorem History.fresh {past : List Action} {i : Nat} {row : ConnectToken} {user : User}
    {encrypted : Bytes} {loaded : Option Session} (h : History env req init past w)
    (hi : w.phase i = .sessionSaved row user encrypted loaded) :
    (req i).token ∉ committedTokens req past := by
  intro hmem
  obtain ⟨b, hb, htoken⟩ := List.mem_map.mp hmem
  obtain ⟨hb, hcommitted⟩ := List.mem_filter.mp hb
  exact h.inv.unspent hi ((h.committed b.request).mpr ⟨b, hb, rfl, hcommitted⟩) htoken

theorem History.step {past : List Action} {a : Action} (h : History env req init past w)
    (hstep : CompleteSession.step env req w a = some w') :
    History env req init (past ++ [a]) w' := by
  have hinv := h.inv.step hstep
  cases hcommit : a.isCommit with
  | false =>
      have hquiet := step_of_not_isCommit hcommit hstep
      refine ⟨hinv, fun i => ?_, by simpa [committedTokens, hcommit] using h.once⟩
      have hphase : (w'.phase i).IsCommitted ↔ (w.phase i).IsCommitted := by
        by_cases hi : i = a.request
        · subst hi
          exact iff_of_false hquiet.new hquiet.old
        · rw [hquiet.others i hi]
      rw [hphase, h.committed i, exists_commit_append]
      simp [hcommit]
  | true =>
      obtain ⟨row, user, encrypted, loaded, hi, rfl⟩ := step_of_isCommit hcommit hstep
      refine ⟨hinv, fun i => ?_, ?_⟩
      · rw [exists_commit_append, ← h.committed i]
        by_cases hrequest : a.request = i
        · subst hrequest
          have hphase : (w.advance a.request (w.db.commit a.request)
              (.committed row user)).phase a.request = .committed row user := by
            simp [World.advance]
          rw [hphase]
          exact iff_of_true trivial (.inr ⟨rfl, hcommit⟩)
        · have hphase : (w.advance a.request (w.db.commit a.request)
              (.committed row user)).phase i = w.phase i := by
            simp [World.advance, Function.update_of_ne (Ne.symm hrequest)]
          rw [hphase]
          simp [hrequest]
      · have hsplit : committedTokens req (past ++ [a]) =
            committedTokens req past ++ [(req a.request).token] := by
          simp [committedTokens, hcommit]
        rw [hsplit, List.nodup_append]
        refine ⟨h.once, by simp, ?_⟩
        intro x hx y hy heq
        rw [List.mem_singleton.mp hy] at heq
        exact h.fresh hi (heq ▸ hx)

theorem history_of_run {actions : List Action}
    (run : exec (CompleteSession.step env req) (start init) actions = some w) :
    History env req init actions w := by
  have hstart : History env req init [] (start init) :=
    ⟨inv_start init, fun i => by simp [start, Phase.IsCommitted], by simp [committedTokens]⟩
  exact exec_history (fun _ _ _ _ h hstep => h.step hstep) hstart run

end Preservation

/-- In every run, whatever the requests, the payloads, the outcomes of the session checks
and the interleaving: a token is used for at most one commit; each commit is made by a
request of the token's owner and saves the session it has handed over for that owner and under
the token's phone; and a request that is rejected has changed no committed row and left none
locked. -/
theorem completeSession_saves_once (env : Env) (req : Nat → Request) (init : Initial)
    (actions : List Action) (w : World)
    (run : exec (step env req) (start init) actions = some w) :
    (committedTokens req actions).Nodup ∧
    (∀ first rest a before after, actions = first ++ a :: rest → a.isCommit = true →
      exec (step env req) (start init) first = some before →
      step env req before a = some after →
        SavesForOwner env init (req a.request) (before.phase a.request) before.db after.db) ∧
    ∀ i, (w.phase i).IsRejected → w.db.NoLocks i ∧
      ∀ first rest a before after, actions = first ++ a :: rest → a.request = i →
        exec (step env req) (start init) first = some before →
        step env req before a = some after → before.db.SameRows after.db := by
  have history := history_of_run run
  refine ⟨history.once, ?_, ?_⟩
  · intro first rest a before after _ hcommit hfirst hstep
    obtain ⟨row, user, encrypted, loaded, hi, rfl⟩ := step_of_isCommit hcommit hstep
    exact (history_of_run hfirst).inv.savesForOwner hi
  · intro i hrejected
    have hphase : ∀ p : Phase, p.IsRejected →
        ¬ p.IsCommitted ∧ ¬ p.Consumed ∧ p.openUser? = none ∧ p.stored? = none := by
      intro p hp
      cases p <;> simp_all [Phase.IsRejected, Phase.IsCommitted, Phase.Consumed,
        Phase.openUser?, Phase.stored?]
    obtain ⟨huncommitted, hconsumed, huser, hsaved⟩ := hphase _ hrejected
    have hrequest := history.inv.request i
    refine ⟨⟨not_lockedBy_token hrequest hconsumed, not_lockedBy_user hrequest huser,
      not_lockedBy_session hrequest hsaved⟩, ?_⟩
    intro first rest a before after hactions ha _ hstep
    have hcommit : a.isCommit = false := by
      by_contra hcommit
      refine huncommitted ((history.committed i).mpr ⟨a, ?_, ha, by simpa using hcommit⟩)
      rw [hactions]
      exact List.mem_append_right _ List.mem_cons_self
    exact (step_of_not_isCommit hcommit hstep).sameRows

/-! Two posts of the genuine `initData`, racing for one token. -/

def genuineEnv : Env where
  lib := genuineLib
  botToken := text "1:x"
  saveString _ _ _ _ := text "1ApWapzMBuw" ++ List.replicate 341 (ofChar 'A') ++ text "="
  encrypt _ random := random

def doublePost : Request where
  token := "t"
  payload := ⟨genuineInitData, 2, List.replicate 342 (ofChar 'A') ++ text "=="⟩

def issuedToken : ConnectToken :=
  { telegramId := 7, chatId := 7, messageId := none, phone := "+1", expiresAt := 10,
    usedAt := none, expiryNotifiedAt := none, createdAt := 0 }

def oneToken : Initial where
  tokens k := if k = "t" then some issuedToken else none
  users _ := none
  sessions _ := none
  nextUserId := 1
  distinct := by simp
  fresh := by simp

/-- A request up to the point where only its token is missing. -/
def checkedSteps (i : Nat) : List Action :=
  [⟨i, .getValidToken 1⟩, ⟨i, .verify 6⟩, ⟨i, .convert⟩, ⟨i, .check (some ⟨none, none, none⟩)⟩]

def doublePostRun : List Action := checkedSteps 0 ++ checkedSteps 1 ++
  [⟨0, .consumeToken 2⟩, ⟨0, .selectUser⟩, ⟨0, .flushUser⟩, ⟨0, .selectSession [5]⟩,
    ⟨0, .flushSession⟩, ⟨0, .commit⟩, ⟨1, .consumeToken 3⟩]

/-- The first post saves a session, the second one is refused. -/
theorem double_post_saves_once :
    ∃ w, exec (step genuineEnv fun _ => doublePost) (start oneToken) doublePostRun = some w ∧
      w.phase 0 = .committed issuedToken ⟨1, none, none⟩ ∧ w.phase 1 = .refused 410 ∧
        (committedTokens (fun _ => doublePost) doublePostRun).Nodup ∧ w.db.NoLocks 1 := by
  have hobserved : (exec (step genuineEnv fun _ => doublePost) (start oneToken)
      doublePostRun).map (fun w => (w.phase 0, w.phase 1)) =
        some (.committed issuedToken ⟨1, none, none⟩, .refused 410) := by
    decide +kernel
  obtain ⟨w, hrun, hphases⟩ := Option.map_eq_some_iff.mp hobserved
  obtain ⟨h₀, h₁⟩ := Prod.mk.inj hphases
  obtain ⟨honce, _, hrejected⟩ := completeSession_saves_once genuineEnv (fun _ => doublePost)
    oneToken doublePostRun w hrun
  exact ⟨w, hrun, h₀, h₁, honce, (hrejected 1 (by simp [h₁, Phase.IsRejected])).1⟩

end UserTgBot.CompleteSession
