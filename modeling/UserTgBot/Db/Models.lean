import UserTgBot.Library.ReadCommitted

/-!
# Rows of the shared database

The records follow `db/models.py`. Only the columns that a modelled query reads or
writes are kept. Timestamps are naive UTC, counted in microseconds, so that the
`timedelta` arithmetic of the queries is integer arithmetic; ciphertexts and other
binary columns are byte lists.

An ORM flush writes the columns whose value differs from the one the session loaded
and issues no statement when there is none. `SessionPatch` is that set of columns
for a row of `sessions`, `UserPatch` for one of `users`.
-/

namespace UserTgBot

/-- A naive UTC timestamp in microseconds. -/
abbrev DateTime := Int

/-- `timedelta(days=days)`. -/
def daysDelta (days : Int) : Int := days * (24 * 60 * 60 * 1000000)

abbrev Bytes := List UInt8

/-- `connect_tokens`: a one-time ticket for the Mini App login. The row is addressed by
its `token`, which is unique and never changes. -/
structure ConnectToken where
  telegramId : Int
  chatId : Int
  messageId : Option Int
  phone : String
  expiresAt : DateTime
  usedAt : Option DateTime
  expiryNotifiedAt : Option DateTime
  createdAt : DateTime
deriving DecidableEq, Repr

/-- `users`: a Telegram user. The row is addressed by its `telegram_id`, which is unique. -/
structure User where
  id : Nat
  username : Option String
  fullName : Option String
deriving DecidableEq, Repr

/-- `sessions`: one userbot login with its encrypted Telethon session string. -/
structure Session where
  encryptedSession : Bytes
  isActive : Bool
deriving DecidableEq, Repr

inductive SubscriptionStatus where
  | pending
  | active
  | expired
  | cancelled
deriving DecidableEq, Repr

/-- `subscriptions`: a paid tariff period of a user. -/
structure Subscription where
  userId : Nat
  tariff : String
  status : SubscriptionStatus := .pending
  paymentProvider : String
  externalInvoiceId : Option String := none
  periodDays : Int := 30
  startedAt : Option DateTime := none
  expiresAt : Option DateTime := none
  createdAt : DateTime
deriving DecidableEq, Repr

/-- The columns of a `sessions` row that a flush writes. -/
structure SessionPatch where
  encryptedSession : Option Bytes
  isActive : Option Bool
deriving DecidableEq, Repr

namespace SessionPatch

/-- The columns that differ between the loaded row and its edited copy. -/
def between (loaded edited : Session) : SessionPatch where
  encryptedSession :=
    if edited.encryptedSession = loaded.encryptedSession then none
    else some edited.encryptedSession
  isActive := if edited.isActive = loaded.isActive then none else some edited.isActive

def apply (patch : SessionPatch) (row : Session) : Session where
  encryptedSession := patch.encryptedSession.getD row.encryptedSession
  isActive := patch.isActive.getD row.isActive

/-- A flush with nothing to write issues no statement. -/
def IsEmpty (patch : SessionPatch) : Prop :=
  patch.encryptedSession = none ∧ patch.isActive = none

instance (patch : SessionPatch) : Decidable patch.IsEmpty :=
  inferInstanceAs (Decidable (_ ∧ _))

theorem apply_of_isEmpty {patch : SessionPatch} (h : patch.IsEmpty) (row : Session) :
    patch.apply row = row := by
  simp [apply, h.1, h.2]

/-- On the row it was computed from, a flush produces exactly the edited copy. -/
@[simp] theorem between_apply (loaded edited : Session) :
    (between loaded edited).apply loaded = edited := by
  obtain ⟨blob, active⟩ := edited
  by_cases hblob : blob = loaded.encryptedSession <;>
    by_cases hactive : active = loaded.isActive <;>
      simp [between, apply, hblob, hactive]

end SessionPatch

/-- Flush the edited copy of a loaded row inside transaction `t`. -/
def flushSession {τ : Type} [DecidableEq τ] (row : ReadCommitted.Row τ Session) (t : τ)
    (loaded edited : Session) : Option (ReadCommitted.Row τ Session) :=
  let patch := SessionPatch.between loaded edited
  if patch.IsEmpty then some row
  else (row.update t fun current => some (patch.apply current)).map Prod.fst

/-- What a flush leaves behind: either it had nothing to write, or the row is locked
with the patched version. -/
theorem flushSession_cases {τ : Type} [DecidableEq τ]
    {row row' : ReadCommitted.Row τ Session} {t : τ} {loaded edited : Session}
    (h : flushSession row t loaded edited = some row') :
    ((SessionPatch.between loaded edited).IsEmpty ∧ row' = row) ∨
      (row.blocks t = false ∧ ∃ seen, row.visible t = some seen ∧
        row' = { row with
          pending := some (t, (SessionPatch.between loaded edited).apply seen) }) ∨
      (row.visible t = none ∧ row' = row) := by
  rw [flushSession] at h
  by_cases hempty : (SessionPatch.between loaded edited).IsEmpty
  · simp only [hempty, if_true, Option.some.injEq] at h
    exact .inl ⟨hempty, h.symm⟩
  · simp only [hempty, if_false, Option.map_eq_some_iff] at h
    obtain ⟨⟨out, result⟩, hupdate, rfl⟩ := h
    obtain ⟨hfree, ⟨_, hsame, hnone⟩ | ⟨seen, v, hseen, hv, _, hrow⟩⟩ :=
      ReadCommitted.Row.update_cases hupdate
    · refine .inr (.inr ⟨?_, hsame⟩)
      cases hvisible : row.visible t with
      | none => rfl
      | some seen => simp [hvisible] at hnone
    · cases hv
      exact .inr (.inl ⟨hfree, seen, hseen, hrow⟩)

/-- The columns of a `users` row that a flush writes. -/
structure UserPatch where
  username : Option (Option String)
  fullName : Option (Option String)
deriving DecidableEq, Repr

namespace UserPatch

def between (loaded edited : User) : UserPatch where
  username := if edited.username = loaded.username then none else some edited.username
  fullName := if edited.fullName = loaded.fullName then none else some edited.fullName

def apply (patch : UserPatch) (row : User) : User :=
  { row with
    username := patch.username.getD row.username
    fullName := patch.fullName.getD row.fullName }

def IsEmpty (patch : UserPatch) : Prop := patch.username = none ∧ patch.fullName = none

instance (patch : UserPatch) : Decidable patch.IsEmpty :=
  inferInstanceAs (Decidable (_ ∧ _))

end UserPatch

/-- `flushSession` for a row of `users`. -/
def flushUser {τ : Type} [DecidableEq τ] (row : ReadCommitted.Row τ User) (t : τ)
    (loaded edited : User) : Option (ReadCommitted.Row τ User) :=
  let patch := UserPatch.between loaded edited
  if patch.IsEmpty then some row
  else (row.update t fun current => some (patch.apply current)).map Prod.fst

theorem flushUser_cases {τ : Type} [DecidableEq τ] {row row' : ReadCommitted.Row τ User}
    {t : τ} {loaded edited : User} (h : flushUser row t loaded edited = some row') :
    row' = row ∨ (row.blocks t = false ∧ ∃ seen, row.visible t = some seen ∧
      row' = { row with pending := some (t, (UserPatch.between loaded edited).apply seen) }) := by
  rw [flushUser] at h
  by_cases hempty : (UserPatch.between loaded edited).IsEmpty
  · simp only [hempty, if_true, Option.some.injEq] at h
    exact .inl h.symm
  · simp only [hempty, if_false, Option.map_eq_some_iff] at h
    obtain ⟨⟨out, result⟩, hupdate, rfl⟩ := h
    obtain ⟨hfree, ⟨_, hsame, _⟩ | ⟨seen, v, hseen, hv, _, hrow⟩⟩ :=
      ReadCommitted.Row.update_cases hupdate
    · exact .inl hsame
    · cases hv
      exact .inr ⟨hfree, seen, hseen, hrow⟩

end UserTgBot
