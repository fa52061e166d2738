import UserTgBot.Db.Models

/-!
# Edits made by the queries

The part of a query function that runs between its `SELECT` and its flush: what it does to
the row it has loaded. `deactivateSession` belongs to `db/queries.py`, the others to
`management_bot/storage.py`.
-/

namespace UserTgBot

/-- `storage.save_session` on a loaded row. -/
def saveSession (encrypted : Bytes) (row : Session) : Session :=
  { row with encryptedSession := encrypted, isActive := true }

/-- `queries.deactivate_session` on a loaded row; `none` is the answer `False`. -/
def deactivateSession (onlyIfSessionIs : Option Bytes) (row : Session) : Option Session :=
  if ∃ blob, onlyIfSessionIs = some blob ∧ row.encryptedSession ≠ blob then none
  else some { row with isActive := false }

theorem deactivateSession_eq_some {blob : Bytes} {row row' : Session} :
    deactivateSession (some blob) row = some row' ↔
      row.encryptedSession = blob ∧ row' = { row with isActive := false } := by
  rw [deactivateSession]
  by_cases hblob : row.encryptedSession = blob
  · simp [hblob, eq_comm]
  · simp [hblob]

/-- `storage.upsert_user` on a loaded row: only the fields that are given change. -/
def upsertUser (username fullName : Option String) (row : User) : User :=
  { row with
    username := username.orElse fun _ => row.username
    fullName := fullName.orElse fun _ => row.fullName }

end UserTgBot
