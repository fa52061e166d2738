import UserTgBot.Db.Models

/-!
# Statements of `shared/connect_tokens.py`

Each function of the module issues one statement, which is given here as an operation
on the table of tokens inside the caller's transaction. The caller owns the
transaction, so nothing here commits. Every function takes the `now` its caller read
before the statement runs.

`claim_expired_for_notice` is the exception that needs two parts. Its guards stand in
a subquery, which is evaluated once on the snapshot of the statement and yields a
batch of keys (`IsDueBatch`); each listed row is then locked and updated on its own
(`claimForNotice`), where only the outer `id IN (...)` is checked again.
-/

namespace UserTgBot

open ReadCommitted

namespace ConnectToken

/-- Unused and not yet expired: the `WHERE` clause shared by `get_valid_token` and
`consume_token`. -/
def IsValid (now : DateTime) (row : ConnectToken) : Prop :=
  row.usedAt = none ∧ now < row.expiresAt

/-- Expired, unused and not announced yet: the subquery of `claim_expired_for_notice`. -/
def IsDue (now : DateTime) (row : ConnectToken) : Prop :=
  row.usedAt = none ∧ row.expiryNotifiedAt = none ∧ row.expiresAt ≤ now

instance (now : DateTime) (row : ConnectToken) : Decidable (row.IsValid now) :=
  inferInstanceAs (Decidable (_ ∧ _))

instance (now : DateTime) (row : ConnectToken) : Decidable (row.IsDue now) :=
  inferInstanceAs (Decidable (_ ∧ _ ∧ _))

/-- The row written by `consume_token`, if its guard matches. -/
def consumed (now : DateTime) (row : ConnectToken) : Option ConnectToken :=
  if row.IsValid now then some { row with usedAt := some now } else none

/-- The row written by `claim_expired_for_notice`. -/
def notified (now : DateTime) (row : ConnectToken) : ConnectToken :=
  { row with expiryNotifiedAt := some now }

theorem consumed_eq_some {now : DateTime} {row row' : ConnectToken} :
    row.consumed now = some row' ↔
      row.IsValid now ∧ row' = { row with usedAt := some now } := by
  rw [consumed]
  split
  · rename_i hvalid
    simp [hvalid, eq_comm]
  · rename_i hvalid
    simp [hvalid]

end ConnectToken

namespace ConnectTokens

variable {τ : Type} [DecidableEq τ]

/-- The table of tokens, addressed by the unique `token` column. -/
abbrev Tokens (τ : Type) := Table String τ ConnectToken

/-- `get_valid_token`: the row if it exists, is unused and has not expired. -/
def getValidToken (tokens : Tokens τ) (t : τ) (token : String) (now : DateTime) :
    Option ConnectToken :=
  (tokens.read t token).filter fun row => row.IsValid now

/-- `consume_token`: mark a valid token used, returning it only to the caller that did. -/
def consumeToken (tokens : Tokens τ) (t : τ) (token : String) (now : DateTime) :
    Option (Tokens τ × Option ConnectToken) :=
  tokens.update t token (ConnectToken.consumed now)

/-- A batch the subquery of `claim_expired_for_notice` may select from the rows it sees:
`ORDER BY expires_at LIMIT limit` over the due ones, ties in any order. -/
def IsDueBatch (keys : List String) (limit : Nat) (rows : String → Option ConnectToken)
    (now : DateTime) (batch : List String) : Prop :=
  batch.Nodup ∧ batch.length ≤ limit ∧
    (∀ token ∈ batch, token ∈ keys ∧ ∃ row ∈ rows token, row.IsDue now) ∧
    ∀ token ∈ keys, token ∉ batch → ∀ row ∈ rows token, row.IsDue now →
      batch.length = limit ∧
        ∀ earlier ∈ batch, ∀ row' ∈ rows earlier, row'.expiresAt ≤ row.expiresAt

instance (rows : String → Option ConnectToken) (p : ConnectToken → Prop) [DecidablePred p]
    (token : String) : Decidable (∃ row ∈ rows token, p row) :=
  decidable_of_iff ((rows token).any p) (by simp [Option.any_eq_true])

instance (rows : String → Option ConnectToken) (p : ConnectToken → Prop) [DecidablePred p]
    (token : String) : Decidable (∀ row ∈ rows token, p row) :=
  decidable_of_iff ((rows token).all p) (by simp [Option.all_eq_true])

instance (keys : List String) (limit : Nat) (rows : String → Option ConnectToken)
    (now : DateTime) (batch : List String) :
    Decidable (IsDueBatch keys limit rows now batch) :=
  inferInstanceAs (Decidable (_ ∧ _ ∧ _ ∧ _))

/-- The update of one listed row by `claim_expired_for_notice`. Only `id IN (...)` is
re-checked once the row is locked, and that always holds for a listed row. -/
def claimForNotice (tokens : Tokens τ) (t : τ) (token : String) (now : DateTime) :
    Option (Tokens τ × Option ConnectToken) :=
  tokens.update t token fun row => some (row.notified now)

end ConnectTokens

end UserTgBot
