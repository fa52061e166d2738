import UserTgBot.Connect.Tokens
import UserTgBot.Library.Transition

/-!
# Expiry notices against logins that complete

Any number of sweeps (`connect_notices._tick`, which claims a batch and announces every
row it got) and of `consume_token` calls run concurrently on one table of tokens. Each
of them reads the clock first and runs its statement later. A sweep evaluates its
subquery on a snapshot, then locks and updates the listed rows one by one, and commits;
`consume_token` is a single guarded update followed by the commit of its caller.

`consume_token` repeats its guards on the row it has locked, `claim_expired_for_notice`
does not: what its snapshot listed it will claim. So a sweep is safe as long as, when it
takes its snapshot, nothing that can still touch the listed tokens is under way
(`SnapshotAlone`), which is what `notices_exclusive` proves of every such run.
-/

namespace UserTgBot.ExpiryNotices

open ReadCommitted Transition ConnectTokens

/-- The transactions: numbered sweeps and numbered consumers. -/
inductive Tx where
  | sweep (i : Nat)
  | consume (j : Nat)
deriving DecidableEq, Repr

/-- Progress of one sweep: `now` is its clock reading, `due` what its snapshot listed,
`claimed` the rows it has updated, which are the rows it returns. -/
inductive Sweep where
  | idle
  | ready (now : DateTime)
  | updating (now : DateTime) (due claimed : List String)
  | committed (now : DateTime) (claimed : List String)
deriving DecidableEq, Repr

/-- Progress of one `consume_token` call; `won` tells whether it got the row back. -/
inductive Consume where
  | idle
  | ready (now : DateTime)
  | updated (now : DateTime) (won : Bool)
  | committed (now : DateTime) (won : Bool)
deriving DecidableEq, Repr

namespace Sweep

/-- The tokens the sweep has claimed or is going to claim. -/
def listed : Sweep → List String
  | .updating _ due _ => due
  | .committed _ claimed => claimed
  | _ => []

/-- The tokens the sweep returned to `_tick`. -/
def returned : Sweep → List String
  | .updating _ _ claimed => claimed
  | .committed _ claimed => claimed
  | _ => []

def now : Sweep → Option DateTime
  | .idle => none
  | .ready now => some now
  | .updating now _ _ => some now
  | .committed now _ => some now

end Sweep

namespace Consume

/-- The call succeeded in consuming its token. -/
def Won : Consume → Prop
  | .updated _ won => won = true
  | .committed _ won => won = true
  | _ => False

def now : Consume → Option DateTime
  | .idle => none
  | .ready now => some now
  | .updated now _ => some now
  | .committed now _ => some now

/-- The clock reading of a call that has read its clock and not committed yet. -/
def openSince : Consume → Option DateTime
  | .ready now => some now
  | .updated now _ => some now
  | _ => none

end Consume

structure World where
  clock : DateTime
  tokens : Tokens Tx
  sweep : Nat → Sweep
  consume : Nat → Consume

def World.setSweep (w : World) (i : Nat) (p : Sweep) : World :=
  { w with sweep := Function.update w.sweep i p }

def World.setConsume (w : World) (j : Nat) (p : Consume) : World :=
  { w with consume := Function.update w.consume j p }

inductive Action where
  /-- Time passes. -/
  | tick (now : DateTime)
  | sweepClock (i : Nat)
  /-- The subquery is evaluated and selects `due`. -/
  | sweepSnapshot (i : Nat) (due : List String)
  | sweepUpdate (i : Nat) (token : String)
  | sweepCommit (i : Nat)
  | consumeClock (j : Nat)
  | consumeUpdate (j : Nat)
  | consumeCommit (j : Nat)
deriving DecidableEq, Repr

section System

variable (keys : List String) (limit : Nat) (target : Nat → String)

/-- One step of the system. The table holds the tokens `keys`, a sweep claims at most
`limit` of them at a time, and call `j` of `consume_token` is about `target j`. -/
def step (w : World) : Action → Option World
  | .tick now => if w.clock ≤ now then some { w with clock := now } else none
  | .sweepClock i =>
      match w.sweep i with
      | .idle => some (w.setSweep i (.ready w.clock))
      | _ => none
  | .sweepSnapshot i due =>
      match w.sweep i with
      | .ready now =>
          if IsDueBatch keys limit w.tokens.committed now due then
            some (w.setSweep i (.updating now due []))
          else none
      | _ => none
  | .sweepUpdate i token =>
      match w.sweep i with
      | .updating now due claimed =>
          if token ∈ due ∧ token ∉ claimed then
            (claimForNotice w.tokens (.sweep i) token now).map fun out =>
              let claimed := if out.2.isSome then token :: claimed else claimed
              { w with tokens := out.1 }.setSweep i (.updating now due claimed)
          else none
      | _ => none
  | .sweepCommit i =>
      match w.sweep i with
      | .updating now due claimed =>
          if ∀ token ∈ due, token ∈ claimed then
            some ({ w with tokens := w.tokens.commit (.sweep i) }.setSweep i
              (.committed now claimed))
          else none
      | _ => none
  | .consumeClock j =>
      match w.consume j with
      | .idle => some (w.setConsume j (.ready w.clock))
      | _ => none
  | .consumeUpdate j =>
      match w.consume j with
      | .ready now =>
          (consumeToken w.tokens (.consume j) (target j) now).map fun out =>
            { w with tokens := out.1 }.setConsume j (.updated now out.2.isSome)
      | _ => none
  | .consumeCommit j =>
      match w.consume j with
      | .updated now won =>
          some ({ w with tokens := w.tokens.commit (.consume j) }.setConsume j
            (.committed now won))
      | _ => none

/-- The tokens as found in the database, before any sweep or login has started. -/
def start (clock : DateTime) (rows : String → Option ConnectToken) : World where
  clock := clock
  tokens := .settled rows
  sweep := fun _ => .idle
  consume := fun _ => .idle

/-- Each token is returned by at most one sweep, and none is both returned by a sweep
and consumed. -/
def Exclusive (w : World) : Prop :=
  (∀ token i i', token ∈ (w.sweep i).returned → token ∈ (w.sweep i').returned → i = i') ∧
    ∀ token i j, token ∈ (w.sweep i).returned → target j = token → ¬ (w.consume j).Won

/-- When a sweep takes its snapshot, no other sweep that is still updating has listed any
of the selected tokens, and every call of `consume_token` on one of them that is still
running read its clock after the token's expiry. -/
def SnapshotAlone (w : World) : Action → Prop
  | .sweepSnapshot i due => ∀ token ∈ due,
      (∀ i' now due' claimed, i' ≠ i → w.sweep i' = .updating now due' claimed →
        token ∉ due') ∧
      ∀ j now row, target j = token → (w.consume j).openSince = some now →
        w.tokens.committed token = some row → row.expiresAt ≤ now
  | _ => True

end System

namespace World

theorem setSweep_sweep (w : World) (i i' : Nat) (p : Sweep) :
    (w.setSweep i p).sweep i' = if i' = i then p else w.sweep i' := by
  simp [setSweep, Function.update_apply]

theorem setConsume_consume (w : World) (j j' : Nat) (p : Consume) :
    (w.setConsume j p).consume j' = if j' = j then p else w.consume j' := by
  simp [setConsume, Function.update_apply]

/-- What is true of the phase of a sweep after a move is true of the phase that was moved to, or
was true before. -/
theorem of_setSweep {w : World} {i i' : Nat} {p : Sweep} {P : Sweep → Prop}
    (h : P ((w.setSweep i p).sweep i')) : (i' = i ∧ P p) ∨ (i' ≠ i ∧ P (w.sweep i')) := by
  rw [setSweep_sweep] at h
  split at h
  · rename_i he
    exact .inl ⟨he, h⟩
  · rename_i hne
    exact .inr ⟨hne, h⟩

theorem of_setConsume {w : World} {j j' : Nat} {p : Consume} {P : Consume → Prop}
    (h : P ((w.setConsume j p).consume j')) : (j' = j ∧ P p) ∨ (j' ≠ j ∧ P (w.consume j')) := by
  rw [setConsume_consume] at h
  split at h
  · rename_i he
    exact .inl ⟨he, h⟩
  · rename_i hne
    exact .inr ⟨hne, h⟩

theorem setSweep_self {w : World} {i : Nat} {p : Sweep} (hi : w.sweep i = p) :
    w.setSweep i p = w := by
  rw [setSweep, ← hi, Function.update_eq_self]

end World

/-! ## The invariant of one token -/

/-- No statement forgets that a token was used or announced, or moves its expiry. -/
def Evolves (before after : ConnectToken) : Prop :=
  after.expiresAt = before.expiresAt ∧
    (before.usedAt ≠ none → after.usedAt ≠ none) ∧
      (before.expiryNotifiedAt ≠ none → after.expiryNotifiedAt ≠ none)

theorem Evolves.refl (row : ConnectToken) : Evolves row row :=
  ⟨rfl, fun h => h, fun h => h⟩

theorem Evolves.trans (a b c : ConnectToken) (hab : Evolves a b) (hbc : Evolves b c) :
    Evolves a c :=
  ⟨hbc.1.trans hab.1, fun h => hbc.2.1 (hab.2.1 h), fun h => hbc.2.2 (hab.2.2 h)⟩

theorem evolves_notified (now : DateTime) (row : ConnectToken) :
    Evolves row (row.notified now) :=
  ⟨rfl, fun h => h, fun _ => by simp [ConnectToken.notified]⟩

theorem evolves_consumed {now : DateTime} {row row' : ConnectToken}
    (h : row.consumed now = some row') : Evolves row row' := by
  obtain ⟨_, rfl⟩ := ConnectToken.consumed_eq_some.mp h
  exact ⟨rfl, fun _ => by simp, fun h => h⟩

/-- Transaction `t` has updated the row of the token and not committed yet. -/
def Wrote (target : Nat → String) (w : World) (token : String) : Tx → Prop
  | .sweep i => ∃ now due claimed, w.sweep i = .updating now due claimed ∧ token ∈ claimed
  | .consume j => target j = token ∧ ∃ now, w.consume j = .updated now true

/-- Transaction `t` has updated the row of the token and committed. -/
def Published (target : Nat → String) (w : World) (token : String) : Tx → Prop
  | .sweep i => ∃ now claimed, w.sweep i = .committed now claimed ∧ token ∈ claimed
  | .consume j => target j = token ∧ ∃ now, w.consume j = .committed now true

section Moves

variable {target : Nat → String} {w : World} {tokens : Tokens Tx} {token : String} {t : Tx}

/-- Who has written to a row after sweep `i` has moved to `p`: the sweep itself, as far as
`p` says so, and otherwise the same transactions as before. -/
theorem Wrote.of_setSweep {i : Nat} {p : Sweep}
    (h : Wrote target (({ w with tokens := tokens } : World).setSweep i p) token t) :
    (t = .sweep i ∧ ∃ now due claimed, p = .updating now due claimed ∧ token ∈ claimed) ∨
      (t ≠ .sweep i ∧ Wrote target w token t) := by
  cases t with
  | sweep i' =>
      obtain ⟨now, due, claimed, hp, hmem⟩ := h
      obtain ⟨rfl, hnew⟩ | ⟨hne, hold⟩ := World.of_setSweep (P := (· = .updating now due claimed)) hp
      · exact .inl ⟨rfl, now, due, claimed, hnew, hmem⟩
      · exact .inr ⟨fun he => hne (Tx.sweep.inj he), now, due, claimed, hold, hmem⟩
  | consume j => exact .inr ⟨by simp, h⟩

theorem Published.of_setSweep {i : Nat} {p : Sweep}
    (h : Published target (({ w with tokens := tokens } : World).setSweep i p) token t) :
    (t = .sweep i ∧ ∃ now claimed, p = .committed now claimed ∧ token ∈ claimed) ∨
      (t ≠ .sweep i ∧ Published target w token t) := by
  cases t with
  | sweep i' =>
      obtain ⟨now, claimed, hp, hmem⟩ := h
      obtain ⟨rfl, hnew⟩ | ⟨hne, hold⟩ := World.of_setSweep (P := (· = .committed now claimed)) hp
      · exact .inl ⟨rfl, now, claimed, hnew, hmem⟩
      · exact .inr ⟨fun he => hne (Tx.sweep.inj he), now, claimed, hold, hmem⟩
  | consume j => exact .inr ⟨by simp, h⟩

theorem Wrote.of_setConsume {j : Nat} {p : Consume}
    (h : Wrote target (({ w with tokens := tokens } : World).setConsume j p) token t) :
    (t = .consume j ∧ target j = token ∧ ∃ now, p = .updated now true) ∨
      (t ≠ .consume j ∧ Wrote target w token t) := by
  cases t with
  | sweep i => exact .inr ⟨by simp, h⟩
  | consume j' =>
      obtain ⟨htarget, now, hp⟩ := h
      obtain ⟨rfl, hnew⟩ | ⟨hne, hold⟩ := World.of_setConsume (P := (· = .updated now true)) hp
      · exact .inl ⟨rfl, htarget, now, hnew⟩
      · exact .inr ⟨fun he => hne (Tx.consume.inj he), htarget, now, hold⟩

theorem Published.of_setConsume {j : Nat} {p : Consume}
    (h : Published target (({ w with tokens := tokens } : World).setConsume j p) token t) :
    (t = .consume j ∧ target j = token ∧ ∃ now, p = .committed now true) ∨
      (t ≠ .consume j ∧ Published target w token t) := by
  cases t with
  | sweep i => exact .inr ⟨by simp, h⟩
  | consume j' =>
      obtain ⟨htarget, now, hp⟩ := h
      obtain ⟨rfl, hnew⟩ | ⟨hne, hold⟩ := World.of_setConsume (P := (· = .committed now true)) hp
      · exact .inl ⟨rfl, htarget, now, hnew⟩
      · exact .inr ⟨fun he => hne (Tx.consume.inj he), htarget, now, hold⟩

end Moves

/-- The mark that a transaction leaves in a row. -/
def Marked : Tx → ConnectToken → Prop
  | .sweep _, row => row.expiryNotifiedAt ≠ none
  | .consume _, row => row.usedAt ≠ none

theorem Marked.evolves {t : Tx} {before after : ConnectToken} (h : Marked t before)
    (evolves : Evolves before after) : Marked t after := by
  cases t with
  | sweep i => exact evolves.2.2 h
  | consume j => exact evolves.2.1 h

/-- What the row of a token records of the transactions that wrote to it. -/
structure RowInv (target : Nat → String) (expiry : DateTime) (token : String)
    (w : World) : Prop where
  expires : ∀ row, (w.tokens token).HasVersion row → row.expiresAt = expiry
  grows : (w.tokens token).Grows Evolves
  wrote : ∀ t, Wrote target w token t →
    ∃ row, (w.tokens token).pending = some (t, row) ∧ Marked t row
  published : ∀ t, Published target w token t →
    ∃ row, (w.tokens token).committed = some row ∧ Marked t row

/-- Who may still act on a token once a sweep has listed it. -/
structure ListedInv (target : Nat → String) (expiry : DateTime) (token : String)
    (w : World) : Prop where
  once : ∀ i i', token ∈ (w.sweep i).listed → token ∈ (w.sweep i').listed → i = i'
  expired : ∀ i, token ∈ (w.sweep i).listed → ∃ now ≤ w.clock,
    (w.sweep i).now = some now ∧ expiry ≤ now
  late : ∀ i j now, token ∈ (w.sweep i).listed → target j = token →
    (w.consume j).openSince = some now → expiry ≤ now
  unused : ∀ i j, token ∈ (w.sweep i).listed → target j = token → ¬ (w.consume j).Won

/-- Facts about single transactions. -/
structure PhaseInv (target : Nat → String) (expiry : String → DateTime) (w : World) :
    Prop where
  clock : ∀ i now, (w.sweep i).now = some now → now ≤ w.clock
  claimed : ∀ i now due claimed, w.sweep i = .updating now due claimed →
    ∀ token ∈ claimed, token ∈ due
  inTime : ∀ j now, w.consume j = .updated now true → now < expiry (target j)

structure Inv (target : Nat → String) (expiry : String → DateTime) (w : World) : Prop where
  row : ∀ token, RowInv target (expiry token) token w
  listed : ∀ token, ListedInv target (expiry token) token w
  phase : PhaseInv target expiry w

section Preservation

variable {keys : List String} {limit : Nat} {target : Nat → String}
variable {expiry : String → DateTime} {w w' : World} {token : String} {bound : DateTime}

/-! ### Rows -/

/-- The row is untouched and nobody newly claims to have written to it. -/
theorem RowInv.frame (h : RowInv target bound token w)
    (row : w'.tokens token = w.tokens token)
    (wrote : ∀ t, Wrote target w' token t → Wrote target w token t)
    (published : ∀ t, Published target w' token t → Published target w token t) :
    RowInv target bound token w' := by
  refine ⟨?_, ?_, ?_, ?_⟩
  · rw [row]
    exact h.expires
  · rw [row]
    exact h.grows
  · intro t ht
    rw [row]
    exact h.wrote t (wrote t ht)
  · intro t ht
    rw [row]
    exact h.published t (published t ht)

/-- Transaction `t` updates the row: it was free, so no other transaction has an
uncommitted write there. -/
theorem RowInv.lock {t : Tx} {seen new : ConnectToken} (h : RowInv target bound token w)
    (hfree : (w.tokens token).blocks t = false)
    (hseen : (w.tokens token).visible t = some seen) (evolves : Evolves seen new)
    (marked : Marked t new)
    (row : w'.tokens token = { w.tokens token with pending := some (t, new) })
    (wrote : ∀ t', t' ≠ t → Wrote target w' token t' → Wrote target w token t')
    (published : ∀ t', Published target w' token t' → Published target w token t') :
    RowInv target bound token w' := by
  have hbound : new.expiresAt = bound :=
    evolves.1.trans (h.expires seen (Row.hasVersion_of_visible hseen))
  refine ⟨?_, ?_, ?_, ?_⟩
  · rw [row]
    rintro version (hc | ⟨owner, hp⟩)
    · exact h.expires version (.inl hc)
    · obtain ⟨-, rfl⟩ := Prod.mk.inj (Option.some.inj hp)
      exact hbound
  · rw [row]
    exact h.grows.lock Evolves.trans hseen evolves
  · intro t' ht'
    rw [row]
    by_cases he : t' = t
    · exact ⟨new, by rw [he], he ▸ marked⟩
    · obtain ⟨version, hp, _⟩ := h.wrote t' (wrote t' he ht')
      exact absurd (Row.blocks_eq_false_iff.mp hfree t' version hp) he
  · intro t' ht'
    rw [row]
    exact h.published t' (published t' ht')

/-- Transaction `t` commits: what it wrote is published, and nothing published is lost. -/
theorem RowInv.commit {t : Tx} (h : RowInv target bound token w)
    (row : w'.tokens token = (w.tokens token).commit t)
    (wrote : ∀ t', Wrote target w' token t' → t' ≠ t ∧ Wrote target w token t')
    (published : ∀ t', Published target w' token t' →
      Published target w token t' ∨ (t' = t ∧ Wrote target w token t)) :
    RowInv target bound token w' := by
  refine ⟨?_, ?_, ?_, ?_⟩
  · rw [row]
    exact fun version hversion => h.expires version (Row.hasVersion_commit hversion)
  · rw [row]
    exact h.grows.commit
  · intro t' ht'
    obtain ⟨hne, hold⟩ := wrote t' ht'
    obtain ⟨version, hp, marked⟩ := h.wrote t' hold
    rw [row, Row.commit_of_pending_ne hp hne]
    exact ⟨version, hp, marked⟩
  · intro t' ht'
    rw [row]
    obtain hold | ⟨rfl, hwrote⟩ := published t' ht'
    · obtain ⟨version, hc, marked⟩ := h.published t' hold
      obtain ⟨version', hc', evolves⟩ := h.grows.committed_commit (t := t) Evolves.refl hc
      exact ⟨version', hc', marked.evolves evolves⟩
    · obtain ⟨version, hp, marked⟩ := h.wrote t' hwrote
      exact ⟨version, by rw [Row.commit_of_pending hp]; rfl, marked⟩

/-! ### Listed tokens -/

/-- Nothing new is listed, clock readings and wins are old or come after the expiry. -/
theorem ListedInv.frame (h : ListedInv target bound token w)
    (clock : w.clock ≤ w'.clock)
    (listed : ∀ i, token ∈ (w'.sweep i).listed →
      token ∈ (w.sweep i).listed ∧ (w'.sweep i).now = (w.sweep i).now)
    (since : ∀ i j now, token ∈ (w.sweep i).listed → target j = token →
      (w'.consume j).openSince = some now →
        (w.consume j).openSince = some now ∨ bound ≤ now)
    (won : ∀ i j, token ∈ (w.sweep i).listed → target j = token →
      (w'.consume j).Won → (w.consume j).Won) :
    ListedInv target bound token w' := by
  refine ⟨?_, ?_, ?_, ?_⟩
  · intro i i' hi hi'
    exact h.once i i' (listed i hi).1 (listed i' hi').1
  · intro i hi
    obtain ⟨now, hpast, hnow, hbound⟩ := h.expired i (listed i hi).1
    exact ⟨now, Int.le_trans hpast clock, (listed i hi).2.trans hnow, hbound⟩
  · intro i j now hi htarget hsince
    obtain hold | hbound := since i j now (listed i hi).1 htarget hsince
    · exact h.late i j now (listed i hi).1 htarget hold
    · exact hbound
  · intro i j hi htarget hwon
    exact h.unused i j (listed i hi).1 htarget (won i j (listed i hi).1 htarget hwon)

/-- A sweep moves to a state that lists no token it had not listed before. -/
theorem ListedInv.setSweep {tokens : Tokens Tx} {i : Nat} {p : Sweep}
    (h : ListedInv target bound token w)
    (listed : token ∈ p.listed → token ∈ (w.sweep i).listed ∧ p.now = (w.sweep i).now) :
    ListedInv target bound token (({ w with tokens := tokens } : World).setSweep i p) := by
  refine h.frame (Int.le_refl _) ?_ (fun _ _ _ _ _ hsince => .inl hsince)
    (fun _ _ _ _ hwon => hwon)
  intro i' hi'
  rw [World.setSweep_sweep] at hi' ⊢
  split at hi'
  · rename_i he
    rw [if_pos he, he]
    exact listed hi'
  · rename_i hne
    rw [if_neg hne]
    exact ⟨hi', rfl⟩

/-- A call of `consume_token` moves on without a new win on a listed token. -/
theorem ListedInv.setConsume {tokens : Tokens Tx} {j : Nat} {p : Consume}
    (h : ListedInv target bound token w)
    (since : ∀ i now, token ∈ (w.sweep i).listed → p.openSince = some now →
      (w.consume j).openSince = some now ∨ bound ≤ now)
    (won : ∀ i, token ∈ (w.sweep i).listed → target j = token → p.Won →
      (w.consume j).Won) :
    ListedInv target bound token (({ w with tokens := tokens } : World).setConsume j p) := by
  refine h.frame (Int.le_refl _) (fun i hi => ⟨hi, rfl⟩) ?_ ?_
  · intro i j' now hlisted _ hsince
    rw [World.setConsume_consume] at hsince
    split at hsince
    · rename_i he
      rw [he]
      exact since i now hlisted hsince
    · exact .inl hsince
  · intro i j' hlisted htarget hwon
    rw [World.setConsume_consume] at hwon
    split at hwon
    · rename_i he
      rw [he] at htarget ⊢
      exact won i hlisted htarget hwon
    · exact hwon

/-! ### Single transactions -/

theorem PhaseInv.setSweep {tokens : Tokens Tx} {i : Nat} {p : Sweep}
    (h : PhaseInv target expiry w) (clock : ∀ now, p.now = some now → now ≤ w.clock)
    (claimed : ∀ now due claimed, p = .updating now due claimed →
      ∀ token ∈ claimed, token ∈ due) :
    PhaseInv target expiry (({ w with tokens := tokens } : World).setSweep i p) := by
  refine ⟨?_, ?_, h.inTime⟩
  · intro i' now hnow
    rw [World.setSweep_sweep] at hnow
    split at hnow
    · exact clock now hnow
    · exact h.clock i' now hnow
  · intro i' now due cl hp
    rw [World.setSweep_sweep] at hp
    split at hp
    · exact claimed now due cl hp
    · exact h.claimed i' now due cl hp

theorem PhaseInv.setConsume {tokens : Tokens Tx} {j : Nat} {p : Consume}
    (h : PhaseInv target expiry w)
    (inTime : ∀ now, p = .updated now true → now < expiry (target j)) :
    PhaseInv target expiry (({ w with tokens := tokens } : World).setConsume j p) := by
  refine ⟨h.clock, h.claimed, ?_⟩
  intro j' now hp
  rw [World.setConsume_consume] at hp
  split at hp
  · rename_i he
    rw [he]
    exact inTime now hp
  · exact h.inTime j' now hp

/-! ### The actions -/

theorem Inv.tick {now : DateTime} (h : Inv target expiry w) (later : w.clock ≤ now) :
    Inv target expiry { w with clock := now } := by
  refine ⟨fun token => ?_, fun token => ?_, ?_, h.phase.claimed, h.phase.inTime⟩
  · exact (h.row token).frame rfl (fun t ht => by cases t <;> exact ht)
      (fun t ht => by cases t <;> exact ht)
  · exact (h.listed token).frame later (fun i hi => ⟨hi, rfl⟩)
      (fun i j now _ _ hsince => .inl hsince) (fun i j _ _ hwon => hwon)
  · exact fun i read hread => Int.le_trans (h.phase.clock i read hread) later

/-- A sweep that has not claimed anything moves on; only what it lists may change. -/
theorem RowInv.setSweep {i : Nat} {p : Sweep} (h : RowInv target bound token w)
    (nothing : p.returned = []) : RowInv target bound token (w.setSweep i p) := by
  refine h.frame rfl ?_ ?_
  · intro t ht
    obtain ⟨-, now, due, claimed, rfl, hmem⟩ | ⟨-, hold⟩ := Wrote.of_setSweep ht
    · obtain rfl : claimed = [] := nothing
      simp at hmem
    · exact hold
  · intro t ht
    obtain ⟨-, now, claimed, rfl, hmem⟩ | ⟨-, hold⟩ := Published.of_setSweep ht
    · obtain rfl : claimed = [] := nothing
      simp at hmem
    · exact hold

theorem Inv.sweepClock {i : Nat} (h : Inv target expiry w) :
    Inv target expiry (w.setSweep i (.ready w.clock)) := by
  refine ⟨fun token => (h.row token).setSweep rfl, fun token => ?_, ?_⟩
  · exact (h.listed token).setSweep (by simp [Sweep.listed])
  · refine h.phase.setSweep ?_ (by simp)
    intro now hnow
    obtain rfl : w.clock = now := Option.some.inj hnow
    exact Int.le_refl _

/-- In a table the selected tokens are due in, nobody can have touched them before. -/
theorem Inv.unlisted {i : Nat} {row : ConnectToken} {now : DateTime} {due : List String}
    (h : Inv target expiry w) (hmem : token ∈ due)
    (hrow : w.tokens.committed token = some row) (hdue : row.IsDue now)
    (alone : SnapshotAlone target w (.sweepSnapshot i due)) {i' : Nat} (hne : i' ≠ i) :
    token ∉ (w.sweep i').listed := by
  intro hlisted
  cases hp : w.sweep i' with
  | idle => simp [hp, Sweep.listed] at hlisted
  | ready _ => simp [hp, Sweep.listed] at hlisted
  | updating now' due' claimed' =>
      exact (alone token hmem).1 i' now' due' claimed' hne hp
        (by simpa [hp, Sweep.listed] using hlisted)
  | committed now' claimed' =>
      have hpublished : Published target w token (.sweep i') :=
        ⟨now', claimed', hp, by simpa [hp, Sweep.listed] using hlisted⟩
      obtain ⟨row', hrow', marked⟩ := (h.row token).published _ hpublished
      obtain rfl : row = row' := Option.some.inj (hrow.symm.trans hrow')
      exact marked hdue.2.1

theorem Inv.unconsumed {i : Nat} {row : ConnectToken} {now : DateTime} {due : List String}
    (h : Inv target expiry w) (hmem : token ∈ due)
    (hrow : w.tokens.committed token = some row) (hdue : row.IsDue now)
    (alone : SnapshotAlone target w (.sweepSnapshot i due)) {j : Nat}
    (htarget : target j = token) : ¬ (w.consume j).Won := by
  intro hwon
  cases hp : w.consume j with
  | idle => simp [hp, Consume.Won] at hwon
  | ready _ => simp [hp, Consume.Won] at hwon
  | updated read success =>
      obtain rfl : success = true := by simpa [hp, Consume.Won] using hwon
      have hlate := (alone token hmem).2 j read row htarget (by simp [hp, Consume.openSince]) hrow
      have hexpires := (h.row token).expires row (.inl hrow)
      have htime := h.phase.inTime j read hp
      rw [htarget, ← hexpires] at htime
      exact absurd htime (Int.not_lt.mpr hlate)
  | committed read success =>
      obtain rfl : success = true := by simpa [hp, Consume.Won] using hwon
      have hpublished : Published target w token (.consume j) := ⟨htarget, read, hp⟩
      obtain ⟨row', hrow', marked⟩ := (h.row token).published _ hpublished
      obtain rfl : row = row' := Option.some.inj (hrow.symm.trans hrow')
      exact marked hdue.1

/-- A snapshot taken alone lists only tokens that nobody else can act on any more. -/
theorem Inv.sweepSnapshot {i : Nat} {now : DateTime} {due : List String}
    (h : Inv target expiry w) (hi : w.sweep i = .ready now)
    (hdue : ∀ token ∈ due, ∃ row, w.tokens.committed token = some row ∧ row.IsDue now)
    (alone : SnapshotAlone target w (.sweepSnapshot i due)) :
    Inv target expiry (w.setSweep i (.updating now due [])) := by
  have hclock : now ≤ w.clock := h.phase.clock i now (by simp [hi, Sweep.now])
  refine ⟨fun token => (h.row token).setSweep rfl, fun token => ?_,
    h.phase.setSweep (by simpa [Sweep.now] using hclock) (by rintro _ _ _ ⟨⟩; simp)⟩
  by_cases hmem : token ∈ due
  · obtain ⟨row, hrow, hrowdue⟩ := hdue token hmem
    have hbound : row.expiresAt = expiry token := (h.row token).expires row (.inl hrow)
    have hother : ∀ i', token ∈ ((w.setSweep i (.updating now due [])).sweep i').listed →
        i' = i := by
      intro i' hlisted
      by_contra hne
      rw [World.setSweep_sweep, if_neg hne] at hlisted
      exact h.unlisted hmem hrow hrowdue alone hne hlisted
    refine ⟨?_, ?_, ?_, ?_⟩
    · intro i₁ i₂ h₁ h₂
      exact (hother i₁ h₁).trans (hother i₂ h₂).symm
    · intro i' hlisted
      rw [hother i' hlisted, World.setSweep_sweep, if_pos rfl]
      exact ⟨now, hclock, rfl, hbound ▸ hrowdue.2.2⟩
    · intro _ j read _ htarget hsince
      exact hbound ▸ (alone token hmem).2 j read row htarget hsince hrow
    · intro _ j _ htarget
      exact h.unconsumed hmem hrow hrowdue alone htarget
  · exact (h.listed token).setSweep fun hlisted => absurd hlisted hmem

/-- A sweep updates one of its rows and remembers having claimed it. -/
theorem Inv.sweepUpdate {i : Nat} {key : String} {now : DateTime}
    {due claimed : List String} {tokens : Tokens Tx} {result : Option ConnectToken}
    (h : Inv target expiry w) (hi : w.sweep i = .updating now due claimed)
    (hdue : key ∈ due)
    (hclaim : claimForNotice w.tokens (.sweep i) key now = some (tokens, result)) :
    Inv target expiry (({ w with tokens := tokens } : World).setSweep i
      (.updating now due (if result.isSome then key :: claimed else claimed))) := by
  obtain ⟨hfree, ⟨rfl, rfl, -⟩ | ⟨seen, row, hseen, hrow, rfl, rfl⟩⟩ :=
    Table.update_cases hclaim
  · have hsame : w.setSweep i (.updating now due claimed) = w := World.setSweep_self hi
    exact hsame.symm ▸ h
  · obtain rfl : seen.notified now = row := Option.some.inj hrow
    have hpublished : ∀ (tokens : Tokens Tx) token t,
        Published target (({ w with tokens := tokens } : World).setSweep i
          (.updating now due (key :: claimed))) token t → Published target w token t := by
      intro tokens token t ht
      obtain ⟨-, read, cl, hp, -⟩ | ⟨-, hold⟩ := ht.of_setSweep
      · cases hp
      · exact hold
    refine ⟨fun token => ?_, fun token => ?_, ?_⟩
    · by_cases hkey : token = key
      · subst hkey
        refine (h.row token).lock hfree hseen (evolves_notified now seen)
          (by simp [Marked, ConnectToken.notified]) (Table.set_same _ _ _) ?_ (hpublished _ token)
        intro t hne ht
        obtain ⟨he, -⟩ | ⟨-, hold⟩ := ht.of_setSweep
        · exact absurd he hne
        · exact hold
      · refine (h.row token).frame (Table.set_ne _ _ hkey) ?_ (hpublished _ token)
        intro t ht
        obtain ⟨rfl, read, due', cl, hp, hmem⟩ | ⟨-, hold⟩ := ht.of_setSweep
        · cases hp
          exact ⟨now, due, claimed, hi, (List.mem_cons.mp hmem).resolve_left hkey⟩
        · exact hold
    · exact (h.listed token).setSweep fun hlisted => by rw [hi]; exact ⟨hlisted, rfl⟩
    · refine h.phase.setSweep ?_ ?_
      · intro read hread
        exact h.phase.clock i read (by rw [hi]; exact hread)
      · rintro _ _ _ ⟨⟩ token hmem
        obtain rfl | hmem := List.mem_cons.mp hmem
        · exact hdue
        · exact h.phase.claimed i now due claimed hi token hmem

/-- A sweep commits after it has claimed everything it listed. -/
theorem Inv.sweepCommit {i : Nat} {now : DateTime} {due claimed : List String}
    (h : Inv target expiry w) (hi : w.sweep i = .updating now due claimed) :
    Inv target expiry (({ w with tokens := w.tokens.commit (.sweep i) } : World).setSweep i
      (.committed now claimed)) := by
  refine ⟨fun token => ?_, fun token => ?_, ?_⟩
  · refine (h.row token).commit (t := .sweep i) rfl ?_ ?_
    · intro t ht
      obtain ⟨-, read, due', cl, hp, -⟩ | hold := ht.of_setSweep
      · cases hp
      · exact hold
    · intro t ht
      obtain ⟨rfl, read, cl, hp, hmem⟩ | ⟨-, hold⟩ := ht.of_setSweep
      · cases hp
        exact .inr ⟨rfl, now, due, claimed, hi, hmem⟩
      · exact .inl hold
  · refine (h.listed token).setSweep fun hlisted => ?_
    rw [hi]
    exact ⟨h.phase.claimed i now due claimed hi token hlisted, rfl⟩
  · refine h.phase.setSweep ?_ (by simp)
    intro read hread
    exact h.phase.clock i read (by rw [hi]; exact hread)

/-- A call of `consume_token` that starts now reads a clock past every listed expiry. -/
theorem Inv.consumeClock {j : Nat} (h : Inv target expiry w) :
    Inv target expiry (w.setConsume j (.ready w.clock)) := by
  refine ⟨fun token => ?_, fun token => ?_, h.phase.setConsume (by simp)⟩
  · refine (h.row token).frame rfl ?_ ?_
    · intro t ht
      obtain ⟨-, -, now, hp⟩ | ⟨-, hold⟩ := Wrote.of_setConsume ht
      · cases hp
      · exact hold
    · intro t ht
      obtain ⟨-, -, now, hp⟩ | ⟨-, hold⟩ := Published.of_setConsume ht
      · cases hp
      · exact hold
  · refine (h.listed token).setConsume ?_ (fun _ _ _ hwon => hwon.elim)
    intro i now hlisted hsince
    obtain rfl : w.clock = now := Option.some.inj hsince
    obtain ⟨read, hpast, _, hbound⟩ := (h.listed token).expired i hlisted
    exact .inr (Int.le_trans hbound hpast)

/-- `consume_token` wins only a token that no sweep has listed: the guard re-checked on
the locked row contradicts the expiry that every listed token has reached. -/
theorem Inv.consumeUpdate {j : Nat} {now : DateTime} {tokens : Tokens Tx}
    {result : Option ConnectToken} (h : Inv target expiry w) (hj : w.consume j = .ready now)
    (hconsume : consumeToken w.tokens (.consume j) (target j) now = some (tokens, result)) :
    Inv target expiry (({ w with tokens := tokens } : World).setConsume j
      (.updated now result.isSome)) := by
  have hsince : ∀ (won : Bool) read, (Consume.updated now won).openSince = some read →
      (w.consume j).openSince = some read := by
    intro won read hread
    rw [hj]
    exact hread
  have hpublished : ∀ (tokens : Tokens Tx) (won : Bool) token t,
      Published target (({ w with tokens := tokens } : World).setConsume j
        (.updated now won)) token t → Published target w token t := by
    intro tokens won token t ht
    obtain ⟨-, -, read, hp⟩ | ⟨-, hold⟩ := ht.of_setConsume
    · cases hp
    · exact hold
  obtain ⟨hfree, ⟨rfl, rfl, -⟩ | ⟨seen, row, hseen, hrow, rfl, rfl⟩⟩ :=
    Table.update_cases hconsume
  · refine ⟨fun token => ?_, fun token => ?_, h.phase.setConsume (by simp)⟩
    · refine (h.row token).frame rfl ?_ (hpublished _ _ token)
      intro t ht
      obtain ⟨-, -, read, hp⟩ | ⟨-, hold⟩ := ht.of_setConsume
      · cases hp
      · exact hold
    · refine (h.listed token).setConsume (fun i read _ hread => .inl (hsince _ read hread)) ?_
      intro i _ _ hwon
      simp [Consume.Won] at hwon
  · obtain ⟨⟨-, hintime⟩, rfl⟩ := ConnectToken.consumed_eq_some.mp hrow
    have hbound := (h.row (target j)).expires seen (Row.hasVersion_of_visible hseen)
    refine ⟨fun token => ?_, fun token => ?_, h.phase.setConsume ?_⟩
    · by_cases hkey : token = target j
      · subst hkey
        refine (h.row _).lock hfree hseen (evolves_consumed hrow) (by simp [Marked])
          (Table.set_same _ _ _) ?_ (hpublished _ _ _)
        intro t hne ht
        obtain ⟨he, -⟩ | ⟨-, hold⟩ := ht.of_setConsume
        · exact absurd he hne
        · exact hold
      · refine (h.row token).frame (Table.set_ne _ _ hkey) ?_ (hpublished _ _ token)
        intro t ht
        obtain ⟨-, htarget, -⟩ | ⟨-, hold⟩ := ht.of_setConsume
        · exact absurd htarget.symm hkey
        · exact hold
    · refine (h.listed token).setConsume (fun i read _ hread => .inl (hsince _ read hread)) ?_
      intro i hlisted htarget _
      have hlate := (h.listed token).late i j now hlisted htarget
        (by simp [hj, Consume.openSince])
      rw [hbound, htarget] at hintime
      exact absurd hintime (Int.not_lt.mpr hlate)
    · intro read hp
      cases hp
      exact hbound ▸ hintime

theorem Inv.consumeCommit {j : Nat} {now : DateTime} {won : Bool}
    (h : Inv target expiry w) (hj : w.consume j = .updated now won) :
    Inv target expiry (({ w with tokens := w.tokens.commit (.consume j) } : World).setConsume j
      (.committed now won)) := by
  refine ⟨fun token => ?_, fun token => ?_, h.phase.setConsume (by simp)⟩
  · refine (h.row token).commit (t := .consume j) rfl ?_ ?_
    · intro t ht
      obtain ⟨-, -, read, hp⟩ | hold := ht.of_setConsume
      · cases hp
      · exact hold
    · intro t ht
      obtain ⟨rfl, htarget, read, hp⟩ | ⟨-, hold⟩ := ht.of_setConsume
      · cases hp
        exact .inr ⟨rfl, htarget, now, hj⟩
      · exact .inl hold
  · refine (h.listed token).setConsume ?_ ?_
    · intro i read _ hs
      simp [Consume.openSince] at hs
    · intro i _ _ hwon
      rw [hj]
      exact hwon

/-- One step keeps the invariant, provided it is not a snapshot taken in company. -/
theorem Inv.step {a : Action} (h : Inv target expiry w) (alone : SnapshotAlone target w a)
    (hstep : step keys limit target w a = some w') : Inv target expiry w' := by
  cases a with
  | tick now =>
      simp only [ExpiryNotices.step, Option.ite_none_right_eq_some, Option.some.injEq] at hstep
      obtain ⟨later, rfl⟩ := hstep
      exact h.tick later
  | sweepClock i =>
      simp only [ExpiryNotices.step] at hstep
      split at hstep
      · cases hstep
        exact h.sweepClock
      · cases hstep
  | sweepSnapshot i due =>
      simp only [ExpiryNotices.step] at hstep
      split at hstep
      · rename_i now hi
        simp only [Option.ite_none_right_eq_some, Option.some.injEq] at hstep
        obtain ⟨hbatch, rfl⟩ := hstep
        exact h.sweepSnapshot hi (fun token hmem => (hbatch.2.2.1 token hmem).2) alone
      · cases hstep
  | sweepUpdate i token =>
      simp only [ExpiryNotices.step] at hstep
      split at hstep
      · rename_i now due claimed hi
        simp only [Option.ite_none_right_eq_some, Option.map_eq_some_iff] at hstep
        obtain ⟨⟨hdue, _⟩, ⟨tokens, result⟩, hclaim, rfl⟩ := hstep
        exact h.sweepUpdate hi hdue hclaim
      · cases hstep
  | sweepCommit i =>
      simp only [ExpiryNotices.step] at hstep
      split at hstep
      · rename_i now due claimed hi
        simp only [Option.ite_none_right_eq_some, Option.some.injEq] at hstep
        obtain ⟨_, rfl⟩ := hstep
        exact h.sweepCommit hi
      · cases hstep
  | consumeClock j =>
      simp only [ExpiryNotices.step] at hstep
      split at hstep
      · cases hstep
        exact h.consumeClock
      · cases hstep
  | consumeUpdate j =>
      simp only [ExpiryNotices.step] at hstep
      split at hstep
      · rename_i now hj
        simp only [Option.map_eq_some_iff] at hstep
        obtain ⟨⟨tokens, result⟩, hconsume, rfl⟩ := hstep
        exact h.consumeUpdate hj hconsume
      · cases hstep
  | consumeCommit j =>
      simp only [ExpiryNotices.step] at hstep
      split at hstep
      · rename_i now won hj
        cases hstep
        exact h.consumeCommit hj
      · cases hstep

end Preservation

/-- The expiry of a token, fixed when it was issued. -/
def expiryOf (rows : String → Option ConnectToken) (token : String) : DateTime :=
  ((rows token).map ConnectToken.expiresAt).getD 0

theorem inv_start (target : Nat → String) (clock : DateTime)
    (rows : String → Option ConnectToken) :
    Inv target (expiryOf rows) (start clock rows) := by
  refine ⟨fun token => ⟨?_, ?_, ?_, ?_⟩, fun token => ⟨?_, ?_, ?_, ?_⟩, ?_, ?_, ?_⟩
  · rintro row (hrow | ⟨t, hrow⟩)
    · have hrow : rows token = some row := hrow
      simp [expiryOf, hrow]
    · cases hrow
  · rintro c t v _ ⟨⟩
  · rintro (i | j) ht
    · obtain ⟨_, _, _, ⟨⟩, _⟩ := ht
    · obtain ⟨_, _, ⟨⟩⟩ := ht
  · rintro (i | j) ht
    · obtain ⟨_, _, ⟨⟩, _⟩ := ht
    · obtain ⟨_, _, ⟨⟩⟩ := ht
  · rintro i i' ⟨⟩
  · rintro i ⟨⟩
  · rintro i j now ⟨⟩
  · rintro i j ⟨⟩
  · rintro i now ⟨⟩
  · rintro i now due claimed ⟨⟩
  · rintro j now ⟨⟩

theorem Inv.exclusive {target : Nat → String} {expiry : String → DateTime} {w : World}
    (h : Inv target expiry w) : Exclusive target w := by
  have hlisted : ∀ token i, token ∈ (w.sweep i).returned → token ∈ (w.sweep i).listed := by
    intro token i hmem
    cases hp : w.sweep i with
    | idle => simp [hp, Sweep.returned] at hmem
    | ready now => simp [hp, Sweep.returned] at hmem
    | updating now due claimed =>
        exact h.phase.claimed i now due claimed hp token (by simpa [hp, Sweep.returned] using hmem)
    | committed now claimed => simpa [hp, Sweep.returned, Sweep.listed] using hmem
  constructor
  · intro token i i' hi hi'
    exact (h.listed token).once i i' (hlisted token i hi) (hlisted token i' hi')
  · intro token i j hi htarget
    exact (h.listed token).unused i j (hlisted token i hi) htarget

/-- In every run in which each sweep takes its snapshot alone, no token is returned by two
sweeps, and none is both returned by a sweep and consumed. -/
theorem notices_exclusive (keys : List String) (limit : Nat) (target : Nat → String)
    (clock : DateTime) (rows : String → Option ConnectToken) (actions : List Action)
    (w : World)
    (run : exec (step keys limit target) (start clock rows) actions = some w)
    (alone : Meets (step keys limit target) (SnapshotAlone target) (start clock rows)
      actions) : Exclusive target w := by
  have hinv : Inv target (expiryOf rows) w :=
    exec_invariant_of_meets (fun _ _ _ h hcond hstep => h.step hcond hstep)
      (inv_start target clock rows) alone run
  exact hinv.exclusive

/-- The token of a link that expires at the given time. -/
def issued (expiresAt : DateTime) : ConnectToken where
  telegramId := 1
  chatId := 1
  messageId := none
  phone := "+1"
  expiresAt := expiresAt
  usedAt := none
  expiryNotifiedAt := none
  createdAt := 0

/-- Two tokens expire at 10 and one at 100. -/
def tickets : String → Option ConnectToken
  | "a" => some (issued 10)
  | "b" => some (issued 10)
  | "c" => some (issued 100)
  | _ => none

/-- Call 0 of `consume_token` is about a token that has expired, the others are not. -/
def bearer (j : Nat) : String := if j = 0 then "b" else "c"

/-- Two sweeps of one token each and two logins, all of them open at the same time. -/
def overlapping : List Action :=
  [.consumeClock 1, .tick 20, .consumeClock 0, .sweepClock 0, .sweepClock 1,
    .sweepSnapshot 0 ["a"], .sweepSnapshot 1 ["b"], .sweepUpdate 0 "a", .consumeUpdate 1,
    .sweepUpdate 1 "b", .sweepCommit 1, .consumeUpdate 0, .sweepCommit 0, .consumeCommit 1,
    .consumeCommit 0]

/-- Each sweep gets its token, the login in time gets through and the late one does not. -/
theorem overlapping_exclusive :
    ∃ w, exec (step ["a", "b", "c"] 1 bearer) (start 5 tickets) overlapping = some w ∧
      (w.sweep 0).returned = ["a"] ∧ (w.sweep 1).returned = ["b"] ∧
      w.consume 0 = .committed 20 false ∧ w.consume 1 = .committed 5 true ∧
      Exclusive bearer w := by
  have hobserved : (exec (step ["a", "b", "c"] 1 bearer) (start 5 tickets) overlapping).map
      (fun w => ((w.sweep 0).returned, (w.sweep 1).returned, w.consume 0, w.consume 1)) =
        some (["a"], ["b"], .committed 20 false, .committed 5 true) := by decide +kernel
  obtain ⟨w, hrun, hstate⟩ := Option.map_eq_some_iff.mp hobserved
  obtain ⟨h₀, hstate⟩ := Prod.mk.inj hstate
  obtain ⟨h₁, hstate⟩ := Prod.mk.inj hstate
  obtain ⟨h₂, h₃⟩ := Prod.mk.inj hstate
  refine ⟨w, hrun, h₀, h₁, h₂, h₃, notices_exclusive _ _ _ _ _ _ w hrun ?_⟩
  refine ⟨trivial, fun w₁ h₁ => ⟨trivial, fun w₂ h₂ => ⟨trivial, fun w₃ h₃ => ⟨trivial,
    fun w₄ h₄ => ⟨trivial, fun w₅ h₅ => ?_⟩⟩⟩⟩⟩
  cases h₁
  cases h₂
  cases h₃
  cases h₄
  cases h₅
  refine ⟨?_, fun w₆ h₆ => ?_⟩
  · -- no other sweep has listed anything, and nobody logs in with the first token
    intro token hmem
    obtain rfl : token = "a" := List.mem_singleton.mp hmem
    refine ⟨?_, ?_⟩
    · intro i now due claimed hne hi
      simp only [World.setSweep_sweep, if_neg hne] at hi
      split at hi <;> cases hi
    · intro j now row htarget
      simp only [bearer] at htarget
      split at htarget <;> simp at htarget
  · cases h₆
    refine ⟨?_, fun w₇ h₇ => meets_of_forall (by simp [SnapshotAlone])⟩
    -- the other sweep has listed another token, and the login for this one has read 20
    intro token hmem
    obtain rfl : token = "b" := List.mem_singleton.mp hmem
    refine ⟨?_, ?_⟩
    · intro i now due claimed hne hi
      simp only [World.setSweep_sweep, if_neg hne] at hi
      split at hi
      · cases hi
        simp
      · cases hi
    · intro j now row htarget hsince hrow
      cases hrow
      simp only [bearer] at htarget
      split at htarget
      · subst j
        cases hsince
        decide
      · simp at htarget

/-- One token, which expires at 10. -/
def ticket : String → Option ConnectToken := fun token =>
  if token = "t" then some (issued 10) else none

/-- Both halves fail when statements overlap. Two sweeps take their snapshots before either
updates, and both return the token; a login that read its clock before the expiry consumes
the token after a sweep has returned it. -/
theorem notices_not_exclusive :
    ¬ (∀ (keys : List String) (limit : Nat) (target : Nat → String) (clock : DateTime)
        (rows : String → Option ConnectToken) (actions : List Action) (w : World),
        exec (step keys limit target) (start clock rows) actions = some w →
        ∀ token i i', token ∈ (w.sweep i).returned → token ∈ (w.sweep i').returned → i = i') ∧
      ¬ (∀ (keys : List String) (limit : Nat) (target : Nat → String) (clock : DateTime)
        (rows : String → Option ConnectToken) (actions : List Action) (w : World),
        exec (step keys limit target) (start clock rows) actions = some w →
        ∀ token i j, token ∈ (w.sweep i).returned → target j = token →
          ¬ (w.consume j).Won) := by
  constructor
  · intro once
    have hobserved : (exec (step ["t"] 50 fun _ => "t") (start 20 ticket)
        [.sweepClock 0, .sweepClock 1, .sweepSnapshot 0 ["t"], .sweepSnapshot 1 ["t"],
          .sweepUpdate 0 "t", .sweepCommit 0, .sweepUpdate 1 "t", .sweepCommit 1]).map
        (fun w => ((w.sweep 0).returned, (w.sweep 1).returned)) = some (["t"], ["t"]) := by
      decide
    obtain ⟨w, hrun, hreturned⟩ := Option.map_eq_some_iff.mp hobserved
    obtain ⟨h₀, h₁⟩ := Prod.mk.inj hreturned
    exact absurd (once _ _ _ _ _ _ w hrun "t" 0 1 (by simp [h₀]) (by simp [h₁])) (by decide)
  · intro unused
    have hobserved : (exec (step ["t"] 50 fun _ => "t") (start 5 ticket)
        [.consumeClock 0, .tick 20, .sweepClock 0, .sweepSnapshot 0 ["t"], .sweepUpdate 0 "t",
          .sweepCommit 0, .consumeUpdate 0, .consumeCommit 0]).map
        (fun w => ((w.sweep 0).returned, w.consume 0)) =
          some (["t"], .committed 5 true) := by
      decide
    obtain ⟨w, hrun, hreturned⟩ := Option.map_eq_some_iff.mp hobserved
    obtain ⟨h₀, h₁⟩ := Prod.mk.inj hreturned
    exact unused _ _ _ _ _ _ w hrun "t" 0 0 (by simp [h₀]) rfl (by simp [h₁, Consume.Won])

end UserTgBot.ExpiryNotices
