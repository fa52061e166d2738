import Mathlib.Data.Rat.Floor
import UserTgBot.Library.ReadCommitted
import UserTgBot.Library.Spacing
import UserTgBot.Library.Transition

/-!
# The cooldown of `.send`

`_do_send` of `userbot/handlers/commands.py` between its check of the count and its first
message, with the queries `peek_send_cooldown` and `mark_send_used`. The handlers are those of
one owner, in one worker or in several; they share the owner's row of `user_settings`, and their
statements interleave under READ COMMITTED.

The `UPDATE` names the row by its key and compares nothing, so the gate holds only if what it
has read is still what is stored. Times are naive UTC timestamps in microseconds.
-/

namespace UserTgBot.SendCooldown

open ReadCommitted Spacing Transition

/-- Microseconds in a second. -/
def second : Int := 1000000

/-- `user_settings`, as far as `.send` uses it: the column `last_send_at`. -/
abbrev SettingsRow := Row Nat (Option Int)

/-- The answer of `peek_send_cooldown` for the stored `last_send_at`. -/
def peekSendCooldown (lastSendAt : Option Int) (cooldownSeconds : Int) (now : Int) :
    Bool × Int :=
  match lastSendAt with
  | none => (true, 0)
  | some last =>
      let elapsed : ℚ := (now - last : Int) / (second : Int)
      let remaining : ℚ := cooldownSeconds - elapsed
      (remaining ≤ 0, max 0 ⌈remaining⌉)

/-- How far a handler has come. `peeked` is the clock it has read when it peeked, and `seen` the
row it found then, if there was one. -/
inductive Phase where
  | idle
  | begun
  | peeking (now : Int)
  | creating (now : Int)
  | allowed (peeked : Int) (seen : Option (Option Int))
  | marking (peeked : Int) (seen : Option (Option Int)) (now : Int)
  | marked (peeked : Int) (seen : Option (Option Int)) (now : Int)
  | sending (marked : Int)
  | refused (minutes : Int)
  | failed
deriving DecidableEq

structure State where
  now : Int
  row : SettingsRow
  phase : Nat → Phase

inductive Action where
  | tick (microseconds : Nat)
  | command (id : Nat)
  | advance (id : Nat)
  | abort (id : Nat)

namespace State

def setPhase (s : State) (id : Nat) (phase : Phase) : State :=
  { s with phase := Function.update s.phase id phase }

/-- An exception leaves the session, which rolls back. -/
def fail (s : State) (id : Nat) : State :=
  { s.setPhase id .failed with row := s.row.rollback id }

/-- The end of the peek: the handler goes on, or it rolls back and tells how long to wait. -/
def gate (s : State) (cooldownSeconds : Int) (id : Nat) (now : Int)
    (seen : Option (Option Int)) : State :=
  match peekSendCooldown seen.join cooldownSeconds now with
  | (true, _) => s.setPhase id (.allowed now seen)
  | (false, remaining) =>
      { s.setPhase id (.refused (max 1 ⌈(remaining : ℚ) / 60⌉)) with row := s.row.rollback id }

def initial (now : Int) (settings : Option (Option Int)) : State where
  now := now
  row := .settled settings
  phase := fun _ => .idle

end State

/-- The next statement of a handler; it waits as long as another one has locked the row. -/
def advance (cooldownSeconds : Int) (s : State) (id : Nat) : Phase → Option State
  | .begun => some (s.setPhase id (.peeking s.now))
  | .peeking now =>
      match s.row.visible id with
      | none => some (s.setPhase id (.creating now))
      | some lastSendAt => some (s.gate cooldownSeconds id now (some lastSendAt))
  -- Another `INSERT` that was committed first makes this one violate the primary key.
  | .creating now =>
      (s.row.insert id none).map fun out =>
        if out.2 then { s with row := out.1 }.gate cooldownSeconds id now none else s.fail id
  | .allowed peeked seen => some (s.setPhase id (.marking peeked seen s.now))
  | .marking peeked seen now =>
      (s.row.update id fun _ => some (some now)).map fun out =>
        match out.2 with
        | none => s.fail id
        | some _ => { s.setPhase id (.marked peeked seen now) with row := out.1 }
  | .marked _ _ now =>
      some { s.setPhase id (.sending now) with row := s.row.commit id }
  | _ => none

/-- The handler is inside its transaction. -/
def Phase.isOpen : Phase → Bool
  | .idle => false
  | .sending _ => false
  | .refused _ => false
  | .failed => false
  | _ => true

def step (cooldownSeconds : Int) (s : State) : Action → Option State
  | .tick microseconds => some { s with now := s.now + microseconds }
  | .command id => if s.phase id = .idle then some (s.setPhase id .begun) else none
  | .advance id => advance cooldownSeconds s id (s.phase id)
  | .abort id => if (s.phase id).isOpen then some (s.fail id) else none

/-- When a handler that was allowed marked its use. -/
def Phase.mark? : Phase → Option Int
  | .sending now => some now
  | _ => none

def State.mark? (s : State) (id : Nat) : Option Int := (s.phase id).mark?

/-- A handler commits its mark only if what it has peeked at is still stored. -/
def Fresh (s : State) : Action → Prop
  | .advance id =>
      match s.phase id with
      | .marked _ seen _ => s.row.committed = seen
      | _ => True
  | _ => True

instance (s : State) (a : Action) : Decidable (Fresh s a) := by
  unfold Fresh
  split
  · split <;> infer_instance
  · infer_instance

/-- From its peek to its commit a handler takes less than half the cooldown. -/
def Prompt (cooldownSeconds : Int) (s : State) : Action → Prop
  | .advance id =>
      match s.phase id with
      | .marked peeked _ _ => 2 * (s.now - peeked) < cooldownSeconds * second
      | _ => True
  | _ => True

theorem peekSendCooldown_allowed {last cooldownSeconds now : Int} :
    (peekSendCooldown (some last) cooldownSeconds now).1 = true ↔
      cooldownSeconds * second ≤ now - last := by
  have hsecond : (0 : ℚ) < (second : Int) := by norm_num [second]
  simp only [peekSendCooldown, decide_eq_true_eq, sub_nonpos, le_div_iff₀ hsecond]
  norm_cast

/-! ## What a handler knows -/

/-- The gate lets a peek at `peeked` through that has found `seen`. -/
def Passed (cooldownSeconds : Int) (peeked : Int) (seen : Option (Option Int)) : Prop :=
  ∀ last, seen = some (some last) → cooldownSeconds * second ≤ peeked - last

/-- `Known` is what else is known of a peek that was let through. -/
def PhaseInv (cooldownSeconds : Int) (Known : Int → Option (Option Int) → Prop)
    (now : Int) (row : SettingsRow) (id : Nat) : Phase → Prop
  | .peeking peeked => peeked ≤ now ∧ ¬ row.LockedBy id
  | .creating peeked => peeked ≤ now ∧ ¬ row.LockedBy id
  | .allowed peeked seen => peeked ≤ now ∧ Passed cooldownSeconds peeked seen ∧ Known peeked seen
  | .marking peeked seen at_ =>
      (peeked ≤ at_ ∧ at_ ≤ now) ∧ Passed cooldownSeconds peeked seen ∧ Known peeked seen
  | .marked peeked seen at_ =>
      (peeked ≤ at_ ∧ at_ ≤ now) ∧ (Passed cooldownSeconds peeked seen ∧ Known peeked seen) ∧
        row.pending = some (id, some at_)
  | _ => ¬ row.LockedBy id

def Inv (cooldownSeconds : Int) (Known : Int → Option (Option Int) → Prop)
    (s : State) : Prop :=
  ∀ id, PhaseInv cooldownSeconds Known s.now s.row id (s.phase id)

/-- A step that neither commits a mark nor takes one back. -/
structure Quiet (s t : State) : Prop where
  now : s.now ≤ t.now
  committed : t.row.committed = s.row.committed
  mark : t.mark? = s.mark?

section Steps

variable {cooldownSeconds : Int} {Known Known' : Int → Option (Option Int) → Prop}
variable {s t : State} {row : SettingsRow} {now : Int} {id j : Nat} {phase : Phase}
variable {a : Action}

theorem passed_iff {seen : Option (Option Int)} :
    (peekSendCooldown seen.join cooldownSeconds now).1 = true ↔
      Passed cooldownSeconds now seen := by
  cases seen with
  | none => exact iff_of_true rfl fun last h => by cases h
  | some lastSendAt =>
      cases lastSendAt with
      | none => exact iff_of_true rfl fun last h => by cases h
      | some last =>
          refine peekSendCooldown_allowed.trans ⟨fun h last' heq => ?_, fun h => h last rfl⟩
          obtain rfl := Option.some.inj (Option.some.inj heq)
          exact h

theorem not_lockedBy_move (h : ¬ s.row.LockedBy j) (move : Row.Move id s.row row)
    (hne : j ≠ id) : ¬ row.LockedBy j := by
  rintro ⟨v, hv⟩
  exact h ⟨v, move.pending_other_of hv hne⟩

/-- What one handler does to the row leaves what another one knows. -/
theorem PhaseInv.frame (h : PhaseInv cooldownSeconds Known s.now s.row j phase)
    (later : s.now ≤ now) (move : Row.Move id s.row row) (hne : j ≠ id) :
    PhaseInv cooldownSeconds Known now row j phase := by
  cases phase with
  | peeking peeked => exact ⟨h.1.trans later, not_lockedBy_move h.2 move hne⟩
  | creating peeked => exact ⟨h.1.trans later, not_lockedBy_move h.2 move hne⟩
  | allowed peeked seen => exact ⟨h.1.trans later, h.2⟩
  | marking peeked seen at_ => exact ⟨⟨h.1.1, h.1.2.trans later⟩, h.2⟩
  | marked peeked seen at_ =>
      refine ⟨⟨h.1.1, h.1.2.trans later⟩, h.2.1, ?_⟩
      rw [move.eq_of_pending_other h.2.2 hne]
      exact h.2.2
  | _ => exact not_lockedBy_move h move hne

theorem Inv.move (h : Inv cooldownSeconds Known s) (move : Row.Move id s.row row)
    (own : PhaseInv cooldownSeconds Known s.now row id phase) :
    Inv cooldownSeconds Known { s.setPhase id phase with row } := by
  intro j
  change PhaseInv cooldownSeconds Known s.now row j (Function.update s.phase id phase j)
  by_cases hj : j = id
  · subst hj
    rwa [Function.update_self]
  · rw [Function.update_of_ne hj]
    exact PhaseInv.frame (h j) (Int.le_refl _) move hj

theorem Inv.mono (h : Inv cooldownSeconds Known s)
    (imp : ∀ peeked seen, peeked ≤ s.now → Known peeked seen → Known' peeked seen) :
    Inv cooldownSeconds Known' s := by
  intro id
  have hid := h id
  cases hphase : s.phase id <;> rw [hphase] at hid
  case allowed => exact ⟨hid.1, hid.2.1, imp _ _ hid.1 hid.2.2⟩
  case marking => exact ⟨hid.1, hid.2.1, imp _ _ (hid.1.1.trans hid.1.2) hid.2.2⟩
  case marked =>
    exact ⟨hid.1, ⟨hid.2.1.1, imp _ _ (hid.1.1.trans hid.1.2) hid.2.1.2⟩, hid.2.2⟩
  all_goals exact hid

/-- A handler that has not committed its mark and does not do so now. -/
theorem quiet_move (same : row.committed = s.row.committed) (before : (s.phase id).mark? = none)
    (after : phase.mark? = none) : Quiet s { s.setPhase id phase with row } := by
  refine ⟨Int.le_refl _, same, funext fun j => ?_⟩
  change (Function.update s.phase id phase j).mark? = (s.phase j).mark?
  by_cases hj : j = id
  · rw [hj, Function.update_self, before, after]
  · rw [Function.update_of_ne hj]

/-- The step of a handler that commits its mark. -/
def Commits (s : State) (a : Action) (t : State) : Prop :=
  ∃ id peeked seen now, a = .advance id ∧ s.phase id = .marked peeked seen now ∧
    t = { s.setPhase id (.sending now) with row := s.row.commit id }

theorem fail_spec (h : Inv cooldownSeconds Known s) (before : (s.phase id).mark? = none) :
    Inv cooldownSeconds Known (s.fail id) ∧ Quiet s (s.fail id) :=
  ⟨h.move .rollback (Row.not_lockedBy_rollback _ _),
    quiet_move (Row.rollback_committed _ _) before rfl⟩

theorem gate_spec {peeked : Int} {seen : Option (Option Int)}
    (h : Inv cooldownSeconds Known s) (before : (s.phase id).mark? = none)
    (hpeeked : peeked ≤ s.now) (known : Known peeked seen) :
    Inv cooldownSeconds Known (s.gate cooldownSeconds id peeked seen) ∧
      Quiet s (s.gate cooldownSeconds id peeked seen) := by
  rw [State.gate]
  cases hgate : peekSendCooldown seen.join cooldownSeconds peeked with
  | mk passes remaining =>
      cases passes with
      | true =>
          have hpassed := passed_iff.mp (congrArg Prod.fst hgate)
          exact ⟨h.move .stay ⟨hpeeked, hpassed, known⟩, quiet_move rfl before rfl⟩
      | false =>
          exact ⟨h.move .rollback (Row.not_lockedBy_rollback _ _),
            quiet_move (Row.rollback_committed _ _) before rfl⟩

/-- The next statement of a handler. What it peeks at is the committed row. -/
theorem advance_spec (h : Inv cooldownSeconds Known s)
    (known : ∀ peeked ≤ s.now, Known peeked s.row.committed)
    (hstep : advance cooldownSeconds s id (s.phase id) = some t) :
    Inv cooldownSeconds Known t ∧ (Quiet s t ∨ Commits s (.advance id) t) := by
  have hid := h id
  cases hphase : s.phase id <;> rw [hphase] at hid hstep <;>
    simp only [advance, reduceCtorEq] at hstep
  case begun =>
    obtain rfl := Option.some.inj hstep
    exact ⟨h.move .stay ⟨Int.le_refl _, hid⟩,
      .inl (quiet_move rfl (by rw [hphase]; rfl) rfl)⟩
  case peeking peeked =>
    have hvisible := Row.visible_of_not_lockedBy hid.2
    cases hrow : s.row.visible id with
    | none =>
        rw [hrow] at hstep
        obtain rfl := Option.some.inj hstep
        exact ⟨h.move .stay hid, .inl (quiet_move rfl (by rw [hphase]; rfl) rfl)⟩
    | some lastSendAt =>
        rw [hrow] at hstep
        obtain rfl := Option.some.inj hstep
        have hknown := known peeked hid.1
        rw [← hvisible, hrow] at hknown
        obtain ⟨hinv, hquiet⟩ := gate_spec h (by rw [hphase]; rfl) hid.1 hknown
        exact ⟨hinv, .inl hquiet⟩
  case creating peeked =>
    obtain ⟨⟨row, inserted⟩, hinsert, rfl⟩ := Option.map_eq_some_iff.mp hstep
    have hvisible := Row.visible_of_not_lockedBy hid.2
    obtain ⟨hfree, ⟨rfl, rfl, -⟩ | ⟨rfl, hnone, rfl⟩⟩ := Row.insert_cases hinsert
    · obtain ⟨hinv, hquiet⟩ := fail_spec h (by rw [hphase]; rfl)
      exact ⟨hinv, .inl hquiet⟩
    · have hknown := known peeked hid.1
      rw [← hvisible, hnone] at hknown
      have hpassed : Passed cooldownSeconds peeked none := fun last hlast => by cases hlast
      exact ⟨h.move (.write _ hfree) ⟨hid.1, hpassed, hknown⟩,
        .inl (quiet_move rfl (by rw [hphase]; rfl) rfl)⟩
  case allowed peeked seen =>
    obtain rfl := Option.some.inj hstep
    exact ⟨h.move .stay ⟨⟨hid.1, Int.le_refl _⟩, hid.2⟩,
      .inl (quiet_move rfl (by rw [hphase]; rfl) rfl)⟩
  case marking peeked seen now =>
    obtain ⟨⟨row, result⟩, hupdate, rfl⟩ := Option.map_eq_some_iff.mp hstep
    obtain ⟨hfree, ⟨rfl, rfl, -⟩ | ⟨found, v, -, hv, rfl, rfl⟩⟩ := Row.update_cases hupdate
    · obtain ⟨hinv, hquiet⟩ := fail_spec h (by rw [hphase]; rfl)
      exact ⟨hinv, .inl hquiet⟩
    · obtain rfl := Option.some.inj hv
      exact ⟨h.move (.write _ hfree) ⟨hid.1, hid.2, rfl⟩,
        .inl (quiet_move rfl (by rw [hphase]; rfl) rfl)⟩
  case marked peeked seen now =>
    obtain rfl := Option.some.inj hstep
    exact ⟨h.move .commit (Row.not_lockedBy_commit _ _),
      .inr ⟨id, peeked, seen, now, rfl, hphase, rfl⟩⟩

theorem step_spec (h : Inv cooldownSeconds Known s)
    (known : ∀ peeked ≤ s.now, Known peeked s.row.committed)
    (hstep : step cooldownSeconds s a = some t) :
    Inv cooldownSeconds Known t ∧ (Quiet s t ∨ Commits s a t) := by
  cases a with
  | tick microseconds =>
      obtain rfl := Option.some.inj hstep
      have hlater : s.now ≤ s.now + microseconds := by omega
      refine ⟨fun id => ?_, .inl ⟨hlater, rfl, rfl⟩⟩
      exact PhaseInv.frame (h id) hlater .stay (Nat.ne_of_lt (Nat.lt_succ_self id))
  | command id =>
      obtain ⟨hidle, hstep⟩ := Option.ite_none_right_eq_some.mp hstep
      obtain rfl := Option.some.inj hstep
      have hid := h id
      rw [hidle] at hid
      exact ⟨h.move .stay hid, .inl (quiet_move rfl (by rw [hidle]; rfl) rfl)⟩
  | advance id => exact advance_spec h known hstep
  | abort id =>
      obtain ⟨hopen, hstep⟩ := Option.ite_none_right_eq_some.mp hstep
      obtain rfl := Option.some.inj hstep
      have before : (s.phase id).mark? = none := by
        cases hphase : s.phase id <;> rw [hphase] at hopen <;> first | rfl | cases hopen
      obtain ⟨hinv, hquiet⟩ := fail_spec h before
      exact ⟨hinv, .inl hquiet⟩

theorem inv_initial (now : Int) (settings : Option (Option Int)) :
    Inv cooldownSeconds Known (.initial now settings) :=
  fun id => Row.not_lockedBy_settled settings id

/-- Committing a mark stores it and adds it to the marks. -/
theorem Commits.spec (h : Inv cooldownSeconds Known s) (hcommits : Commits s a t) :
    ∃ id peeked seen now, a = .advance id ∧ s.phase id = .marked peeked seen now ∧
      t.now = s.now ∧ t.row.committed = some (some now) ∧ t.mark? id = some now ∧
        ∀ j, j ≠ id → t.mark? j = s.mark? j := by
  obtain ⟨id, peeked, seen, now, rfl, hphase, rfl⟩ := hcommits
  have hid := h id
  rw [hphase] at hid
  refine ⟨id, peeked, seen, now, rfl, hphase, rfl, ?_, ?_, fun j hj => ?_⟩
  · change (s.row.commit id).committed = _
    rw [Row.commit_of_pending hid.2.2, Row.settled_committed]
  · change (Function.update s.phase id (.sending now) id).mark? = _
    rw [Function.update_self]
    rfl
  · change (Function.update s.phase id (.sending now) j).mark? = _
    rw [Function.update_of_ne hj]
    rfl

/-- No mark is taken back. -/
theorem mark_step (h : Inv cooldownSeconds (fun _ _ => True) s)
    (hstep : step cooldownSeconds s a = some t) {m : Int} (hmark : s.mark? j = some m) :
    t.mark? j = some m := by
  obtain ⟨-, hquiet | hcommits⟩ := step_spec h (fun _ _ => trivial) hstep
  · rwa [hquiet.mark]
  · obtain ⟨id, peeked, seen, now, rfl, hphase, -, -, -, hothers⟩ := hcommits.spec h
    rw [hothers j, hmark]
    rintro rfl
    rw [State.mark?, hphase] at hmark
    cases hmark

end Steps

/-! ## Fresh commits -/

section Runs

variable {cooldownSeconds : Int} {s t : State} {a : Action}

/-- As long as all commits are fresh: no mark is after the stored one, and all are apart. -/
structure Kept (cooldownSeconds : Int) (s : State) : Prop where
  inv : Inv cooldownSeconds (fun _ _ => True) s
  stored : ∀ j m, s.mark? j = some m → ∃ last, s.row.committed = some (some last) ∧ m ≤ last
  spaced : Spaced (cooldownSeconds * second) s.mark?

theorem Kept.step (h : Kept cooldownSeconds s) (pos : 0 < cooldownSeconds) (fresh : Fresh s a)
    (hstep : step cooldownSeconds s a = some t) : Kept cooldownSeconds t := by
  obtain ⟨hinv, hquiet | hcommits⟩ := step_spec h.inv (fun _ _ => trivial) hstep
  · refine ⟨hinv, ?_, ?_⟩
    · rw [hquiet.mark, hquiet.committed]
      exact h.stored
    · rw [hquiet.mark]
      exact h.spaced
  · obtain ⟨id, peeked, seen, now, rfl, hphase, -, hstored, hmark, hothers⟩ := hcommits.spec h.inv
    have hid := h.inv id
    rw [Fresh, hphase] at fresh
    rw [hphase] at hid
    obtain ⟨⟨hpeeked, -⟩, ⟨hpassed, -⟩, -⟩ := hid
    have hlate : ∀ j m, s.mark? j = some m → cooldownSeconds * second ≤ now - m := by
      intro j m hj
      obtain ⟨last, hlast, hle⟩ := h.stored j m hj
      have hgate := hpassed last (fresh ▸ hlast)
      omega
    have hpositive : 0 < cooldownSeconds * second := Int.mul_pos pos (by decide)
    refine ⟨hinv, fun j m hj => ⟨now, hstored, ?_⟩, ?_⟩
    · by_cases hne : j = id
      · rw [hne, hmark] at hj
        exact Int.le_of_eq (Option.some.inj hj).symm
      · rw [hothers j hne] at hj
        have hafter := hlate j m hj
        omega
    · apply h.spaced.of_late hlate (i := id)
      · intro j m hne hj
        rwa [hothers j hne] at hj
      · intro m hj
        rw [hmark] at hj
        exact (Option.some.inj hj).symm

theorem kept_initial (now : Int) (settings : Option (Option Int)) :
    Kept cooldownSeconds (.initial now settings) :=
  ⟨inv_initial now settings, fun j m hj => (by cases hj), fun i j m n _ hm => (by cases hm)⟩

/-- What a handler has found is still stored, or a mark has been committed since then, by a
handler that did not take long. -/
def Recent (cooldownSeconds : Int) (s : State) (peeked : Int)
    (seen : Option (Option Int)) : Prop :=
  s.row.committed = seen ∨ ∃ j m, s.mark? j = some m ∧
    2 * (peeked - m) < cooldownSeconds * second ∧ m ≤ s.now

theorem recent_step (h : Inv cooldownSeconds (Recent cooldownSeconds s) s)
    (prompt : Prompt cooldownSeconds s a) (hstep : step cooldownSeconds s a = some t) :
    Inv cooldownSeconds (Recent cooldownSeconds t) t := by
  obtain ⟨hinv, hquiet | hcommits⟩ := step_spec h (fun _ _ => .inl rfl) hstep
  · refine hinv.mono fun peeked seen _ hrecent => ?_
    obtain hsame | ⟨j, m, hmark, hclose, hle⟩ := hrecent
    · exact .inl (hquiet.committed.trans hsame)
    · exact .inr ⟨j, m, by rwa [hquiet.mark], hclose, hle.trans hquiet.now⟩
  · obtain ⟨id, peeked', seen', now, rfl, hphase, htime, -, hmark, hothers⟩ := hcommits.spec h
    have hid := h id
    rw [Prompt, hphase] at prompt
    rw [hphase] at hid
    obtain ⟨⟨hpeeked', hnow⟩, -⟩ := hid
    refine hinv.mono fun peeked seen hpeeked hrecent => ?_
    obtain - | ⟨j, m, hj, hclose, hle⟩ := hrecent
    · exact .inr ⟨id, now, hmark, by omega, by omega⟩
    · have hne : j ≠ id := by
        rintro rfl
        rw [State.mark?, hphase] at hj
        cases hj
      exact .inr ⟨j, m, by rwa [hothers j hne], hclose, by omega⟩

theorem fresh_or_commits (hstep : step cooldownSeconds s a = some t) :
    Fresh s a ∨ Commits s a t := by
  cases a with
  | advance id =>
      rw [Fresh]
      cases hphase : s.phase id with
      | marked peeked seen now =>
          rw [step, hphase] at hstep
          obtain rfl := Option.some.inj hstep
          exact .inr ⟨id, peeked, seen, now, rfl, hphase, rfl⟩
      | _ => exact .inl trivial
  | _ => exact .inl trivial

/-- A commit that is not fresh, by a handler that does not take long either, is too close to
a mark that has been committed in between. -/
theorem fresh_of_spaced (h : Inv cooldownSeconds (Recent cooldownSeconds s) s)
    (prompt : Prompt cooldownSeconds s a) (hstep : step cooldownSeconds s a = some t)
    (spaced : Spaced (cooldownSeconds * second) t.mark?) : Fresh s a := by
  obtain hfresh | hcommits := fresh_or_commits hstep
  · exact hfresh
  · obtain ⟨id, peeked, seen, now, rfl, hphase, -, -, hmark, hothers⟩ := hcommits.spec h
    have hid := h id
    rw [Prompt, hphase] at prompt
    rw [hphase] at hid
    rw [Fresh, hphase]
    obtain ⟨⟨hpeeked, hnow⟩, ⟨-, hsame | ⟨j, m, hj, hclose, hle⟩⟩, -⟩ := hid
    · exact hsame
    · have hne : j ≠ id := by
        rintro rfl
        rw [State.mark?, hphase] at hj
        cases hj
      have hapart := spaced id j now m hne.symm hmark (by rwa [hothers j hne])
      have hnear : |now - m| < cooldownSeconds * second := by
        rw [abs_lt]
        constructor <;> omega
      omega

/-- Marks that are apart at the end have been apart all along. -/
theorem spaced_of_run {run : List Action} (h : Inv cooldownSeconds (fun _ _ => True) s)
    (hrun : exec (step cooldownSeconds) s run = some t)
    (spaced : Spaced (cooldownSeconds * second) t.mark?) :
    Spaced (cooldownSeconds * second) s.mark? := by
  refine spaced.of_subset fun j m hmark => ?_
  have hkept := exec_invariant (I := fun s => Inv cooldownSeconds (fun _ _ => True) s ∧
    s.mark? j = some m) (fun s a t h hstep => by
      obtain ⟨hinv, hm⟩ := h
      exact ⟨(step_spec hinv (fun _ _ => trivial) hstep).1, mark_step hinv hstep hm⟩)
    ⟨h, hmark⟩ hrun
  exact hkept.2

theorem meets_fresh_of_spaced {run : List Action}
    (h : Inv cooldownSeconds (Recent cooldownSeconds s) s)
    (hrun : exec (step cooldownSeconds) s run = some t)
    (prompt : Meets (step cooldownSeconds) (Prompt cooldownSeconds) s run)
    (spaced : Spaced (cooldownSeconds * second) t.mark?) :
    Meets (step cooldownSeconds) Fresh s run := by
  have hneeds : ∀ s a m rest t, Inv cooldownSeconds (Recent cooldownSeconds s) s →
      Prompt cooldownSeconds s a → step cooldownSeconds s a = some m →
        exec (step cooldownSeconds) m rest = some t →
          Spaced (cooldownSeconds * second) t.mark? → Fresh s a := by
    intro s a m rest t hinv hprompt hstep hrest hspaced
    have hlater := (recent_step hinv hprompt hstep).mono fun _ _ _ _ => trivial
    exact fresh_of_spaced hinv hprompt hstep (spaced_of_run hlater hrest hspaced)
  exact meets_of_final (fun s a t => recent_step) hneeds h prompt hrun spaced

end Runs

/-- If every handler that commits its mark commits it over the value it has peeked at, then any
two handlers that were allowed have marked their use at least the cooldown apart, and at most
one of them in any shorter window. Where no handler takes half the cooldown from its peek to
its commit, this is also necessary. -/
theorem sends_spaced_of_fresh (cooldownSeconds : Int) (pos : 0 < cooldownSeconds) (now : Int)
    (settings : Option (Option Int)) (run : List Action) (t : State)
    (hrun : exec (step cooldownSeconds) (.initial now settings) run = some t) :
    (Meets (step cooldownSeconds) Fresh (.initial now settings) run →
      Spaced (cooldownSeconds * second) t.mark? ∧
        ∀ start width i j a b, width < cooldownSeconds * second → t.mark? i = some a →
          t.mark? j = some b → (start ≤ a ∧ a ≤ start + width) →
            (start ≤ b ∧ b ≤ start + width) → i = j) ∧
      (Meets (step cooldownSeconds) (Prompt cooldownSeconds) (.initial now settings) run →
        Spaced (cooldownSeconds * second) t.mark? →
          Meets (step cooldownSeconds) Fresh (.initial now settings) run) := by
  constructor
  · intro fresh
    have hkept : Kept cooldownSeconds t := exec_invariant_of_meets
      (fun s a t h hfresh hstep => h.step pos hfresh hstep) (kept_initial now settings) fresh hrun
    refine ⟨hkept.spaced, fun start width i j a b hshort hi hj ha hb => ?_⟩
    exact hkept.spaced.eq_of_window hshort hi hj ha hb
  · intro prompt spaced
    exact meets_fresh_of_spaced (inv_initial now settings) hrun prompt spaced

/-- Two handlers, one after the other and with the cooldown in between. -/
def patientRun : List Action :=
  [.command 1, .advance 1, .advance 1, .advance 1, .advance 1, .advance 1, .tick 600000000,
    .command 2, .advance 2, .advance 2, .advance 2, .advance 2, .advance 2]

/-- The second handler peeks before the first one has committed its mark. -/
def doubleRun : List Action :=
  [.command 1, .advance 1, .advance 1, .command 2, .advance 2, .advance 2, .advance 1, .advance 1,
    .advance 1, .tick 1, .advance 2, .advance 2, .advance 2]

theorem patientRun_spaced : ∃ t,
    exec (step 600) (.initial 5000000 (some none)) patientRun = some t ∧
      t.mark? 1 = some 5000000 ∧ t.mark? 2 = some 605000000 ∧
        Spaced (600 * second) t.mark? := by
  have hmarks : (exec (step 600) (.initial 5000000 (some none)) patientRun).map
      (fun t => (t.mark? 1, t.mark? 2)) = some (some 5000000, some 605000000) := by
    decide +kernel
  obtain ⟨t, hrun, hpair⟩ := Option.map_eq_some_iff.mp hmarks
  obtain ⟨hfirst, hsecond⟩ := Prod.mk.inj hpair
  exact ⟨t, hrun, hfirst, hsecond,
    ((sends_spaced_of_fresh 600 (by decide) 5000000 (some none) patientRun t hrun).1
      (by decide +kernel)).1⟩

/-- Both of them send. -/
theorem doubleRun_not_spaced : ∃ t,
    exec (step 600) (.initial 5000000 (some none)) doubleRun = some t ∧
      t.mark? 1 = some 5000000 ∧ t.mark? 2 = some 5000001 ∧
        ¬ Spaced (600 * second) t.mark? := by
  have hmarks : (exec (step 600) (.initial 5000000 (some none)) doubleRun).map
      (fun t => (t.mark? 1, t.mark? 2)) = some (some 5000000, some 5000001) := by
    decide +kernel
  obtain ⟨t, hrun, hpair⟩ := Option.map_eq_some_iff.mp hmarks
  obtain ⟨hfirst, hsecond⟩ := Prod.mk.inj hpair
  refine ⟨t, hrun, hfirst, hsecond, fun h => ?_⟩
  exact absurd (h 1 2 5000000 5000001 (by decide) hfirst hsecond) (by decide)

end UserTgBot.SendCooldown
