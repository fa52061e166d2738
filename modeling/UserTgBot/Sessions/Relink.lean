import UserTgBot.Db.Queries
import UserTgBot.Library.Transition

/-!
# Re-linking an account while the old worker dies

`save_session` upserts onto the row of the (user, phone) pair: it loads the row,
stores the new ciphertext with `is_active = True` and commits.
`_mark_session_dead` runs `deactivate_session` with the ciphertext the worker was
started with: it loads the row, compares the ciphertexts in Python, and only then
sets `is_active = False` and commits. Both flush only the columns they changed.

`step` interleaves the two transactions statement by statement. A transaction that
selects while the other one is between its own select and its commit reads a row
that is about to change, and its flush cannot repair that: the re-link does not
write `is_active` when it read `True`. `relink_survives_death_iff` says exactly when
the re-linked session survives.
-/

namespace UserTgBot.Relink

open ReadCommitted Transition

/-- The management process saving a new session, and the worker of the old one. -/
inductive Tx where
  | relink
  | death
deriving DecidableEq, Repr

def Tx.other : Tx → Tx
  | .relink => .death
  | .death => .relink

/-- How far a transaction has come; `selected` holds the row it loaded. -/
inductive Phase where
  | idle
  | selected (seen : Session)
  | flushed
  | committed
deriving DecidableEq, Repr

/-- Between its first statement and its commit. -/
def Phase.IsOpen : Phase → Prop
  | .selected _ => True
  | .flushed => True
  | _ => False

/-- The shared row and the progress of both transactions. -/
structure World where
  row : Row Tx Session
  phase : Tx → Phase

def World.advance (w : World) (t : Tx) (row : Row Tx Session) (phase : Phase) : World :=
  { row := row, phase := Function.update w.phase t phase }

/-- The edited copy of the loaded row that the transaction flushes. A mismatch of the
ciphertext makes `deactivate_session` return before it edits anything. -/
def edited (new old : Bytes) (seen : Session) : Tx → Session
  | .relink => saveSession new seen
  | .death => (deactivateSession (some old) seen).getD seen

/-- The next statement of one transaction. -/
def step (new old : Bytes) (w : World) (t : Tx) : Option World :=
  match w.phase t with
  | .idle => (w.row.visible t).map fun seen => w.advance t w.row (.selected seen)
  | .selected seen =>
      (flushSession w.row t seen (edited new old seen t)).map fun row =>
        w.advance t row .flushed
  | .flushed => some (w.advance t (w.row.commit t) .committed)
  | .committed => none

/-- The row before either transaction has started. -/
def start (row : Session) : World where
  row := .settled (some row)
  phase := fun _ => .idle

/-- Both transactions have committed. -/
def World.Done (w : World) : Prop := ∀ t, w.phase t = .committed

/-- The row holds the new ciphertext and is active. -/
def World.Linked (w : World) (new : Bytes) : Prop :=
  w.row.committed = some { encryptedSession := new, isActive := true }

/-- The step is not a select issued while the other transaction is open. -/
def SelectsAlone (w : World) (t : Tx) : Prop :=
  w.phase t = .idle → ¬ (w.phase t.other).IsOpen

namespace World

@[simp] theorem advance_row (w : World) (t : Tx) (row : Row Tx Session) (phase : Phase) :
    (w.advance t row phase).row = row := rfl

@[simp] theorem advance_phase_same (w : World) (t : Tx) (row : Row Tx Session)
    (phase : Phase) : (w.advance t row phase).phase t = phase := by
  simp [advance]

theorem advance_phase_ne (w : World) {t t' : Tx} (row : Row Tx Session) (phase : Phase)
    (h : t' ≠ t) : (w.advance t row phase).phase t' = w.phase t' := by
  simp [advance, h]

end World

theorem Tx.other_ne (t : Tx) : t.other ≠ t := by
  cases t <;> decide

theorem Tx.eq_or_eq_other (t t' : Tx) : t' = t ∨ t' = t.other := by
  cases t <;> cases t' <;> decide

/-- Everything a step can do, one disjunct for each statement. -/
theorem step_cases {new old : Bytes} {w w' : World} {t : Tx}
    (h : step new old w t = some w') :
    (w.phase t = .idle ∧ ∃ seen, w.row.visible t = some seen ∧
      w' = w.advance t w.row (.selected seen)) ∨
    (∃ seen row, w.phase t = .selected seen ∧
      flushSession w.row t seen (edited new old seen t) = some row ∧
      w' = w.advance t row .flushed) ∨
    (w.phase t = .flushed ∧ w' = w.advance t (w.row.commit t) .committed) := by
  rw [step] at h
  cases hp : w.phase t with
  | idle =>
      simp only [hp, Option.map_eq_some_iff] at h
      obtain ⟨seen, hseen, rfl⟩ := h
      exact .inl ⟨rfl, seen, hseen, rfl⟩
  | selected seen =>
      simp only [hp, Option.map_eq_some_iff] at h
      obtain ⟨row, hrow, rfl⟩ := h
      exact .inr (.inl ⟨seen, row, rfl, hrow, rfl⟩)
  | flushed =>
      simp only [hp, Option.some.injEq] at h
      exact .inr (.inr ⟨rfl, h.symm⟩)
  | committed => simp [hp] at h

/-! ## One transaction running on its own -/

/-- The row after transaction `t` flushed `copy` over the committed `base`. -/
def Flushed (base copy : Session) (t : Tx) (row : Row Tx Session) : Prop :=
  (copy = base ∧ row = .settled (some base)) ∨
    row = { committed := some base, pending := some (t, copy) }

/-- Transaction `t` has worked on `base` alone: nobody else has written since. -/
def Alone (new old : Bytes) (base : Session) (t : Tx) (w : World) : Prop :=
  match w.phase t with
  | .idle => w.row = .settled (some base)
  | .selected seen => seen = base ∧ w.row = .settled (some base)
  | .flushed => Flushed base (edited new old base t) t w.row
  | .committed => w.row = .settled (some (edited new old base t))

theorem flushed_of_flushSession {t : Tx} {base copy : Session} {row : Row Tx Session}
    (h : flushSession (.settled (some base)) t base copy = some row) :
    Flushed base copy t row := by
  obtain ⟨hempty, rfl⟩ | ⟨_, seen, hseen, rfl⟩ | ⟨hnone, _⟩ := flushSession_cases h
  · refine .inl ⟨?_, rfl⟩
    rw [← SessionPatch.between_apply base copy, SessionPatch.apply_of_isEmpty hempty]
  · obtain rfl : base = seen := by simpa [Row.visible, Row.settled] using hseen
    rw [SessionPatch.between_apply]
    exact .inr rfl
  · simp [Row.visible, Row.settled] at hnone

theorem Flushed.commit {t : Tx} {base copy : Session} {row : Row Tx Session}
    (h : Flushed base copy t row) : row.commit t = .settled (some copy) := by
  obtain ⟨rfl, rfl⟩ | rfl := h
  · rfl
  · simp [Row.commit]

theorem Alone.step {new old : Bytes} {base : Session} {t : Tx} {w w' : World}
    (h : Alone new old base t w) (hstep : step new old w t = some w') :
    Alone new old base t w' := by
  obtain ⟨hp, seen, hseen, rfl⟩ | ⟨seen, row, hp, hflush, rfl⟩ | ⟨hp, rfl⟩ := step_cases hstep
  · have hrow : w.row = .settled (some base) := by simpa [Alone, hp] using h
    have hbase : base = seen := by simpa [hrow, Row.visible, Row.settled] using hseen
    simp [Alone, hrow, hbase]
  · obtain ⟨rfl, hrow⟩ : seen = base ∧ w.row = .settled (some base) := by
      simpa [Alone, hp] using h
    rw [hrow] at hflush
    simpa [Alone] using flushed_of_flushSession hflush
  · have hrow : Flushed base (edited new old base t) t w.row := by
      simpa [Alone, hp] using h
    simpa [Alone] using hrow.commit

/-- Steps of one transaction leave the phase of the other alone. -/
theorem step_phase_other {new old : Bytes} {w w' : World} {t t' : Tx}
    (hstep : step new old w t = some w') (hne : t' ≠ t) : w'.phase t' = w.phase t' := by
  rcases step_cases hstep with ⟨_, _, _, rfl⟩ | ⟨_, _, _, _, rfl⟩ | ⟨_, rfl⟩ <;>
    exact World.advance_phase_ne _ _ _ hne

/-! ## The serial regime -/

/-- So far the transactions ran one after the other: `t` is the last to have started. -/
def Serial (new old : Bytes) (row : Session) (w : World) : Prop :=
  ∃ t : Tx, (w.phase t.other = .idle ∧ Alone new old row t w) ∨
    (w.phase t.other = .committed ∧ Alone new old (edited new old row t.other) t w)

theorem serial_start (new old : Bytes) (row : Session) :
    Serial new old row (start row) := by
  exact ⟨.relink, .inl ⟨rfl, rfl⟩⟩

@[simp] theorem Tx.other_other (t : Tx) : t.other.other = t := by
  cases t <;> rfl

theorem Serial.step {new old : Bytes} {row : Session} {w w' : World} {a : Tx}
    (h : Serial new old row w) (alone : SelectsAlone w a)
    (hstep : step new old w a = some w') : Serial new old row w' := by
  obtain ⟨t, ⟨hidle, hrun⟩ | ⟨hdone, hrun⟩⟩ := h
  · obtain rfl | rfl := t.eq_or_eq_other a
    · exact ⟨a, .inl ⟨(step_phase_other hstep a.other_ne).trans hidle, hrun.step hstep⟩⟩
    · -- The second transaction starts, so the first has not started or has committed.
      have hclosed := alone hidle
      rw [Tx.other_other] at hclosed
      have hphase : w'.phase t = w.phase t :=
        step_phase_other hstep t.other_ne.symm
      refine ⟨t.other, ?_⟩
      rw [Tx.other_other, hphase]
      cases hp : w.phase t with
      | idle =>
          have hrow : Alone new old row t.other w := by
            simpa [Alone, hidle, hp] using hrun
          exact .inl ⟨rfl, hrow.step hstep⟩
      | committed =>
          have hrow : Alone new old (edited new old row t) t.other w := by
            simpa [Alone, hidle, hp] using hrun
          exact .inr ⟨rfl, hrow.step hstep⟩
      | selected seen => exact absurd (by rw [hp]; trivial) hclosed
      | flushed => exact absurd (by rw [hp]; trivial) hclosed
  · obtain rfl | rfl := t.eq_or_eq_other a
    · exact ⟨a, .inr ⟨(step_phase_other hstep a.other_ne).trans hdone, hrun.step hstep⟩⟩
    · simp [Relink.step, hdone] at hstep

/-- Whichever transaction ran first, a serial run leaves the re-linked session. -/
theorem Serial.linked {new old : Bytes} {row : Session} {w : World} (hne : new ≠ old)
    (h : Serial new old row w) (done : w.Done) : w.Linked new := by
  obtain ⟨t, ⟨hidle, _⟩ | ⟨_, hrun⟩⟩ := h
  · simp [done t.other] at hidle
  · have hrow : w.row = .settled (some (edited new old (edited new old row t.other) t)) := by
      simpa [Alone, done t] using hrun
    rw [World.Linked, hrow]
    cases t with
    | relink => rfl
    | death => simp [Tx.other, edited, saveSession, deactivateSession, hne]

/-! ## The overlapping regime -/

/-- The columns `t` writes after having read `row`. -/
def patch (new old : Bytes) (row : Session) (t : Tx) : SessionPatch :=
  .between row (edited new old row t)

/-- What is committed when both transactions read `row`, given who has committed. -/
def merged (new old : Bytes) (row : Session) (w : World) : Session :=
  let afterDeath :=
    if w.phase .death = .committed then (patch new old row .death).apply row else row
  if w.phase .relink = .committed then (patch new old row .relink).apply afterDeath
  else afterDeath

/-- Both transactions read `row`; neither reads again. -/
structure Overlapped (new old : Bytes) (row : Session) (w : World) : Prop where
  committed : w.row.committed = some (merged new old row w)
  started : ∀ t, w.phase t ≠ .idle
  seen : ∀ t seen, w.phase t = .selected seen → seen = row
  unlocked : ∀ t, w.phase t ≠ .flushed → ¬ w.row.LockedBy t
  flushed : ∀ t, w.phase t = .flushed →
    ((patch new old row t).IsEmpty ∧ ¬ w.row.LockedBy t) ∨
      w.row.pending = some (t, (patch new old row t).apply (merged new old row w))

/-- The two flushes write disjoint columns, so their order does not matter. -/
theorem patch_comm (new old : Bytes) (row : Session) :
    (patch new old row .death).apply ((patch new old row .relink).apply row) =
      (patch new old row .relink).apply ((patch new old row .death).apply row) := by
  obtain ⟨blob, active⟩ := row
  by_cases hold : blob = old
  · cases active <;> simp [patch, edited, saveSession, deactivateSession,
      SessionPatch.between, SessionPatch.apply, hold]
  · simp [patch, edited, deactivateSession, SessionPatch.between, SessionPatch.apply, hold]

theorem merged_commit {new old : Bytes} {row : Session} {w : World} {t : Tx}
    {r : Row Tx Session} (hp : w.phase t ≠ .committed) :
    merged new old row (w.advance t r .committed) =
      (patch new old row t).apply (merged new old row w) := by
  cases t with
  | relink =>
      have hother : (w.advance .relink r .committed).phase .death = w.phase .death :=
        w.advance_phase_ne r .committed (by decide)
      simp [merged, hother, hp]
  | death =>
      have hother : (w.advance .death r .committed).phase .relink = w.phase .relink :=
        w.advance_phase_ne r .committed (by decide)
      by_cases hr : w.phase .relink = .committed
      · simp [merged, hother, hp, hr, patch_comm]
      · simp [merged, hother, hp, hr]

theorem merged_advance {new old : Bytes} {row : Session} {w : World} {t : Tx}
    {r : Row Tx Session} {phase : Phase} (hp : w.phase t ≠ .committed)
    (hphase : phase ≠ .committed) :
    merged new old row (w.advance t r phase) = merged new old row w := by
  cases t with
  | relink =>
      have hother : (w.advance .relink r phase).phase .death = w.phase .death :=
        w.advance_phase_ne r phase (by decide)
      simp [merged, hother, hp, hphase]
  | death =>
      have hother : (w.advance .death r phase).phase .relink = w.phase .relink :=
        w.advance_phase_ne r phase (by decide)
      simp [merged, hother, hp, hphase]

/-- Once both transactions have read, moving on never takes one back before its read. -/
theorem Overlapped.started_advance {new old : Bytes} {row : Session} {w : World} {t : Tx}
    {r : Row Tx Session} {phase : Phase} (h : Overlapped new old row w)
    (hphase : phase ≠ .idle) (t' : Tx) : (w.advance t r phase).phase t' ≠ .idle := by
  by_cases ht : t' = t
  · simpa [ht] using hphase
  · rw [w.advance_phase_ne _ _ ht]
    exact h.started t'

theorem Overlapped.seen_advance {new old : Bytes} {row : Session} {w : World} {t : Tx}
    {r : Row Tx Session} {phase : Phase} (h : Overlapped new old row w)
    (hphase : ∀ seen, phase ≠ .selected seen) (t' : Tx) (seen : Session)
    (hs : (w.advance t r phase).phase t' = .selected seen) : seen = row := by
  by_cases ht : t' = t
  · rw [ht, World.advance_phase_same] at hs
    exact absurd hs (hphase seen)
  · rw [w.advance_phase_ne _ _ ht] at hs
    exact h.seen t' seen hs

theorem Overlapped.flush {new old : Bytes} {row : Session} {w : World} {t : Tx}
    {r : Row Tx Session} (h : Overlapped new old row w) (hp : w.phase t = .selected row)
    (hflush : flushSession w.row t row (edited new old row t) = some r) :
    Overlapped new old row (w.advance t r .flushed) := by
  have hmerged : merged new old row (w.advance t r .flushed) = merged new old row w :=
    merged_advance (by simp [hp]) (by simp)
  have hfree : ¬ w.row.LockedBy t := h.unlocked t (by simp [hp])
  have hvisible := (Row.visible_of_not_lockedBy hfree).trans h.committed
  have hstarted : ∀ t', (w.advance t r .flushed).phase t' ≠ .idle :=
    h.started_advance (by simp)
  have hseen : ∀ t' seen, (w.advance t r .flushed).phase t' = .selected seen → seen = row :=
    h.seen_advance (by simp)
  obtain ⟨hempty, rfl⟩ | ⟨hblocks, seen, hs, rfl⟩ | ⟨hnone, _⟩ := flushSession_cases hflush
  · refine ⟨by rw [hmerged]; exact h.committed, hstarted, hseen, ?_, ?_⟩
    · intro t' hne
      have ht : t' ≠ t := fun ht => hne (by rw [ht]; simp)
      rw [w.advance_phase_ne _ _ ht] at hne
      exact h.unlocked t' hne
    · intro t' hf
      by_cases ht : t' = t
      · exact .inl ⟨by rw [ht]; exact hempty, by rw [ht]; exact hfree⟩
      · rw [w.advance_phase_ne _ _ ht] at hf
        rw [hmerged]
        exact h.flushed t' hf
  · obtain rfl : merged new old row w = seen := Option.some.inj (hvisible.symm.trans hs)
    refine ⟨by rw [hmerged]; exact h.committed, hstarted, hseen, ?_, ?_⟩
    · intro t' hne
      have ht : t' ≠ t := fun ht => hne (by rw [ht]; simp)
      exact Row.not_lockedBy_of_pending rfl ht
    · intro t' hf
      rw [hmerged]
      by_cases ht : t' = t
      · rw [ht]
        exact .inr rfl
      · -- The row lock was free, so the other flush had nothing to write.
        rw [w.advance_phase_ne _ _ ht] at hf
        obtain ⟨hempty, _⟩ | hpending := h.flushed t' hf
        · exact .inl ⟨hempty, Row.not_lockedBy_of_pending rfl ht⟩
        · exact absurd (Row.blocks_eq_false_iff.mp hblocks _ _ hpending) ht
  · simp [hnone] at hvisible

theorem Overlapped.commit {new old : Bytes} {row : Session} {w : World} {t : Tx}
    (h : Overlapped new old row w) (hp : w.phase t = .flushed) :
    Overlapped new old row (w.advance t (w.row.commit t) .committed) := by
  have hmerged : merged new old row (w.advance t (w.row.commit t) .committed) =
      (patch new old row t).apply (merged new old row w) :=
    merged_commit (by simp [hp])
  have hstarted : ∀ t', (w.advance t (w.row.commit t) .committed).phase t' ≠ .idle :=
    h.started_advance (by simp)
  have hseen : ∀ t' seen,
      (w.advance t (w.row.commit t) .committed).phase t' = .selected seen → seen = row :=
    h.seen_advance (by simp)
  obtain ⟨hempty, hfree⟩ | hpending := h.flushed t hp
  · have hsame := Row.commit_of_not_lockedBy hfree
    rw [SessionPatch.apply_of_isEmpty hempty] at hmerged
    refine ⟨by rw [hmerged, World.advance_row, hsame]; exact h.committed,
      hstarted, hseen, ?_, ?_⟩
    · intro t' hne
      rw [World.advance_row, hsame]
      by_cases ht : t' = t
      · rw [ht]
        exact hfree
      · rw [w.advance_phase_ne _ _ ht] at hne
        exact h.unlocked t' hne
    · intro t' hf
      have ht : t' ≠ t := fun ht => by simp [ht] at hf
      rw [w.advance_phase_ne _ _ ht] at hf
      rw [hmerged, World.advance_row, hsame]
      exact h.flushed t' hf
  · have hsettled := Row.commit_of_pending hpending
    refine ⟨by rw [hmerged, World.advance_row, hsettled]; rfl, hstarted, hseen, ?_, ?_⟩
    · intro t' _
      rw [World.advance_row, hsettled]
      exact Row.not_lockedBy_settled _ t'
    · intro t' hf
      have ht : t' ≠ t := fun ht => by simp [ht] at hf
      rw [w.advance_phase_ne _ _ ht] at hf
      obtain ⟨hempty, _⟩ | hpending' := h.flushed t' hf
      · refine .inl ⟨hempty, ?_⟩
        rw [World.advance_row, hsettled]
        exact Row.not_lockedBy_settled _ t'
      · exact absurd (congrArg Prod.fst (Option.some.inj (hpending'.symm.trans hpending))) ht

theorem Overlapped.step {new old : Bytes} {row : Session} {w w' : World} {t : Tx}
    (h : Overlapped new old row w) (hstep : step new old w t = some w') :
    Overlapped new old row w' := by
  obtain ⟨hp, _⟩ | ⟨seen, r, hp, hflush, rfl⟩ | ⟨hp, rfl⟩ := step_cases hstep
  · exact absurd hp (h.started t)
  · obtain rfl := h.seen t seen hp
    exact h.flush hp hflush
  · exact h.commit hp

/-- A transaction that is open and alone has not published anything, and holds the
row lock only after a flush with something to write. -/
theorem Alone.of_isOpen {new old : Bytes} {base : Session} {t : Tx} {w : World}
    (h : Alone new old base t w) (hopen : (w.phase t).IsOpen) :
    w.row.committed = some base ∧
      (∀ t', t' ≠ t → ¬ w.row.LockedBy t') ∧
      ((w.phase t = .selected base ∧ ¬ w.row.LockedBy t) ∨
        (w.phase t = .flushed ∧ Flushed base (edited new old base t) t w.row)) := by
  cases hp : w.phase t with
  | idle => simp [hp, Phase.IsOpen] at hopen
  | committed => simp [hp, Phase.IsOpen] at hopen
  | selected seen =>
      obtain ⟨rfl, hrow⟩ : seen = base ∧ w.row = .settled (some base) := by
        simpa [Alone, hp] using h
      rw [hrow]
      exact ⟨rfl, fun t' _ => Row.not_lockedBy_settled _ t',
        .inl ⟨rfl, Row.not_lockedBy_settled _ t⟩⟩
  | flushed =>
      have hflushed : Flushed base (edited new old base t) t w.row := by
        simpa [Alone, hp] using h
      refine ⟨?_, ?_, .inr ⟨rfl, hflushed⟩⟩
      · obtain ⟨_, hrow⟩ | hrow := hflushed
        · rw [hrow, Row.settled_committed]
        · rw [hrow]
      · intro t' hne
        rcases hflushed with ⟨_, hrow⟩ | hrow <;> rw [hrow]
        · exact Row.not_lockedBy_settled _ t'
        · exact Row.not_lockedBy_of_pending rfl hne

/-- A select issued while the other transaction is open starts the overlap. -/
theorem Alone.overlap {new old : Bytes} {row seen : Session} {w : World} {a : Tx}
    (h : Alone new old row a.other w) (hidle : w.phase a = .idle)
    (hopen : (w.phase a.other).IsOpen) (hseen : w.row.visible a = some seen) :
    Overlapped new old row (w.advance a w.row (.selected seen)) := by
  obtain ⟨hcommitted, hfree, hphase⟩ := h.of_isOpen hopen
  have ha : ¬ w.row.LockedBy a := hfree a a.other_ne.symm
  obtain rfl : row = seen := by
    rw [Row.visible_of_not_lockedBy ha, hcommitted] at hseen
    exact Option.some.inj hseen
  have hother : (w.advance a w.row (.selected row)).phase a.other = w.phase a.other :=
    w.advance_phase_ne _ _ a.other_ne
  have hmerged : merged new old row (w.advance a w.row (.selected row)) = row := by
    have hnot : w.phase a.other ≠ .committed := fun hc => by
      rw [hc] at hopen
      exact hopen
    rw [merged_advance (by simp [hidle]) (by simp)]
    cases a <;> simp_all [merged, Tx.other]
  refine ⟨by rw [hmerged]; exact hcommitted, ?_, ?_, ?_, ?_⟩
  · intro t'
    obtain rfl | rfl := a.eq_or_eq_other t'
    · simp
    · rw [hother]
      rcases hphase with ⟨hp, _⟩ | ⟨hp, _⟩ <;> simp [hp]
  · intro t' s hs
    obtain rfl | rfl := a.eq_or_eq_other t'
    · simpa using hs.symm
    · rw [hother] at hs
      obtain ⟨hp, _⟩ | ⟨hp, _⟩ := hphase
      · simpa [hp] using hs.symm
      · simp [hp] at hs
  · intro t' hne
    obtain rfl | rfl := a.eq_or_eq_other t'
    · exact ha
    · rw [hother] at hne
      obtain ⟨_, hlock⟩ | ⟨hp, _⟩ := hphase
      · exact hlock
      · exact absurd hp hne
  · intro t' hf
    obtain rfl | rfl := a.eq_or_eq_other t'
    · simp at hf
    · rw [hother] at hf
      rw [hmerged, World.advance_row]
      obtain ⟨hp, _⟩ | ⟨_, hflushed⟩ := hphase
      · simp [hp] at hf
      · obtain ⟨hcopy, hrow⟩ | hrow := hflushed
        · refine .inl ⟨by simp [patch, hcopy, SessionPatch.between, SessionPatch.IsEmpty], ?_⟩
          rw [hrow]
          exact Row.not_lockedBy_settled _ _
        · rw [hrow, patch, SessionPatch.between_apply]
          exact .inr rfl

theorem Serial.overlap {new old : Bytes} {row : Session} {w w' : World} {a : Tx}
    (h : Serial new old row w) (overlap : ¬ SelectsAlone w a)
    (hstep : Relink.step new old w a = some w') : Overlapped new old row w' := by
  simp only [SelectsAlone, Classical.not_imp, not_not] at overlap
  obtain ⟨hidle, hopen⟩ := overlap
  obtain ⟨seen, hseen, rfl⟩ : ∃ seen, w.row.visible a = some seen ∧
      w' = w.advance a w.row (.selected seen) := by
    obtain ⟨_, hselect⟩ | ⟨_, _, hp, _⟩ | ⟨hp, _⟩ := step_cases hstep
    · exact hselect
    · simp [hidle] at hp
    · simp [hidle] at hp
  obtain ⟨t, ⟨htidle, hrun⟩ | ⟨hdone, _⟩⟩ := h
  · obtain rfl | rfl := t.eq_or_eq_other a
    · rw [htidle] at hopen
      exact hopen.elim
    · rw [Tx.other_other] at hopen
      refine Alone.overlap ?_ hidle ?_ hseen <;> rwa [Tx.other_other]
  · obtain rfl | rfl := t.eq_or_eq_other a
    · rw [hdone] at hopen
      exact hopen.elim
    · simp [hdone] at hidle

/-- After an overlap the re-linked session is active only when the death had nothing
to write: its ciphertext was not the stored one, or the row was inactive anyway. -/
theorem Overlapped.linked_iff {new old : Bytes} {row : Session} {w : World}
    (h : Overlapped new old row w) (done : w.Done) :
    w.Linked new ↔ row.encryptedSession ≠ old ∨ row.isActive = false := by
  rw [World.Linked, h.committed]
  simp only [merged, done .relink, done .death, if_true, Option.some.injEq]
  obtain ⟨blob, active⟩ := row
  by_cases hold : blob = old <;> by_cases hnew : new = blob <;> cases active <;>
    simp_all [patch, edited, saveSession, deactivateSession, SessionPatch.between,
      SessionPatch.apply]

/-- The row ends with the new ciphertext and active in exactly these cases: the stored
ciphertext was not the dead worker's, the row was inactive to begin with, or neither
transaction issued its select while the other one was open. -/
theorem relink_survives_death_iff (new old : Bytes) (hne : new ≠ old) (row : Session)
    (sched : List Tx) (w : World)
    (run : exec (step new old) (start row) sched = some w) (done : w.Done) :
    w.Linked new ↔
      row.encryptedSession ≠ old ∨ row.isActive = false ∨
        Meets (step new old) SelectsAlone (start row) sched := by
  rcases exec_switch (fun _ _ _ h => h.step) (fun _ _ _ h => h.overlap)
    (fun _ _ _ h => h.step) (serial_start new old row) run with ⟨meets, serial⟩ | ⟨clash, lost⟩
  · exact ⟨fun _ => .inr (.inr meets), fun _ => serial.linked hne done⟩
  · rw [lost.linked_iff done]
    constructor
    · rintro (h | h)
      · exact .inl h
      · exact .inr (.inl h)
    · rintro (h | h | h)
      · exact .inl h
      · exact .inr h
      · exact absurd h clash

/-- Both transactions read the row first; the death commits, then the re-link. -/
def crossedSchedule : List Tx := [.relink, .death, .death, .death, .relink, .relink]

/-- What the crossed schedule leaves behind, when both transactions do commit. -/
theorem crossedSchedule_run (new old : Bytes) (row final : Session)
    (h : (exec (step new old) (start row) crossedSchedule).map
      (fun w => (w.row.committed, w.phase .relink, w.phase .death)) =
        some (some final, .committed, .committed)) :
    ∃ w, exec (step new old) (start row) crossedSchedule = some w ∧ w.Done ∧
      w.row.committed = some final := by
  obtain ⟨w, hrun, hobserved⟩ := Option.map_eq_some_iff.mp h
  simp only [Prod.mk.injEq] at hobserved
  obtain ⟨hrow, hrelink, hdeath⟩ := hobserved
  refine ⟨w, hrun, fun t => ?_, hrow⟩
  cases t with
  | relink => exact hrelink
  | death => exact hdeath

/-- An inactive row survives even the crossed schedule. -/
theorem inactive_row_survives :
    ∃ w, exec (step [2] [1]) (start ⟨[1], false⟩) crossedSchedule = some w ∧
      w.Linked [2] := by
  obtain ⟨w, hrun, hdone, _⟩ := crossedSchedule_run [2] [1] ⟨[1], false⟩ ⟨[2], true⟩ rfl
  exact ⟨w, hrun, (relink_survives_death_iff [2] [1] (by decide) ⟨[1], false⟩
    crossedSchedule w hrun hdone).mpr (.inr (.inl rfl))⟩

/-- An active row, its own dead worker and a re-link with a fresh ciphertext: the
crossed schedule leaves the new ciphertext on an inactive row. -/
theorem relink_stranded :
    ¬ ∀ (new old : Bytes), new ≠ old → ∀ (row : Session) (sched : List Tx) (w : World),
      exec (step new old) (start row) sched = some w → w.Done → w.Linked new := by
  intro survives
  obtain ⟨w, hrun, hdone, hrow⟩ := crossedSchedule_run [2] [1] ⟨[1], true⟩ ⟨[2], false⟩ rfl
  have hlinked := survives [2] [1] (by decide) ⟨[1], true⟩ crossedSchedule w hrun hdone
  rw [World.Linked, hrow] at hlinked
  exact absurd hlinked (by decide)

end UserTgBot.Relink
