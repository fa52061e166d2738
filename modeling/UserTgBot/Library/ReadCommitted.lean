import Mathlib.Logic.Function.Basic
import Mathlib.Data.Option.Basic

/-!
# Rows under READ COMMITTED

A row has a committed version and at most one uncommitted version, which belongs
to the transaction holding the row lock. A statement of transaction `t` sees its
own uncommitted version if there is one, and the latest committed version
otherwise. A write to a row that another transaction has locked waits, so it is
`none` here: the step is not enabled until the lock is released. Once it is
enabled its `WHERE` clause is evaluated on the version just described, which is
the re-check that READ COMMITTED performs after waiting.

`update` takes the `WHERE` clause and the `SET` list together, as a function that
returns the new version of a matching row. Commit publishes every uncommitted
version of the transaction, rollback discards them.
-/

namespace ReadCommitted

universe u v w

variable {κ : Type u} {τ : Type v} {ν : Type w}

/-- The versions of one row. -/
structure Row (τ : Type v) (ν : Type w) where
  committed : Option ν
  pending : Option (τ × ν)
deriving DecidableEq

namespace Row

/-- A row nobody has written to since its last commit. -/
def settled (version : Option ν) : Row τ ν := ⟨version, none⟩

@[simp] theorem settled_committed (version : Option ν) :
    (settled version : Row τ ν).committed = version := rfl

@[simp] theorem settled_pending (version : Option ν) :
    (settled version : Row τ ν).pending = none := rfl

/-- Transaction `t` holds the row lock. -/
def LockedBy (r : Row τ ν) (t : τ) : Prop := ∃ v, r.pending = some (t, v)

theorem not_lockedBy_settled (version : Option ν) (t : τ) :
    ¬ (settled version : Row τ ν).LockedBy t := by
  rintro ⟨v, hv⟩
  simp at hv

/-- A lock held by one transaction is not held by the other. -/
theorem not_lockedBy_of_pending {r : Row τ ν} {t t' : τ} {v : ν}
    (h : r.pending = some (t, v)) (hne : t' ≠ t) : ¬ r.LockedBy t' := by
  rintro ⟨v', hv'⟩
  exact hne (congrArg Prod.fst (Option.some.inj (hv'.symm.trans h)))

variable [DecidableEq τ]

/-- Another transaction than `t` holds the row lock, so a write of `t` has to wait. -/
def blocks (r : Row τ ν) (t : τ) : Bool :=
  match r.pending with
  | some (owner, _) => owner ≠ t
  | none => false

/-- The version a statement of `t` works on. -/
def visible (r : Row τ ν) (t : τ) : Option ν :=
  match r.pending with
  | some (owner, v) => if owner = t then some v else r.committed
  | none => r.committed

/-- `UPDATE ... WHERE ... SET ... RETURNING`; `f` is `none` on rows that do not match.
The result is the returned row, if the statement matched one. -/
def update (r : Row τ ν) (t : τ) (f : ν → Option ν) : Option (Row τ ν × Option ν) :=
  if r.blocks t then none
  else match (r.visible t).bind f with
    | none => some (r, none)
    | some v => some ({ r with pending := some (t, v) }, some v)

/-- `INSERT` under a unique key; `false` reports that the key is taken. -/
def insert (r : Row τ ν) (t : τ) (v : ν) : Option (Row τ ν × Bool) :=
  if r.blocks t then none
  else match r.visible t with
    | some _ => some (r, false)
    | none => some ({ r with pending := some (t, v) }, true)

def commit (r : Row τ ν) (t : τ) : Row τ ν :=
  match r.pending with
  | some (owner, v) => if owner = t then settled (some v) else r
  | none => r

def rollback (r : Row τ ν) (t : τ) : Row τ ν :=
  match r.pending with
  | some (owner, _) => if owner = t then settled r.committed else r
  | none => r

theorem blocks_eq_false_iff {r : Row τ ν} {t : τ} :
    r.blocks t = false ↔ ∀ owner v, r.pending = some (owner, v) → owner = t := by
  cases hp : r.pending with
  | none => simp [blocks, hp]
  | some entry =>
      obtain ⟨owner, v⟩ := entry
      simp [blocks, hp]

theorem visible_of_pending {r : Row τ ν} {t : τ} {v : ν} (h : r.pending = some (t, v)) :
    r.visible t = some v := by
  simp [visible, h]

/-- Without an uncommitted version of its own, a statement sees the committed one. -/
theorem visible_of_not_lockedBy {r : Row τ ν} {t : τ} (h : ¬ r.LockedBy t) :
    r.visible t = r.committed := by
  cases hp : r.pending with
  | none => simp [visible, hp]
  | some entry =>
      obtain ⟨owner, v⟩ := entry
      have hne : owner ≠ t := fun he => h ⟨v, by rw [hp, he]⟩
      simp [visible, hp, hne]

/-- Everything an enabled `UPDATE` can do: match nothing and change nothing, or
match the visible version and lock the row with the new one. -/
theorem update_cases {r r' : Row τ ν} {t : τ} {f : ν → Option ν} {result : Option ν}
    (h : r.update t f = some (r', result)) :
    r.blocks t = false ∧
      ((result = none ∧ r' = r ∧ (r.visible t).bind f = none) ∨
        ∃ seen v, r.visible t = some seen ∧ f seen = some v ∧ result = some v ∧
          r' = { r with pending := some (t, v) }) := by
  rw [update] at h
  cases hb : r.blocks t with
  | true => simp [hb] at h
  | false =>
      refine ⟨rfl, ?_⟩
      simp only [hb, Bool.false_eq_true, if_false] at h
      cases hv : (r.visible t).bind f with
      | none =>
          simp only [hv, Option.some.injEq, Prod.mk.injEq] at h
          exact .inl ⟨h.2.symm, h.1.symm, rfl⟩
      | some v =>
          simp only [hv, Option.some.injEq, Prod.mk.injEq] at h
          obtain ⟨seen, hseen, hf⟩ := Option.bind_eq_some_iff.mp hv
          exact .inr ⟨seen, v, hseen, hf, h.2.symm, h.1.symm⟩

/-- Everything an enabled `INSERT` can do. -/
theorem insert_cases {r r' : Row τ ν} {t : τ} {v : ν} {inserted : Bool}
    (h : r.insert t v = some (r', inserted)) :
    r.blocks t = false ∧
      ((inserted = false ∧ r' = r ∧ r.visible t ≠ none) ∨
        (inserted = true ∧ r.visible t = none ∧ r' = { r with pending := some (t, v) })) := by
  rw [insert] at h
  cases hb : r.blocks t with
  | true => simp [hb] at h
  | false =>
      refine ⟨rfl, ?_⟩
      simp only [hb, Bool.false_eq_true, if_false] at h
      cases hv : r.visible t with
      | some seen =>
          simp only [hv, Option.some.injEq, Prod.mk.injEq] at h
          exact .inl ⟨h.2.symm, h.1.symm, by simp⟩
      | none =>
          simp only [hv, Option.some.injEq, Prod.mk.injEq] at h
          exact .inr ⟨h.2.symm, rfl, h.1.symm⟩

theorem commit_of_pending {r : Row τ ν} {t : τ} {v : ν} (h : r.pending = some (t, v)) :
    r.commit t = settled (some v) := by
  simp [commit, h]

theorem commit_of_not_lockedBy {r : Row τ ν} {t : τ} (h : ¬ r.LockedBy t) :
    r.commit t = r := by
  cases hp : r.pending with
  | none => simp [commit, hp]
  | some entry =>
      obtain ⟨owner, v⟩ := entry
      have hne : owner ≠ t := fun he => h ⟨v, by rw [hp, he]⟩
      simp [commit, hp, hne]

theorem not_lockedBy_commit (r : Row τ ν) (t : τ) : ¬ (r.commit t).LockedBy t := by
  rintro ⟨v, hv⟩
  by_cases hl : r.LockedBy t
  · obtain ⟨u, hu⟩ := hl
    rw [commit_of_pending hu] at hv
    cases hv
  · rw [commit_of_not_lockedBy hl] at hv
    exact hl ⟨v, hv⟩

/-- Rolling back never changes what is committed. -/
@[simp] theorem rollback_committed (r : Row τ ν) (t : τ) :
    (r.rollback t).committed = r.committed := by
  cases hp : r.pending with
  | none => simp [rollback, hp]
  | some entry =>
      by_cases he : entry.1 = t <;> simp [rollback, hp, he]

theorem rollback_of_not_lockedBy {r : Row τ ν} {t : τ} (h : ¬ r.LockedBy t) :
    r.rollback t = r := by
  cases hp : r.pending with
  | none => simp [rollback, hp]
  | some entry =>
      obtain ⟨owner, v⟩ := entry
      have hne : owner ≠ t := fun he => h ⟨v, by rw [hp, he]⟩
      simp [rollback, hp, hne]

theorem not_lockedBy_rollback (r : Row τ ν) (t : τ) : ¬ (r.rollback t).LockedBy t := by
  rintro ⟨v, hv⟩
  cases hp : r.pending with
  | none => simp [rollback, hp] at hv
  | some entry =>
      by_cases he : entry.1 = t
      · simp [rollback, hp, he] at hv
      · simp only [rollback, hp, he, if_false, Option.some.injEq] at hv
        exact he (congrArg Prod.fst hv)

end Row

/-- A row's committed or uncommitted version. -/
def Row.HasVersion (r : Row τ ν) (v : ν) : Prop :=
  r.committed = some v ∨ ∃ t, r.pending = some (t, v)

theorem Row.hasVersion_of_visible [DecidableEq τ] {r : Row τ ν} {t : τ} {v : ν}
    (h : r.visible t = some v) : r.HasVersion v := by
  cases hp : r.pending with
  | none => exact .inl (by simpa [Row.visible, hp] using h)
  | some entry =>
      obtain ⟨owner, u⟩ := entry
      by_cases he : owner = t
      · have huv : u = v := by simpa [Row.visible, hp, he] using h
        exact .inr ⟨owner, by rw [hp, huv]⟩
      · exact .inl (by simpa [Row.visible, hp, he] using h)

/-- The uncommitted version is related to the committed one it is going to replace. -/
def Row.Grows (R : ν → ν → Prop) (r : Row τ ν) : Prop :=
  ∀ c t v, r.committed = some c → r.pending = some (t, v) → R c v

section Grows

variable [DecidableEq τ] {R : ν → ν → Prop} {r : Row τ ν} {t : τ}

/-- A write derived from the visible version keeps the relation. -/
theorem Row.Grows.lock (h : r.Grows R) (trans : ∀ a b c, R a b → R b c → R a c)
    {seen v : ν} (hseen : r.visible t = some seen) (hv : R seen v) :
    ({ r with pending := some (t, v) } : Row τ ν).Grows R := by
  intro c t' v' hc hp
  obtain ⟨-, rfl⟩ := Prod.mk.inj (Option.some.inj hp)
  cases hpending : r.pending with
  | none =>
      have hvisible : r.visible t = r.committed := by simp [Row.visible, hpending]
      obtain rfl : c = seen := Option.some.inj (hc.symm.trans (hvisible.symm.trans hseen))
      exact hv
  | some entry =>
      obtain ⟨owner, u⟩ := entry
      have hu := h c owner u hc hpending
      by_cases he : owner = t
      · obtain rfl : u = seen := by simpa [Row.visible, hpending, he] using hseen
        exact trans c u v hu hv
      · obtain rfl : c = seen := by
          have hvisible : r.visible t = r.committed := by simp [Row.visible, hpending, he]
          exact Option.some.inj (hc.symm.trans (hvisible.symm.trans hseen))
        exact hv

theorem Row.Grows.rollback (h : r.Grows R) : (r.rollback t).Grows R := by
  cases hp : r.pending with
  | none => simpa [Row.rollback, hp] using h
  | some entry =>
      by_cases he : entry.1 = t
      · intro c t' v' _ hpending
        simp [Row.rollback, hp, he] at hpending
      · simpa [Row.rollback, hp, he] using h

theorem Row.Grows.commit (h : r.Grows R) : (r.commit t).Grows R := by
  cases hp : r.pending with
  | none => simpa [Row.commit, hp] using h
  | some entry =>
      by_cases he : entry.1 = t
      · intro c t' v' _ hpending
        simp [Row.commit, hp, he] at hpending
      · simpa [Row.commit, hp, he] using h

/-- What was committed is still committed, up to growth. -/
theorem Row.Grows.committed_commit (h : r.Grows R) (refl : ∀ a, R a a) {c : ν}
    (hc : r.committed = some c) : ∃ c', (r.commit t).committed = some c' ∧ R c c' := by
  cases hp : r.pending with
  | none => exact ⟨c, by simpa [Row.commit, hp] using hc, refl c⟩
  | some entry =>
      obtain ⟨owner, u⟩ := entry
      by_cases he : owner = t
      · exact ⟨u, by simp [Row.commit, hp, he], h c owner u hc hp⟩
      · exact ⟨c, by simpa [Row.commit, hp, he] using hc, refl c⟩

end Grows

theorem Row.hasVersion_commit [DecidableEq τ] {r : Row τ ν} {t : τ} {v : ν}
    (h : (r.commit t).HasVersion v) : r.HasVersion v := by
  cases hp : r.pending with
  | none => simpa [Row.commit, hp] using h
  | some entry =>
      obtain ⟨owner, u⟩ := entry
      by_cases he : owner = t
      · obtain hc | ⟨t', hc⟩ := h
        · exact .inr ⟨owner, by simpa [Row.commit, hp, he] using hc⟩
        · simp [Row.commit, hp, he] at hc
      · simpa [Row.commit, hp, he] using h

theorem Row.hasVersion_rollback [DecidableEq τ] {r : Row τ ν} {t : τ} {v : ν}
    (h : (r.rollback t).HasVersion v) : r.HasVersion v := by
  by_cases hl : r.LockedBy t
  · obtain ⟨u, hu⟩ := hl
    obtain hc | ⟨t', hc⟩ := h
    · exact .inl (by rwa [Row.rollback_committed] at hc)
    · simp [Row.rollback, hu] at hc
  · rwa [Row.rollback_of_not_lockedBy hl] at h

/-- Committing one transaction leaves the uncommitted versions of the others. -/
theorem Row.commit_of_pending_ne [DecidableEq τ] {r : Row τ ν} {t t' : τ} {v : ν}
    (h : r.pending = some (t', v)) (hne : t' ≠ t) : r.commit t = r := by
  simp [Row.commit, h, hne]

/-- What a statement, the commit or the rollback of transaction `t` can do to a row. -/
inductive Row.Move [DecidableEq τ] (t : τ) (r : Row τ ν) : Row τ ν → Prop where
  | stay : Row.Move t r r
  | write (v : ν) (free : r.blocks t = false) : Row.Move t r { r with pending := some (t, v) }
  | commit : Row.Move t r (r.commit t)
  | rollback : Row.Move t r (r.rollback t)

section Move

variable [DecidableEq τ] {R : ν → ν → Prop} {r r' : Row τ ν} {t t' : τ} {v : ν}

/-- A row that another transaction has locked does not move. -/
theorem Row.Move.eq_of_pending_other (h : Row.Move t r r') (hp : r.pending = some (t', v))
    (hne : t' ≠ t) : r' = r := by
  cases h with
  | stay => rfl
  | write u free => exact absurd (Row.blocks_eq_false_iff.mp free t' v hp) hne
  | commit => exact Row.commit_of_pending_ne hp hne
  | rollback =>
      have hfree : ¬ r.LockedBy t := by
        rintro ⟨u, hu⟩
        exact hne (congrArg Prod.fst (Option.some.inj (hp.symm.trans hu)))
      exact Row.rollback_of_not_lockedBy hfree

/-- Nobody writes on behalf of another transaction. -/
theorem Row.Move.pending_other_of (h : Row.Move t r r') (hp : r'.pending = some (t', v))
    (hne : t' ≠ t) : r.pending = some (t', v) := by
  cases h with
  | stay => exact hp
  | write u free => exact absurd (congrArg Prod.fst (Option.some.inj hp)).symm hne
  | commit =>
      by_cases hl : r.LockedBy t
      · obtain ⟨u, hu⟩ := hl
        rw [Row.commit_of_pending hu] at hp
        cases hp
      · rwa [Row.commit_of_not_lockedBy hl] at hp
  | rollback =>
      by_cases hl : r.LockedBy t
      · obtain ⟨u, hu⟩ := hl
        simp [Row.rollback, hu] at hp
      · rwa [Row.rollback_of_not_lockedBy hl] at hp

/-- What is committed changes only by growing. -/
theorem Row.Move.committed (h : Row.Move t r r') (grows : r.Grows R) (refl : ∀ a, R a a)
    {c : ν} (hc : r.committed = some c) : ∃ c', r'.committed = some c' ∧ R c c' := by
  cases h with
  | stay => exact ⟨c, hc, refl c⟩
  | write u free => exact ⟨c, hc, refl c⟩
  | commit => exact grows.committed_commit refl hc
  | rollback => exact ⟨c, by rw [Row.rollback_committed, hc], refl c⟩

end Move

/-- A table maps each key to the versions of its row. -/
abbrev Table (κ : Type u) (τ : Type v) (ν : Type w) := κ → Row τ ν

namespace Table

/-- A table none of whose rows is being written to. -/
def settled (rows : κ → Option ν) : Table κ τ ν := fun k => .settled (rows k)

/-- What a transaction starting now would see. -/
def committed (tbl : Table κ τ ν) : κ → Option ν := fun k => (tbl k).committed

variable [DecidableEq κ]

def set (tbl : Table κ τ ν) (k : κ) (r : Row τ ν) : Table κ τ ν := Function.update tbl k r

@[simp] theorem set_same (tbl : Table κ τ ν) (k : κ) (r : Row τ ν) : tbl.set k r k = r := by
  simp [set]

theorem set_ne (tbl : Table κ τ ν) {k k' : κ} (r : Row τ ν) (h : k' ≠ k) :
    tbl.set k r k' = tbl k' := by
  simp [set, h]

variable [DecidableEq τ]

def read (tbl : Table κ τ ν) (t : τ) (k : κ) : Option ν := (tbl k).visible t

def update (tbl : Table κ τ ν) (t : τ) (k : κ) (f : ν → Option ν) :
    Option (Table κ τ ν × Option ν) :=
  ((tbl k).update t f).map fun out => (tbl.set k out.1, out.2)

def insert (tbl : Table κ τ ν) (t : τ) (k : κ) (v : ν) : Option (Table κ τ ν × Bool) :=
  ((tbl k).insert t v).map fun out => (tbl.set k out.1, out.2)

/-- `Row.update_cases` for the table, which is unchanged at every other key. -/
theorem update_cases {tbl tbl' : Table κ τ ν} {t : τ} {k : κ} {f : ν → Option ν}
    {result : Option ν} (h : tbl.update t k f = some (tbl', result)) :
    (tbl k).blocks t = false ∧
      ((result = none ∧ tbl' = tbl ∧ ((tbl k).visible t).bind f = none) ∨
        ∃ seen v, (tbl k).visible t = some seen ∧ f seen = some v ∧ result = some v ∧
          tbl' = tbl.set k { tbl k with pending := some (t, v) }) := by
  simp only [update, Option.map_eq_some_iff, Prod.mk.injEq] at h
  obtain ⟨⟨r, res⟩, hrow, rfl, rfl⟩ := h
  obtain ⟨hfree, ⟨hres, hr, hnone⟩ | ⟨seen, v, hseen, hf, hres, hr⟩⟩ :=
    Row.update_cases hrow
  · refine ⟨hfree, .inl ⟨hres, ?_, hnone⟩⟩
    rw [hr, set, Function.update_eq_self]
  · exact ⟨hfree, .inr ⟨seen, v, hseen, hf, hres, by rw [hr]⟩⟩

/-- `Row.insert_cases` for the table. -/
theorem insert_cases {tbl tbl' : Table κ τ ν} {t : τ} {k : κ} {v : ν} {inserted : Bool}
    (h : tbl.insert t k v = some (tbl', inserted)) :
    (tbl k).blocks t = false ∧
      ((inserted = false ∧ tbl' = tbl ∧ (tbl k).visible t ≠ none) ∨
        (inserted = true ∧ (tbl k).visible t = none ∧
          tbl' = tbl.set k { tbl k with pending := some (t, v) })) := by
  simp only [insert, Option.map_eq_some_iff, Prod.mk.injEq] at h
  obtain ⟨⟨r, ins⟩, hrow, rfl, rfl⟩ := h
  obtain ⟨hfree, ⟨hins, hr, htaken⟩ | ⟨hins, hnone, hr⟩⟩ := Row.insert_cases hrow
  · refine ⟨hfree, .inl ⟨hins, ?_, htaken⟩⟩
    rw [hr, set, Function.update_eq_self]
  · exact ⟨hfree, .inr ⟨hins, hnone, by rw [hr]⟩⟩

omit [DecidableEq τ] in
/-- Only a commit changes what is committed. -/
theorem committed_set {tbl : Table κ τ ν} {k : κ} {r : Row τ ν}
    (h : r.committed = (tbl k).committed) : (tbl.set k r).committed = tbl.committed := by
  funext k'
  by_cases hk : k' = k
  · subst hk
    rw [committed, set_same, h, committed]
  · rw [committed, set_ne _ _ hk, committed]

theorem committed_update {tbl tbl' : Table κ τ ν} {t : τ} {k : κ} {f : ν → Option ν}
    {result : Option ν} (h : tbl.update t k f = some (tbl', result)) :
    tbl'.committed = tbl.committed := by
  obtain ⟨_, ⟨_, rfl, _⟩ | ⟨seen, v, _, _, _, rfl⟩⟩ := update_cases h
  · rfl
  · exact committed_set rfl

theorem committed_insert {tbl tbl' : Table κ τ ν} {t : τ} {k : κ} {v : ν} {inserted : Bool}
    (h : tbl.insert t k v = some (tbl', inserted)) : tbl'.committed = tbl.committed := by
  obtain ⟨_, ⟨_, rfl, _⟩ | ⟨_, _, rfl⟩⟩ := insert_cases h
  · rfl
  · exact committed_set rfl

/-- Writing one row moves that row and no other. -/
theorem write_move {tbl : Table κ τ ν} {t : τ} {k : κ} (v : ν) (hfree : (tbl k).blocks t = false)
    (k' : κ) : Row.Move t (tbl k') (tbl.set k { tbl k with pending := some (t, v) } k') := by
  by_cases hk : k' = k
  · rw [hk, set_same]
    exact .write v hfree
  · rw [set_ne _ _ hk]
    exact .stay

omit [DecidableEq τ] in
/-- What a transaction has pending after it has written a row is that row or was pending
before. -/
theorem pending_write {tbl : Table κ τ ν} {t : τ} {k k' : κ} {v v' : ν}
    (h : (tbl.set k { tbl k with pending := some (t, v) } k').pending = some (t, v')) :
    (k' = k ∧ v' = v) ∨ (tbl k').pending = some (t, v') := by
  by_cases hk : k' = k
  · rw [hk, set_same] at h
    exact .inl ⟨hk, (Prod.mk.inj (Option.some.inj h)).2.symm⟩
  · rw [set_ne _ _ hk] at h
    exact .inr h

theorem update_move {tbl tbl' : Table κ τ ν} {t : τ} {k : κ} {f : ν → Option ν}
    {result : Option ν} (h : tbl.update t k f = some (tbl', result)) (k' : κ) :
    Row.Move t (tbl k') (tbl' k') := by
  obtain ⟨hfree, ⟨_, rfl, _⟩ | ⟨seen, v, _, _, _, rfl⟩⟩ := update_cases h
  · exact .stay
  · exact write_move v hfree k'

theorem insert_move {tbl tbl' : Table κ τ ν} {t : τ} {k : κ} {v : ν} {inserted : Bool}
    (h : tbl.insert t k v = some (tbl', inserted)) (k' : κ) :
    Row.Move t (tbl k') (tbl' k') := by
  obtain ⟨hfree, ⟨_, rfl, _⟩ | ⟨_, _, rfl⟩⟩ := insert_cases h
  · exact .stay
  · exact write_move v hfree k'

omit [DecidableEq κ]

def commit (tbl : Table κ τ ν) (t : τ) : Table κ τ ν := fun k => (tbl k).commit t

def rollback (tbl : Table κ τ ν) (t : τ) : Table κ τ ν := fun k => (tbl k).rollback t

@[simp] theorem commit_apply (tbl : Table κ τ ν) (t : τ) (k : κ) :
    tbl.commit t k = (tbl k).commit t := rfl

@[simp] theorem rollback_apply (tbl : Table κ τ ν) (t : τ) (k : κ) :
    tbl.rollback t k = (tbl k).rollback t := rfl

@[simp] theorem committed_rollback (tbl : Table κ τ ν) (t : τ) :
    (tbl.rollback t).committed = tbl.committed := by
  funext k
  simp [committed]

end Table

end ReadCommitted
