import Mathlib.Algebra.Order.Ring.Rat
import Mathlib.Data.List.Sort
import UserTgBot.Db.Models
import UserTgBot.Library.Recency

/-!
# The cache of recent messages

`RecentMessageCache` of `userbot/message_cache.py`: one SQLite table holds the rows of all
owners, and every operation is a query on it. The table is a list of rows in no particular
order; its primary key and the uniqueness of the row ids are part of its type.

The order of a cache exists only in the timestamps. An upsert keeps the row id and replaces
the timestamp, eviction deletes whatever is not among the first rows of a sorted subquery.
`Listed` ties the rows of an owner to the list of rows from the newest to the oldest, and
every operation is traced on that list. `messageCache_refines` then compares runs with runs
of the bounded recency map of `Library.Recency`, one map for each owner.
-/

namespace UserTgBot.MessageCache

open Recency

/-- `CachedMessage`; the coordinates are numbers. -/
structure CachedMessage where
  chatId : Int
  messageId : Int
  senderId : Option Int
  text : Option String
  media : Option Bytes
  mediaKind : Option String
  mediaFilename : Option String
  location : Option (ℚ × ℚ)
deriving DecidableEq

/-- A row of `cached_messages`. -/
structure CachedRow where
  rowid : Nat
  ownerUserId : Int
  chatId : Int
  messageId : Int
  senderId : Option Int
  text : Option String
  media : Option Bytes
  mediaKind : Option String
  mediaFilename : Option String
  locationLat : Option ℚ
  locationLon : Option ℚ
  createdAt : ℚ
deriving DecidableEq

namespace CachedRow

/-- The primary key. -/
def key (r : CachedRow) : Int × Int × Int := (r.ownerUserId, r.chatId, r.messageId)

/-- The part of the primary key that an owner sees. -/
def messageKey (r : CachedRow) : Int × Int := (r.chatId, r.messageId)

/-- The values of the `INSERT`. -/
def ofMessage (rowid : Nat) (ownerUserId : Int) (m : CachedMessage) (now : ℚ) : CachedRow where
  rowid := rowid
  ownerUserId := ownerUserId
  chatId := m.chatId
  messageId := m.messageId
  senderId := m.senderId
  text := m.text
  media := m.media
  mediaKind := m.mediaKind
  mediaFilename := m.mediaFilename
  locationLat := m.location.map Prod.fst
  locationLon := m.location.map Prod.snd
  createdAt := now

/-- `_row_to_cached`. -/
def toCached (r : CachedRow) : CachedMessage where
  chatId := r.chatId
  messageId := r.messageId
  senderId := r.senderId
  text := r.text
  media := r.media
  mediaKind := r.mediaKind
  mediaFilename := r.mediaFilename
  location := do
    let lat ← r.locationLat
    let lon ← r.locationLon
    return (lat, lon)

/-- What a row stores is read back unchanged. -/
@[simp] theorem toCached_ofMessage (rowid : Nat) (ownerUserId : Int) (m : CachedMessage)
    (now : ℚ) : (ofMessage rowid ownerUserId m now).toCached = m := by
  obtain ⟨_, _, _, _, _, _, _, location⟩ := m
  cases location <;> rfl

/-- `ORDER BY created_at DESC, rowid DESC`. -/
def NewerFirst (a b : CachedRow) : Prop :=
  b.createdAt < a.createdAt ∨ b.createdAt = a.createdAt ∧ b.rowid ≤ a.rowid

instance : DecidableRel NewerFirst := fun _ _ => inferInstanceAs (Decidable (_ ∨ _))

end CachedRow

/-- The table, with the constraints that SQLite maintains. -/
structure CachedMessages where
  rows : List CachedRow
  primaryKey : (rows.map CachedRow.key).Nodup
  rowids : (rows.map CachedRow.rowid).Nodup

namespace CachedMessages

def empty : CachedMessages := ⟨[], by simp, by simp⟩

def rowsOf (t : CachedMessages) (ownerUserId : Int) : List CachedRow :=
  t.rows.filter (·.ownerUserId = ownerUserId)

/-- `DELETE ... WHERE`. -/
def delete (t : CachedMessages) (p : CachedRow → Bool) : CachedMessages where
  rows := t.rows.filter (!p ·)
  primaryKey := t.primaryKey.sublist (List.filter_sublist.map _)
  rowids := t.rowids.sublist (List.filter_sublist.map _)

/-- The row id SQLite gives to the next row: one more than the largest in the table. -/
def nextRowid (t : CachedMessages) : Nat := (t.rows.map CachedRow.rowid).foldr max 0 + 1

/-- The row with that primary key. -/
def find? (t : CachedMessages) (key : Int × Int × Int) : Option CachedRow :=
  t.rows.find? (·.key = key)

/-- The row id under which a key is stored, if it is, or else the next one. -/
def rowidFor (t : CachedMessages) (key : Int × Int × Int) : Nat :=
  ((t.find? key).map CachedRow.rowid).getD t.nextRowid

theorem lt_nextRowid {t : CachedMessages} {r : CachedRow} (h : r ∈ t.rows) :
    r.rowid < t.nextRowid := by
  have hle : ∀ l : List Nat, ∀ a ∈ l, a ≤ l.foldr max 0 := by
    intro l
    induction l with
    | nil => simp
    | cons b l ih =>
        intro a ha
        obtain rfl | ha := List.mem_cons.mp ha
        · exact Nat.le_max_left _ _
        · exact Nat.le_trans (ih a ha) (Nat.le_max_right _ _)
  exact Nat.lt_succ_of_le (hle _ _ (List.mem_map_of_mem h))

/-- No other row has the row id that a key gets. -/
theorem rowidFor_fresh {t : CachedMessages} {key : Int × Int × Int} {r : CachedRow}
    (h : r ∈ t.rows) (hkey : r.key ≠ key) : r.rowid ≠ t.rowidFor key := by
  rw [rowidFor]
  cases hfind : t.find? key with
  | none => exact Nat.ne_of_lt (lt_nextRowid h)
  | some old =>
      intro heq
      have hold := List.mem_of_find?_eq_some hfind
      have hsame : r = old := List.inj_on_of_nodup_map t.rowids h hold heq
      exact hkey (by rw [hsame]; simpa using List.find?_some hfind)

/-- `INSERT ... ON CONFLICT DO UPDATE`: every column but the row id is the new one. -/
def upsert (t : CachedMessages) (ownerUserId : Int) (m : CachedMessage) (now : ℚ) :
    CachedMessages where
  rows := CachedRow.ofMessage (t.rowidFor (ownerUserId, m.chatId, m.messageId)) ownerUserId m now
    :: t.rows.filter (·.key ≠ (ownerUserId, m.chatId, m.messageId))
  primaryKey := by
    refine List.nodup_cons.mpr ⟨?_, t.primaryKey.sublist (List.filter_sublist.map _)⟩
    intro hmem
    obtain ⟨r, hr, heq⟩ := List.mem_map.mp hmem
    have hkey : r.key ≠ (ownerUserId, m.chatId, m.messageId) := by
      simpa using (List.mem_filter.mp hr).2
    exact hkey heq
  rowids := by
    refine List.nodup_cons.mpr ⟨?_, t.rowids.sublist (List.filter_sublist.map _)⟩
    intro hmem
    obtain ⟨r, hr, heq⟩ := List.mem_map.mp hmem
    obtain ⟨hr, hkey⟩ := List.mem_filter.mp hr
    exact rowidFor_fresh hr (by simpa using hkey) heq

/-- `SELECT ... WHERE ... ORDER BY created_at DESC, rowid DESC`. -/
def newest (t : CachedMessages) (p : CachedRow → Bool) : List CachedRow :=
  (t.rows.filter p).insertionSort CachedRow.NewerFirst

/-- `_evict_old`. -/
def evictOld (t : CachedMessages) (ownerUserId : Int) (maxSize : Nat) : CachedMessages :=
  let kept := ((t.newest (·.ownerUserId = ownerUserId)).take maxSize).map CachedRow.rowid
  t.delete fun r => r.ownerUserId = ownerUserId ∧ r.rowid ∉ kept

def remember (t : CachedMessages) (ownerUserId : Int) (maxSize : Nat) (m : CachedMessage)
    (now : ℚ) : CachedMessages :=
  (t.upsert ownerUserId m now).evictOld ownerUserId maxSize

def get (t : CachedMessages) (ownerUserId chatId messageId : Int) : Option CachedMessage :=
  (t.find? (ownerUserId, chatId, messageId)).map CachedRow.toCached

def pop (t : CachedMessages) (ownerUserId chatId messageId : Int) :
    CachedMessages × Option CachedMessage :=
  match t.get ownerUserId chatId messageId with
  | none => (t, none)
  | some item => (t.delete (·.key = (ownerUserId, chatId, messageId)), some item)

def popByMessageId (t : CachedMessages) (ownerUserId messageId : Int) :
    CachedMessages × Option CachedMessage :=
  match (t.newest fun r => r.ownerUserId = ownerUserId ∧ r.messageId = messageId).head? with
  | none => (t, none)
  | some row =>
      let item := row.toCached
      (t.delete (·.key = (ownerUserId, item.chatId, messageId)), some item)

def count (t : CachedMessages) (ownerUserId : Int) : Nat := (t.rowsOf ownerUserId).length

variable {t : CachedMessages} {o o' : Int} {r : CachedRow}

/-- Deletions and upserts for one owner leave the rows of the others as they are. -/
theorem rowsOf_delete {p : CachedRow → Bool} (hp : ∀ r, p r = true → r.ownerUserId ≠ o) :
    (t.delete p).rowsOf o = t.rowsOf o := by
  simp only [rowsOf, delete, List.filter_filter]
  refine List.filter_congr fun r _ => ?_
  cases hpr : p r with
  | false => simp
  | true => simp [hp r hpr]

theorem rowsOf_delete_filter (t : CachedMessages) (p : CachedRow → Bool) (o : Int) :
    (t.delete p).rowsOf o = (t.rowsOf o).filter (!p ·) := by
  simp only [rowsOf, delete, List.filter_filter]
  exact List.filter_congr fun r _ => Bool.and_comm _ _

theorem rowsOf_upsert_self (t : CachedMessages) (o : Int) (m : CachedMessage) (now : ℚ) :
    (t.upsert o m now).rowsOf o =
      .ofMessage (t.rowidFor (o, m.chatId, m.messageId)) o m now ::
        (t.rowsOf o).filter (·.messageKey ≠ (m.chatId, m.messageId)) := by
  simp only [rowsOf, upsert, List.filter_cons, CachedRow.ofMessage, decide_true, if_true,
    List.filter_filter]
  refine congrArg _ (List.filter_congr fun r _ => ?_)
  by_cases howner : r.ownerUserId = o
  · simp [howner, CachedRow.key, CachedRow.messageKey]
  · simp [howner]

theorem rowsOf_upsert {m : CachedMessage} {now : ℚ} (hne : o' ≠ o) :
    (t.upsert o m now).rowsOf o' = t.rowsOf o' := by
  simp only [rowsOf, upsert, List.filter_cons, CachedRow.ofMessage, hne.symm, decide_false,
    Bool.false_eq_true, if_false, List.filter_filter]
  refine List.filter_congr fun r _ => ?_
  by_cases howner : r.ownerUserId = o'
  · simp [howner, CachedRow.key, hne]
  · simp [howner]

theorem rowsOf_evictOld {maxSize : Nat} (hne : o' ≠ o) :
    (t.evictOld o maxSize).rowsOf o' = t.rowsOf o' :=
  rowsOf_delete fun r hr => by
    have howner : r.ownerUserId = o := (of_decide_eq_true hr).1
    rw [howner]
    exact hne.symm

theorem rowsOf_delete_key {k : Int × Int} (hne : o' ≠ o) :
    (t.delete (·.key = (o, k))).rowsOf o' = t.rowsOf o' :=
  rowsOf_delete fun r hr => by
    have howner : r.ownerUserId = o := congrArg Prod.fst (of_decide_eq_true hr)
    rw [howner]
    exact hne.symm

end CachedMessages

/-! ## Runs -/

inductive Operation where
  | remember (m : CachedMessage) (now : ℚ)
  | get (chatId messageId : Int)
  | pop (chatId messageId : Int)
  | popByMessageId (messageId : Int)
  | count

/-- What a call returns. -/
inductive Response where
  | done
  | message (m : Option CachedMessage)
  | number (n : Nat)
deriving DecidableEq

/-- An operation of one owner's cache. -/
structure Call where
  ownerUserId : Int
  operation : Operation

/-- The timestamp taken by a call. -/
def Call.now? (c : Call) : Option ℚ :=
  match c.operation with
  | .remember _ now => some now
  | _ => none

section Runs

variable (maxSize : Int → Nat)

/-- One call on the shared table; `maxSize` is the bound of each owner's cache. -/
def step (t : CachedMessages) (c : Call) : CachedMessages × Response :=
  let o := c.ownerUserId
  match c.operation with
  | .remember m now => (t.remember o (maxSize o) m now, .done)
  | .get chatId messageId => (t, .message (t.get o chatId messageId))
  | .pop chatId messageId =>
      let out := t.pop o chatId messageId
      (out.1, .message out.2)
  | .popByMessageId messageId =>
      let out := t.popByMessageId o messageId
      (out.1, .message out.2)
  | .count => (t, .number (t.count o))

/-- The table after the calls, and what they returned. -/
def run (t : CachedMessages) : List Call → CachedMessages × List Response
  | [] => (t, [])
  | c :: calls =>
      let out := step maxSize t c
      let rest := run out.1 calls
      (rest.1, out.2 :: rest.2)

/-- One bounded recency map for each owner. -/
abbrev Maps := ∀ o : Int, Cache (Int × Int) CachedMessage (maxSize o)

/-- What each call is for, on the recency map of its owner. -/
def specStep (maps : Maps maxSize) (c : Call) : Maps maxSize × Response :=
  let o := c.ownerUserId
  match c.operation with
  | .remember m _ =>
      (Function.update maps o ((maps o).remember (m.chatId, m.messageId) m), .done)
  | .get chatId messageId => (maps, .message ((maps o).get? (chatId, messageId)))
  | .pop chatId messageId =>
      (Function.update maps o ((maps o).erase (chatId, messageId)),
        .message ((maps o).get? (chatId, messageId)))
  | .popByMessageId messageId =>
      match (maps o).first? (·.2 = messageId) with
      | none => (maps, .message none)
      | some entry =>
          (Function.update maps o ((maps o).erase entry.1), .message (some entry.2))
  | .count => (maps, .number (maps o).entries.length)

def specRun (maps : Maps maxSize) : List Call → Maps maxSize × List Response
  | [] => (maps, [])
  | c :: calls =>
      let out := specStep maxSize maps c
      let rest := specRun out.1 calls
      (rest.1, out.2 :: rest.2)

end Runs

/-! ## The list behind the table -/

/-- The rows of an owner from the newest to the oldest. -/
structure Listed (t : CachedMessages) (o : Int) (rs : List CachedRow) : Prop where
  perm : rs.Perm (t.rowsOf o)
  newer : rs.Pairwise fun a b => b.createdAt < a.createdAt

/-- The key and the message of a row. -/
def CachedRow.entry (r : CachedRow) : (Int × Int) × CachedMessage := (r.messageKey, r.toCached)

/-- The rows of every owner, in order, are the entries of that owner's map. -/
def Represents {maxSize : Int → Nat} (maps : Maps maxSize) (t : CachedMessages) : Prop :=
  ∀ o, ∃ rs, Listed t o rs ∧ rs.map CachedRow.entry = (maps o).entries

theorem newerFirst_total (a b : CachedRow) : a.NewerFirst b ∨ b.NewerFirst a := by
  rw [CachedRow.NewerFirst]
  obtain hlt | heq | hlt := lt_trichotomy a.createdAt b.createdAt
  · exact .inr (.inl hlt)
  · obtain hle | hle := Nat.le_total a.rowid b.rowid
    · exact .inr (.inr ⟨heq, hle⟩)
    · exact .inl (.inr ⟨heq.symm, hle⟩)
  · exact .inl (.inl hlt)

theorem newerFirst_trans (a b c : CachedRow) (hab : a.NewerFirst b) (hbc : b.NewerFirst c) :
    a.NewerFirst c := by
  unfold CachedRow.NewerFirst at *
  rcases hab with hab | ⟨hab, hrow⟩ <;> rcases hbc with hbc | ⟨hbc, hrow'⟩
  · exact .inl (lt_trans hbc hab)
  · exact .inl (hbc ▸ hab)
  · exact .inl (hab ▸ hbc)
  · exact .inr ⟨hbc.trans hab, Nat.le_trans hrow' hrow⟩

instance : Std.Total CachedRow.NewerFirst := ⟨newerFirst_total⟩

instance : IsTrans CachedRow CachedRow.NewerFirst := ⟨newerFirst_trans⟩

/-- Rows that come in strictly descending order of their timestamps are what sorting any
arrangement of them gives. -/
theorem insertionSort_eq {rs l : List CachedRow} (perm : rs.Perm l)
    (newer : rs.Pairwise fun a b => b.createdAt < a.createdAt) :
    l.insertionSort CachedRow.NewerFirst = rs := by
  have hsorted : rs.Pairwise CachedRow.NewerFirst := newer.imp fun h => .inl h
  have hperm : (l.insertionSort CachedRow.NewerFirst).Perm rs :=
    (List.perm_insertionSort _ l).trans perm.symm
  refine hperm.eq_of_pairwise ?_ (List.pairwise_insertionSort _ l) hsorted
  intro a b ha hb hab hba
  have hdistinct : (rs.map CachedRow.createdAt).Nodup :=
    List.pairwise_map.mpr (newer.imp fun h => (ne_of_lt h).symm)
  have hsame : a.createdAt = b.createdAt := by
    obtain hlt | ⟨heq, _⟩ := hab
    · obtain hlt' | ⟨heq', _⟩ := hba
      · exact absurd hlt' (not_lt_of_gt hlt)
      · exact heq'
    · exact heq.symm
  exact List.inj_on_of_nodup_map hdistinct (hperm.mem_iff.mp ha) hb hsame

namespace Listed

variable {t : CachedMessages} {o o' : Int} {rs : List CachedRow}

theorem mem (h : Listed t o rs) {r : CachedRow} : r ∈ rs ↔ r ∈ t.rows ∧ r.ownerUserId = o := by
  rw [h.perm.mem_iff, CachedMessages.rowsOf, List.mem_filter]
  simp

theorem rowids (h : Listed t o rs) : (rs.map CachedRow.rowid).Nodup :=
  (h.perm.map _).nodup_iff.mpr (t.rowids.sublist (List.filter_sublist.map _))

/-- A sorted query on the rows of an owner. -/
theorem newest_and (h : Listed t o rs) (p : CachedRow → Bool) :
    t.newest (fun r => r.ownerUserId = o ∧ p r) = rs.filter p := by
  refine insertionSort_eq ?_ (h.newer.filter p)
  have hfilter : t.rows.filter (fun r => r.ownerUserId = o ∧ p r) = (t.rowsOf o).filter p := by
    rw [CachedMessages.rowsOf, List.filter_filter]
    refine List.filter_congr fun r _ => ?_
    simp [Bool.and_comm]
  rw [hfilter]
  exact h.perm.filter p

theorem newest (h : Listed t o rs) : t.newest (·.ownerUserId = o) = rs :=
  insertionSort_eq h.perm h.newer

/-- Deleting rows of the table deletes them from the list. -/
theorem delete (h : Listed t o rs) (p : CachedRow → Bool) :
    Listed (t.delete p) o (rs.filter (!p ·)) := by
  refine ⟨?_, h.newer.filter _⟩
  rw [CachedMessages.rowsOf_delete_filter]
  exact h.perm.filter _

/-- Only the rows of the owner matter. -/
theorem of_rowsOf {t' : CachedMessages} (h : Listed t o rs) (same : t'.rowsOf o = t.rowsOf o) :
    Listed t' o rs :=
  ⟨by rw [same]; exact h.perm, h.newer⟩

/-- An upsert moves the key to the front of the list. -/
theorem upsert {m : CachedMessage} {now : ℚ} (h : Listed t o rs)
    (later : ∀ r ∈ t.rows, r.createdAt < now) :
    Listed (t.upsert o m now) o
      (.ofMessage (t.rowidFor (o, m.chatId, m.messageId)) o m now ::
        rs.filter (·.messageKey ≠ (m.chatId, m.messageId))) := by
  constructor
  · rw [CachedMessages.rowsOf_upsert_self]
    exact (h.perm.filter _).cons _
  · refine List.pairwise_cons.mpr ⟨fun r hr => ?_, h.newer.filter _⟩
    exact later r (h.mem.mp (List.mem_of_mem_filter hr)).1

/-- Eviction cuts the list. -/
theorem evictOld (h : Listed t o rs) (maxSize : Nat) :
    Listed (t.evictOld o maxSize) o (rs.take maxSize) := by
  have hdelete := h.delete fun r => r.ownerUserId = o ∧
    r.rowid ∉ ((t.newest (·.ownerUserId = o)).take maxSize).map CachedRow.rowid
  have hkept : rs.filter (fun r => !decide (r.ownerUserId = o ∧
      r.rowid ∉ ((t.newest (·.ownerUserId = o)).take maxSize).map CachedRow.rowid)) =
        rs.take maxSize := by
    rw [h.newest]
    refine Eq.trans (List.filter_congr fun r hr => ?_)
      (filter_mem_take CachedRow.rowid h.rowids maxSize)
    have howner := (h.mem.mp hr).2
    simp only [howner, true_and, decide_not, Bool.not_not]
  rw [hkept] at hdelete
  exact hdelete

/-- The row under a key, if any, is on the list. -/
theorem find? (h : Listed t o rs) (k : Int × Int) :
    t.find? (o, k) = rs.find? (·.messageKey = k) := by
  have hkey : ∀ r : CachedRow, r.key = (o, k) ↔ r.ownerUserId = o ∧ r.messageKey = k := by
    intro r
    simp [CachedRow.key, CachedRow.messageKey, Prod.ext_iff]
  cases hlist : rs.find? (·.messageKey = k) with
  | none =>
      refine List.find?_eq_none.mpr fun r hr hmatch => ?_
      obtain ⟨howner, hk⟩ := (hkey r).mp (of_decide_eq_true hmatch)
      exact List.find?_eq_none.mp hlist r (h.mem.mpr ⟨hr, howner⟩) (decide_eq_true hk)
  | some r =>
      have hk : r.messageKey = k := by simpa using List.find?_some hlist
      obtain ⟨hr, howner⟩ := h.mem.mp (List.mem_of_find?_eq_some hlist)
      have hmatch : r.key = (o, k) := (hkey r).mpr ⟨howner, hk⟩
      cases hfind : t.find? (o, k) with
      | none => exact absurd (decide_eq_true hmatch) (List.find?_eq_none.mp hfind r hr)
      | some r' =>
          have hk' : r'.key = (o, k) := by simpa using List.find?_some hfind
          exact congrArg some (List.inj_on_of_nodup_map t.primaryKey
            (List.mem_of_find?_eq_some hfind) hr (hk'.trans hmatch.symm))

/-- Deleting the row under a key of the owner. -/
theorem delete_key (h : Listed t o rs) (k : Int × Int) :
    Listed (t.delete (·.key = (o, k))) o (rs.filter (·.messageKey ≠ k)) := by
  have hdelete := h.delete (·.key = (o, k))
  have hfilter : rs.filter (fun r => !decide (r.key = (o, k))) =
      rs.filter (·.messageKey ≠ k) := by
    refine List.filter_congr fun r hr => ?_
    have howner := (h.mem.mp hr).2
    simp [CachedRow.key, CachedRow.messageKey, howner, Prod.ext_iff]
  rwa [hfilter] at hdelete

end Listed

/-! ## Every operation on the list -/

section Refinement

variable {maxSize : Int → Nat} {maps : Maps maxSize} {t t' : CachedMessages} {c : Call}
variable {o : Int} {rs : List CachedRow}

/-- The map of the calling owner changes as its list does, the others stay. -/
theorem Represents.update {map : Cache (Int × Int) CachedMessage (maxSize o)}
    (h : Represents maps t) (listed : Listed t' o rs) (entries : rs.map CachedRow.entry = map.entries)
    (others : ∀ o', o' ≠ o → t'.rowsOf o' = t.rowsOf o') :
    Represents (Function.update maps o map) t' := by
  intro o'
  by_cases ho : o' = o
  · subst ho
    exact ⟨rs, listed, by rw [Function.update_self, entries]⟩
  · obtain ⟨rs', hlisted, hentries⟩ := h o'
    exact ⟨rs', hlisted.of_rowsOf (others o' ho), by rw [Function.update_of_ne ho, hentries]⟩

theorem map_entry_without (rs : List CachedRow) (k : Int × Int) :
    (rs.filter (·.messageKey ≠ k)).map CachedRow.entry =
      Cache.without (rs.map CachedRow.entry) k := by
  rw [Cache.without, List.filter_map]
  rfl

theorem Represents.remember {m : CachedMessage} {now : ℚ} (h : Represents maps t)
    (later : ∀ r ∈ t.rows, r.createdAt < now) :
    Represents (Function.update maps o ((maps o).remember (m.chatId, m.messageId) m))
      (t.remember o (maxSize o) m now) := by
  obtain ⟨rs, hlisted, hentries⟩ := h o
  refine h.update ((hlisted.upsert later).evictOld (maxSize o)) ?_ ?_
  · rw [List.map_take, List.map_cons, map_entry_without, hentries]
    simp only [CachedRow.entry, CachedRow.toCached_ofMessage, Cache.remember]
    rfl
  · intro o' ho
    rw [CachedMessages.remember, CachedMessages.rowsOf_evictOld ho,
      CachedMessages.rowsOf_upsert ho]

theorem Represents.get (h : Represents maps t) (o chatId messageId : Int) :
    t.get o chatId messageId = (maps o).get? (chatId, messageId) := by
  obtain ⟨rs, hlisted, hentries⟩ := h o
  rw [CachedMessages.get, hlisted.find?, Cache.get?, ← hentries, List.find?_map,
    Option.map_map]
  rfl

theorem Represents.erase (h : Represents maps t) (o : Int) (k : Int × Int) :
    Represents (Function.update maps o ((maps o).erase k)) (t.delete (·.key = (o, k))) := by
  obtain ⟨rs, hlisted, hentries⟩ := h o
  refine h.update (hlisted.delete_key k) ?_ fun o' ho => CachedMessages.rowsOf_delete_key ho
  rw [map_entry_without, hentries]
  rfl

/-- Erasing a key that is not there. -/
theorem erase_of_get?_eq_none {n : Nat} {map : Cache (Int × Int) CachedMessage n}
    {k : Int × Int} (h : map.get? k = none) : map.erase k = map := by
  refine Cache.ext (List.filter_eq_self.mpr fun entry hentry => ?_)
  refine decide_eq_true fun hk => ?_
  have hsome : map.get? k = some entry.2 := Cache.get?_eq_some.mpr (hk ▸ hentry)
  rw [h] at hsome
  cases hsome

theorem Represents.pop (h : Represents maps t) (o chatId messageId : Int) :
    (t.pop o chatId messageId).2 = (maps o).get? (chatId, messageId) ∧
      Represents (Function.update maps o ((maps o).erase (chatId, messageId)))
        (t.pop o chatId messageId).1 := by
  have hget := h.get o chatId messageId
  cases hfound : t.get o chatId messageId with
  | none =>
      rw [hfound] at hget
      simp only [CachedMessages.pop, hfound]
      rw [erase_of_get?_eq_none hget.symm, Function.update_eq_self]
      exact ⟨hget, h⟩
  | some item =>
      rw [hfound] at hget
      simp only [CachedMessages.pop, hfound]
      exact ⟨hget, h.erase o (chatId, messageId)⟩

theorem Represents.newest (h : Represents maps t) (o messageId : Int) :
    ((t.newest fun r => r.ownerUserId = o ∧ r.messageId = messageId).head?).map
      CachedRow.entry = (maps o).first? (·.2 = messageId) := by
  obtain ⟨rs, hlisted, hentries⟩ := h o
  have hnewest := hlisted.newest_and fun r => r.messageId = messageId
  simp only [decide_eq_true_eq] at hnewest
  rw [hnewest, List.head?_filter, Cache.first?, ← hentries, List.find?_map]
  rfl

theorem Represents.count (h : Represents maps t) (o : Int) :
    t.count o = (maps o).entries.length := by
  obtain ⟨rs, hlisted, hentries⟩ := h o
  rw [CachedMessages.count, ← hlisted.perm.length_eq, ← hentries, List.length_map]

/-- One call: the table answers as the maps do and goes on representing them. -/
theorem step_refines (h : Represents maps t)
    (later : ∀ now, c.now? = some now → ∀ r ∈ t.rows, r.createdAt < now) :
    (step maxSize t c).2 = (specStep maxSize maps c).2 ∧
      Represents (specStep maxSize maps c).1 (step maxSize t c).1 := by
  obtain ⟨o, operation⟩ := c
  cases operation with
  | remember m now => exact ⟨rfl, h.remember (later now rfl)⟩
  | get chatId messageId => exact ⟨congrArg Response.message (h.get o chatId messageId), h⟩
  | pop chatId messageId =>
      obtain ⟨hanswer, hnext⟩ := h.pop o chatId messageId
      exact ⟨congrArg Response.message hanswer, hnext⟩
  | popByMessageId messageId =>
      have hnewest := h.newest o messageId
      cases hrow : (t.newest fun r => r.ownerUserId = o ∧ r.messageId = messageId).head? with
      | none =>
          rw [hrow, Option.map_none] at hnewest
          simp only [step, specStep, CachedMessages.popByMessageId, hrow, ← hnewest]
          exact ⟨trivial, h⟩
      | some row =>
          rw [hrow, Option.map_some] at hnewest
          have hmessage : row.messageId = messageId := by
            have hmem := List.mem_of_mem_head? hrow
            rw [CachedMessages.newest, List.mem_insertionSort] at hmem
            exact (of_decide_eq_true (List.mem_filter.mp hmem).2).2
          simp only [step, specStep, CachedMessages.popByMessageId, hrow, ← hnewest]
          have hkey : row.entry.1 = (row.chatId, messageId) := by
            rw [CachedRow.entry, CachedRow.messageKey, hmessage]
          rw [hkey]
          exact ⟨rfl, h.erase o (row.chatId, messageId)⟩
  | count => exact ⟨congrArg Response.number (h.count o), h⟩

/-- A row of the table after a call was there before, or the call has just written it. -/
theorem createdAt_step {r : CachedRow} (hr : r ∈ (step maxSize t c).1.rows) :
    r ∈ t.rows ∨ c.now? = some r.createdAt := by
  have hdelete : ∀ {t : CachedMessages} {p : CachedRow → Bool}, r ∈ (t.delete p).rows →
      r ∈ t.rows := fun h => List.mem_of_mem_filter h
  obtain ⟨o, operation⟩ := c
  cases operation with
  | remember m now =>
      obtain rfl | hold := List.mem_cons.mp (hdelete hr)
      · exact .inr rfl
      · exact .inl (List.mem_of_mem_filter hold)
  | get chatId messageId => exact .inl hr
  | pop chatId messageId =>
      simp only [step, CachedMessages.pop] at hr
      split at hr
      · exact .inl hr
      · exact .inl (hdelete hr)
  | popByMessageId messageId =>
      simp only [step, CachedMessages.popByMessageId] at hr
      split at hr
      · exact .inl hr
      · exact .inl (hdelete hr)
  | count => exact .inl hr

theorem rowsOf_step {t : CachedMessages} {c : Call} {o : Int} (hne : o ≠ c.ownerUserId) :
    (step maxSize t c).1.rowsOf o = t.rowsOf o := by
  obtain ⟨owner, operation⟩ := c
  cases operation with
  | remember m now =>
      simp only [step, CachedMessages.remember]
      rw [CachedMessages.rowsOf_evictOld hne, CachedMessages.rowsOf_upsert hne]
  | get chatId messageId => rfl
  | pop chatId messageId =>
      simp only [step, CachedMessages.pop]
      split
      · rfl
      · exact CachedMessages.rowsOf_delete_key hne
  | popByMessageId messageId =>
      simp only [step, CachedMessages.popByMessageId]
      split
      · rfl
      · exact CachedMessages.rowsOf_delete_key hne
  | count => rfl

/-! ## Runs refine -/

/-- What a call and its answer tell about the last value remembered under a key. -/
def noteCall (o : Int) (k : Int × Int) (last : Option CachedMessage) (e : Call × Response) :
    Option CachedMessage :=
  if e.1.ownerUserId = o then
    match e.1.operation, e.2 with
    | .remember m _, _ => if (m.chatId, m.messageId) = k then some m else last
    | .pop chatId messageId, _ => if (chatId, messageId) = k then none else last
    | .popByMessageId _, .message (some m) =>
        if (m.chatId, m.messageId) = k then none else last
    | _, _ => last
  else last

/-- The value of the last `remember` of a key that no pop has taken since. -/
def lastRemembered (o : Int) (k : Int × Int) (history : List (Call × Response)) :
    Option CachedMessage :=
  history.foldl (noteCall o k) none

/-- The messages of a represented map stand under their own keys. -/
theorem Represents.key (h : Represents maps t) {k : Int × Int} {m : CachedMessage}
    (hget : (maps o).get? k = some m) : (m.chatId, m.messageId) = k := by
  obtain ⟨rs, -, hentries⟩ := h o
  have hmem := Cache.get?_eq_some.mp hget
  rw [← hentries] at hmem
  obtain ⟨r, -, hr⟩ := List.mem_map.mp hmem
  obtain ⟨hk, hm⟩ := Prod.mk.inj hr
  rw [← hm, ← hk]
  rfl

/-- A map holds no value but the last one remembered. -/
theorem get?_specStep {last : Option CachedMessage} {k : Int × Int} (h : Represents maps t)
    (hlast : ∀ m, (maps o).get? k = some m → last = some m) (m : CachedMessage)
    (hget : ((specStep maxSize maps c).1 o).get? k = some m) :
    noteCall o k last (c, (specStep maxSize maps c).2) = some m := by
  obtain ⟨owner, operation⟩ := c
  by_cases ho : owner = o
  · subst ho
    cases operation with
    | remember m' now =>
        simp only [specStep, Function.update_self] at hget
        simp only [noteCall, if_true]
        obtain ⟨hk, rfl⟩ | ⟨hne, hold⟩ := Cache.get?_remember hget
        · rw [if_pos hk.symm]
        · rw [if_neg (Ne.symm hne), hlast m hold]
    | get chatId messageId => simpa [noteCall] using hlast m hget
    | pop chatId messageId =>
        simp only [specStep, Function.update_self] at hget
        obtain ⟨hne, hold⟩ := Cache.get?_erase.mp hget
        simpa [noteCall, specStep, Ne.symm hne] using hlast m hold
    | popByMessageId messageId =>
        cases hfirst : (maps owner).first? (·.2 = messageId) with
        | none =>
            simp only [specStep, hfirst] at hget ⊢
            simpa [noteCall] using hlast m hget
        | some entry =>
            simp only [specStep, hfirst, Function.update_self] at hget ⊢
            obtain ⟨hne, hold⟩ := Cache.get?_erase.mp hget
            have hentry : (entry.2.chatId, entry.2.messageId) = entry.1 :=
              h.key (Cache.get?_eq_some.mpr (List.mem_of_find?_eq_some hfirst))
            simpa [noteCall, hentry, Ne.symm hne] using hlast m hold
    | count => simpa [noteCall] using hlast m hget
  · have hsame : (specStep maxSize maps ⟨owner, operation⟩).1 o = maps o := by
      cases operation with
      | remember m' now => exact Function.update_of_ne (Ne.symm ho) _ _
      | get chatId messageId => rfl
      | pop chatId messageId => exact Function.update_of_ne (Ne.symm ho) _ _
      | popByMessageId messageId =>
          simp only [specStep]
          split
          · rfl
          · exact Function.update_of_ne (Ne.symm ho) _ _
      | count => rfl
    rw [hsame] at hget
    simpa [noteCall, ho] using hlast m hget

/-- Runs refine runs, and no map holds a value but the last one remembered. -/
theorem run_refines {calls : List Call} {last : Int → Int × Int → Option CachedMessage}
    (h : Represents maps t) (increasing : (calls.filterMap Call.now?).Pairwise (· < ·))
    (later : ∀ now ∈ calls.filterMap Call.now?, ∀ r ∈ t.rows, r.createdAt < now)
    (hlast : ∀ o k m, (maps o).get? k = some m → last o k = some m) :
    (run maxSize t calls).2 = (specRun maxSize maps calls).2 ∧
      Represents (specRun maxSize maps calls).1 (run maxSize t calls).1 ∧
      ∀ o k m, ((specRun maxSize maps calls).1 o).get? k = some m →
        (calls.zip (specRun maxSize maps calls).2).foldl (noteCall o k) (last o k) =
          some m := by
  induction calls generalizing t maps last with
  | nil => exact ⟨rfl, h, fun o k m hget => hlast o k m hget⟩
  | cons c calls ih =>
      have hnow : ∀ now, c.now? = some now →
          now ∈ (c :: calls).filterMap Call.now? := fun now hc =>
        List.mem_filterMap.mpr ⟨c, List.mem_cons_self, hc⟩
      have hrest : ∀ now ∈ calls.filterMap Call.now?, now ∈ (c :: calls).filterMap Call.now? := by
        intro now hmem
        obtain ⟨c', hc', hnow'⟩ := List.mem_filterMap.mp hmem
        exact List.mem_filterMap.mpr ⟨c', List.mem_cons_of_mem _ hc', hnow'⟩
      obtain ⟨hanswer, hnext⟩ := step_refines h fun now hc => later now (hnow now hc)
      have hincreasing : (calls.filterMap Call.now?).Pairwise (· < ·) :=
        increasing.sublist ((List.sublist_cons_self c calls).filterMap _)
      have hlater : ∀ now ∈ calls.filterMap Call.now?,
          ∀ r ∈ (step maxSize t c).1.rows, r.createdAt < now := by
        intro now hmem r hr
        obtain hold | hc := createdAt_step hr
        · exact later now (hrest now hmem) r hold
        · rw [List.filterMap_cons, hc] at increasing
          exact (List.pairwise_cons.mp increasing).1 now hmem
      obtain ⟨hanswers, hfinal, hvalues⟩ := ih hnext hincreasing hlater fun o k m hget =>
        get?_specStep h (hlast o k) m hget
      exact ⟨congrArg₂ List.cons hanswer hanswers, hfinal, hvalues⟩

end Refinement

/-- The shared table refines one bounded recency map for each owner. In every run with
increasing timestamps the answers are those of the maps, and the rows of each owner, newest
first, are the entries of its map. So no cache exceeds its bound, a stored value is the last
one remembered and not popped, and no call touches the rows of another owner. -/
theorem messageCache_refines (maxSize : Int → Nat) (calls : List Call)
    (increasing : (calls.filterMap Call.now?).Pairwise (· < ·)) :
    (run maxSize .empty calls).2 = (specRun maxSize (fun _ => .empty) calls).2 ∧
      Represents (specRun maxSize (fun _ => .empty) calls).1 (run maxSize .empty calls).1 ∧
      (∀ o, (run maxSize .empty calls).1.count o ≤ maxSize o) ∧
      (∀ o chatId messageId m,
        (run maxSize .empty calls).1.get o chatId messageId = some m →
          lastRemembered o (chatId, messageId) (calls.zip (run maxSize .empty calls).2) =
            some m) ∧
      ∀ t c o, o ≠ c.ownerUserId → (step maxSize t c).1.rowsOf o = t.rowsOf o := by
  have hempty : Represents (fun o => (.empty : Cache (Int × Int) CachedMessage (maxSize o)))
      .empty := fun o => ⟨[], ⟨.refl _, .nil⟩, rfl⟩
  have hnone : ∀ (o : Int) (k : Int × Int) (m : CachedMessage),
      (Cache.empty : Cache (Int × Int) CachedMessage (maxSize o)).get? k = some m →
        (none : Option CachedMessage) = some m := by
    rintro o k m ⟨⟩
  obtain ⟨hanswers, hfinal, hvalues⟩ := run_refines hempty increasing (by simp [CachedMessages.empty])
    hnone
  refine ⟨hanswers, hfinal, ?_, ?_, fun t c o hne => rowsOf_step hne⟩
  · intro o
    rw [hfinal.count o]
    exact Cache.bounded _
  · intro o chatId messageId m hget
    rw [hfinal.get o chatId messageId] at hget
    rw [hanswers]
    exact hvalues o (chatId, messageId) m hget

/-- A text message. -/
def note (chatId messageId : Int) (text : String) : CachedMessage :=
  { chatId, messageId, senderId := none, text := some text, media := none, mediaKind := none,
    mediaFilename := none, location := none }

/-- A cache of two: the first message is remembered again, so the second one is evicted. -/
def evictingCalls : List Call :=
  [⟨1, .remember (note 5 1 "a") 1⟩, ⟨1, .remember (note 6 2 "b") 2⟩,
    ⟨1, .remember (note 5 1 "c") 3⟩, ⟨1, .remember (note 7 1 "d") 4⟩, ⟨1, .get 6 2⟩,
    ⟨1, .popByMessageId 1⟩, ⟨1, .get 5 1⟩, ⟨1, .count⟩]

theorem evictingCalls_answers :
    (run (fun _ => 2) .empty evictingCalls).2 =
        [.done, .done, .done, .done, .message none, .message (some (note 7 1 "d")),
          .message (some (note 5 1 "c")), .number 1] ∧
      (run (fun _ => 2) .empty evictingCalls).1.count 1 ≤ 2 := by
  have hrefines := messageCache_refines (fun _ => 2) evictingCalls (by decide)
  exact ⟨hrefines.1.trans (by decide), hrefines.2.2.1 1⟩

end UserTgBot.MessageCache
