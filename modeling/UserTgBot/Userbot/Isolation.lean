import Mathlib.Data.List.Find
import Mathlib.Data.List.Sort
import UserTgBot.Library.Noninterference
import UserTgBot.Userbot.Bookkeeping
import UserTgBot.Userbot.MessageCache

/-!
# The caches of several workers on one table

Every worker opens a `RecentMessageCache` of its own on the shared SQLite file, and workers
give way between the statements of an operation. A statement and its commit are one step
here: until the commit other connections read the table as it was and cannot write.

A cache is scoped by the owner of the session, not by the session. `SameRows` says that two
tables hold the same rows of an owner up to the row ids, whose order is the same; what an
owner's cache answers depends on nothing else. Whether two workers are isolated is therefore
a matter of their owners only.
-/

namespace UserTgBot.MessageCache

open Loops Noninterference Supervisor

/-- `RecentMessageCache`. -/
structure RecentMessageCache where
  ownerUserId : Int
  maxSize : Nat := 2000
deriving DecidableEq

/-- What is left of an operation after its first statement. -/
inductive Rest where
  | evictOld
  | delete (chatId messageId : Int) (item : CachedMessage)

namespace RecentMessageCache

/-- The first statement of an operation; the operation returns or goes on. -/
def begin (cache : RecentMessageCache) (t : CachedMessages) :
    Operation → CachedMessages × (Response ⊕ Rest)
  | .remember m now => (t.upsert cache.ownerUserId m now, .inr .evictOld)
  | .get chatId messageId => (t, .inl (.message (t.get cache.ownerUserId chatId messageId)))
  | .pop chatId messageId =>
      match t.get cache.ownerUserId chatId messageId with
      | none => (t, .inl (.message none))
      | some item => (t, .inr (.delete chatId messageId item))
  | .popByMessageId messageId =>
      match (t.newest fun r =>
          r.ownerUserId = cache.ownerUserId ∧ r.messageId = messageId).head? with
      | none => (t, .inl (.message none))
      | some row => (t, .inr (.delete row.toCached.chatId messageId row.toCached))
  | .count => (t, .inl (.number (t.count cache.ownerUserId)))

/-- The second statement. -/
def finish (cache : RecentMessageCache) (t : CachedMessages) : Rest → CachedMessages × Response
  | .evictOld => (t.evictOld cache.ownerUserId cache.maxSize, .done)
  | .delete chatId messageId item =>
      (t.delete (·.key = (cache.ownerUserId, chatId, messageId)), .message (some item))

/-- An operation that is not interrupted. -/
def perform (cache : RecentMessageCache) (t : CachedMessages) (operation : Operation) :
    CachedMessages × Response :=
  match cache.begin t operation with
  | (t, .inl response) => (t, response)
  | (t, .inr rest) => cache.finish t rest

/-- The two statements of an operation together are the operation. -/
theorem perform_eq_step (cache : RecentMessageCache) (t : CachedMessages)
    (operation : Operation) :
    cache.perform t operation =
      MessageCache.step (fun _ => cache.maxSize) t ⟨cache.ownerUserId, operation⟩ := by
  cases operation with
  | remember m now => rfl
  | get chatId messageId => rfl
  | pop chatId messageId =>
      cases hget : t.get cache.ownerUserId chatId messageId with
      | none => simp [perform, begin, MessageCache.step, CachedMessages.pop, hget]
      | some item => simp [perform, begin, finish, MessageCache.step, CachedMessages.pop, hget]
  | popByMessageId messageId =>
      cases hrow : (t.newest fun r =>
          r.ownerUserId = cache.ownerUserId ∧ r.messageId = messageId).head? with
      | none =>
          simp only [perform, begin, MessageCache.step, CachedMessages.popByMessageId, hrow]
      | some row =>
          simp only [perform, begin, finish, MessageCache.step, CachedMessages.popByMessageId,
            hrow]
  | count => rfl

end RecentMessageCache

/-! ## Workers on one table -/

/-- The table, and the operations of every session that have executed one statement. -/
structure Caches where
  table : CachedMessages
  suspended : Nat → List Rest

inductive CacheMove where
  | start (operation : Operation)
  /-- Execute the second statement of a suspended operation. -/
  | resume (index : Nat)

structure CacheAction where
  sessionId : Nat
  move : CacheMove

/-- The cache that the worker of a session opens. -/
def workerCache (active : Dict Nat ActiveSession) (sessionId : Nat) :
    Option RecentMessageCache :=
  (active.lookup sessionId).map fun session => { ownerUserId := session.ownerUserId }

namespace Caches

/-- One statement of one worker. -/
def move (cache : RecentMessageCache) (w : Caches) (sessionId : Nat) :
    CacheMove → Caches × Option Response
  | .start operation =>
      let out := cache.begin w.table operation
      match out.2 with
      | .inl response => ({ w with table := out.1 }, some response)
      | .inr rest =>
          ({ table := out.1
             suspended := Function.update w.suspended sessionId
               (w.suspended sessionId ++ [rest]) }, none)
  | .resume index =>
      match (w.suspended sessionId)[index]? with
      | none => (w, none)
      | some rest =>
          let out := cache.finish w.table rest
          ({ table := out.1
             suspended := Function.update w.suspended sessionId
               ((w.suspended sessionId).eraseIdx index) }, some out.2)

/-- One statement of the worker of some session; what its operation returns with it. -/
def step (caches : Nat → Option RecentMessageCache) (w : Caches) (a : CacheAction) :
    Caches × Option Response :=
  match caches a.sessionId with
  | none => (w, none)
  | some cache => w.move cache a.sessionId a.move

end Caches

/-- The message that `get`, `pop` or `pop_by_message_id` returns. -/
def Response.found? : Response → Option (Option CachedMessage)
  | .message m => some m
  | _ => none

/-- What the lookups of a session's worker return in a run, one entry for each statement. -/
def lookups (caches : Nat → Option RecentMessageCache) (sessionId : Nat) (w : Caches)
    (schedule : List CacheAction) : List (Option (Option CachedMessage)) :=
  (observed (Caches.step caches) (·.sessionId = sessionId) w schedule).map
    (·.bind Response.found?)

/-- Whatever the table holds and however the statements of the workers interleave, the worker
of session `a` cannot tell whether the worker of `b` did anything. -/
def Isolated (caches : Nat → Option RecentMessageCache) (a b : Nat) : Prop :=
  ∀ (t : CachedMessages) (schedule : List CacheAction),
    lookups caches a ⟨t, fun _ => []⟩ schedule =
      lookups caches a ⟨t, fun _ => []⟩ (schedule.filter (·.sessionId ≠ b))

/-! ## The rows of an owner up to their row ids -/

/-- Rows that differ in the row id at most. -/
def CachedRow.Same (r r' : CachedRow) : Prop := { r with rowid := r'.rowid } = r'

namespace CachedRow.Same

variable {r r' : CachedRow}

theorem eq (h : r.Same r') : r = { r' with rowid := r.rowid } := by
  rw [← h]

theorem symm (h : r.Same r') : r'.Same r := h.eq.symm

theorem ownerUserId (h : r.Same r') : r.ownerUserId = r'.ownerUserId := by
  rw [h.eq]

theorem key (h : r.Same r') : r.key = r'.key := by
  rw [h.eq]
  rfl

theorem messageId (h : r.Same r') : r.messageId = r'.messageId := by
  rw [h.eq]

theorem createdAt (h : r.Same r') : r.createdAt = r'.createdAt := by
  rw [h.eq]

theorem toCached (h : r.Same r') : r.toCached = r'.toCached := by
  rw [h.eq]
  rfl

end CachedRow.Same

/-- Two lists of rows, paired: the same rows in the same order, and row ids in the same
order. -/
structure Paired (ps : List (CachedRow × CachedRow)) : Prop where
  same : ∀ p ∈ ps, p.1.Same p.2
  rowids : ∀ p ∈ ps, ∀ q ∈ ps, p.1.rowid ≤ q.1.rowid ↔ p.2.rowid ≤ q.2.rowid

/-- The rows of an owner in two tables. -/
def SameRows (o : Int) (t t' : CachedMessages) : Prop :=
  ∃ ps, Paired ps ∧ ps.map Prod.fst = t.rowsOf o ∧ ps.map Prod.snd = t'.rowsOf o

namespace Paired

variable {ps : List (CachedRow × CachedRow)}

theorem sublist {qs : List (CachedRow × CachedRow)} (h : Paired ps) (sub : qs.Sublist ps) :
    Paired qs where
  same p hp := h.same p (sub.subset hp)
  rowids p hp q hq := h.rowids p (sub.subset hp) q (sub.subset hq)

/-- A test that row ids have no part in selects the same pairs on both sides. -/
theorem filter_fst (f : CachedRow → Bool) :
    (ps.filter fun p => f p.1).map Prod.fst = (ps.map Prod.fst).filter f := by
  rw [List.filter_map]
  rfl

theorem filter_snd {f f' : CachedRow → Bool} (agree : ∀ p ∈ ps, f p.1 = f' p.2) :
    (ps.filter fun p => f p.1).map Prod.snd = (ps.map Prod.snd).filter f' := by
  rw [List.filter_map]
  exact congrArg (List.map Prod.snd) (List.filter_congr agree)

/-- Sorting by age sorts both sides alike. -/
theorem sorted (h : Paired ps) :
    ∃ sorted : List (CachedRow × CachedRow), sorted.Perm ps ∧
      sorted.map Prod.fst = (ps.map Prod.fst).insertionSort CachedRow.NewerFirst ∧
      sorted.map Prod.snd = (ps.map Prod.snd).insertionSort CachedRow.NewerFirst := by
  refine ⟨ps.insertionSort fun p q => p.1.NewerFirst q.1, List.perm_insertionSort _ _, ?_, ?_⟩
  · exact List.map_insertionSort _ _ _ _ fun _ _ _ _ => Iff.rfl
  · refine List.map_insertionSort _ _ _ _ fun p hp q hq => ?_
    have hcreated := (h.same p hp).createdAt
    have hcreated' := (h.same q hq).createdAt
    have hrowids := h.rowids q hq p hp
    rw [CachedRow.NewerFirst, CachedRow.NewerFirst, hcreated, hcreated', hrowids]

end Paired

namespace SameRows

variable {o : Int} {t t' : CachedMessages}

theorem refl (o : Int) (t : CachedMessages) : SameRows o t t := by
  refine ⟨(t.rowsOf o).map fun r => (r, r), ⟨?_, ?_⟩, ?_, ?_⟩
  · intro p hp
    obtain ⟨r, -, rfl⟩ := List.mem_map.mp hp
    rfl
  · intro p hp q hq
    obtain ⟨r, -, rfl⟩ := List.mem_map.mp hp
    obtain ⟨r', -, rfl⟩ := List.mem_map.mp hq
    rfl
  · rw [List.map_map]
    exact List.map_id _
  · rw [List.map_map]
    exact List.map_id _

/-- Statements on the rows of others change nothing. -/
theorem of_rowsOf {t₁ : CachedMessages} (h : SameRows o t t') (same : t₁.rowsOf o = t.rowsOf o) :
    SameRows o t₁ t' := by
  obtain ⟨ps, hpaired, hfst, hsnd⟩ := h
  exact ⟨ps, hpaired, hfst.trans same.symm, hsnd⟩

/-- A search for a key of the owner looks at the owner's rows only. -/
theorem find?_rowsOf (t : CachedMessages) (chatId messageId : Int) :
    t.find? (o, chatId, messageId) = (t.rowsOf o).find? (·.key = (o, chatId, messageId)) := by
  rw [CachedMessages.find?, CachedMessages.rowsOf, List.find?_filter]
  refine congrArg (t.rows.find? ·) (funext fun r => ?_)
  by_cases hkey : r.key = (o, chatId, messageId)
  · have howner : r.ownerUserId = o := congrArg Prod.fst hkey
    simp [hkey, howner]
  · simp [hkey]

/-- Looking for a key finds a pair, or nothing on either side. -/
theorem find? {ps : List (CachedRow × CachedRow)} (paired : Paired ps)
    (fst : ps.map Prod.fst = t.rowsOf o) (snd : ps.map Prod.snd = t'.rowsOf o)
    (chatId messageId : Int) :
    (t.find? (o, chatId, messageId) = none ∧ t'.find? (o, chatId, messageId) = none) ∨
      ∃ p ∈ ps, t.find? (o, chatId, messageId) = some p.1 ∧
        t'.find? (o, chatId, messageId) = some p.2 := by
  rw [find?_rowsOf, find?_rowsOf, ← fst, ← snd, List.find?_map, List.find?_map]
  have hagree : ps.find? ((fun r : CachedRow => decide (r.key = (o, chatId, messageId))) ∘
      Prod.fst) = ps.find? ((fun r : CachedRow => decide (r.key = (o, chatId, messageId))) ∘
      Prod.snd) := by
    refine List.find?_congr fun p hp => ?_
    simp only [Function.comp, (paired.same p hp).key]
  rw [← hagree]
  cases hfind : ps.find? ((fun r : CachedRow => decide (r.key = (o, chatId, messageId))) ∘
      Prod.fst) with
  | none => exact .inl ⟨rfl, rfl⟩
  | some p => exact .inr ⟨p, List.mem_of_find?_eq_some hfind, rfl, rfl⟩

theorem get (h : SameRows o t t') (chatId messageId : Int) :
    t.get o chatId messageId = t'.get o chatId messageId := by
  obtain ⟨ps, hpaired, hfst, hsnd⟩ := h
  rw [CachedMessages.get, CachedMessages.get]
  obtain ⟨hnone, hnone'⟩ | ⟨p, hp, hfind, hfind'⟩ := find? hpaired hfst hsnd chatId messageId
  · rw [hnone, hnone']
  · rw [hfind, hfind', Option.map_some, Option.map_some, (hpaired.same p hp).toCached]

/-- Deleting the same rows on both sides. -/
theorem delete {ps : List (CachedRow × CachedRow)} {f f' : CachedRow → Bool}
    (paired : Paired ps) (fst : ps.map Prod.fst = t.rowsOf o)
    (snd : ps.map Prod.snd = t'.rowsOf o) (agree : ∀ p ∈ ps, f p.1 = f' p.2) :
    SameRows o (t.delete f) (t'.delete f') := by
  refine ⟨ps.filter (!f ·.1), paired.sublist List.filter_sublist, ?_, ?_⟩
  · rw [CachedMessages.rowsOf_delete_filter, ← fst]
    exact Paired.filter_fst (!f ·)
  · rw [CachedMessages.rowsOf_delete_filter, ← snd]
    exact Paired.filter_snd (f := (!f ·)) fun p hp => congrArg (!·) (agree p hp)

theorem delete_key (h : SameRows o t t') (k : Int × Int × Int) :
    SameRows o (t.delete (·.key = k)) (t'.delete (·.key = k)) := by
  obtain ⟨ps, hpaired, hfst, hsnd⟩ := h
  refine delete hpaired hfst hsnd fun p hp => ?_
  rw [(hpaired.same p hp).key]

/-- The rows of the owner that pass a test, from the newest to the oldest, come in pairs. -/
theorem newest {ps : List (CachedRow × CachedRow)} {f : CachedRow → Bool}
    (paired : Paired ps) (fst : ps.map Prod.fst = t.rowsOf o)
    (snd : ps.map Prod.snd = t'.rowsOf o) (agree : ∀ p ∈ ps, f p.1 = f p.2) :
    ∃ qs : List (CachedRow × CachedRow), (∀ q ∈ qs, q ∈ ps) ∧
      qs.map Prod.fst = t.newest (fun r => r.ownerUserId = o ∧ f r) ∧
      qs.map Prod.snd = t'.newest (fun r => r.ownerUserId = o ∧ f r) := by
  have hfiltered : Paired (ps.filter fun p => f p.1) := paired.sublist List.filter_sublist
  obtain ⟨qs, hperm, hfst, hsnd⟩ := hfiltered.sorted
  have hnewest : ∀ t : CachedMessages, t.newest (fun r => r.ownerUserId = o ∧ f r) =
      ((t.rowsOf o).filter f).insertionSort CachedRow.NewerFirst := by
    intro t
    rw [CachedMessages.newest, CachedMessages.rowsOf, List.filter_filter]
    refine congrArg _ (List.filter_congr fun r _ => ?_)
    simp [Bool.and_comm]
  refine ⟨qs, fun q hq => List.mem_of_mem_filter (hperm.mem_iff.mp hq), ?_, ?_⟩
  · rw [hfst, hnewest, Paired.filter_fst, fst]
  · rw [hsnd, hnewest, ← snd, Paired.filter_snd agree]

/-- Both sides of the row that `pop_by_message_id` looks at hold the same message. -/
theorem newest_head? (h : SameRows o t t') (messageId : Int) :
    (t.newest fun r => r.ownerUserId = o ∧ r.messageId = messageId).head?.map
        CachedRow.toCached =
      (t'.newest fun r => r.ownerUserId = o ∧ r.messageId = messageId).head?.map
        CachedRow.toCached := by
  obtain ⟨ps, hpaired, hfst, hsnd⟩ := h
  obtain ⟨qs, hsub, hqfst, hqsnd⟩ := newest (f := (·.messageId = messageId)) hpaired hfst hsnd
    fun p hp => by rw [(hpaired.same p hp).messageId]
  simp only [decide_eq_true_eq] at hqfst hqsnd
  rw [← hqfst, ← hqsnd]
  cases qs with
  | nil => rfl
  | cons q qs => exact congrArg some (hpaired.same q (hsub q List.mem_cons_self)).toCached

theorem count (h : SameRows o t t') : t.count o = t'.count o := by
  obtain ⟨ps, -, hfst, hsnd⟩ := h
  rw [CachedMessages.count, CachedMessages.count, ← hfst, ← hsnd, List.length_map,
    List.length_map]

/-- Row ids tell the rows of a pairing apart on both sides alike. -/
theorem mem_rowids {ps qs : List (CachedRow × CachedRow)} (paired : Paired ps)
    (sub : ∀ q ∈ qs, q ∈ ps) {p : CachedRow × CachedRow} (hp : p ∈ ps) :
    p.1.rowid ∈ (qs.map Prod.fst).map CachedRow.rowid ↔
      p.2.rowid ∈ (qs.map Prod.snd).map CachedRow.rowid := by
  have hequal : ∀ q ∈ qs, q.1.rowid = p.1.rowid ↔ q.2.rowid = p.2.rowid := by
    intro q hq
    have hle := paired.rowids q (sub q hq) p hp
    have hge := paired.rowids p hp q (sub q hq)
    omega
  simp only [List.map_map, List.mem_map, Function.comp]
  constructor
  · rintro ⟨q, hq, heq⟩
    exact ⟨q, hq, (hequal q hq).mp heq⟩
  · rintro ⟨q, hq, heq⟩
    exact ⟨q, hq, (hequal q hq).mpr heq⟩

theorem evictOld (h : SameRows o t t') (maxSize : Nat) :
    SameRows o (t.evictOld o maxSize) (t'.evictOld o maxSize) := by
  obtain ⟨ps, hpaired, hfst, hsnd⟩ := h
  obtain ⟨qs, hsub, hqfst, hqsnd⟩ := newest (f := fun _ => true) hpaired hfst hsnd
    fun _ _ => rfl
  simp only [and_true] at hqfst hqsnd
  refine delete hpaired hfst hsnd fun p hp => ?_
  have hsub' : ∀ q ∈ qs.take maxSize, q ∈ ps := fun q hq => hsub q (List.mem_of_mem_take hq)
  have hkept := mem_rowids hpaired hsub' hp
  simp only [List.map_take, hqfst, hqsnd] at hkept
  simp only [List.map_take, (hpaired.same p hp).ownerUserId, hkept]

/-- The row id of the new row is that of the old one, or larger than all others. -/
theorem rowidFor {ps : List (CachedRow × CachedRow)} (paired : Paired ps)
    (fst : ps.map Prod.fst = t.rowsOf o) (snd : ps.map Prod.snd = t'.rowsOf o)
    (chatId messageId : Int) {p : CachedRow × CachedRow} (hp : p ∈ ps) :
    (t.rowidFor (o, chatId, messageId) ≤ p.1.rowid ↔
        t'.rowidFor (o, chatId, messageId) ≤ p.2.rowid) ∧
      (p.1.rowid ≤ t.rowidFor (o, chatId, messageId) ↔
        p.2.rowid ≤ t'.rowidFor (o, chatId, messageId)) := by
  rw [CachedMessages.rowidFor, CachedMessages.rowidFor]
  obtain ⟨hnone, hnone'⟩ | ⟨q, hq, hfind, hfind'⟩ := find? paired fst snd chatId messageId
  · have hmem : p.1 ∈ t.rowsOf o := fst ▸ List.mem_map_of_mem hp
    have hmem' : p.2 ∈ t'.rowsOf o := snd ▸ List.mem_map_of_mem hp
    have hlt := CachedMessages.lt_nextRowid (List.mem_of_mem_filter hmem)
    have hlt' := CachedMessages.lt_nextRowid (List.mem_of_mem_filter hmem')
    simp only [hnone, hnone', Option.map_none, Option.getD_none]
    omega
  · rw [hfind, hfind']
    exact ⟨paired.rowids q hq p hp, paired.rowids p hp q hq⟩

theorem upsert (h : SameRows o t t') (m : CachedMessage) (now : ℚ) :
    SameRows o (t.upsert o m now) (t'.upsert o m now) := by
  obtain ⟨ps, hpaired, hfst, hsnd⟩ := h
  have hfresh := fun p (hp : p ∈ ps) =>
    rowidFor hpaired hfst hsnd m.chatId m.messageId (p := p) hp
  refine ⟨(.ofMessage (t.rowidFor (o, m.chatId, m.messageId)) o m now,
      .ofMessage (t'.rowidFor (o, m.chatId, m.messageId)) o m now) ::
        ps.filter (·.1.messageKey ≠ (m.chatId, m.messageId)), ⟨?_, ?_⟩, ?_, ?_⟩
  · intro p hp
    cases hp with
    | head => rfl
    | tail _ hp => exact hpaired.same p (List.mem_of_mem_filter hp)
  · intro p hp q hq
    cases hp with
    | head =>
        cases hq with
        | head => exact ⟨fun _ => Nat.le_refl _, fun _ => Nat.le_refl _⟩
        | tail _ hq => exact (hfresh q (List.mem_of_mem_filter hq)).1
    | tail _ hp =>
        cases hq with
        | head => exact (hfresh p (List.mem_of_mem_filter hp)).2
        | tail _ hq =>
            exact hpaired.rowids p (List.mem_of_mem_filter hp) q (List.mem_of_mem_filter hq)
  · rw [CachedMessages.rowsOf_upsert_self, ← hfst, List.map_cons]
    rw [Paired.filter_fst fun r => decide (r.messageKey ≠ (m.chatId, m.messageId))]
  · rw [CachedMessages.rowsOf_upsert_self, ← hsnd, List.map_cons]
    rw [Paired.filter_snd (f := fun r => decide (r.messageKey ≠ (m.chatId, m.messageId)))]
    intro p hp
    have hkey : p.1.messageKey = p.2.messageKey := congrArg Prod.snd (hpaired.same p hp).key
    rw [hkey]

end SameRows

/-! ## Unwinding -/

section Statements

variable {o : Int} {cache : RecentMessageCache} {t t' : CachedMessages}

/-- A statement of the owner's own cache does the same on both sides. -/
theorem SameRows.begin (h : SameRows o t t') (owner : cache.ownerUserId = o)
    (operation : Operation) :
    (cache.begin t operation).2 = (cache.begin t' operation).2 ∧
      SameRows o (cache.begin t operation).1 (cache.begin t' operation).1 := by
  subst owner
  cases operation with
  | remember m now => exact ⟨rfl, h.upsert m now⟩
  | get chatId messageId =>
      have hget := h.get chatId messageId
      exact ⟨by rw [RecentMessageCache.begin, RecentMessageCache.begin, hget], h⟩
  | pop chatId messageId =>
      have hget := h.get chatId messageId
      simp only [RecentMessageCache.begin, hget]
      cases t'.get cache.ownerUserId chatId messageId with
      | none => exact ⟨rfl, h⟩
      | some item => exact ⟨rfl, h⟩
  | popByMessageId messageId =>
      have hhead := h.newest_head? messageId
      simp only [RecentMessageCache.begin]
      cases hrow : (t.newest fun r =>
          r.ownerUserId = cache.ownerUserId ∧ r.messageId = messageId).head? with
      | none =>
          rw [hrow, Option.map_none] at hhead
          rw [Option.map_eq_none_iff.mp hhead.symm]
          exact ⟨rfl, h⟩
      | some row =>
          rw [hrow, Option.map_some] at hhead
          obtain ⟨row', hrow', hitem⟩ := Option.map_eq_some_iff.mp hhead.symm
          rw [hrow']
          simp only [hitem]
          exact ⟨trivial, h⟩
  | count =>
      have hcount := h.count
      exact ⟨by rw [RecentMessageCache.begin, RecentMessageCache.begin, hcount], h⟩

theorem SameRows.finish (h : SameRows o t t') (owner : cache.ownerUserId = o) (rest : Rest) :
    (cache.finish t rest).2 = (cache.finish t' rest).2 ∧
      SameRows o (cache.finish t rest).1 (cache.finish t' rest).1 := by
  subst owner
  cases rest with
  | evictOld => exact ⟨rfl, h.evictOld cache.maxSize⟩
  | delete chatId messageId item => exact ⟨rfl, h.delete_key _⟩

/-- A statement of another cache leaves the rows of the owner alone. -/
theorem rowsOf_begin (other : o ≠ cache.ownerUserId) (operation : Operation) :
    (cache.begin t operation).1.rowsOf o = t.rowsOf o := by
  cases operation with
  | remember m now => exact CachedMessages.rowsOf_upsert other
  | get chatId messageId => rfl
  | pop chatId messageId =>
      simp only [RecentMessageCache.begin]
      split <;> rfl
  | popByMessageId messageId =>
      simp only [RecentMessageCache.begin]
      split <;> rfl
  | count => rfl

theorem rowsOf_finish (other : o ≠ cache.ownerUserId) (rest : Rest) :
    (cache.finish t rest).1.rowsOf o = t.rowsOf o := by
  cases rest with
  | evictOld => exact CachedMessages.rowsOf_evictOld other
  | delete chatId messageId item => exact CachedMessages.rowsOf_delete_key other

end Statements

section Unwinding

variable {caches : Nat → Option RecentMessageCache} {o : Int} {w w' : Caches}

/-- The same rows of the owner, and the same suspended operations of all its sessions. -/
structure SameView (caches : Nat → Option RecentMessageCache) (o : Int) (w w' : Caches) :
    Prop where
  rows : SameRows o w.table w'.table
  suspended : ∀ sessionId cache, caches sessionId = some cache → cache.ownerUserId = o →
    w.suspended sessionId = w'.suspended sessionId

theorem SameView.refl (caches : Nat → Option RecentMessageCache) (o : Int) (w : Caches) :
    SameView caches o w w :=
  ⟨.refl o w.table, fun _ _ _ _ => rfl⟩

theorem SameView.symm (h : SameView caches o w w') : SameView caches o w' w where
  rows := by
    obtain ⟨ps, hpaired, hfst, hsnd⟩ := h.rows
    refine ⟨ps.map Prod.swap, ⟨?_, ?_⟩, ?_, ?_⟩
    · intro p hp
      obtain ⟨q, hq, rfl⟩ := List.mem_map.mp hp
      exact (hpaired.same q hq).symm
    · intro p hp p' hp'
      obtain ⟨q, hq, rfl⟩ := List.mem_map.mp hp
      obtain ⟨q', hq', rfl⟩ := List.mem_map.mp hp'
      exact (hpaired.rowids q hq q' hq').symm
    · rw [List.map_map]
      exact hsnd
    · rw [List.map_map]
      exact hfst
  suspended sessionId cache hcache howner := (h.suspended sessionId cache hcache howner).symm

/-- Both sides suspend the same operations of a session. -/
theorem SameView.update (h : SameView caches o w w') {t t' : CachedMessages}
    (rows : SameRows o t t') (sessionId : Nat) (rests : List Rest) :
    SameView caches o ⟨t, Function.update w.suspended sessionId rests⟩
      ⟨t', Function.update w'.suspended sessionId rests⟩ where
  rows := rows
  suspended other cache hcache howner := by
    by_cases hsame : other = sessionId
    · simp [hsame]
    · simpa [Function.update_of_ne hsame] using h.suspended other cache hcache howner

/-- A step of a worker of the owner. -/
theorem SameView.own (h : SameView caches o w w') {cache : RecentMessageCache} {a : CacheAction}
    (hcache : caches a.sessionId = some cache) (owner : cache.ownerUserId = o) :
    (Caches.step caches w a).2 = (Caches.step caches w' a).2 ∧
      SameView caches o (Caches.step caches w a).1 (Caches.step caches w' a).1 := by
  have hsuspended := h.suspended a.sessionId cache hcache owner
  simp only [Caches.step, hcache]
  cases a.move with
  | start operation =>
      obtain ⟨hout, hrows⟩ := h.rows.begin owner operation
      simp only [Caches.move, ← hout, hsuspended]
      cases (cache.begin w.table operation).2 with
      | inl response => exact ⟨rfl, hrows, h.suspended⟩
      | inr rest => exact ⟨rfl, h.update hrows a.sessionId _⟩
  | resume index =>
      simp only [Caches.move, hsuspended]
      cases (w'.suspended a.sessionId)[index]? with
      | none => exact ⟨rfl, h⟩
      | some rest =>
          obtain ⟨hout, hrows⟩ := h.rows.finish owner rest
          exact ⟨congrArg some hout, h.update hrows a.sessionId _⟩

/-- What a step of another worker changes. -/
theorem step_other {a : CacheAction}
    (other : ∀ cache, caches a.sessionId = some cache → cache.ownerUserId ≠ o) :
    (Caches.step caches w a).1.table.rowsOf o = w.table.rowsOf o ∧
      ∀ sessionId cache, caches sessionId = some cache → cache.ownerUserId = o →
        (Caches.step caches w a).1.suspended sessionId = w.suspended sessionId := by
  cases hcache : caches a.sessionId with
  | none =>
      simp only [Caches.step, hcache]
      exact ⟨trivial, fun _ _ _ _ => trivial⟩
  | some cache =>
      have hne : o ≠ cache.ownerUserId := (other cache hcache).symm
      have hsession : ∀ sessionId cache', caches sessionId = some cache' →
          cache'.ownerUserId = o → sessionId ≠ a.sessionId := by
        rintro _ cache' hcache' howner rfl
        exact other cache' hcache' howner
      simp only [Caches.step, hcache]
      cases a.move with
      | start operation =>
          have hrows := rowsOf_begin (t := w.table) hne operation
          simp only [Caches.move]
          cases (cache.begin w.table operation).2 with
          | inl response => exact ⟨hrows, fun _ _ _ _ => rfl⟩
          | inr rest =>
              exact ⟨hrows, fun id cache' h howner =>
                Function.update_of_ne (hsession id cache' h howner) _ _⟩
      | resume index =>
          simp only [Caches.move]
          cases (w.suspended a.sessionId)[index]? with
          | none => exact ⟨rfl, fun _ _ _ _ => rfl⟩
          | some rest =>
              exact ⟨rowsOf_finish hne rest, fun id cache' h howner =>
                Function.update_of_ne (hsession id cache' h howner) _ _⟩

/-- A step of another worker is not noticed. -/
theorem SameView.skip (h : SameView caches o w w') {a : CacheAction}
    (other : ∀ cache, caches a.sessionId = some cache → cache.ownerUserId ≠ o) :
    SameView caches o (Caches.step caches w a).1 w' := by
  obtain ⟨hrows, hsuspended⟩ := step_other (w := w) other
  exact ⟨h.rows.of_rowsOf hrows, fun id cache hcache howner =>
    (hsuspended id cache hcache howner).trans (h.suspended id cache hcache howner)⟩

/-- The view of an owner unwinds the steps of a worker of another owner. -/
theorem unwinding {a b : Nat} {cache cache' : RecentMessageCache} (ha : caches a = some cache)
    (hb : caches b = some cache') (hne : cache.ownerUserId ≠ cache'.ownerUserId) :
    Unwinding (Caches.step caches) (·.sessionId = a) (·.sessionId = b)
      (SameView caches cache.ownerUserId) where
  apart := by
    intro action hhidden
    refine decide_eq_false fun hsees => hne ?_
    rw [← hsees, of_decide_eq_true hhidden, hb] at ha
    rw [Option.some.inj ha]
  skip := by
    intro w w' action h hhidden
    refine h.skip fun other hother => ?_
    rw [of_decide_eq_true hhidden, hb] at hother
    rw [← Option.some.inj hother]
    exact hne.symm
  together := by
    intro w w' action h _
    by_cases hown : ∃ other, caches action.sessionId = some other ∧
        other.ownerUserId = cache.ownerUserId
    · obtain ⟨other, hother, howner⟩ := hown
      exact (h.own hother howner).2
    · have hothers : ∀ other, caches action.sessionId = some other →
          other.ownerUserId ≠ cache.ownerUserId :=
        fun other hother howner => hown ⟨other, hother, howner⟩
      exact ((h.skip hothers).symm.skip hothers).symm
  agree := by
    intro w w' action h hsees
    rw [← of_decide_eq_true hsees] at ha
    exact (h.own ha rfl).1

end Unwinding

/-- What has just been stored under a key is found there. -/
theorem get_upsert (t : CachedMessages) (o : Int) (m : CachedMessage) (now : ℚ) :
    (t.upsert o m now).get o m.chatId m.messageId = some m := by
  have hfind : (t.upsert o m now).find? (o, m.chatId, m.messageId) =
      some (.ofMessage (t.rowidFor (o, m.chatId, m.messageId)) o m now) :=
    List.find?_cons_of_pos (decide_eq_true rfl)
  rw [CachedMessages.get, hfind, Option.map_some, CachedRow.toCached_ofMessage]

/-- A message reaches both accounts; the second worker looks for it. -/
def crossedLookup (a b : Nat) : List CacheAction :=
  [⟨b, .start (.remember (note 5 1 "hi") 0)⟩, ⟨a, .start (.get 5 1)⟩]

/-- Two workers of one owner share their rows. -/
theorem not_isolated {caches : Nat → Option RecentMessageCache} {a b : Nat}
    {cache cache' : RecentMessageCache} (ha : caches a = some cache)
    (hb : caches b = some cache') (hne : a ≠ b)
    (same : cache.ownerUserId = cache'.ownerUserId) : ¬ Isolated caches a b := by
  intro hisolated
  have hlookups := hisolated .empty (crossedLookup a b)
  have hgot : (CachedMessages.empty.upsert cache'.ownerUserId (note 5 1 "hi") 0).get
      cache'.ownerUserId 5 1 = some (note 5 1 "hi") := get_upsert _ _ (note 5 1 "hi") 0
  have hfilter : (crossedLookup a b).filter (·.sessionId ≠ b) =
      [⟨a, .start (.get 5 1)⟩] := by
    simp [crossedLookup, hne]
  rw [hfilter] at hlookups
  simp only [lookups, crossedLookup, observed_cons, observed_nil, Caches.step, ha, hb,
    Caches.move, RecentMessageCache.begin, hne.symm, decide_false, decide_true, if_true] at hlookups
  rw [same, hgot] at hlookups
  -- without the other worker the table is empty
  cases hlookups

/-- Two workers are isolated exactly if their sessions belong to different users. -/
theorem workers_isolated_iff (decrypt : Bytes → Option String) (table : Dict Nat SessionRow)
    (a b : Nat) (sa sb : ActiveSession) (hne : a ≠ b)
    (ha : (Dict.ofPairs (Pool.loadActiveSessions decrypt table)).lookup a = some sa)
    (hb : (Dict.ofPairs (Pool.loadActiveSessions decrypt table)).lookup b = some sb) :
    Isolated (workerCache (Dict.ofPairs (Pool.loadActiveSessions decrypt table))) a b ↔
      sa.ownerUserId ≠ sb.ownerUserId := by
  have hcache : workerCache (Dict.ofPairs (Pool.loadActiveSessions decrypt table)) a =
      some { ownerUserId := sa.ownerUserId } := by
    rw [workerCache, ha, Option.map_some]
  have hcache' : workerCache (Dict.ofPairs (Pool.loadActiveSessions decrypt table)) b =
      some { ownerUserId := sb.ownerUserId } := by
    rw [workerCache, hb, Option.map_some]
  constructor
  · intro hisolated hsame
    exact not_isolated hcache hcache' hne (congrArg Int.ofNat hsame) hisolated
  · intro howners t schedule
    have hunwinding := unwinding hcache hcache' fun h => howners (Int.ofNat.inj h)
    have hobserved := hunwinding.observed_eq (.refl _ _ ⟨t, fun _ => []⟩) schedule
    rw [lookups, lookups, hobserved]
    simp only [ne_eq, decide_not]

/-- The rows of two users, the first one with two phones. -/
def threePhones : Dict Nat SessionRow := Dict.ofPairs
  [(1, ⟨7, 70, none, ⟨[1], true⟩⟩), (2, ⟨7, 70, none, ⟨[2], true⟩⟩),
    (3, ⟨8, 80, none, ⟨[3], true⟩⟩)]

/-- The worker of the first phone finds what the worker of the second one has stored. -/
theorem phones_of_one_user_not_isolated :
    ¬ ∀ a b, a ≠ b →
      ((Dict.ofPairs (Pool.loadActiveSessions (fun _ => some "s") threePhones)).lookup
        a).isSome →
      ((Dict.ofPairs (Pool.loadActiveSessions (fun _ => some "s") threePhones)).lookup
        b).isSome →
      Isolated (workerCache (Dict.ofPairs
        (Pool.loadActiveSessions (fun _ => some "s") threePhones))) a b := by
  intro h
  have hlookups := h 1 2 (by decide) (by decide) (by decide) .empty (crossedLookup 1 2)
  exact absurd hlookups (by decide)

/-- The worker of another user is isolated from them. -/
theorem phones_of_two_users_isolated :
    Isolated (workerCache (Dict.ofPairs
      (Pool.loadActiveSessions (fun _ => some "s") threePhones))) 1 3 :=
  (workers_isolated_iff (fun _ => some "s") threePhones 1 3 ⟨7, 70, "uk", "s", [1]⟩
    ⟨8, 80, "uk", "s", [3]⟩ (by decide) (by decide) (by decide)).mpr (by decide)

end UserTgBot.MessageCache
