import UserTgBot.Library.Ledger
import UserTgBot.Userbot.Captures

/-!
# What is reported, and how often

Every `SELECT` of a pop or of an edit that brings something worth a report is a token, which its
handler holds until `_handle` has saved the message or has returned. A second ledger holds the
pops that have yet to delete what they have found. Two pops may find one message when their
`SELECT`s both come before the first `DELETE`; the statements tell them apart.
-/

namespace UserTgBot.Captures

open Transition
open MessageCache (CachedMessages CachedMessage CachedRow Operation Response Rest
  RecentMessageCache)
open Notices (HandleArgs onDeleted onEdited)
open PyText (text)

/-! ## What the cache has found -/

/-- The effect of a statement on the last version of a message. -/
def noteStatement (o : Int) (k : Int × Int) (last : Option CachedMessage) :
    Statement → Option CachedMessage
  | .insert owner m => if owner = o ∧ (m.chatId, m.messageId) = k then some m else last
  | .select _ _ _ => last
  | .delete owner chatId messageId _ =>
      if owner = o ∧ (chatId, messageId) = k then none else last

/-- The version of a message that has been remembered last, if it has not been deleted since. -/
def lastVersion (o : Int) (k : Int × Int) (statements : List Statement) : Option CachedMessage :=
  statements.foldl (noteStatement o k) none

/-- The `SELECT` that a `DELETE` follows up. -/
def Statement.deletes? : Statement → Option Nat
  | .delete _ _ _ origin => some origin
  | _ => none

/-- The `SELECT`s of the pops that have deleted what they had found. -/
def deletions (statements : List Statement) : List Nat := statements.filterMap Statement.deletes?

/-- The operation takes the message out of the cache. -/
def Pops (operation : Operation) (m : CachedMessage) : Prop :=
  operation = .pop m.chatId m.messageId ∨ operation = .popByMessageId m.messageId

/-- `_handle` is told what `SELECT` number `i` has found, which was the last version of the
message then: a pop has deleted it since, or an edit has replaced it. -/
def ComesFrom (statements : List Statement) (ownerUserId : Nat) (args : HandleArgs)
    (i : Nat) : Prop :=
  ∃ operation m, statements[i]? = some (.select ownerUserId operation (some m)) ∧
    lastVersion ownerUserId (m.chatId, m.messageId) (statements.take i) = some m ∧
    match args.eventType with
    | .deleted => Pops operation m ∧ onDeleted (some m) = some args ∧
        ∃ l, i < l ∧ statements[l]? = some (.delete ownerUserId m.chatId m.messageId i)
    | .edited => operation = .get m.chatId m.messageId ∧ ∃ e : Edit,
        e.chatId = m.chatId ∧ e.id = m.messageId ∧ onEdited e.event (some m) = some args

/-- The table holds the last version of each of its messages. -/
def Remembers (w : World) : Prop :=
  ∀ r ∈ w.cache.rows, lastVersion r.ownerUserId r.messageKey w.statements = some r.toCached

section Cache

variable {w : World} {cache : RecentMessageCache} {operation : Operation}

theorem lastVersion_append (o : Int) (k : Int × Int) (statements : List Statement)
    (e : Statement) :
    lastVersion o k (statements ++ [e]) = noteStatement o k (lastVersion o k statements) e := by
  rw [lastVersion, List.foldl_append]
  rfl

theorem Remembers.insert (remembers : Remembers w) (m : CachedMessage) (now : ℚ) :
    Remembers (w.insert cache m now) := by
  intro r hr
  rw [World.insert, lastVersion_append, noteStatement]
  obtain rfl | hr := List.mem_cons.mp hr
  · rw [if_pos ⟨rfl, rfl⟩, CachedRow.toCached_ofMessage]
  · obtain ⟨hold, hkey⟩ := List.mem_filter.mp hr
    have hne : ¬(cache.ownerUserId = r.ownerUserId ∧ (m.chatId, m.messageId) = r.messageKey) := by
      rintro ⟨howner, hmessage⟩
      refine of_decide_eq_true hkey ?_
      rw [CachedRow.key, howner]
      exact congrArg (r.ownerUserId, ·) hmessage.symm
    rw [if_neg hne]
    exact remembers r hold

theorem Remembers.evict (remembers : Remembers w) : Remembers (w.evict cache) :=
  fun r hr => remembers r (List.mem_of_mem_filter hr)

theorem Remembers.select (remembers : Remembers w) : Remembers (w.select cache operation) := by
  intro r hr
  rw [World.select, lastVersion_append]
  exact remembers r hr

theorem Remembers.delete (remembers : Remembers w) (chatId messageId : Int)
    (item : CachedMessage) (origin : Nat) :
    Remembers (w.delete cache chatId messageId item origin) := by
  intro r hr
  obtain ⟨hold, hkey⟩ := List.mem_filter.mp hr
  have hne : ¬(cache.ownerUserId = r.ownerUserId ∧ (chatId, messageId) = r.messageKey) := by
    rintro ⟨howner, hmessage⟩
    have hkey' : r.key ≠ (cache.ownerUserId, chatId, messageId) := by simpa using hkey
    apply hkey'
    rw [CachedRow.key, howner]
    exact congrArg (r.ownerUserId, ·) hmessage.symm
  rw [World.delete, lastVersion_append, noteStatement, if_neg hne]
  exact remembers r hold

/-- A `get` brings the last version. -/
theorem Remembers.get (remembers : Remembers w) {chatId messageId : Int} {m : CachedMessage}
    (found : foundBy (cache.begin w.cache (.get chatId messageId)).2 = some m) :
    m.chatId = chatId ∧ m.messageId = messageId ∧
      lastVersion cache.ownerUserId (m.chatId, m.messageId) w.statements = some m := by
  obtain ⟨r, hfind, rfl⟩ := Option.map_eq_some_iff.mp found
  have hkey : r.key = (cache.ownerUserId, chatId, messageId) := by
    have hsat := List.find?_some hfind
    exact of_decide_eq_true hsat
  obtain ⟨howner, hmessage⟩ := Prod.mk.inj hkey
  obtain ⟨hchat, hid⟩ := Prod.mk.inj hmessage
  refine ⟨hchat, hid, ?_⟩
  rw [← howner]
  exact remembers r (List.mem_of_find?_eq_some hfind)

/-- The `SELECT` of a pop finds nothing, or it brings the last version, which the pop goes on to
delete. -/
theorem Remembers.pop (remembers : Remembers w) (chatId : Option Int) (messageId : Int) :
    (cache.begin w.cache (popOperation chatId messageId)).2 = .inl (.message none) ∨
      ∃ m, (cache.begin w.cache (popOperation chatId messageId)).2 =
          .inr (.delete m.chatId m.messageId m) ∧
        Pops (popOperation chatId messageId) m ∧
        lastVersion cache.ownerUserId (m.chatId, m.messageId) w.statements = some m := by
  rw [popOperation]
  cases chatId.filter (· ≠ 0) with
  | some chat =>
      simp only [RecentMessageCache.begin]
      cases hget : w.cache.get cache.ownerUserId chat messageId with
      | none => exact .inl rfl
      | some m =>
          obtain ⟨hchat, hid, hlast⟩ := remembers.get hget
          subst hchat hid
          exact .inr ⟨m, rfl, .inl rfl, hlast⟩
  | none =>
      simp only [RecentMessageCache.begin]
      cases hrow : (w.cache.newest fun r =>
          r.ownerUserId = cache.ownerUserId ∧ r.messageId = messageId).head? with
      | none => exact .inl rfl
      | some row =>
          have hmem := List.mem_of_mem_head? hrow
          rw [CachedMessages.newest, List.mem_insertionSort] at hmem
          obtain ⟨hin, hsat⟩ := List.mem_filter.mp hmem
          obtain ⟨howner, rfl⟩ := of_decide_eq_true hsat
          refine .inr ⟨row.toCached, rfl, .inr rfl, ?_⟩
          rw [← howner]
          exact remembers row hin

end Cache

/-! ## What is under way -/

/-- The `SELECT` that the handler has yet to report. -/
def Phase.open? : Phase → Option Nat
  | .rewriting _ _ origin => some origin
  | .evicting told => told.map Prod.snd
  | .deleting _ _ _ origin _ => some origin
  | .resolving _ origin _ => some origin
  | .checking _ _ origin _ => some origin
  | .committing _ origin _ => some origin
  | _ => none

/-- The `SELECT` of the pop that has yet to delete what it has found. -/
def Phase.pending? : Phase → Option Nat
  | .deleting _ _ _ origin _ => some origin
  | _ => none

/-- The saved message of which the owner has yet to be told. -/
def Phase.unsent? : Phase → Option Nat
  | .notifying _ origin _ => some origin
  | _ => none

namespace World

variable (w : World)

/-- The token of a handler. -/
def held (token : Phase → Option Nat) (h : Nat) : Option Nat :=
  (w.handlers h).bind fun e => token e.2

/-- The `SELECT`s that have led to a saved message or to a refusal. -/
def settled : List Nat := w.saved.map Prod.snd ++ w.refused.map Prod.snd

end World

/-- What is under way comes from the cache. -/
def Phase.Fits (w : World) (ownerUserId : Nat) : Phase → Prop
  | .rewriting e cached origin =>
      (∃ found, w.statements[origin]? = some (.select ownerUserId (.get e.chatId e.id) found)) ∧
        ∀ args, onEdited e.event cached = some args →
          ComesFrom w.statements ownerUserId args origin
  | .evicting told => ∀ t ∈ told,
      t.1.eventType = .edited ∧ ComesFrom w.statements ownerUserId t.1 t.2
  | .deleting chatId messageId item origin _ =>
      chatId = item.chatId ∧ messageId = item.messageId ∧ ∃ operation,
        w.statements[origin]? = some (.select ownerUserId operation (some item)) ∧
          Pops operation item ∧ lastVersion ownerUserId (item.chatId, item.messageId)
            (w.statements.take origin) = some item
  | .resolving args origin _ => ComesFrom w.statements ownerUserId args origin
  | .checking _ args origin _ => ComesFrom w.statements ownerUserId args origin
  | .committing args origin _ => ComesFrom w.statements ownerUserId args origin
  | .notifying args origin _ =>
      (savedMessage ownerUserId args, origin) ∈ w.saved ∧
        ComesFrom w.statements ownerUserId args origin
  | _ => True

/-- A pop has found a message that is worth a report, and has deleted it. -/
def Reportable (statements : List Statement) (i : Nat) : Prop :=
  ∃ o operation m, statements[i]? = some (.select o operation (some m)) ∧ Pops operation m ∧
    onDeleted (some m) ≠ none ∧ i ∈ deletions statements

structure Inv (w : World) : Prop where
  remembers : Remembers w
  fits : ∀ h o p, w.handlers h = some (o, p) → p.Fits w o
  pops : Ledger.Sound (w.statements.length ≤ ·) (w.held Phase.pending?) (deletions w.statements)
  ledger : Ledger.Sound (w.statements.length ≤ ·) (w.held Phase.open?) w.settled
  saved : ∀ s ∈ w.saved, ∃ args, ComesFrom w.statements s.1.ownerUserId args s.2 ∧
    s.1 = savedMessage s.1.ownerUserId args
  mail : Ledger.Sound (· ∉ w.saved.map Prod.snd) (w.held Phase.unsent?)
    (w.notices.map fun n => n.2.2)
  notices : ∀ n ∈ w.notices, (savedMessage n.1 n.2.1, n.2.2) ∈ w.saved ∧
    ComesFrom w.statements n.1 n.2.1 n.2.2
  complete : ∀ i, Reportable w.statements i → Ledger.Known (w.held Phase.open?) w.settled i
  delivered : ∀ i ∈ w.saved.map Prod.snd,
    Ledger.Known (w.held Phase.unsent?) (w.notices.map fun n => n.2.2) i

section Invariant

variable {w w' : World} {h ownerUserId i : Nat} {args : HandleArgs} {p : Phase}
variable {statements statements' : List Statement} {e : Statement} {next : Option Phase}

theorem getElem?_grown {α : Type} {l l' : List α} {a : α} (grows : l <+: l')
    (found : l[i]? = some a) : l'[i]? = some a := by
  obtain ⟨tail, rfl⟩ := grows
  have hlt : i < l.length := (List.getElem?_eq_some_iff.mp found).1
  rw [List.getElem?_append_left hlt]
  exact found

theorem take_grown {α : Type} {l l' : List α} {a : α} (grows : l <+: l')
    (found : l[i]? = some a) : l'.take i = l.take i := by
  obtain ⟨tail, rfl⟩ := grows
  have hlt : i < l.length := (List.getElem?_eq_some_iff.mp found).1
  rw [List.take_append_of_le_length (Nat.le_of_lt hlt)]

theorem lastVersion_grown (grows : statements <+: statements') {o : Int} {k : Int × Int}
    (found : statements[i]? = some e) :
    lastVersion o k (statements'.take i) = lastVersion o k (statements.take i) := by
  rw [take_grown grows found]

/-- Later statements do not matter. -/
theorem ComesFrom.mono (c : ComesFrom statements ownerUserId args i)
    (grows : statements <+: statements') : ComesFrom statements' ownerUserId args i := by
  obtain ⟨operation, m, hselect, hlast, hkind⟩ := c
  refine ⟨operation, m, getElem?_grown grows hselect,
    (lastVersion_grown grows hselect).trans hlast, ?_⟩
  cases hevent : args.eventType with
  | deleted =>
      rw [hevent] at hkind
      obtain ⟨hpops, htold, l, hl, hdelete⟩ := hkind
      exact ⟨hpops, htold, l, hl, getElem?_grown grows hdelete⟩
  | edited =>
      rw [hevent] at hkind
      exact hkind

theorem Phase.Fits.mono (f : p.Fits w ownerUserId) (grows : w.statements <+: w'.statements)
    (saved : w.saved ⊆ w'.saved) : p.Fits w' ownerUserId := by
  cases p with
  | rewriting e cached origin =>
      obtain ⟨⟨found, hselect⟩, htold⟩ := f
      exact ⟨⟨found, getElem?_grown grows hselect⟩,
        fun args hargs => (htold args hargs).mono grows⟩
  | evicting told => exact fun t ht => ⟨(f t ht).1, (f t ht).2.mono grows⟩
  | deleting chatId messageId item origin loop =>
      obtain ⟨hchat, hid, operation, hselect, hpops, hlast⟩ := f
      exact ⟨hchat, hid, operation, getElem?_grown grows hselect, hpops,
        (lastVersion_grown grows hselect).trans hlast⟩
  | resolving args origin loop => exact ComesFrom.mono f grows
  | checking gate args origin loop => exact ComesFrom.mono f grows
  | committing args origin loop => exact ComesFrom.mono f grows
  | notifying args origin loop => exact ⟨saved f.1, f.2.mono grows⟩
  | capturing e => trivial
  | remembering m => trivial
  | reading e => trivial
  | selecting chatId messageId rest => trivial

theorem held_eq (token : Phase → Option Nat)
    (moved : w'.handlers = Function.update w.handlers h (next.map (ownerUserId, ·))) :
    w'.held token = Function.update (w.held token) h (next.bind token) := by
  funext k
  by_cases heq : k = h
  · subst heq
    rw [Function.update_self, World.held, moved, Function.update_self]
    cases next <;> rfl
  · rw [Function.update_of_ne heq, World.held, moved, Function.update_of_ne heq]
    rfl

theorem held_of (token : Phase → Option Nat) (hp : w.handlers h = some (ownerUserId, p)) :
    w.held token h = token p := by
  rw [World.held, hp]
  rfl

theorem deletions_append (statements : List Statement) (e : Statement) :
    deletions (statements ++ [e]) = deletions statements ++ e.deletes?.toList := by
  rw [deletions, List.filterMap_append]
  cases hdeletes : e.deletes? <;> simp [deletions, hdeletes]

theorem deletions_append_of_none (quiet : e.deletes? = none) :
    deletions (statements ++ [e]) = deletions statements := by
  rw [deletions_append, quiet]
  exact List.append_nil _

/-- Whether a statement is reportable only changes when its pop deletes. -/
theorem reportable_append (hi : Reportable (statements ++ [e]) i) (old : i < statements.length)
    (other : e.deletes? ≠ some i) : Reportable statements i := by
  obtain ⟨o, operation, m, hselect, hpops, hworth, hdeleted⟩ := hi
  rw [List.getElem?_append_left old] at hselect
  rw [deletions_append] at hdeleted
  obtain hdeleted | hnew := List.mem_append.mp hdeleted
  · exact ⟨o, operation, m, hselect, hpops, hworth, hdeleted⟩
  · exact absurd (Option.mem_toList.mp hnew) other

/-- Statements that delete nothing make nothing reportable. -/
theorem Inv.reportable_append (inv : Inv w) (quiet : e.deletes? = none)
    (hi : Reportable (w.statements ++ [e]) i) : Reportable w.statements i := by
  obtain ⟨o, operation, m, hselect, hpops, hworth, hdeleted⟩ := hi
  have hdeleted' : i ∈ deletions w.statements := by
    rwa [deletions_append_of_none quiet] at hdeleted
  have hold : i < w.statements.length := Nat.lt_of_not_le (inv.pops.spentOld i hdeleted')
  rw [List.getElem?_append_left hold] at hselect
  exact ⟨o, operation, m, hselect, hpops, hworth, hdeleted'⟩

theorem fresh_append (statements : List Statement) (e : Statement) (j : Nat)
    (fresh : (statements ++ [e]).length ≤ j) : statements.length ≤ j ∧ j ≠ statements.length := by
  rw [List.length_append, List.length_singleton] at fresh
  omega

/-- Tokens are kept when a statement is executed. -/
theorem Sound.executed {held : Nat → Option Nat} {spent : List Nat}
    (s : Ledger.Sound (statements.length ≤ ·) held spent) (e : Statement) :
    Ledger.Sound ((statements ++ [e]).length ≤ ·) held spent :=
  s.age fun j hj => (fresh_append statements e j hj).1

/-- A handler takes a step: what it has not touched is as before. -/
theorem Inv.stepped (inv : Inv w)
    (moved : w'.handlers = Function.update w.handlers h (next.map (ownerUserId, ·)))
    (grows : w.statements <+: w'.statements) (more : w.saved ⊆ w'.saved)
    (remembers : Remembers w') (fits : ∀ p ∈ next, p.Fits w' ownerUserId)
    (pops : Ledger.Sound (w'.statements.length ≤ ·)
      (Function.update (w.held Phase.pending?) h (next.bind Phase.pending?))
      (deletions w'.statements))
    (ledger : Ledger.Sound (w'.statements.length ≤ ·)
      (Function.update (w.held Phase.open?) h (next.bind Phase.open?)) w'.settled)
    (saved : ∀ s ∈ w'.saved, s ∈ w.saved ∨ ∃ args,
      ComesFrom w'.statements s.1.ownerUserId args s.2 ∧ s.1 = savedMessage s.1.ownerUserId args)
    (mail : Ledger.Sound (· ∉ w'.saved.map Prod.snd)
      (Function.update (w.held Phase.unsent?) h (next.bind Phase.unsent?))
      (w'.notices.map fun n => n.2.2))
    (notices : ∀ n ∈ w'.notices, n ∈ w.notices ∨
      (savedMessage n.1 n.2.1, n.2.2) ∈ w'.saved ∧ ComesFrom w'.statements n.1 n.2.1 n.2.2)
    (complete : ∀ i, Reportable w'.statements i →
      Ledger.Known (Function.update (w.held Phase.open?) h (next.bind Phase.open?)) w'.settled i)
    (delivered : ∀ i ∈ w'.saved.map Prod.snd,
      Ledger.Known (Function.update (w.held Phase.unsent?) h (next.bind Phase.unsent?))
        (w'.notices.map fun n => n.2.2) i) :
    Inv w' where
  remembers := remembers
  fits := by
    intro k o p hk
    rw [moved] at hk
    by_cases heq : k = h
    · subst heq
      rw [Function.update_self] at hk
      obtain ⟨p', hnext, hp⟩ := Option.map_eq_some_iff.mp hk
      obtain ⟨rfl, rfl⟩ := Prod.mk.inj hp
      exact fits p' hnext
    · rw [Function.update_of_ne heq] at hk
      exact (inv.fits k o p hk).mono grows more
  pops := by
    rw [held_eq _ moved]
    exact pops
  ledger := by
    rw [held_eq _ moved]
    exact ledger
  saved := by
    intro s hs
    obtain hold | hnew := saved s hs
    · obtain ⟨args, hfrom, hrow⟩ := inv.saved s hold
      exact ⟨args, hfrom.mono grows, hrow⟩
    · exact hnew
  mail := by
    rw [held_eq _ moved]
    exact mail
  notices := by
    intro n hn
    obtain hold | hnew := notices n hn
    · obtain ⟨hsaved, hfrom⟩ := inv.notices n hold
      exact ⟨more hsaved, hfrom.mono grows⟩
    · exact hnew
  complete := by
    intro i hi
    rw [held_eq _ moved]
    exact complete i hi
  delivered := by
    intro i hi
    rw [held_eq _ moved]
    exact delivered i hi

/-- A handler that has nothing to tell keeps nobody waiting. -/
theorem Inv.stillDelivered (inv : Inv w) {next : Option Nat}
    (told : w.held Phase.unsent? h = none) : ∀ i ∈ w.saved.map Prod.snd,
      Ledger.Known (Function.update (w.held Phase.unsent?) h next)
        (w.notices.map fun n => n.2.2) i := by
  intro i hi
  refine (inv.delivered i hi).update (fun _ hmem => hmem) fun hheld => ?_
  rw [told] at hheld
  cases hheld

end Invariant

/-! ## One step -/

section Steps

variable {maxSize : Int → Nat} {w w' : World} {h ownerUserId origin : Nat} {args : HandleArgs}
variable {p : Phase} {next : Option Phase} {loop : Loop} {cache : RecentMessageCache}

/-- Nothing is taken, and nothing that has been taken is let go. -/
theorem Sound.same {fresh : Nat → Prop} {held : Nat → Option Nat} {spent : List Nat}
    {i : Option Nat} (s : Ledger.Sound fresh held spent) (same : i = none ∨ held h = i) :
    Ledger.Sound fresh (Function.update held h i) spent := by
  obtain rfl | rfl := same
  · exact s.drop h
  · rwa [Function.update_eq_self]

/-- The loop over `deleted_ids` has nothing under way. -/
structure Quiet (next : Option Phase) : Prop where
  fits : ∀ w ownerUserId, ∀ p ∈ next, p.Fits w ownerUserId
  opens : next.bind Phase.open? = none
  pends : next.bind Phase.pending? = none
  sends : next.bind Phase.unsent? = none

theorem quiet_none : Quiet none := ⟨fun _ _ _ hp => (nomatch hp), rfl, rfl, rfl⟩

theorem quiet_loop_next (loop : Loop) : Quiet loop.next := by
  obtain ⟨chatId, deletedIds⟩ := loop
  cases deletedIds with
  | nil => exact quiet_none
  | cons id rest =>
      refine ⟨fun w ownerUserId p hp => ?_, rfl, rfl, rfl⟩
      obtain rfl := Option.some.inj hp
      trivial

/-- The cache forgets old messages. -/
theorem Inv.evict (inv : Inv w) : Inv (w.evict cache) :=
  ⟨inv.remembers.evict, fun h o p hp =>
      Phase.Fits.mono (inv.fits h o p hp) List.prefix_rfl (fun _ hs => hs),
    inv.pops, inv.ledger, inv.saved, inv.mail, inv.notices, inv.complete, inv.delivered⟩

/-- The tables of the bot change without the handlers. -/
theorem Inv.outside (inv : Inv w) (subs : List Subscription) (settings : Settings.Database)
    (ignored : List IgnoredChat) :
    Inv { w with subs := subs, settings := settings, ignored := ignored } :=
  ⟨inv.remembers, fun h o p hp =>
      Phase.Fits.mono (inv.fits h o p hp) List.prefix_rfl (fun _ hs => hs),
    inv.pops, inv.ledger, inv.saved, inv.mail, inv.notices, inv.complete, inv.delivered⟩

/-- A message is remembered. -/
theorem Inv.insert (inv : Inv w) (m : CachedMessage) (now : ℚ) : Inv (w.insert cache m now) where
  remembers := inv.remembers.insert m now
  fits h o p hp := Phase.Fits.mono (inv.fits h o p hp) (List.prefix_append _ _) fun _ hs => hs
  pops := by
    have hsame : deletions (w.insert cache m now).statements = deletions w.statements :=
      deletions_append_of_none rfl
    rw [hsame]
    exact Sound.executed inv.pops _
  ledger := Sound.executed inv.ledger _
  saved := by
    intro s hs
    obtain ⟨args, hfrom, hrow⟩ := inv.saved s hs
    exact ⟨args, hfrom.mono (List.prefix_append _ _), hrow⟩
  mail := inv.mail
  notices n hn := ⟨(inv.notices n hn).1, (inv.notices n hn).2.mono (List.prefix_append _ _)⟩
  complete i hi := inv.complete i (inv.reportable_append rfl hi)
  delivered := inv.delivered

/-- A handler goes on without the cache and the tables. What it had to report it still has,
unless it is not reportable. -/
theorem Inv.proceed (inv : Inv w) (told : w.held Phase.unsent? h = none)
    (sends : next.bind Phase.unsent? = none) (pends : next.bind Phase.pending? = none)
    (fits : ∀ p ∈ next, p.Fits w ownerUserId)
    (kept : w.held Phase.open? h = next.bind Phase.open? ∨ next.bind Phase.open? = none ∧
      ∀ i, w.held Phase.open? h = some i → ¬Reportable w.statements i) :
    Inv (w.move h ownerUserId next) := by
  refine inv.stepped rfl List.prefix_rfl (fun _ hs => hs) inv.remembers fits ?_ ?_
    (fun _ hs => .inl hs) ?_ (fun _ hn => .inl hn) ?_ (inv.stillDelivered told)
  · rw [pends]
    exact inv.pops.drop h
  · refine Sound.same inv.ledger ?_
    obtain hsame | ⟨hnone, -⟩ := kept
    · exact .inr hsame
    · exact .inl hnone
  · rw [sends]
    exact inv.mail.drop h
  · intro i hi
    refine (inv.complete i hi).update (fun _ hmem => hmem) fun hheld => .inl ?_
    obtain hsame | ⟨-, hnot⟩ := kept
    · rw [← hsame, hheld]
    · exact absurd hi (hnot i hheld)

/-- The owner's cache is searched, and what is found may be a new token. -/
theorem Inv.select (inv : Inv w) {operation : Operation}
    (idle : w.held Phase.open? h = none) (told : w.held Phase.unsent? h = none)
    (sends : next.bind Phase.unsent? = none)
    (fits : ∀ p ∈ next, p.Fits (w.select cache operation) ownerUserId)
    (opens : next.bind Phase.open? = some w.statements.length ∨ next.bind Phase.open? = none)
    (pends : next.bind Phase.pending? = some w.statements.length ∨
      next.bind Phase.pending? = none) :
    Inv ((w.select cache operation).move h ownerUserId next) := by
  have htake : ∀ {held : Nat → Option Nat} {spent : List Nat} {i : Option Nat},
      Ledger.Sound (w.statements.length ≤ ·) held spent →
      i = some w.statements.length ∨ i = none →
      Ledger.Sound ((w.select cache operation).statements.length ≤ ·)
        (Function.update held h i) spent := by
    intro held spent i s hi
    obtain rfl | rfl := hi
    · exact s.take (Nat.le_refl _) (fresh_append _ _)
    · exact Sound.executed (s.drop h) _
  refine inv.stepped rfl (List.prefix_append _ _) (fun _ hs => hs) inv.remembers.select fits ?_
    (htake inv.ledger opens) (fun _ hs => .inl hs) ?_ (fun _ hn => .inl hn) ?_
    (inv.stillDelivered told)
  · have hsame : deletions (w.select cache operation).statements = deletions w.statements :=
      deletions_append_of_none rfl
    change Ledger.Sound _ _ (deletions (w.select cache operation).statements)
    rw [hsame]
    exact htake inv.pops pends
  · rw [sends]
    exact inv.mail.drop h
  · intro i hi
    refine (inv.complete i (inv.reportable_append rfl hi)).update (fun _ hmem => hmem)
      fun hheld => ?_
    rw [idle] at hheld
    cases hheld

theorem deleted_of_onDeleted {cached : Option CachedMessage} (h : onDeleted cached = some args) :
    args.eventType = .deleted := by
  obtain ⟨m, -, h⟩ := Option.bind_eq_some_iff.mp h
  obtain ⟨-, h⟩ := Option.ite_none_left_eq_some.mp h
  obtain rfl := Option.some.inj h
  rfl

theorem edited_of_onEdited {e : Notices.MessageEdited} {cached : Option CachedMessage}
    (h : onEdited e cached = some args) : args.eventType = .edited := by
  rw [onEdited] at h
  split at h
  · cases h
  · obtain ⟨-, h⟩ := Option.ite_none_left_eq_some.mp h
    obtain rfl := Option.some.inj h
    rfl

/-- After its `DELETE` a pop has something to report, or nothing is under way. -/
theorem tokens_afterDelete (item : CachedMessage) (origin : Nat) (loop : Loop) :
    (afterDelete item origin loop).bind Phase.pending? = none ∧
      (afterDelete item origin loop).bind Phase.unsent? = none ∧
      ((afterDelete item origin loop).bind Phase.open? = none ∧ onDeleted (some item) = none ∨
        (afterDelete item origin loop).bind Phase.open? = some origin) := by
  rw [afterDelete]
  cases onDeleted (some item) with
  | none =>
      have hquiet := quiet_loop_next loop
      exact ⟨hquiet.pends, hquiet.sends, .inl ⟨hquiet.opens, rfl⟩⟩
  | some args => exact ⟨rfl, rfl, .inr rfl⟩

theorem fits_afterDelete (inv : Inv w) {chatId messageId : Int} {item : CachedMessage}
    (hp : w.handlers h = some (ownerUserId, .deleting chatId messageId item origin loop)) :
    ∀ p ∈ afterDelete item origin loop, p.Fits
      (w.delete (cacheOf maxSize ownerUserId) chatId messageId item origin) ownerUserId := by
  obtain ⟨rfl, rfl, operation, hselect, hpops, hlast⟩ := inv.fits h ownerUserId _ hp
  have hold : origin < w.statements.length := (List.getElem?_eq_some_iff.mp hselect).1
  rw [afterDelete]
  cases htold : onDeleted (some item) with
  | none => exact (quiet_loop_next loop).fits _ _
  | some args =>
      intro p hnext
      obtain rfl := Option.some.inj hnext
      refine ⟨operation, item, getElem?_grown (List.prefix_append _ _) hselect,
        (lastVersion_grown (List.prefix_append _ _) hselect).trans hlast, ?_⟩
      rw [deleted_of_onDeleted htold]
      exact ⟨hpops, htold, w.statements.length, hold, List.getElem?_concat_length ..⟩

/-- A pop deletes what it has found. -/
theorem Inv.delete (inv : Inv w) {chatId messageId : Int} {item : CachedMessage}
    (hp : w.handlers h = some (ownerUserId, .deleting chatId messageId item origin loop)) :
    Inv ((w.delete (cacheOf maxSize ownerUserId) chatId messageId item origin).move h ownerUserId
      (afterDelete item origin loop)) := by
  obtain ⟨-, -, operation, hselect, -⟩ := inv.fits h ownerUserId _ hp
  have hopen : w.held Phase.open? h = some origin := held_of _ hp
  have hpending : w.held Phase.pending? h = some origin := held_of _ hp
  have hdeletions : deletions
      (w.delete (cacheOf maxSize ownerUserId) chatId messageId item origin).statements =
        deletions w.statements ++ [origin] := deletions_append _ _
  obtain ⟨hpends, hsends, hopens⟩ := tokens_afterDelete item origin loop
  refine inv.stepped rfl (List.prefix_append _ _) (fun _ hs => hs)
    (inv.remembers.delete _ _ item _) (fits_afterDelete inv hp) ?_ ?_ (fun _ hs => .inl hs) ?_
    (fun _ hn => .inl hn) ?_ (inv.stillDelivered (held_of _ hp))
  · rw [hpends]
    change Ledger.Sound _ _
      (deletions (w.delete (cacheOf maxSize ownerUserId) _ _ item _).statements)
    rw [hdeletions]
    exact Sound.executed (inv.pops.spend hpending) _
  · refine Sound.same (Sound.executed inv.ledger _) ?_
    obtain ⟨hnone, -⟩ | hsame := hopens
    · exact .inl hnone
    · exact .inr (hopen.trans hsame.symm)
  · rw [hsends]
    exact inv.mail.drop h
  · intro i hi
    by_cases heq : i = origin
    · subst heq
      obtain ⟨-, hsilent⟩ | hsame := hopens
      · obtain ⟨o, operation', m, hselect', -, hworth, -⟩ := hi
        have hboth := (getElem?_grown (List.prefix_append _ _) hselect).symm.trans hselect'
        obtain ⟨-, -, hm⟩ := Statement.select.inj (Option.some.inj hboth)
        rw [hm] at hsilent
        exact absurd hsilent hworth
      · rw [hsame]
        exact Ledger.Known.taken _ _ _ _
    · have hlt : i < w.statements.length := by
        obtain ⟨-, -, -, -, -, -, hdeleted⟩ := hi
        change i ∈ deletions
          (w.delete (cacheOf maxSize ownerUserId) _ _ item _).statements at hdeleted
        rw [hdeletions] at hdeleted
        obtain hdeleted | hnew := List.mem_append.mp hdeleted
        · exact Nat.lt_of_not_le (inv.pops.spentOld i hdeleted)
        · exact absurd (List.mem_singleton.mp hnew) heq
      have hbefore := Captures.reportable_append hi hlt fun hdeletes =>
        heq (Option.some.inj hdeletes).symm
      refine (inv.complete i hbefore).update (fun _ hmem => hmem) fun hheld => ?_
      exact absurd (Option.some.inj (hopen.symm.trans hheld)).symm heq

/-- `_handle` returns before it notifies. -/
theorem Inv.refused (inv : Inv w) (why : Refusal) (held : w.held Phase.open? h = some origin)
    (told : w.held Phase.unsent? h = none) :
    Inv ((w.refuse why origin).move h ownerUserId loop.next) := by
  have hquiet := quiet_loop_next loop
  have hsettled : (w.refuse why origin).settled = w.settled ++ [origin] := by
    simp [World.refuse, World.settled]
  refine inv.stepped rfl List.prefix_rfl (fun _ hs => hs) inv.remembers (hquiet.fits _ _) ?_ ?_
    (fun _ hs => .inl hs) ?_ (fun _ hn => .inl hn) ?_ (inv.stillDelivered told)
  · rw [hquiet.pends]
    exact inv.pops.drop h
  · rw [hquiet.opens]
    change Ledger.Sound (w.statements.length ≤ ·) _ (w.refuse why origin).settled
    rw [hsettled]
    exact inv.ledger.spend held
  · rw [hquiet.sends]
    exact inv.mail.drop h
  · intro i hi
    change Ledger.Known _ (w.refuse why origin).settled i
    rw [hsettled]
    refine (inv.complete i hi).update (fun _ hmem => List.mem_append_left _ hmem) fun hheld => ?_
    rw [held] at hheld
    obtain rfl := Option.some.inj hheld
    exact .inr (List.mem_append_right _ (List.mem_singleton_self _))

theorem settled_save (w : World) (o : Nat) (args : HandleArgs) (origin : Nat) :
    (w.save o args origin).settled.Perm (w.settled ++ [origin]) := by
  simp only [World.save, World.settled, List.map_append, List.map_cons, List.map_nil,
    List.append_assoc]
  exact (List.perm_append_comm).append_left _

/-- The message is saved. -/
theorem Inv.save (inv : Inv w)
    (hp : w.handlers h = some (ownerUserId, .committing args origin loop)) :
    Inv ((w.save ownerUserId args origin).move h ownerUserId
      (some (.notifying args origin loop))) := by
  have hfrom : ComesFrom w.statements ownerUserId args origin := inv.fits h ownerUserId _ hp
  have hheld : w.held Phase.open? h = some origin := held_of _ hp
  have hperm := settled_save w ownerUserId args origin
  have hmore : w.saved ⊆ (w.save ownerUserId args origin).saved := List.subset_append_left _ _
  have hmem : (savedMessage ownerUserId args, origin) ∈ (w.save ownerUserId args origin).saved :=
    List.mem_append_right _ (List.mem_singleton_self _)
  refine inv.stepped rfl List.prefix_rfl hmore inv.remembers ?_ (inv.pops.drop h) ?_ ?_ ?_
    (fun _ hn => .inl hn) ?_ ?_
  · intro p hnext
    obtain rfl := Option.some.inj hnext
    exact ⟨hmem, hfrom⟩
  · exact (inv.ledger.spend hheld).perm hperm
  · intro s hs
    obtain hold | hnew := List.mem_append.mp hs
    · exact .inl hold
    · obtain rfl := List.mem_singleton.mp hnew
      exact .inr ⟨args, hfrom, rfl⟩
  · have hnew : origin ∉ w.saved.map Prod.snd := fun hin =>
      inv.ledger.unspent h origin hheld (List.mem_append_left _ hin)
    refine inv.mail.take hnew fun j hj => ?_
    change j ∉ (w.saved ++ [(savedMessage ownerUserId args, origin)]).map Prod.snd at hj
    simpa using hj
  · intro i hi
    refine (inv.complete i hi).update (fun j hj => hperm.mem_iff.mpr (List.mem_append_left _ hj))
      fun hopen => .inr (hperm.mem_iff.mpr (List.mem_append_right _ ?_))
    rw [hheld] at hopen
    obtain rfl := Option.some.inj hopen
    exact List.mem_singleton_self _
  · intro i hi
    change i ∈ (w.saved ++ [(savedMessage ownerUserId args, origin)]).map Prod.snd at hi
    rw [List.map_append, List.mem_append] at hi
    obtain hold | hnew := hi
    · exact inv.stillDelivered (held_of _ hp) i hold
    · obtain rfl := List.mem_singleton.mp hnew
      exact Ledger.Known.taken _ _ _ _

/-- The owner is told. -/
theorem Inv.notify (inv : Inv w)
    (hp : w.handlers h = some (ownerUserId, .notifying args origin loop)) :
    Inv ((w.notify ownerUserId args origin).move h ownerUserId loop.next) := by
  have hquiet := quiet_loop_next loop
  have hin := inv.fits h ownerUserId _ hp
  have hopen : w.held Phase.open? h = none := held_of _ hp
  have hunsent : w.held Phase.unsent? h = some origin := held_of _ hp
  refine inv.stepped rfl List.prefix_rfl (fun _ hs => hs) inv.remembers (hquiet.fits _ _) ?_ ?_
    (fun _ hs => .inl hs) ?_ ?_ ?_ ?_
  · rw [hquiet.pends]
    exact inv.pops.drop h
  · rw [hquiet.opens]
    exact inv.ledger.drop h
  · rw [hquiet.sends]
    change Ledger.Sound _ _ ((w.notices ++ [(ownerUserId, args, origin)]).map fun n => n.2.2)
    rw [List.map_append]
    exact inv.mail.spend hunsent
  · intro n hn
    obtain hold | hnew := List.mem_append.mp hn
    · exact .inl hold
    · obtain rfl := List.mem_singleton.mp hnew
      exact .inr hin
  · intro i hi
    refine (inv.complete i hi).update (fun _ hmem => hmem) fun hheld => ?_
    rw [hopen] at hheld
    cases hheld
  · intro i hi
    change Ledger.Known _ ((w.notices ++ [(ownerUserId, args, origin)]).map fun n => n.2.2) i
    rw [List.map_append]
    refine (inv.delivered i hi).update (fun _ hmem => List.mem_append_left _ hmem) fun hheld => ?_
    rw [hunsent] at hheld
    exact .inr (List.mem_append_right _ (List.mem_singleton.mpr (Option.some.inj hheld).symm))

/-- A message is read before it is edited. -/
theorem fits_rewriting (inv : Inv w) (e : Edit) :
    (Phase.rewriting e (foundBy ((cacheOf maxSize ownerUserId).begin w.cache
        (.get e.chatId e.id)).2) w.statements.length).Fits
      (w.select (cacheOf maxSize ownerUserId) (.get e.chatId e.id)) ownerUserId := by
  have hselect : (w.select (cacheOf maxSize ownerUserId) (.get e.chatId e.id)).statements[
      w.statements.length]? = some (.select ownerUserId (.get e.chatId e.id)
        (foundBy ((cacheOf maxSize ownerUserId).begin w.cache (.get e.chatId e.id)).2)) :=
    List.getElem?_concat_length ..
  refine ⟨⟨_, hselect⟩, fun args hargs => ?_⟩
  cases hcached : foundBy ((cacheOf maxSize ownerUserId).begin w.cache
      (.get e.chatId e.id)).2 with
  | none =>
      rw [hcached] at hargs
      cases hargs
  | some m =>
      obtain ⟨hchat, hmessage, hlast⟩ := inv.remembers.get hcached
      rw [hcached] at hargs hselect
      refine ⟨_, m, hselect, ?_, ?_⟩
      · rw [World.select, List.take_left' rfl]
        exact hlast
      · rw [edited_of_onEdited hargs]
        exact ⟨by rw [hchat, hmessage], e, hchat.symm, hmessage.symm, hargs⟩

/-- What a pop finds it goes on to delete. -/
theorem Inv.selecting (inv : Inv w) {chatId : Option Int} {messageId : Int} {rest : List Int}
    (hp : w.handlers h = some (ownerUserId, .selecting chatId messageId rest)) :
    Inv ((w.select (cacheOf maxSize ownerUserId) (popOperation chatId messageId)).move h
      ownerUserId (afterSelect w.statements.length ⟨chatId, rest⟩
        ((cacheOf maxSize ownerUserId).begin w.cache (popOperation chatId messageId)).2)) := by
  obtain hnone | ⟨m, hfound, hpops, hlast⟩ :=
    @Remembers.pop _ (cacheOf maxSize ownerUserId) inv.remembers chatId messageId
  · have hquiet := quiet_loop_next ⟨chatId, rest⟩
    rw [hnone]
    exact inv.select (held_of _ hp) (held_of _ hp) hquiet.sends (hquiet.fits _ _)
      (.inr hquiet.opens) (.inr hquiet.pends)
  · have hselect : (w.select (cacheOf maxSize ownerUserId)
        (popOperation chatId messageId)).statements[w.statements.length]? =
          some (.select ownerUserId (popOperation chatId messageId) (some m)) := by
      rw [World.select, hfound]
      exact List.getElem?_concat_length ..
    rw [hfound]
    refine inv.select (held_of _ hp) (held_of _ hp) rfl (fun p hnext => ?_) (.inl rfl) (.inl rfl)
    obtain rfl := Option.some.inj hnext
    refine ⟨rfl, rfl, _, hselect, hpops, ?_⟩
    rw [World.select, List.take_left' rfl]
    exact hlast

theorem not_pops_get {chatId messageId : Int} {m : CachedMessage} :
    ¬Pops (.get chatId messageId) m := by
  rintro (h | h) <;> cases h

/-- An edit is not a deletion. -/
theorem not_reportable_of_get {statements : List Statement} {chatId messageId : Int} {i : Nat}
    {o : Int} {found : Option CachedMessage}
    (hget : statements[i]? = some (.select o (.get chatId messageId) found)) :
    ¬Reportable statements i := by
  rintro ⟨o', operation, m, hselect, hpops, -⟩
  obtain ⟨-, hoperation, -⟩ := Statement.select.inj (Option.some.inj (hget.symm.trans hselect))
  rw [← hoperation] at hpops
  exact not_pops_get hpops

theorem ComesFrom.not_reportable {statements : List Statement} {i : Nat}
    (c : ComesFrom statements ownerUserId args i) (kind : args.eventType = .edited) :
    ¬Reportable statements i := by
  obtain ⟨operation, m, hselect, -, hkind⟩ := c
  rw [kind] at hkind
  obtain ⟨rfl, -⟩ := hkind
  exact not_reportable_of_get hselect

/-- A handler that is waiting for a statement on the cache ends with an exception: it has nothing
to report, or nothing that is reportable. -/
theorem Inv.gone (inv : Inv w) (hp : w.handlers h = some (ownerUserId, p))
    (told : p.unsent? = none) (open? : ∀ i ∈ p.open?, ¬Reportable w.statements i) :
    Inv (w.move h ownerUserId none) :=
  inv.proceed ((held_of _ hp).trans told) rfl rfl (quiet_none.fits _ _)
    (.inr ⟨rfl, fun i hi => open? i ((held_of _ hp).symm.trans hi)⟩)

theorem Inv.raised (inv : Inv w) (hp : w.handlers h = some (ownerUserId, p))
    (hr : raised w h ownerUserId p = some w') : Inv w' := by
  have hfits := inv.fits h ownerUserId p hp
  cases p with
  | capturing e =>
      obtain rfl := Option.some.inj hr
      exact inv.gone hp rfl fun i hi => (nomatch hi)
  | remembering m =>
      obtain rfl := Option.some.inj hr
      exact inv.gone hp rfl fun i hi => (nomatch hi)
  | reading e =>
      obtain rfl := Option.some.inj hr
      exact inv.gone hp rfl fun i hi => (nomatch hi)
  | rewriting e cached origin =>
      obtain rfl := Option.some.inj hr
      obtain ⟨⟨found, hget⟩, -⟩ := hfits
      refine inv.gone hp rfl fun i hi => ?_
      obtain rfl := Option.some.inj hi
      exact not_reportable_of_get hget
  | evicting told =>
      obtain rfl := Option.some.inj hr
      refine inv.gone hp rfl fun i hi => ?_
      obtain ⟨t, ht, rfl⟩ := Option.map_eq_some_iff.mp hi
      exact (hfits t ht).2.not_reportable (hfits t ht).1
  | selecting chatId messageId rest =>
      obtain rfl := Option.some.inj hr
      exact inv.gone hp rfl fun i hi => (nomatch hi)
  | deleting chatId messageId item origin loop =>
      -- the message stays in the cache
      obtain rfl := Option.some.inj hr
      refine inv.gone hp rfl fun i hi hreportable => ?_
      obtain rfl := Option.some.inj hi
      obtain ⟨-, -, -, -, -, -, hdeleted⟩ := hreportable
      exact inv.pops.unspent h _ (held_of _ hp) hdeleted
  | resolving args origin loop => cases hr
  | checking gate args origin loop =>
      obtain rfl := Option.some.inj hr
      exact inv.refused .failed (held_of _ hp) (held_of _ hp)
  | committing args origin loop =>
      obtain rfl := Option.some.inj hr
      exact inv.refused .failed (held_of _ hp) (held_of _ hp)
  | notifying args origin loop => cases hr

theorem Inv.resume (inv : Inv w) (hp : w.handlers h = some (ownerUserId, p))
    {reply : Reply} (hr : resume maxSize w h ownerUserId p reply = some w') : Inv w' := by
  have hopen : w.held Phase.open? h = p.open? := held_of _ hp
  have htold : w.held Phase.unsent? h = p.unsent? := held_of _ hp
  have hfits := inv.fits h ownerUserId p hp
  cases reply
  case raised => exact inv.raised hp (by cases p <;> exact hr)
  all_goals cases p
  case captured.capturing active data e =>
    obtain rfl := Option.some.inj hr
    refine inv.proceed htold rfl rfl (fun p hnext => ?_) (.inl hopen)
    obtain rfl := Option.some.inj hnext
    trivial
  case remembered.remembering now m =>
    obtain rfl := Option.some.inj hr
    refine (inv.insert m now).proceed htold rfl rfl (fun p hnext => ?_) (.inl hopen)
    obtain rfl := Option.some.inj hnext
    exact fun t ht => (nomatch ht)
  case remembered.rewriting now e cached origin =>
    obtain rfl := Option.some.inj hr
    obtain ⟨⟨found, hget⟩, hargs⟩ := hfits
    refine (inv.insert (e.remembered cached) now).proceed htold rfl rfl (fun p hnext => ?_) ?_
    · obtain rfl := Option.some.inj hnext
      intro t ht
      obtain ⟨args, honEdited, rfl⟩ := Option.map_eq_some_iff.mp ht
      exact ⟨edited_of_onEdited honEdited,
        (hargs args honEdited).mono (List.prefix_append _ _)⟩
    · cases honEdited : onEdited e.event cached with
      | some args => exact .inl hopen
      | none =>
          refine .inr ⟨rfl, fun i hi => ?_⟩
          obtain rfl := Option.some.inj (hopen.symm.trans hi)
          exact not_reportable_of_get (getElem?_grown (List.prefix_append _ _) hget)
  case done.reading e =>
    obtain rfl := Option.some.inj hr
    refine inv.select hopen htold rfl (fun p hnext => ?_) (.inl rfl) (.inr rfl)
    obtain rfl := Option.some.inj hnext
    exact fits_rewriting inv e
  case done.evicting told =>
    obtain rfl := Option.some.inj hr
    cases told with
    | none => exact inv.evict.proceed htold rfl rfl (quiet_none.fits _ _) (.inl hopen)
    | some told =>
        refine inv.evict.proceed htold rfl rfl (fun p hnext => ?_) (.inl hopen)
        obtain rfl := Option.some.inj hnext
        exact (hfits told rfl).2
  case done.selecting chatId messageId rest =>
    obtain rfl := Option.some.inj hr
    exact inv.selecting hp
  case done.deleting chatId messageId item origin loop =>
    obtain rfl := Option.some.inj hr
    exact inv.delete hp
  case resolved.resolving bot args origin loop =>
    rw [Captures.resume] at hr
    split at hr <;> obtain rfl := Option.some.inj hr
    · exact inv.refused .bot hopen htold
    · refine inv.proceed htold rfl rfl (fun p hnext => ?_) (.inl hopen)
      obtain rfl := Option.some.inj hnext
      exact hfits
  case read.checking now gate args origin loop =>
    rw [Captures.resume] at hr
    split at hr <;> obtain rfl := Option.some.inj hr
    · exact inv.refused _ hopen htold
    · refine inv.proceed htold ?_ ?_ (fun p hnext => ?_) (.inl ?_)
      · cases gate <;> rfl
      · cases gate <;> rfl
      · obtain rfl := Option.some.inj hnext
        cases gate <;> exact hfits
      · cases gate <;> exact hopen
  case committed.committing args origin loop =>
    obtain rfl := Option.some.inj hr
    exact inv.save hp
  case notified.notifying args origin loop =>
    obtain rfl := Option.some.inj hr
    exact inv.notify hp
  all_goals cases hr

theorem Inv.step (w : World) (a : Action) (w' : World) (inv : Inv w)
    (hstep : step maxSize w a = some w') : Inv w' := by
  cases a with
  | arrive h ownerUserId event =>
      obtain ⟨hfree, hstep⟩ := Option.ite_none_right_eq_some.mp hstep
      obtain rfl := Option.some.inj hstep
      have hheld : ∀ token, w.held token h = none := by
        intro token
        rw [World.held, hfree]
        rfl
      have hquiet : Quiet event.begin := by
        cases event with
        | newMessage e => exact ⟨fun w o p hp => Option.some.inj hp ▸ trivial, rfl, rfl, rfl⟩
        | messageEdited e => exact ⟨fun w o p hp => Option.some.inj hp ▸ trivial, rfl, rfl, rfl⟩
        | messageDeleted chatId deletedIds => exact quiet_loop_next _
      exact inv.proceed (hheld _) hquiet.sends hquiet.pends (hquiet.fits _ _)
        (.inl ((hheld _).trans hquiet.opens.symm))
  | resume h reply =>
      obtain ⟨⟨ownerUserId, p⟩, hp, hr⟩ := Option.bind_eq_some_iff.mp hstep
      exact inv.resume hp hr
  | addIgnored ownerUserId chatId chatTitle =>
      obtain rfl := Option.some.inj hstep
      exact inv.outside _ _ _
  | removeIgnored ownerUserId chatId =>
      obtain rfl := Option.some.inj hstep
      exact inv.outside _ _ _
  | outside subs settings =>
      obtain rfl := Option.some.inj hstep
      exact inv.outside _ _ _

theorem inv_initial (subs : List Subscription) (settings : Settings.Database)
    (ignored : List IgnoredChat) : Inv (World.initial subs settings ignored) where
  remembers := fun r hr => nomatch hr
  fits := fun h o p hp => nomatch hp
  pops := Ledger.Sound.initial
  ledger := Ledger.Sound.initial
  saved := fun s hs => nomatch hs
  mail := Ledger.Sound.initial
  notices := fun n hn => nomatch hn
  complete := by
    rintro i ⟨o, operation, m, hselect, -⟩
    cases hselect
  delivered := fun i hi => nomatch hi

end Steps

/-! ## Faithful and once -/

/-- The message a row is about. -/
def SavedMessage.message (row : SavedMessage) : Nat × Int × Int :=
  (row.ownerUserId, row.chatId, row.messageId)

/-- Every saved message is the version that was remembered last when it was searched for, and
every notice is about a saved message. Nothing that has been found is saved or announced twice. Of
two deletions of one message either the second comes after the message has been remembered again,
or the two pops overlap: the second has searched before the first has deleted. -/
structure Faithful (w : World) : Prop where
  saved : ∀ s ∈ w.saved, ∃ args, ComesFrom w.statements s.1.ownerUserId args s.2 ∧
    s.1 = savedMessage s.1.ownerUserId args
  savedOnce : (w.saved.map Prod.snd).Nodup
  notices : ∀ n ∈ w.notices, (savedMessage n.1 n.2.1, n.2.2) ∈ w.saved ∧
    ComesFrom w.statements n.1 n.2.1 n.2.2
  noticedOnce : (w.notices.map fun n => n.2.2).Nodup
  deletedOnce : ∀ s ∈ w.saved, ∀ s' ∈ w.saved, s.1.eventType = .deleted →
    s'.1.eventType = .deleted → s.1.message = s'.1.message → s.2 < s'.2 →
      (∃ (l : Nat) (m : CachedMessage), s.2 < l ∧ l < s'.2 ∧
        w.statements[l]? = some (.insert s.1.ownerUserId m) ∧
          (s.1.ownerUserId, m.chatId, m.messageId) = s.1.message) ∨
      ∃ l, s'.2 < l ∧ w.statements[l]? =
        some (.delete s.1.ownerUserId s.1.chatId s.1.messageId s.2)

section Once

variable {statements : List Statement} {o : Int} {k : Int × Int}
variable {ownerUserId i j : Nat} {args args' : HandleArgs} {m : CachedMessage}

/-- Only an `INSERT` brings a value. -/
theorem noteStatement_eq_some {last : Option CachedMessage} {e : Statement}
    (h : noteStatement o k last e = some m) :
    last = some m ∨ e = .insert o m ∧ (m.chatId, m.messageId) = k := by
  cases e with
  | insert owner m' =>
      rw [noteStatement] at h
      split at h
      case isTrue hown =>
        obtain rfl := Option.some.inj h
        obtain ⟨rfl, hk⟩ := hown
        exact .inr ⟨rfl, hk⟩
      case isFalse => exact .inl h
  | select owner operation found => exact .inl h
  | delete owner chatId messageId origin =>
      rw [noteStatement] at h
      split at h
      · cases h
      · exact .inl h

/-- A value that was not there before has been remembered in between. -/
theorem exists_insert {last : Option CachedMessage}
    (h : statements.foldl (noteStatement o k) last = some m) (absent : last = none) :
    ∃ l : Nat, statements[l]? = some (.insert o m) ∧ (m.chatId, m.messageId) = k := by
  induction statements using List.reverseRecOn generalizing m with
  | nil =>
      rw [List.foldl_nil, absent] at h
      cases h
  | append_singleton statements e ih =>
      rw [List.foldl_append] at h
      obtain hold | ⟨rfl, hk⟩ := noteStatement_eq_some h
      · obtain ⟨l, hinsert, hk⟩ := ih hold
        exact ⟨l, getElem?_grown (List.prefix_append _ _) hinsert, hk⟩
      · exact ⟨statements.length, List.getElem?_concat_length .., hk⟩

theorem chat_of_onDeleted (h : onDeleted (some m) = some args) :
    args.chatId = m.chatId ∧ args.messageId = m.messageId := by
  obtain ⟨-, h⟩ := Option.ite_none_left_eq_some.mp h
  obtain rfl := Option.some.inj h
  exact ⟨rfl, rfl⟩

/-- The version that a deletion is about, and its `DELETE`. -/
theorem ComesFrom.deleted (c : ComesFrom statements ownerUserId args i)
    (kind : args.eventType = .deleted) :
    (∃ operation m, statements[i]? = some (.select ownerUserId operation (some m)) ∧
      lastVersion ownerUserId (args.chatId, args.messageId) (statements.take i) = some m) ∧
    ∃ l, i < l ∧
      statements[l]? = some (.delete ownerUserId args.chatId args.messageId i) := by
  obtain ⟨operation, m, hselect, hlast, hkind⟩ := c
  rw [kind] at hkind
  obtain ⟨-, htold, hdelete⟩ := hkind
  obtain ⟨hchat, hmessage⟩ := chat_of_onDeleted htold
  rw [hchat, hmessage]
  exact ⟨⟨operation, m, hselect, hlast⟩, hdelete⟩

/-- A message that is found after it has been deleted has been remembered in between. -/
theorem inserted_between {l : Nat} {chatId messageId : Int} {origin : Nat}
    (hdelete : statements[l]? = some (.delete o chatId messageId origin))
    (hlast : lastVersion o (chatId, messageId) (statements.take j) = some m) (lt : l < j) :
    ∃ r, l < r ∧ r < j ∧ statements[r]? = some (.insert o m) ∧
      (m.chatId, m.messageId) = (chatId, messageId) := by
  have hfirst : statements.take (l + 1) = statements.take l ++
      [.delete o chatId messageId origin] := by
    rw [List.take_add_one, hdelete]
    rfl
  have hsplit : statements.take j =
      statements.take (l + 1) ++ (statements.drop (l + 1)).take (j - (l + 1)) := by
    have hj : l + 1 + (j - (l + 1)) = j := by omega
    rw [← List.take_add, hj]
  rw [lastVersion, hsplit, List.foldl_append] at hlast
  have hgone : (statements.take (l + 1)).foldl (noteStatement o (chatId, messageId)) none =
      none := by
    rw [hfirst, List.foldl_append]
    exact if_pos ⟨rfl, rfl⟩
  obtain ⟨r, hinsert, hk⟩ := exists_insert hlast hgone
  obtain ⟨hr, -⟩ := List.getElem?_eq_some_iff.mp hinsert
  rw [List.length_take] at hr
  refine ⟨l + 1 + r, by omega, by omega, ?_, hk⟩
  rw [List.getElem?_take_of_lt (by omega), List.getElem?_drop] at hinsert
  exact hinsert

theorem Inv.faithful {w : World} (inv : Inv w) : Faithful w where
  saved := inv.saved
  savedOnce := (List.nodup_append.mp inv.ledger.nodup).1
  notices := inv.notices
  noticedOnce := inv.mail.nodup
  deletedOnce := by
    rintro ⟨row, i⟩ hs ⟨row', j⟩ hs' kind kind' same -
    obtain ⟨args, hfrom, hrow⟩ := inv.saved _ hs
    obtain ⟨args', hfrom', hrow'⟩ := inv.saved _ hs'
    obtain ⟨howner, hmessage⟩ := Prod.mk.inj same
    have hargs : args.eventType = .deleted := (congrArg SavedMessage.eventType hrow).symm.trans kind
    have hargs' : args'.eventType = .deleted :=
      (congrArg SavedMessage.eventType hrow').symm.trans kind'
    have hkey : (args.chatId, args.messageId) = (row.chatId, row.messageId) :=
      (congrArg (fun row => (row.chatId, row.messageId)) hrow).symm
    have hkey' : (args'.chatId, args'.messageId) = (row.chatId, row.messageId) :=
      (congrArg (fun row => (row.chatId, row.messageId)) hrow').symm.trans hmessage.symm
    obtain ⟨-, l, hl, hdelete⟩ := hfrom.deleted hargs
    obtain ⟨⟨operation, m, hselect, hlast⟩, -⟩ := hfrom'.deleted hargs'
    obtain ⟨hchat, hid⟩ := Prod.mk.inj hkey
    rw [hchat, hid] at hdelete
    rw [hkey', ← howner] at hlast
    obtain hlt | heq | hgt := Nat.lt_trichotomy l j
    · obtain ⟨r, hlr, hrj, hinsert, hk⟩ := inserted_between hdelete hlast hlt
      exact .inl ⟨r, m, hl.trans hlr, hrj, hinsert, congrArg (row.ownerUserId, ·) hk⟩
    · rw [heq] at hdelete
      cases hdelete.symm.trans hselect
    · exact .inr ⟨l, hgt, hdelete⟩

end Once

/-- In every interleaving of the handlers of all owners, what is saved and what is announced is
faithful to what the workers have received. -/
theorem captures_faithful (maxSize : Int → Nat) (subs : List Subscription)
    (settings : Settings.Database) (ignored : List IgnoredChat) {actions : List Action}
    {w : World} (run : exec (step maxSize) (.initial subs settings ignored) actions = some w) :
    Faithful w :=
  (exec_invariant Inv.step (inv_initial subs settings ignored) run).faithful

/-- A message is edited and deleted. The deletion reaches two accounts of the owner, of which one
does not learn the chat. -/
def editedThenDeleted : List Action :=
  [.arrive 0 1 (.newMessage { chatId := 5, id := 7, senderId := some 2, rawText := "a" }),
    .resume 0 (.captured false none), .resume 0 (.remembered 1), .resume 0 .done,
    .arrive 1 1 (.messageEdited ⟨5, 7, some 2, "b"⟩), .resume 1 .done,
    .resume 1 (.remembered 2), .resume 1 .done, .arrive 2 1 (.messageDeleted none [7]),
    .arrive 3 1 (.messageDeleted (some 5) [7]), .resume 2 .done, .resume 3 .done,
    .resume 2 .done, .resume 2 (.resolved false), .resume 2 (.read 5), .resume 2 (.read 5),
    .resume 1 (.resolved false), .resume 1 (.read 5), .resume 2 (.read 5), .resume 2 .committed,
    .resume 3 .done, .resume 3 (.resolved false), .resume 3 (.read 6), .resume 3 (.read 6),
    .resume 3 (.read 6), .resume 1 (.read 6), .resume 1 (.read 6), .resume 3 .committed,
    .resume 1 .committed, .resume 1 .notified, .resume 2 .notified, .resume 3 .notified]

/-- The owner has a subscription that does not expire. -/
def subscribed : List Subscription :=
  [{ userId := 1, tariff := "standard", status := .active, paymentProvider := "admin",
     createdAt := 0 }]

/-- The deletion overtakes the edit. It is reported twice, since both accounts find the message
before either deletes it. -/
theorem editedThenDeleted_faithful : ∃ w,
    exec (step fun _ => 10) (.initial subscribed {} []) editedThenDeleted = some w ∧
      w.saved = [(⟨1, 5, 7, some 2, .deleted, some (text "b"), none⟩, 3),
        (⟨1, 5, 7, some 2, .deleted, some (text "b"), none⟩, 4),
        (⟨1, 5, 7, some 2, .edited, some (text "b"), some (text "a")⟩, 1)] ∧ Faithful w := by
  have hsaved : (exec (step fun _ => 10) (.initial subscribed {} []) editedThenDeleted).map
      World.saved = some [(⟨1, 5, 7, some 2, .deleted, some (text "b"), none⟩, 3),
        (⟨1, 5, 7, some 2, .deleted, some (text "b"), none⟩, 4),
        (⟨1, 5, 7, some 2, .edited, some (text "b"), some (text "a")⟩, 1)] := by
    decide +kernel
  obtain ⟨w, hrun, hw⟩ := Option.map_eq_some_iff.mp hsaved
  exact ⟨w, hrun, hw, captures_faithful _ subscribed {} [] hrun⟩

/-! ## Nothing is lost -/

/-- With no handler under way, every deleted message that was worth a report has been saved or
refused, once for each pop, and every saved message has been announced. -/
theorem deletions_settled (maxSize : Int → Nat) (subs : List Subscription)
    (settings : Settings.Database) (ignored : List IgnoredChat) {actions : List Action}
    {w : World} (run : exec (step maxSize) (.initial subs settings ignored) actions = some w)
    (idle : ∀ h, w.handlers h = none) :
    (∀ i, Reportable w.statements i → w.settled.count i = 1) ∧
      ∀ i ∈ w.saved.map Prod.snd, (w.notices.map fun n => n.2.2).count i = 1 := by
  have inv := exec_invariant Inv.step (inv_initial subs settings ignored) run
  have hnone : ∀ token h, w.held token h = none := by
    intro token h
    rw [World.held, idle h]
    rfl
  constructor
  · intro i hi
    obtain hmem | ⟨h, hopen⟩ := inv.complete i hi
    · exact List.count_eq_one_of_mem inv.ledger.nodup hmem
    · rw [hnone] at hopen
      cases hopen
  · intro i hi
    obtain hmem | ⟨h, hunsent⟩ := inv.delivered i hi
    · exact List.count_eq_one_of_mem inv.mail.nodup hmem
    · rw [hnone] at hunsent
      cases hunsent

/-- Two more messages are deleted. The chat is ignored when the handler of one is about to commit
and that of the other about to look for the chat among the ignored ones. -/
def deletedMeanwhile : List Action :=
  editedThenDeleted ++ [.arrive 4 1 (.newMessage
      { chatId := 5, id := 8, senderId := none, rawText := "c" }),
    .resume 4 (.captured true none), .resume 4 (.remembered 3), .resume 4 .done,
    .arrive 5 1 (.newMessage { chatId := 5, id := 9, senderId := none, rawText := "d" }),
    .resume 5 (.captured true none), .resume 5 (.remembered 4), .resume 5 .done,
    .arrive 6 1 (.messageDeleted (some 5) [8]), .resume 6 .done, .resume 6 .done,
    .arrive 7 1 (.messageDeleted (some 5) [10, 9]), .resume 7 .done, .resume 7 .done,
    .resume 7 .done, .resume 6 (.resolved true), .resume 6 (.read 7), .resume 6 (.read 7),
    .resume 7 (.resolved true), .resume 7 (.read 7), .resume 6 (.read 7), .resume 7 (.read 7),
    .addIgnored 1 5 none]

/-- The two handlers go on. -/
def ignoredMeanwhile : List Action :=
  [.resume 7 (.read 8), .resume 6 .committed, .resume 6 .notified]

theorem ignoredMeanwhile_settled : ∃ w,
    exec (step fun _ => 10) (.initial subscribed {} []) (deletedMeanwhile ++ ignoredMeanwhile) =
      some w ∧ w.settled = [3, 4, 1, 9, 12] ∧
      (∀ i, Reportable w.statements i → w.settled.count i = 1) ∧
      ∀ i ∈ w.saved.map Prod.snd, (w.notices.map fun n => n.2.2).count i = 1 := by
  have hobserved : (exec (step fun _ => 10) (.initial subscribed {} [])
      (deletedMeanwhile ++ ignoredMeanwhile)).map
        (fun w => (w.settled, (List.range 8).all fun h => (w.handlers h).isNone)) =
          some ([3, 4, 1, 9, 12], true) := by
    decide +kernel
  obtain ⟨w, hrun, hw⟩ := Option.map_eq_some_iff.mp hobserved
  obtain ⟨hsettled, hnone⟩ := Prod.mk.inj hw
  refine ⟨w, hrun, hsettled, deletions_settled _ subscribed {} [] hrun fun h => ?_⟩
  have hnamed : ∀ a ∈ deletedMeanwhile ++ ignoredMeanwhile, ∀ k ∈ a.handler?, k < 8 := by
    decide +kernel
  obtain hlt | hge := Nat.lt_or_ge h 8
  · exact Option.isNone_iff_eq_none.mp (List.all_eq_true.mp hnone h (List.mem_range.mpr hlt))
  · refine handlers_run hrun fun a ha heq => ?_
    have hlt := hnamed a ha h heq
    omega

end UserTgBot.Captures
