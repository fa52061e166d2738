import UserTgBot.Payments.Gate
import UserTgBot.Settings.Edits
import UserTgBot.Userbot.Autosave
import UserTgBot.Userbot.Isolation
import UserTgBot.Userbot.Notices

/-!
# From deleted messages to saved ones

The three handlers of `userbot/handlers/autosave.py` for the workers of all owners, from the
event to `notify_owner`, over the shared cache and the tables that `_handle` reads and writes.
Handlers run as concurrent tasks, also those of several accounts of one owner, and give way at
every await. One step executes one statement, as in `Userbot.Isolation`: the two statements of a
`remember` or of a pop are two steps, and so are the checks of `_handle`, whose transaction is READ
COMMITTED and sees with every statement what others have committed by then. Statement and commit
are one step where the commit follows at once: a write of another connection waits for it, and a
read of another connection in between sees what it would have seen before.

The statements on the cache are kept in the order of their execution, and what `_handle` is told
carries the number of the `SELECT` that it comes from. So "reported once" and "not lost" are
statements about these numbers.

Handlers run to their end or to an exception. Telethon also cancels them when the worker of a
session stops, which is left out here: a handler that is cancelled takes no further step, and what
it had not saved by then is lost.
-/

namespace UserTgBot.Captures

open Transition
open PyText (Text text)
open MessageCache (CachedMessages CachedMessage CachedRow Operation Response Rest
  RecentMessageCache)
open Autosave (NewMessage Captured)
open Notices (HandleArgs EventType onDeleted onEdited)
open Payments (activeRowsFor getActiveSubscriptionForUser SubscriptionRow)
open Settings (Features)

/-! ## Tables -/

/-- A row of `saved_messages`. -/
structure SavedMessage where
  ownerUserId : Nat
  chatId : Int
  messageId : Int
  senderId : Option Int
  eventType : EventType
  text : Option Text
  previousText : Option Text
deriving DecidableEq

/-- A row of `ignored_chats`. -/
structure IgnoredChat where
  ownerUserId : Nat
  chatId : Int
  chatTitle : Option Text
deriving DecidableEq

/-- `is_chat_ignored`. -/
def isChatIgnored (rows : List IgnoredChat) (ownerUserId : Nat) (chatId : Int) : Bool :=
  rows.any fun row => row.ownerUserId = ownerUserId && row.chatId = chatId

/-- `add_ignored_chat`. -/
def addIgnoredChat (rows : List IgnoredChat) (ownerUserId : Nat) (chatId : Int)
    (chatTitle : Option Text) : List IgnoredChat :=
  if isChatIgnored rows ownerUserId chatId then rows
  else rows ++ [⟨ownerUserId, chatId, chatTitle⟩]

/-- `remove_ignored_chat`. -/
def removeIgnoredChat (rows : List IgnoredChat) (ownerUserId : Nat) (chatId : Int) :
    List IgnoredChat :=
  rows.filter fun row => !(row.ownerUserId = ownerUserId && row.chatId = chatId)

/-! ## Handlers -/

/-- A `MessageEdited` event. -/
structure Edit where
  chatId : Int
  id : Int
  senderId : Option Int
  rawText : String
deriving DecidableEq

/-- What `on_edited` compares and reports. -/
def Edit.event (e : Edit) : Notices.MessageEdited where
  chatId := e.chatId
  id := e.id
  senderId := e.senderId
  rawText := text e.rawText

/-- What `on_edited` remembers: everything but the text is carried over. -/
def Edit.remembered (e : Edit) (cached : Option CachedMessage) : CachedMessage where
  chatId := e.chatId
  messageId := e.id
  senderId := e.senderId
  text := some e.rawText
  media := cached.bind CachedMessage.media
  mediaKind := cached.bind CachedMessage.mediaKind
  mediaFilename := cached.bind CachedMessage.mediaFilename
  location := cached.bind CachedMessage.location

inductive Event where
  | newMessage (e : NewMessage)
  | messageEdited (e : Edit)
  | messageDeleted (chatId : Option Int) (deletedIds : List Int)

/-- What `_capture_media` returns, given whether the owner has a subscription and what the
download gives; a download that raises gives nothing. -/
def captureMedia (e : NewMessage) (active : Bool) (data : Option (Option Bytes)) : Captured :=
  match e.downloadable? with
  | none => .nothing
  | some (kind, filename) =>
      if active then
        match data with
        | none => .nothing
        | some data => ⟨data, some kind, filename⟩
      else .nothing

/-- The rest of a loop over `deleted_ids`. -/
structure Loop where
  chatId : Option Int
  deletedIds : List Int
deriving DecidableEq

/-- The checks of `_handle`, in their order. -/
inductive Gate where
  | subscription
  | features
  | ignored
deriving DecidableEq

def Gate.next : Gate → Option Gate
  | .subscription => some .features
  | .features => some .ignored
  | .ignored => none

/-- The await a handler is suspended at, named after the statement that is executed next. `origin`
is the number of the `SELECT` that has brought what is being handled. -/
inductive Phase where
  | capturing (e : NewMessage)
  | remembering (m : CachedMessage)
  | reading (e : Edit)
  | rewriting (e : Edit) (cached : Option CachedMessage) (origin : Nat)
  /-- The end of a `remember`; after that of an edit there may be something to report. -/
  | evicting (told : Option (HandleArgs × Nat))
  | selecting (chatId : Option Int) (messageId : Int) (rest : List Int)
  | deleting (chatId messageId : Int) (item : CachedMessage) (origin : Nat) (loop : Loop)
  | resolving (args : HandleArgs) (origin : Nat) (loop : Loop)
  | checking (gate : Gate) (args : HandleArgs) (origin : Nat) (loop : Loop)
  | committing (args : HandleArgs) (origin : Nat) (loop : Loop)
  | notifying (args : HandleArgs) (origin : Nat) (loop : Loop)
deriving DecidableEq

/-- How an await ends. -/
inductive Reply where
  | captured (active : Bool) (data : Option (Option Bytes))
  | remembered (now : ℚ)
  | done
  | resolved (bot : Bool)
  | read (now : DateTime)
  | committed
  | notified
  | raised

/-- Why `_handle` returns before it notifies. -/
inductive Refusal where
  | bot
  | noSubscription
  | featureOff
  | chatIgnored
  | failed
deriving DecidableEq

/-- A statement on the cache that has been executed, with what a `SELECT` has found. `DELETE`
names the `SELECT` of its pop. Evictions are not kept. -/
inductive Statement where
  | insert (ownerUserId : Int) (m : CachedMessage)
  | select (ownerUserId : Int) (operation : Operation) (found : Option CachedMessage)
  | delete (ownerUserId chatId messageId : Int) (origin : Nat)

structure World where
  cache : CachedMessages
  statements : List Statement
  subs : List Subscription
  settings : Settings.Database
  ignored : List IgnoredChat
  /-- The rows of `saved_messages`, each with its origin. -/
  saved : List (SavedMessage × Nat)
  /-- The calls of `notify_owner`. -/
  notices : List (Nat × HandleArgs × Nat)
  refused : List (Refusal × Nat)
  /-- The owner and the phase of each handler. -/
  handlers : Nat → Option (Nat × Phase)

def World.initial (subs : List Subscription) (settings : Settings.Database)
    (ignored : List IgnoredChat) : World where
  cache := .empty
  statements := []
  subs := subs
  settings := settings
  ignored := ignored
  saved := []
  notices := []
  refused := []
  handlers := fun _ => none

inductive Action where
  | arrive (h : Nat) (ownerUserId : Nat) (event : Event)
  | resume (h : Nat) (reply : Reply)
  | addIgnored (ownerUserId : Nat) (chatId : Int) (chatTitle : Option Text)
  | removeIgnored (ownerUserId : Nat) (chatId : Int)
  /-- Payments, revocations and settings; they do not concern the handlers otherwise. -/
  | outside (subs : List Subscription) (settings : Settings.Database)

/-- The row that `save_captured_message` adds. -/
def savedMessage (ownerUserId : Nat) (args : HandleArgs) : SavedMessage where
  ownerUserId := ownerUserId
  chatId := args.chatId
  messageId := args.messageId
  senderId := args.senderId
  eventType := args.eventType
  text := args.text
  previousText := args.previousText

/-- The handler that an action starts or goes on with. -/
def Action.handler? : Action → Option Nat
  | .arrive h _ _ => some h
  | .resume h _ => some h
  | _ => none

/-- What a `SELECT` of the cache brings. -/
def foundBy : Response ⊕ Rest → Option CachedMessage
  | .inl (.message m) => m
  | .inr (.delete _ _ item) => some item
  | _ => none

namespace World

variable (w : World) (cache : RecentMessageCache) (h ownerUserId : Nat)

/-- The handler goes on to wait, or is over. -/
def move (next : Option Phase) : World :=
  { w with handlers := Function.update w.handlers h (next.map (ownerUserId, ·)) }

/-- The `INSERT` of a `remember`. -/
def insert (m : CachedMessage) (now : ℚ) : World :=
  { w with
    cache := (cache.begin w.cache (.remember m now)).1
    statements := w.statements ++ [.insert cache.ownerUserId m] }

/-- The `DELETE` of a `remember`. -/
def evict : World :=
  { w with cache := (cache.finish w.cache .evictOld).1 }

/-- The `SELECT` of a `get` or of a pop. -/
def select (operation : Operation) : World :=
  { w with statements := w.statements ++
      [.select cache.ownerUserId operation (foundBy (cache.begin w.cache operation).2)] }

/-- The `DELETE` of a pop. -/
def delete (chatId messageId : Int) (item : CachedMessage) (origin : Nat) : World :=
  { w with
    cache := (cache.finish w.cache (.delete chatId messageId item)).1
    statements := w.statements ++ [.delete cache.ownerUserId chatId messageId origin] }

def refuse (why : Refusal) (origin : Nat) : World :=
  { w with refused := w.refused ++ [(why, origin)] }

def save (args : HandleArgs) (origin : Nat) : World :=
  { w with saved := w.saved ++ [(savedMessage ownerUserId args, origin)] }

/-- `notify_owner`. -/
def notify (args : HandleArgs) (origin : Nat) : World :=
  { w with notices := w.notices ++ [(ownerUserId, args, origin)] }

/-- A check of `_handle`. -/
def refusal? (args : HandleArgs) (now : DateTime) : Gate → Option Refusal
  | .subscription =>
      let result := OrderBy.sortDesc (fun sub : SubscriptionRow => sub.createdAt)
        (activeRowsFor w.subs ownerUserId)
      match getActiveSubscriptionForUser (.utc now) result with
      | none => some .failed
      | some none => some .noSubscription
      | some (some _) => none
  | .features =>
      match Features.fromDict (w.settings.loadFeatures ownerUserId) with
      | none => some .failed
      | some features =>
          if args.eventType = .deleted ∧ features.deleted = false then some .featureOff
          else if args.eventType = .edited ∧ features.edited = false then some .featureOff
          else none
  | .ignored =>
      if isChatIgnored w.ignored ownerUserId args.chatId then some .chatIgnored else none

end World

/-- The loop over `deleted_ids` goes on. -/
def Loop.next (loop : Loop) : Option Phase :=
  match loop.deletedIds with
  | [] => none
  | id :: rest => some (.selecting loop.chatId id rest)

/-- `ctx.cache.pop(...) if event.chat_id else ctx.cache.pop_by_message_id(...)`. -/
def popOperation (chatId : Option Int) (messageId : Int) : Operation :=
  match chatId.filter (· ≠ 0) with
  | some chatId => .pop chatId messageId
  | none => .popByMessageId messageId

/-- A pop that has found something goes on to delete it. -/
def afterSelect (origin : Nat) (loop : Loop) : Response ⊕ Rest → Option Phase
  | .inr (.delete chatId messageId item) => some (.deleting chatId messageId item origin loop)
  | _ => loop.next

/-- `_handle` is called if there is something to report. -/
def afterDelete (item : CachedMessage) (origin : Nat) (loop : Loop) : Option Phase :=
  match onDeleted (some item) with
  | none => loop.next
  | some args => some (.resolving args origin loop)

/-- The statement after a check that lets a message through. -/
def afterCheck (gate : Gate) (args : HandleArgs) (origin : Nat) (loop : Loop) : Phase :=
  match gate.next with
  | some gate => .checking gate args origin loop
  | none => .committing args origin loop

/-- A handler runs up to its first await. -/
def Event.begin : Event → Option Phase
  | .newMessage e => some (.capturing e)
  | .messageEdited e => some (.reading e)
  | .messageDeleted chatId deletedIds => Loop.next ⟨chatId, deletedIds⟩

/-- An exception ends the handler, but `_handle` catches what its transaction raises.
`entities.resolve` and `notify_owner` do not raise. -/
def raised (w : World) (h ownerUserId : Nat) : Phase → Option World
  | .checking _ _ origin loop => some ((w.refuse .failed origin).move h ownerUserId loop.next)
  | .committing _ origin loop => some ((w.refuse .failed origin).move h ownerUserId loop.next)
  | .resolving _ _ _ => none
  | .notifying _ _ _ => none
  | _ => some (w.move h ownerUserId none)

section Step

variable (maxSize : Int → Nat)

/-- The cache of the owner's workers. -/
def cacheOf (ownerUserId : Nat) : RecentMessageCache := ⟨ownerUserId, maxSize ownerUserId⟩

/-- A handler gets the reply it waits for and runs up to its next await. -/
def resume (w : World) (h ownerUserId : Nat) : Phase → Reply → Option World
  | .capturing e, .captured active data =>
      some (w.move h ownerUserId (some (.remembering (e.remembered (captureMedia e active data)))))
  | .remembering m, .remembered now =>
      some ((w.insert (cacheOf maxSize ownerUserId) m now).move h ownerUserId
        (some (.evicting none)))
  | .reading e, .done =>
      let cache := cacheOf maxSize ownerUserId
      let operation : Operation := .get e.chatId e.id
      some ((w.select cache operation).move h ownerUserId (some (.rewriting e
        (foundBy (cache.begin w.cache operation).2) w.statements.length)))
  | .rewriting e cached origin, .remembered now =>
      some ((w.insert (cacheOf maxSize ownerUserId) (e.remembered cached) now).move h ownerUserId
        (some (.evicting ((onEdited e.event cached).map (·, origin)))))
  | .evicting told, .done =>
      some ((w.evict (cacheOf maxSize ownerUserId)).move h ownerUserId
        (told.map fun told => .resolving told.1 told.2 ⟨none, []⟩))
  | .selecting chatId messageId rest, .done =>
      let cache := cacheOf maxSize ownerUserId
      let operation := popOperation chatId messageId
      some ((w.select cache operation).move h ownerUserId
        (afterSelect w.statements.length ⟨chatId, rest⟩ (cache.begin w.cache operation).2))
  | .deleting chatId messageId item origin loop, .done =>
      some ((w.delete (cacheOf maxSize ownerUserId) chatId messageId item origin).move h
        ownerUserId (afterDelete item origin loop))
  | .resolving args origin loop, .resolved bot =>
      if args.sender.isSome && bot then
        some ((w.refuse .bot origin).move h ownerUserId loop.next)
      else some (w.move h ownerUserId (some (.checking .subscription args origin loop)))
  | .checking gate args origin loop, .read now =>
      match w.refusal? ownerUserId args now gate with
      | some why => some ((w.refuse why origin).move h ownerUserId loop.next)
      | none => some (w.move h ownerUserId (some (afterCheck gate args origin loop)))
  | .committing args origin loop, .committed =>
      some ((w.save ownerUserId args origin).move h ownerUserId
        (some (.notifying args origin loop)))
  | .notifying args origin loop, .notified =>
      some ((w.notify ownerUserId args origin).move h ownerUserId loop.next)
  | p, .raised => raised w h ownerUserId p
  | _, _ => none

/-- One step. A number that is not in use names a new handler. -/
def step (w : World) : Action → Option World
  | .arrive h ownerUserId event =>
      if w.handlers h = none then some (w.move h ownerUserId event.begin) else none
  | .resume h reply =>
      (w.handlers h).bind fun e => resume maxSize w h e.1 e.2 reply
  | .addIgnored ownerUserId chatId chatTitle =>
      some { w with ignored := addIgnoredChat w.ignored ownerUserId chatId chatTitle }
  | .removeIgnored ownerUserId chatId =>
      some { w with ignored := removeIgnoredChat w.ignored ownerUserId chatId }
  | .outside subs settings => some { w with subs := subs, settings := settings }

end Step

/-! ## What a handler touches -/

/-- The check that the handler has just come through. -/
def Phase.behind? : Phase → Option Gate
  | .checking .subscription _ _ _ => none
  | .checking .features _ _ _ => some .subscription
  | .checking .ignored _ _ _ => some .features
  | .committing _ _ _ => some .ignored
  | _ => none

/-- A handler leaves the other handlers and the list of ignored chats alone. It gets past a check
only if the check lets it, and it saves a message only when it commits. -/
structure Frame (w w' : World) (h ownerUserId : Nat) (p : Phase) (reply : Reply)
    (next : Option Phase) : Prop where
  handlers : w'.handlers = Function.update w.handlers h (next.map (ownerUserId, ·))
  ignored : w'.ignored = w.ignored
  checked : ∀ p' ∈ next, ∀ gate ∈ p'.behind?, ∃ args origin loop now,
    p = .checking gate args origin loop ∧ reply = .read now ∧
      w.refusal? ownerUserId args now gate = none ∧ p' = afterCheck gate args origin loop
  saved : w'.saved = w.saved ∨ ∃ args origin loop, p = .committing args origin loop ∧
    reply = .committed ∧ w'.saved = w.saved ++ [(savedMessage ownerUserId args, origin)]

section Frames

variable {maxSize : Int → Nat} {w w' : World} {h ownerUserId : Nat} {p : Phase} {reply : Reply}
variable {next : Option Phase}

theorem frame_of_not_behind
    (handlers : w'.handlers = Function.update w.handlers h (next.map (ownerUserId, ·)))
    (ignored : w'.ignored = w.ignored) (saved : w'.saved = w.saved)
    (quiet : ∀ p' ∈ next, p'.behind? = none) : Frame w w' h ownerUserId p reply next where
  handlers := handlers
  ignored := ignored
  checked p' hp' gate hgate := by
    rw [quiet p' hp'] at hgate
    cases hgate
  saved := .inl saved

theorem World.handlers_move_self :
    (w.move h ownerUserId next).handlers h = next.map (ownerUserId, ·) :=
  Function.update_self ..

theorem World.handlers_move_of_ne {k : Nat} (other : k ≠ h) :
    (w.move h ownerUserId next).handlers k = w.handlers k :=
  Function.update_of_ne other ..

theorem behind?_loop_next (loop : Loop) : ∀ p ∈ loop.next, p.behind? = none := by
  obtain ⟨chatId, deletedIds⟩ := loop
  cases deletedIds with
  | nil => exact fun p hp => (nomatch hp)
  | cons id rest =>
      intro p hp
      obtain rfl := Option.some.inj hp
      rfl

theorem behind?_afterSelect (origin : Nat) (loop : Loop) (found : Response ⊕ Rest) :
    ∀ p ∈ afterSelect origin loop found, p.behind? = none := by
  rcases found with response | evictOld | ⟨chatId, messageId, item⟩
  · exact behind?_loop_next loop
  · exact behind?_loop_next loop
  · intro p hp
    obtain rfl := Option.some.inj hp
    rfl

theorem behind?_afterDelete (item : CachedMessage) (origin : Nat) (loop : Loop) :
    ∀ p ∈ afterDelete item origin loop, p.behind? = none := by
  rw [afterDelete]
  split
  · exact behind?_loop_next loop
  · intro p hp
    obtain rfl := Option.some.inj hp
    rfl

theorem behind?_afterCheck (gate : Gate) (args : HandleArgs) (origin : Nat) (loop : Loop) :
    (afterCheck gate args origin loop).behind? = some gate := by
  cases gate <;> rfl

theorem afterCheck_inj {gate : Gate} {args args' : HandleArgs} {origin origin' : Nat}
    {loop loop' : Loop}
    (h : afterCheck gate args origin loop = afterCheck gate args' origin' loop') :
    args = args' ∧ origin = origin' ∧ loop = loop' := by
  cases gate <;> cases h <;> exact ⟨rfl, rfl, rfl⟩

theorem raised_frame (hr : raised w h ownerUserId p = some w') :
    ∃ next, Frame w w' h ownerUserId p .raised next := by
  cases p with
  | checking gate args origin loop =>
      obtain rfl := Option.some.inj hr
      exact ⟨loop.next, frame_of_not_behind rfl rfl rfl (behind?_loop_next loop)⟩
  | committing args origin loop =>
      obtain rfl := Option.some.inj hr
      exact ⟨loop.next, frame_of_not_behind rfl rfl rfl (behind?_loop_next loop)⟩
  | resolving args origin loop => cases hr
  | notifying args origin loop => cases hr
  | _ =>
      obtain rfl := Option.some.inj hr
      exact ⟨none, frame_of_not_behind rfl rfl rfl fun p hp => (nomatch hp)⟩

theorem resume_frame (hr : resume maxSize w h ownerUserId p reply = some w') :
    ∃ next, Frame w w' h ownerUserId p reply next := by
  cases reply
  case raised => exact raised_frame (by cases p <;> exact hr)
  all_goals cases p
  case captured.capturing active data e =>
    obtain rfl := Option.some.inj hr
    exact ⟨_, frame_of_not_behind rfl rfl rfl fun p hp => Option.some.inj hp ▸ rfl⟩
  case remembered.remembering now m =>
    obtain rfl := Option.some.inj hr
    exact ⟨_, frame_of_not_behind rfl rfl rfl fun p hp => Option.some.inj hp ▸ rfl⟩
  case remembered.rewriting now e cached origin =>
    obtain rfl := Option.some.inj hr
    exact ⟨_, frame_of_not_behind rfl rfl rfl fun p hp => Option.some.inj hp ▸ rfl⟩
  case done.reading e =>
    obtain rfl := Option.some.inj hr
    exact ⟨_, frame_of_not_behind rfl rfl rfl fun p hp => Option.some.inj hp ▸ rfl⟩
  case done.evicting told =>
    obtain rfl := Option.some.inj hr
    refine ⟨_, frame_of_not_behind rfl rfl rfl fun p hp => ?_⟩
    obtain ⟨-, -, rfl⟩ := Option.map_eq_some_iff.mp hp
    rfl
  case done.selecting chatId messageId rest =>
    obtain rfl := Option.some.inj hr
    exact ⟨_, frame_of_not_behind rfl rfl rfl (behind?_afterSelect _ _ _)⟩
  case done.deleting chatId messageId item origin loop =>
    obtain rfl := Option.some.inj hr
    exact ⟨_, frame_of_not_behind rfl rfl rfl (behind?_afterDelete _ _ _)⟩
  case resolved.resolving bot args origin loop =>
    rw [resume] at hr
    split at hr <;> obtain rfl := Option.some.inj hr
    · exact ⟨_, frame_of_not_behind rfl rfl rfl (behind?_loop_next loop)⟩
    · exact ⟨_, frame_of_not_behind rfl rfl rfl fun p hp => Option.some.inj hp ▸ rfl⟩
  case read.checking now gate args origin loop =>
    rw [resume] at hr
    cases hrefusal : w.refusal? ownerUserId args now gate with
    | some why =>
        rw [hrefusal] at hr
        obtain rfl := Option.some.inj hr
        exact ⟨_, frame_of_not_behind rfl rfl rfl (behind?_loop_next loop)⟩
    | none =>
        rw [hrefusal] at hr
        obtain rfl := Option.some.inj hr
        refine ⟨some (afterCheck gate args origin loop), rfl, rfl, fun p hp gate' hgate => ?_,
          .inl rfl⟩
        obtain rfl := Option.some.inj hp
        obtain rfl := Option.some.inj ((behind?_afterCheck gate args origin loop).symm.trans hgate)
        exact ⟨args, origin, loop, now, rfl, rfl, hrefusal, rfl⟩
  case committed.committing args origin loop =>
    obtain rfl := Option.some.inj hr
    refine ⟨some (.notifying args origin loop), rfl, rfl, fun p hp gate hgate => ?_,
      .inr ⟨args, origin, loop, rfl, rfl, rfl⟩⟩
    obtain rfl := Option.some.inj hp
    cases hgate
  case notified.notifying args origin loop =>
    obtain rfl := Option.some.inj hr
    exact ⟨_, frame_of_not_behind rfl rfl rfl (behind?_loop_next loop)⟩
  all_goals cases hr

theorem behind?_begin (event : Event) : ∀ p ∈ event.begin, p.behind? = none := by
  cases event with
  | newMessage e => exact fun p hp => Option.some.inj hp ▸ rfl
  | messageEdited e => exact fun p hp => Option.some.inj hp ▸ rfl
  | messageDeleted chatId deletedIds => exact behind?_loop_next ⟨chatId, deletedIds⟩

/-- Who is past a check after a step was past it before, or the step was that check. -/
theorem passed_step {a : Action} {k o : Nat} {p' : Phase} {gate : Gate}
    (hstep : step maxSize w a = some w') (hk : w'.handlers k = some (o, p'))
    (past : p'.behind? = some gate) :
    w.handlers k = some (o, p') ∨ ∃ args origin loop now, a = .resume k (.read now) ∧
      w.handlers k = some (o, .checking gate args origin loop) ∧
      w.refusal? o args now gate = none ∧ p' = afterCheck gate args origin loop := by
  cases a with
  | arrive h ownerUserId event =>
      obtain ⟨-, hstep⟩ := Option.ite_none_right_eq_some.mp hstep
      obtain rfl := Option.some.inj hstep
      by_cases heq : k = h
      · rw [heq, World.handlers_move_self] at hk
        obtain ⟨p, hp, hpair⟩ := Option.map_eq_some_iff.mp hk
        obtain ⟨-, rfl⟩ := Prod.mk.inj hpair
        rw [behind?_begin event p hp] at past
        cases past
      · rw [World.handlers_move_of_ne heq] at hk
        exact .inl hk
  | resume h reply =>
      obtain ⟨⟨ownerUserId, p⟩, hp, hr⟩ := Option.bind_eq_some_iff.mp hstep
      obtain ⟨next, frame⟩ := resume_frame hr
      rw [frame.handlers] at hk
      by_cases heq : k = h
      · rw [heq, Function.update_self] at hk
        obtain ⟨p', hnext, hpair⟩ := Option.map_eq_some_iff.mp hk
        obtain ⟨rfl, rfl⟩ := Prod.mk.inj hpair
        obtain ⟨args, origin, loop, now, rfl, rfl, hopen, hafter⟩ :=
          frame.checked _ hnext gate past
        exact .inr ⟨args, origin, loop, now, heq ▸ rfl, heq ▸ hp, hopen, hafter⟩
      · rw [Function.update_of_ne heq] at hk
        exact .inl hk
  | addIgnored _ _ _ | removeIgnored _ _ | outside _ _ =>
      obtain rfl := Option.some.inj hstep
      exact .inl hk

/-- Only a handler that commits adds a row to `saved_messages`. -/
theorem saved_step {a : Action} (hstep : step maxSize w a = some w') :
    w'.saved = w.saved ∨ ∃ h o args origin loop, a = .resume h .committed ∧
      w.handlers h = some (o, .committing args origin loop) ∧
      w'.saved = w.saved ++ [(savedMessage o args, origin)] := by
  cases a with
  | arrive h ownerUserId event =>
      obtain ⟨-, hstep⟩ := Option.ite_none_right_eq_some.mp hstep
      obtain rfl := Option.some.inj hstep
      exact .inl rfl
  | resume h reply =>
      obtain ⟨⟨ownerUserId, p⟩, hp, hr⟩ := Option.bind_eq_some_iff.mp hstep
      obtain ⟨next, frame⟩ := resume_frame hr
      obtain hsame | ⟨args, origin, loop, rfl, rfl, hsaved⟩ := frame.saved
      · exact .inl hsame
      · exact .inr ⟨h, ownerUserId, args, origin, loop, rfl, hp, hsaved⟩
  | addIgnored _ _ _ | removeIgnored _ _ | outside _ _ =>
      obtain rfl := Option.some.inj hstep
      exact .inl rfl

/-- Handlers that a run does not name stay as they are. -/
theorem handlers_run {actions : List Action} (run : exec (step maxSize) w actions = some w')
    (unnamed : ∀ a ∈ actions, a.handler? ≠ some h) : w'.handlers h = w.handlers h := by
  induction actions generalizing w with
  | nil =>
      obtain rfl := Option.some.inj run
      rfl
  | cons a actions ih =>
      obtain ⟨mid, hstep, hrest⟩ := exec_cons_eq_some.mp run
      obtain ⟨hfirst, hothers⟩ := List.forall_mem_cons.mp unnamed
      rw [ih hrest hothers]
      cases a with
      | arrive k o event =>
          obtain ⟨-, hstep⟩ := Option.ite_none_right_eq_some.mp hstep
          obtain rfl := Option.some.inj hstep
          exact World.handlers_move_of_ne fun heq => hfirst (congrArg some heq.symm)
      | resume k reply =>
          obtain ⟨e, -, hr⟩ := Option.bind_eq_some_iff.mp hstep
          obtain ⟨next, frame⟩ := resume_frame hr
          rw [frame.handlers]
          exact Function.update_of_ne (fun heq => hfirst (congrArg some heq.symm)) ..
      | addIgnored o chat title =>
          obtain rfl := Option.some.inj hstep
          rfl
      | removeIgnored o chat =>
          obtain rfl := Option.some.inj hstep
          rfl
      | outside subs settings =>
          obtain rfl := Option.some.inj hstep
          rfl

end Frames

end UserTgBot.Captures
