import UserTgBot.Userbot.Formatting
import UserTgBot.Userbot.MessageCache

/-!
# Notices of deleted and edited messages

`on_deleted`, `on_edited` and `_handle` of `userbot/handlers/autosave.py` down to the calls of
the Bot API that `notify_owner` makes. The text of a message is put into a notice with a header
and two references, and the notice is sent as a message or as the caption of the medium; no one
shortens it. `captured_accepted_iff` says for which messages the Bot API takes it.

The keyboard below a notice is not modelled, and `save_captured_message` is one of the gates.
-/

namespace UserTgBot.Notices

open PyText Html I18n
open Formatting (Entity given given_some entityRef formatDeletedNotice formatEditedNotice deletedNotice
  editedNotice)
open MessageCache (CachedMessage)
open Settings (Features)

/-! ## References -/

/-- An entity of the Telegram client. Usernames are made of letters, digits and underscores. -/
structure TgEntity where
  id : Option Int
  username : Option Text := none
  firstName : Option Text := none
  lastName : Option Text := none
  title : Option Text := none
  bot : Bool := false
  usernameChars : ∀ username' ∈ username, ∀ c ∈ username', Formatting.isUsernameChar c = true

/-- `client.get_entity`; nothing if it raises. -/
abbrev Client := Int → Option TgEntity

namespace TgEntity

/-- `_name`. -/
def name (entity : TgEntity) : Option Text :=
  let parts := ((given entity.firstName).toList ++ (given entity.lastName).toList)
  match given (some ((text " ").intercalate parts)) with
  | some name => some name
  | none => entity.title

/-- What `entity_ref` is told about the entity. -/
def referent (entity : TgEntity) : Entity where
  id := entity.id
  username := entity.username
  name := entity.name
  usernameChars := entity.usernameChars

end TgEntity

/-- What `entity_ref` is told about an id. -/
def referent (client : Client) (id : Int) : Entity :=
  match client id with
  | none => { id := some id, usernameChars := fun _ h => absurd h (Option.not_mem_none _) }
  | some entity => entity.referent

/-- `resolve`: a reference and whether it is to a bot. -/
def resolve (client : Client) (id : Int) (lang : Language) : Text × Bool :=
  match client id with
  | none => (entityRef (some id) none none lang, false)
  | some entity => (entityRef entity.id entity.username entity.name lang, entity.bot)

/-! ## Deletions and edits -/

inductive EventType where
  | deleted
  | edited
deriving DecidableEq, Repr

/-- The arguments of `_handle`. -/
structure HandleArgs where
  chatId : Int
  messageId : Int
  senderId : Option Int
  eventType : EventType
  text : Option Text
  previousText : Option Text
  media : Option Bytes := none
  mediaKind : Option String := none
  mediaFilename : Option String := none
  location : Option (ℚ × ℚ) := none
deriving DecidableEq

/-- `on_deleted` for one message, with what `pop` has returned. -/
def onDeleted (cached : Option CachedMessage) : Option HandleArgs := do
  let cached ← cached
  if given (cached.text.map text) = none ∧ cached.media = none ∧ cached.location = none then none
  else some {
    chatId := cached.chatId
    messageId := cached.messageId
    senderId := cached.senderId
    eventType := .deleted
    text := cached.text.map text
    previousText := none
    media := cached.media
    mediaKind := cached.mediaKind
    mediaFilename := cached.mediaFilename
    location := cached.location }

/-- A text is enough to go on. -/
theorem onDeleted_of_text {cached : CachedMessage} {s : Text}
    (htext : cached.text.map text = some s) (hne : s ≠ []) :
    onDeleted (some cached) = some {
      chatId := cached.chatId
      messageId := cached.messageId
      senderId := cached.senderId
      eventType := .deleted
      text := some s
      previousText := none
      media := cached.media
      mediaKind := cached.mediaKind
      mediaFilename := cached.mediaFilename
      location := cached.location } := by
  simp [onDeleted, htext, given_some hne]

/-- A `MessageEdited` event. -/
structure MessageEdited where
  chatId : Int
  id : Int
  senderId : Option Int
  rawText : Text
deriving DecidableEq

/-- `on_edited`, with what `get` has returned. -/
def onEdited (event : MessageEdited) (cached : Option CachedMessage) : Option HandleArgs :=
  match (cached.bind CachedMessage.text).map text with
  | none => none
  | some previous =>
      if previous = event.rawText then none
      else some {
        chatId := event.chatId
        messageId := event.id
        senderId := event.senderId
        eventType := .edited
        text := some event.rawText
        previousText := some previous }

/-- A deletion with what was cached of the message, or an edit with what was cached before. -/
inductive Capture where
  | deletion (cached : Option CachedMessage)
  | edit (event : MessageEdited) (cached : Option CachedMessage)
deriving DecidableEq

/-- The call of `_handle`, if there is one. -/
def Capture.args : Capture → Option HandleArgs
  | .deletion cached => onDeleted cached
  | .edit event cached => onEdited event cached

/-! ## Delivery -/

inductive Method where
  | sendMessage
  | sendPhoto
  | sendVoice
  | sendVideo
  | sendDocument
  | sendLocation
deriving DecidableEq, Repr

/-- A call of the Bot API with its text or caption. -/
structure ApiCall where
  method : Method
  content : Text
deriving DecidableEq, Repr

/-- How many characters the Bot API takes after the markup has been read; a location comes
without a text. -/
def Method.limit : Method → Option Nat
  | .sendMessage => some 4096
  | .sendLocation => none
  | _ => some 1024

/-- The Bot API does not refuse the call for its text. -/
def ApiCall.Accepted (d : Dialect) (call : ApiCall) : Prop :=
  ∀ limit ∈ call.method.limit, ∃ ts, parse d call.content = some ts ∧ (visible ts).length ≤ limit

/-- The keyword arguments of `notify_owner`. -/
structure Payload where
  photo : Option Bytes := none
  voice : Option Bytes := none
  video : Option Bytes := none
  document : Option Bytes := none
  documentFilename : String := "file"
  location : Option (ℚ × ℚ) := none
deriving DecidableEq

/-- The fields of `WorkerContext` that are read, and what the gates of `_handle` find: the
subscription, the switches, the ignored chats, and whether the message was saved. -/
structure Context where
  ownerLang : Language
  ownerTelegramId : Option Int
  notifier : Bool
  subscribed : Bool
  features : Features
  ignored : Int → Bool
  saved : Bool

/-- There is a notifier and someone to notify. -/
def Context.notifies (ctx : Context) : Bool := ctx.notifier && ctx.ownerTelegramId.any (· ≠ 0)

/-- The calls that `notify_owner` makes, each if the ones before were accepted. -/
def notifyOwner (ctx : Context) (notice : Text) (payload : Payload) : List ApiCall :=
  if ctx.notifies = false then []
  else if payload.voice.isSome then [⟨.sendVoice, notice⟩]
  else if payload.photo.isSome then [⟨.sendPhoto, notice⟩]
  else if payload.video.isSome then [⟨.sendVideo, notice⟩]
  else if payload.document.isSome then [⟨.sendDocument, notice⟩]
  else if payload.location.isSome then
    ⟨.sendLocation, []⟩ :: if notice = [] then [] else [⟨.sendMessage, notice⟩]
  else [⟨.sendMessage, notice⟩]

/-! ## `_handle` -/

/-- `kind_label`. -/
def kindLabel (kind : String) (lang : Language) : Text :=
  match kind with
  | "photo" => t lang .kindPhoto
  | "voice" => t lang .kindVoice
  | "video" => t lang .kindVideo
  | "document" => t lang .kindDocument
  | "location" => t lang .kindLocation
  | _ => t lang .kindMedia

namespace HandleArgs

/-- The sender, if its id is one. -/
def sender (a : HandleArgs) : Option Int := a.senderId.filter (· ≠ 0)

/-- `media_kind or ("location" if location else None)`. -/
def placeholderKind (a : HandleArgs) : Option String :=
  match a.mediaKind.filter (· ≠ "") with
  | some kind => some kind
  | none => a.location.map fun _ => "location"

/-- The text of a deleted message, or what stands for it. -/
def body (a : HandleArgs) (lang : Language) : Text :=
  match given a.text with
  | some s => s
  | none =>
      match a.placeholderKind with
      | some kind => kindLabel kind lang
      | none => []

def payload (a : HandleArgs) : Payload :=
  if a.mediaKind = some "photo" then { photo := a.media }
  else if a.mediaKind = some "voice" then { voice := a.media }
  else if a.mediaKind = some "video" then { video := a.media }
  else if a.mediaKind = some "document" then
    { document := a.media
      documentFilename := (a.mediaFilename.filter (· ≠ "")).getD "file" }
  else if a.location.isSome then { location := a.location }
  else {}

end HandleArgs

section Handle

variable (client : Client) (ctx : Context)

def isBot (a : HandleArgs) : Bool :=
  match a.sender with
  | some senderId => (resolve client senderId ctx.ownerLang).2
  | none => false

/-- The gates of `_handle`. -/
def Passes (a : HandleArgs) : Bool :=
  !isBot client ctx a && ctx.subscribed &&
    (match a.eventType with
      | .deleted => ctx.features.deleted
      | .edited => ctx.features.edited) &&
    !ctx.ignored a.chatId && ctx.saved

def senderRef (a : HandleArgs) : Text :=
  match a.sender with
  | some senderId => (resolve client senderId ctx.ownerLang).1
  | none => t ctx.ownerLang .unknown

def notice (a : HandleArgs) : Text :=
  let chatRef := (resolve client a.chatId ctx.ownerLang).1
  match a.eventType with
  | .deleted =>
      formatDeletedNotice chatRef (senderRef client ctx a) (a.body ctx.ownerLang) ctx.ownerLang
  | .edited =>
      formatEditedNotice chatRef (senderRef client ctx a) (a.previousText.getD [])
        (a.text.getD []) ctx.ownerLang

/-- `_handle`, with the calls of the Bot API that it leads to. -/
def handle (a : HandleArgs) : List ApiCall :=
  if Passes client ctx a then notifyOwner ctx (notice client ctx a) a.payload else []

end Handle

/-! ## How long a notice is -/

/-- What is shown of a reference. -/
def shown (e : Entity) (lang : Language) : Text :=
  match given e.username, given e.name with
  | some username, _ => text "@" ++ username
  | none, some name => name
  | none, none =>
      match e.id.filter (· ≠ 0) with
      | some id => strOfInt id
      | none => t lang .unknown

/-- The characters of a notice of a deletion besides the references and the text. -/
def deletedOverhead : Language → Nat
  | .uk => 37
  | .ru => 34
  | .en => 33

/-- The same for an edit. -/
def editedOverhead : Language → Nat
  | .uk => 52
  | .ru => 51
  | .en => 45

theorem visible_tokens (e : Entity) (lang : Language) :
    visible (e.tokens lang) = shown e lang := by
  rw [Entity.tokens, shown]
  cases given e.username with
  | some username => exact visible_chars _
  | none =>
      cases given e.name with
      | some name => exact (visible_element _ _ _).trans (visible_chars _)
      | none =>
          cases e.id.filter (· ≠ 0) with
          | some id => exact (visible_element _ _ _).trans (visible_chars _)
          | none => exact visible_chars _

theorem length_deletedNotice (lang : Language) (chat sender : Entity) (s : Text) :
    (visible (deletedNotice lang chat sender s)).length =
      deletedOverhead lang + (shown chat lang).length + (shown sender lang).length +
        s.length := by
  have hfixed : (visible (Formatting.heading (t lang .noteDeleted))).length +
      (text "\n" ++ t lang .noteChat ++ text ": ").length +
      (text "\n" ++ t lang .noteFrom ++ text ": ").length + (text "\n\n").length =
        deletedOverhead lang := by
    cases lang <;> decide +kernel
  simp only [deletedNotice, visible_append, visible_chars, visible_tokens, List.length_append]
    at hfixed ⊢
  omega

theorem length_editedNotice (lang : Language) (chat sender : Entity) (previous new : Text) :
    (visible (editedNotice lang chat sender previous new)).length =
      editedOverhead lang + (shown chat lang).length + (shown sender lang).length +
        previous.length + new.length := by
  have hfixed : (visible (Formatting.heading (t lang .noteEdited))).length +
      (text "\n" ++ t lang .noteChat ++ text ": ").length +
      (text "\n" ++ t lang .noteFrom ++ text ": ").length +
      (text "\n\n" ++ t lang .noteWas ++ text ":\n").length +
      (text "\n\n" ++ t lang .noteNow ++ text ":\n").length = editedOverhead lang := by
    cases lang <;> decide +kernel
  simp only [editedNotice, visible_append, visible_chars, visible_tokens, List.length_append]
    at hfixed ⊢
  omega

section Length

variable (client : Client) (ctx : Context) (a : HandleArgs)

/-- The sender as `entity_ref` is told. -/
def senderEntity : Entity :=
  match a.sender with
  | some senderId => referent client senderId
  | none => { id := none, usernameChars := fun _ h => absurd h (Option.not_mem_none _) }

/-- Header and references, and the texts of the message. -/
def noticeLength : Nat :=
  match a.eventType with
  | .deleted =>
      deletedOverhead ctx.ownerLang + (shown (referent client a.chatId) ctx.ownerLang).length +
        (shown (senderEntity client a) ctx.ownerLang).length + (a.body ctx.ownerLang).length
  | .edited =>
      editedOverhead ctx.ownerLang + (shown (referent client a.chatId) ctx.ownerLang).length +
        (shown (senderEntity client a) ctx.ownerLang).length +
        (a.previousText.getD []).length + (a.text.getD []).length

/-- The medium is sent, so that the notice is its caption. -/
def IsCaption : Prop :=
  a.media.isSome = true ∧
    a.mediaKind ∈ [some "photo", some "voice", some "video", some "document"]

instance : Decidable (IsCaption a) := inferInstanceAs (Decidable (_ ∧ _))

def limitOf : Nat := if IsCaption a then 1024 else 4096

/-- What Telegram lets in: the texts of a message and the captions of media. -/
structure Incoming : Prop where
  text : ∀ s ∈ a.text, s.length ≤ limitOf a
  previousText : ∀ s ∈ a.previousText, s.length ≤ limitOf a

theorem resolve_fst (id : Int) (lang : Language) :
    (resolve client id lang).1 = (referent client id).ref lang := by
  rw [resolve, referent]
  cases client id <;> rfl

theorem senderRef_eq : senderRef client ctx a = (senderEntity client a).ref ctx.ownerLang := by
  rw [senderRef, senderEntity]
  cases a.sender with
  | none => rfl
  | some senderId => exact resolve_fst client senderId ctx.ownerLang

/-- A notice is read as its template, which is as long as its parts are together. -/
theorem parse_notice (d : Dialect) : ∃ ts, parse d (notice client ctx a) = some ts ∧
    (visible ts).length = noticeLength client ctx a := by
  rw [notice, noticeLength, senderRef_eq, resolve_fst]
  cases a.eventType with
  | deleted =>
      refine ⟨_, (Formatting.readsAs_deleted d _ _ _ _).parsed, ?_⟩
      exact length_deletedNotice _ _ _ _
  | edited =>
      refine ⟨_, (Formatting.readsAs_edited d _ _ _ _ _).parsed, ?_⟩
      exact length_editedNotice _ _ _ _ _

theorem accepted_notice_iff (d : Dialect) {method : Method} {limit : Nat}
    (hlimit : method.limit = some limit) :
    (ApiCall.mk method (notice client ctx a)).Accepted d ↔
      noticeLength client ctx a ≤ limit := by
  obtain ⟨ts, hparse, hlength⟩ := parse_notice client ctx a d
  constructor
  · intro haccepted
    obtain ⟨ts', hparse', hle⟩ := haccepted limit hlimit
    rw [hparse, Option.some.injEq] at hparse'
    rw [← hlength, hparse']
    exact hle
  · intro hle limit' hlimit'
    rw [hlimit, Option.mem_some_iff] at hlimit'
    refine ⟨ts, hparse, ?_⟩
    omega

theorem noticeLength_pos : 0 < noticeLength client ctx a := by
  have hdeleted : ∀ lang, 0 < deletedOverhead lang := by
    intro lang
    cases lang <;> decide
  have hedited : ∀ lang, 0 < editedOverhead lang := by
    intro lang
    cases lang <;> decide
  have hdeleted := hdeleted ctx.ownerLang
  have hedited := hedited ctx.ownerLang
  rw [noticeLength]
  split <;> omega

/-- The notice of a deletion is longer than its text. -/
theorem overhead_le_noticeLength (hevent : a.eventType = .deleted) :
    deletedOverhead ctx.ownerLang + (a.body ctx.ownerLang).length ≤
      noticeLength client ctx a := by
  simp only [noticeLength, hevent]
  omega

theorem notice_ne_nil : notice client ctx a ≠ [] := by
  intro hnil
  obtain ⟨ts, hparse, hlength⟩ := parse_notice client ctx a Formatting.telegramHtml
  have hpos := noticeLength_pos client ctx a
  rw [hnil] at hparse
  cases hparse
  rw [← hlength] at hpos
  exact absurd hpos (Nat.lt_irrefl 0)

/-! ## Which notices are accepted -/

variable {ctx a}

/-- With a medium there is one call, and the notice is its caption. -/
theorem notifyOwner_caption (notice : Text) (hnotifies : ctx.notifies = true)
    (hcaption : IsCaption a) : ∃ method : Method, method.limit = some 1024 ∧
      notifyOwner ctx notice a.payload = [⟨method, notice⟩] := by
  obtain ⟨hmedia, hkind⟩ := hcaption
  simp only [List.mem_cons, List.not_mem_nil, or_false] at hkind
  rw [notifyOwner, HandleArgs.payload, hnotifies]
  obtain hkind | hkind | hkind | hkind := hkind
  · exact ⟨.sendPhoto, rfl, by simp [hkind, hmedia]⟩
  · exact ⟨.sendVoice, rfl, by simp [hkind, hmedia]⟩
  · exact ⟨.sendVideo, rfl, by simp [hkind, hmedia]⟩
  · exact ⟨.sendDocument, rfl, by simp [hkind, hmedia]⟩

/-- Without a medium and a location the notice is a message. -/
theorem notifyOwner_text (notice : Text) (hnotifies : ctx.notifies = true)
    (hkind : a.mediaKind = none) (hlocation : a.location = none) :
    notifyOwner ctx notice a.payload = [⟨.sendMessage, notice⟩] := by
  simp [notifyOwner, HandleArgs.payload, hnotifies, hkind, hlocation]

/-- Else the notice is a message, perhaps after the location. -/
theorem notifyOwner_message {notice : Text} (hnotifies : ctx.notifies = true)
    (hcaption : ¬IsCaption a) (hnotice : notice ≠ []) :
    notifyOwner ctx notice a.payload = [⟨.sendMessage, notice⟩] ∨
      notifyOwner ctx notice a.payload = [⟨.sendLocation, []⟩, ⟨.sendMessage, notice⟩] := by
  have hmedia : ∀ kind ∈ [some "photo", some "voice", some "video", some "document"],
      a.mediaKind = kind → a.media = none := by
    rintro kind hkind rfl
    by_contra hne
    exact hcaption ⟨Option.isSome_iff_ne_none.mpr hne, hkind⟩
  rw [notifyOwner, HandleArgs.payload, hnotifies]
  by_cases hphoto : a.mediaKind = some "photo"
  · simp [hphoto, hmedia _ (by simp) hphoto]
  by_cases hvoice : a.mediaKind = some "voice"
  · simp [hvoice, hmedia _ (by simp) hvoice]
  by_cases hvideo : a.mediaKind = some "video"
  · simp [hvideo, hmedia _ (by simp) hvideo]
  by_cases hdocument : a.mediaKind = some "document"
  · simp [hdocument, hmedia _ (by simp) hdocument]
  cases hlocation : a.location with
  | none => simp [hphoto, hvoice, hvideo, hdocument]
  | some point => simp [hphoto, hvoice, hvideo, hdocument, hnotice]

/-- The Bot API takes a notice exactly if header, references and texts together are no longer
than a caption or a message may be. -/
theorem handle_accepted_iff (d : Dialect) (client : Client) (ctx : Context) (a : HandleArgs) :
    (∀ call ∈ handle client ctx a, call.Accepted d) ↔
      (Passes client ctx a = true → ctx.notifies = true →
        noticeLength client ctx a ≤ limitOf a) := by
  rw [handle]
  by_cases hpasses : Passes client ctx a = true
  · rw [if_pos hpasses]
    by_cases hnotifies : ctx.notifies = true
    · have hlimit : (Passes client ctx a = true → ctx.notifies = true →
          noticeLength client ctx a ≤ limitOf a) ↔ noticeLength client ctx a ≤ limitOf a :=
        ⟨fun h => h hpasses hnotifies, fun h _ _ => h⟩
      rw [hlimit, limitOf]
      by_cases hcaption : IsCaption a
      · obtain ⟨method, hmethod, hcalls⟩ :=
          notifyOwner_caption (notice client ctx a) hnotifies hcaption
        rw [hcalls, List.forall_mem_singleton, if_pos hcaption]
        exact accepted_notice_iff client ctx a d hmethod
      · have hlocation : (ApiCall.mk .sendLocation []).Accepted d := nofun
        have hmessage : (ApiCall.mk .sendMessage (notice client ctx a)).Accepted d ↔
            noticeLength client ctx a ≤ 4096 := accepted_notice_iff client ctx a d rfl
        rw [if_neg hcaption, ← hmessage]
        obtain hcalls | hcalls :=
          notifyOwner_message hnotifies hcaption (notice_ne_nil client ctx a)
        · rw [hcalls, List.forall_mem_singleton]
        · rw [hcalls, List.forall_mem_cons, List.forall_mem_singleton]
          exact and_iff_right hlocation
    · have hsilent : ctx.notifies = false := Bool.eq_false_of_not_eq_true hnotifies
      rw [notifyOwner, if_pos hsilent]
      exact ⟨fun _ _ h => absurd h hnotifies, fun _ => List.forall_mem_nil _⟩
  · rw [if_neg hpasses]
    exact ⟨fun _ h => absurd h hpasses, fun _ => List.forall_mem_nil _⟩

end Length

/-- The same for what the handlers have captured: the notice of a deletion or an edit is accepted
exactly if it does not pass the gates, has no one to go to, or is short enough as a whole. -/
theorem captured_accepted_iff (d : Dialect) (client : Client) (ctx : Context)
    (capture : Capture) :
    (∀ a ∈ capture.args, ∀ call ∈ handle client ctx a, call.Accepted d) ↔
      ∀ a ∈ capture.args, Passes client ctx a = true → ctx.notifies = true →
        noticeLength client ctx a ≤ limitOf a :=
  forall₂_congr fun a _ => handle_accepted_iff d client ctx a

/-! A message of the greatest length that Telegram lets in, from a chat that is not resolved. -/

def nobody : Client := fun _ => none

def owner : Context where
  ownerLang := .en
  ownerTelegramId := some 700
  notifier := true
  subscribed := true
  features := {}
  ignored _ := false
  saved := true

def longText : Text := List.replicate 4096 (ofChar 'a')

def longCached : CachedMessage where
  chatId := 5
  messageId := 1
  senderId := some 5
  text := some (String.ofList (List.replicate 4096 'a'))
  media := none
  mediaKind := none
  mediaFilename := none
  location := none

def longDeletion : HandleArgs where
  chatId := 5
  messageId := 1
  senderId := some 5
  eventType := .deleted
  text := some longText
  previousText := none

theorem length_longText : longText.length = 4096 := List.length_replicate

theorem longText_ne_nil : longText ≠ [] := by
  intro hnil
  have hlength := length_longText
  rw [hnil] at hlength
  exact absurd hlength (by decide)

theorem onDeleted_longCached : onDeleted (some longCached) = some longDeletion := by
  have htext : longCached.text.map text = some longText := by
    rw [longCached, Option.map_some, text, String.toList_ofList, List.map_replicate, longText]
  exact onDeleted_of_text htext longText_ne_nil

/-- The message could be sent, but the notice of its deletion is refused. -/
theorem longDeletion_refused :
    (Capture.deletion (some longCached)).args = some longDeletion ∧ Incoming longDeletion ∧
      Passes nobody owner longDeletion = true ∧
      ¬∀ call ∈ handle nobody owner longDeletion, call.Accepted Formatting.telegramHtml := by
  have hlimit : limitOf longDeletion = 4096 := if_neg (by decide)
  have hpasses : Passes nobody owner longDeletion = true := by decide
  refine ⟨onDeleted_longCached, ⟨?_, nofun⟩, hpasses, ?_⟩
  · intro s hs
    obtain rfl : longText = s := Option.some.inj hs
    rw [hlimit, length_longText]
  · have hcall : handle nobody owner longDeletion =
        [⟨.sendMessage, notice nobody owner longDeletion⟩] := by
      rw [handle, if_pos hpasses]
      exact notifyOwner_text _ rfl rfl rfl
    have hbody : longDeletion.body owner.ownerLang = longText := by
      rw [HandleArgs.body, longDeletion, given_some longText_ne_nil]
    have hoverhead : deletedOverhead owner.ownerLang = 33 := rfl
    have hlong := overhead_le_noticeLength nobody owner longDeletion rfl
    rw [hbody, length_longText] at hlong
    rw [hcall, List.forall_mem_singleton,
      accepted_notice_iff nobody owner longDeletion Formatting.telegramHtml rfl]
    omega

end UserTgBot.Notices
