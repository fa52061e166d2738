import UserTgBot.I18n.Choice

/-!
# Blocked users

`LangAndBlockMiddleware` of `management_bot/middlewares.py` looks up the row of the chat that an
update comes from, refuses the update if this row is blocked, and else runs the handler with the
language of the row as override. The chat is the sender only in private chats: elsewhere
the row of the sender is not looked at.
-/

namespace UserTgBot.Blocking

open I18n

/-- The columns of `users` that the middleware reads. -/
structure UserRow where
  languageCode : Option String
  isBlocked : Bool
deriving DecidableEq, Repr

/-- `users` by `telegram_id`, which is unique. -/
abbrev Users := Int → Option UserRow

/-- An update with its `from_user`; a callback query may come without its message. -/
inductive Event where
  | message (chat : Int) (fromUser : Option Int)
  | callbackQuery (messageChat : Option Int) (fromUser : Int)
  /-- The middleware is not registered for other kinds. -/
  | other
deriving DecidableEq, Repr

/-- `_chat_id`. -/
def chatId : Event → Option Int
  | .message chat _ => some chat
  | .callbackQuery messageChat fromUser => some (messageChat.getD fromUser)
  | .other => none

def Event.fromUser : Event → Option Int
  | .message _ fromUser => fromUser
  | .callbackQuery _ fromUser => some fromUser
  | .other => none

/-- The text `account_blocked`. -/
def accountBlocked : Language → String
  | .uk => "🚫 Ваш акаунт заблоковано адміністратором."
  | .ru => "🚫 Ваш аккаунт заблокирован администратором."
  | .en => "🚫 Your account has been blocked by an administrator."

structure Answer where
  text : String
  showAlert : Bool
deriving DecidableEq, Repr

/-- What the task of an update has done; `langOverride` is its value of the context variable. -/
structure TaskState where
  langOverride : Option Language := none
  handlerCalls : Nat := 0
  answers : List Answer := []
deriving DecidableEq, Repr

section Middleware

universe u v

variable {ε : Type u} {ρ : Type v}

/-- A handler finds one override and leaves one behind, and returns or raises. -/
abbrev Handler (ε : Type u) (ρ : Type v) := Option Language → Option Language × Except ε ρ

/-- `await handler(event, data)`. -/
def callHandler (handler : Handler ε ρ) (s : TaskState) : TaskState × Except ε (Option ρ) :=
  let (override, result) := handler s.langOverride
  ({ s with langOverride := override, handlerCalls := s.handlerCalls + 1 }, result.map some)

/-- `set_lang_override`; the token is the value before. -/
def setLangOverride (s : TaskState) (lang : Option Language) : TaskState × Option Language :=
  ({ s with langOverride := lang }, s.langOverride)

def resetLangOverride (s : TaskState) (token : Option Language) : TaskState :=
  { s with langOverride := token }

/-- `event.answer(notice)`; Telegram may refuse it. -/
def answerNotice (event : Event) (refused : Option ε) (notice : String) (s : TaskState) :
    TaskState × Except ε (Option ρ) :=
  match refused with
  | some e => (s, .error e)
  | none =>
      match event with
      | .callbackQuery _ _ => ({ s with answers := s.answers ++ [⟨notice, true⟩] }, .ok none)
      | .message _ _ => ({ s with answers := s.answers ++ [⟨notice, false⟩] }, .ok none)
      | .other => (s, .ok none)

/-- `LangAndBlockMiddleware.__call__`. -/
def call (users : Users) (handler : Handler ε ρ) (refused : Option ε) (event : Event)
    (s : TaskState) : TaskState × Except ε (Option ρ) :=
  match chatId event with
  | none => callHandler handler s
  | some chat =>
      let user := users chat
      let lang := user.map fun row => resolveLang row.languageCode
      if user.any (·.isBlocked) then
        answerNotice event refused (accountBlocked (lang.getD .uk)) s
      else
        let (published, token) := setLangOverride s lang
        let (done, result) := callHandler handler published
        (resetLangOverride done token, result)

variable {users : Users} {handler : Handler ε ρ} {refused : Option ε} {event : Event}
variable {s : TaskState} {notice : String}

@[simp] theorem answerNotice_handlerCalls :
    (answerNotice (ρ := ρ) event refused notice s).1.handlerCalls = s.handlerCalls := by
  cases refused with
  | some e => rfl
  | none => cases event <;> rfl

@[simp] theorem answerNotice_langOverride :
    (answerNotice (ρ := ρ) event refused notice s).1.langOverride = s.langOverride := by
  cases refused with
  | some e => rfl
  | none => cases event <;> rfl

/-- The row that the middleware goes by is blocked. -/
def chatBlocked (users : Users) (event : Event) : Bool :=
  (chatId event).any fun chat => (users chat).any (·.isBlocked)

/-- The sender is a known user who is blocked. -/
def senderBlocked (users : Users) (event : Event) : Bool :=
  event.fromUser.any fun user => (users user).any (·.isBlocked)

/-- With a blocked row the update gets no further than the notice. -/
theorem call_of_chatBlocked (handler : Handler ε ρ) (refused : Option ε) (s : TaskState)
    (h : chatBlocked users event = true) : ∃ lang, call users handler refused event s =
      answerNotice event refused (accountBlocked lang) s := by
  cases hchat : chatId event with
  | none =>
      rw [chatBlocked, hchat] at h
      cases h
  | some chat =>
      rw [chatBlocked, hchat] at h
      rw [call, hchat]
      exact ⟨_, if_pos h⟩

/-- Otherwise the handler runs once, under the language of the chat's row, and the override
is set back whatever the handler did with it and whether it returned or raised. -/
theorem call_of_not_chatBlocked (handler : Handler ε ρ) (refused : Option ε) (s : TaskState)
    (known : event ≠ .other) (h : chatBlocked users event = false) :
    ∃ lang, call users handler refused event s =
      ({ s with handlerCalls := s.handlerCalls + 1 }, (handler lang).2.map some) := by
  cases hchat : chatId event with
  | none =>
      cases event with
      | message => cases hchat
      | callbackQuery => cases hchat
      | other => exact absurd rfl known
  | some chat =>
      rw [chatBlocked, hchat] at h
      rw [call, hchat]
      exact ⟨_, if_neg (Bool.eq_false_iff.mp h)⟩

/-- What is expected of one update: with a blocked sender the handler is not called, and with
any other it is called once and leaves the override as it was. -/
def KeepsBlockedOut (users : Users) (handler : Handler ε ρ) (refused : Option ε) (event : Event)
    (s : TaskState) : Prop :=
  let after := (call users handler refused event s).1
  if senderBlocked users event then after.handlerCalls = s.handlerCalls
  else after.handlerCalls = s.handlerCalls + 1 ∧ after.langOverride = s.langOverride

/-- Blocked users are kept out, and the others let in, just where the row of the chat is
blocked when the row of the sender is. -/
theorem keepsBlockedOut_iff (known : event ≠ .other) :
    KeepsBlockedOut users handler refused event s ↔
      chatBlocked users event = senderBlocked users event := by
  cases hchat : chatBlocked users event with
  | true =>
      obtain ⟨lang, hcall⟩ := call_of_chatBlocked handler refused s hchat
      cases hsender : senderBlocked users event with
      | true => simp [KeepsBlockedOut, hsender, hcall]
      | false => simp [KeepsBlockedOut, hsender, hcall]
  | false =>
      obtain ⟨lang, hcall⟩ := call_of_not_chatBlocked handler refused s known hchat
      cases hsender : senderBlocked users event with
      | true => simp [KeepsBlockedOut, hsender, hcall]
      | false => simp [KeepsBlockedOut, hsender, hcall]

/-- Where the chat is the sender, as in private chats, nothing goes wrong. -/
theorem chatBlocked_eq_senderBlocked (h : chatId event = event.fromUser) :
    chatBlocked users event = senderBlocked users event := by
  rw [chatBlocked, senderBlocked, h]

/-- In a chat without a row nobody is kept out. -/
theorem chatBlocked_of_unknown {chat : Int} (hchat : chatId event = some chat)
    (hrow : users chat = none) : chatBlocked users event = false := by
  rw [chatBlocked, hchat, Option.any_some, hrow]
  rfl

end Middleware

/-! User 5 is blocked, and writes to the bot alone and in a group. -/

def blockedFive : Users := fun id => if id = 5 then some ⟨some "en", true⟩ else none

/-- A handler that fails and leaves another override behind. -/
def failing : Handler String Unit := fun _ => (some .ru, .error "failed")

theorem blockedFive_private :
    KeepsBlockedOut blockedFive failing none (.message 5 (some 5)) {} ∧
      chatBlocked blockedFive (.message 5 (some 5)) = true :=
  ⟨(keepsBlockedOut_iff (by decide)).mpr (by decide), by decide⟩

/-- In a group the handler of a blocked user runs. -/
theorem blockedFive_group :
    senderBlocked blockedFive (.message (-100) (some 5)) = true ∧
      (call blockedFive failing none (.message (-100) (some 5)) {}).1.handlerCalls = 1 ∧
        ¬KeepsBlockedOut blockedFive failing none (.message (-100) (some 5)) {} := by
  refine ⟨by decide, by decide, ?_⟩
  intro h
  exact absurd (show (1 : Nat) = 0 from h) (by decide)

end UserTgBot.Blocking
