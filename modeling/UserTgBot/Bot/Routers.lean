import Mathlib.Data.List.Basic
import UserTgBot.Library.PyText

/-!
# Which handler gets a message

The routers of `build_dispatcher` of `management_bot/main.py` with their message handlers, each
with the filters of its decorator. A message goes to the first handler, in the order of the
routers, whose state and filters all match.

A conversation waits for its text in a state, and a handler for that text takes whatever text
comes. Commands of routers before it still get through, those of later routers and the buttons
of the menu, which is the last router, do not, unless the handler leaves them out by itself.
-/

namespace UserTgBot.Routers

open PyText

/-- The states of `SettingsStates` and `ConnectStates`. -/
inductive FsmState where
  | meText
  | meLink
  | mePhoto
  | meButtons
  | arMessage
  | arPhoto
  | arButtons
  | arTime
  | arExceptions
  | waitingForPhone
  | waitingForCode
  | waitingForPassword
deriving DecidableEq, Repr

inductive BotCommand where
  | start
  | subscribe
  | settings
  | connect
  | help
  | support
  | admin
  | adminStop
deriving DecidableEq, Repr

def BotCommand.name : BotCommand → String
  | .start => "start"
  | .subscribe => "subscribe"
  | .settings => "settings"
  | .connect => "connect"
  | .help => "help"
  | .support => "support"
  | .admin => "admin"
  | .adminStop => "admin_stop"

/-- The buttons of `main_menu`. -/
inductive Button where
  | subscribe
  | settings
  | help
  | support
  | menu
deriving DecidableEq, Repr

/-- `variants` of the button's key: its label in each language. -/
def variants : Button → List Text
  | .subscribe => [text "💳 Тарифи", text "💳 Тарифы", text "💳 Plans"]
  | .settings => [text "⚙️ Налаштування", text "⚙️ Настройки", text "⚙️ Settings"]
  | .help => [text "❓ Довідка", text "❓ Помощь", text "❓ Help"]
  | .support => [text "🆘 Підтримка", text "🆘 Поддержка", text "🆘 Support"]
  | .menu => [text "🏠 Меню", text "🏠 Меню", text "🏠 Menu"]

/-- `_MENU_BUTTON_TEXTS`. -/
def MENU_BUTTON_TEXTS : List Text :=
  [Button.subscribe, .settings, .help, .support, .menu].flatMap variants

/-- What a message has in it. -/
inductive Content where
  | text (s : Text)
  | contact
  | photo
  | successfulPayment
  | other

inductive Filter where
  /-- `Command(name)`, and `CommandStart()`. -/
  | command (c : BotCommand)
  /-- `F.text`. -/
  | text
  /-- `~F.text.startswith("/")`. -/
  | noSlash
  /-- `~F.text.in_(_MENU_BUTTON_TEXTS)`. -/
  | noMenuButton
  /-- `F.text.in_(variants(key))`. -/
  | button (b : Button)
  | contact
  | photo
  | successfulPayment

inductive HandlerName where
  | cmdStart
  | cmdSubscribe
  | onSuccessfulPayment
  | cmdSettings
  | setMeText
  | setMeLink
  | setMePhoto
  | setMeButtons
  | setArMessage
  | setArPhoto
  | setArButtons
  | setArTime
  | setArExceptions
  | cmdConnect
  | onContact
  | onTypedPhone
  | onTypedCodeWarning
  | onPassword
  | cmdHelp
  | cmdSupport
  | cmdAdmin
  | cmdAdminStop
  | onSubscribe
  | onSettings
  | onHelp
  | onSupport
  | onMenu
deriving DecidableEq, Repr

/-- A registered message handler; without a state it is for all states. -/
structure Handler where
  name : HandlerName
  state : Option FsmState := none
  filters : List Filter

def slash : CodePoint := ofChar '/'

section Select

-- Whether the filter `Command(name)` of aiogram accepts a text.
variable (accepts : BotCommand → Text → Bool)

def Filter.holds : Filter → Content → Bool
  | .command c, .text s => accepts c s
  | .text, .text s => !s.isEmpty
  | .noSlash, .text s => s.head? ≠ some slash
  | .noMenuButton, .text s => s ∉ MENU_BUTTON_TEXTS
  | .button b, .text s => s ∈ variants b
  | .contact, .contact => true
  | .photo, .photo => true
  | .successfulPayment, .successfulPayment => true
  | _, _ => false

def startRouter : List Handler := [⟨.cmdStart, none, [.command .start]⟩]

def subscribeRouter : List Handler :=
  [⟨.cmdSubscribe, none, [.command .subscribe]⟩,
    ⟨.onSuccessfulPayment, none, [.successfulPayment]⟩]

def settingsRouter : List Handler :=
  [⟨.cmdSettings, none, [.command .settings]⟩,
    ⟨.setMeText, some .meText, [.text]⟩,
    ⟨.setMeLink, some .meLink, [.text]⟩,
    ⟨.setMePhoto, some .mePhoto, [.photo]⟩,
    ⟨.setMeButtons, some .meButtons, [.text]⟩,
    ⟨.setArMessage, some .arMessage, [.text]⟩,
    ⟨.setArPhoto, some .arPhoto, [.photo]⟩,
    ⟨.setArButtons, some .arButtons, [.text]⟩,
    ⟨.setArTime, some .arTime, [.text]⟩,
    ⟨.setArExceptions, some .arExceptions, [.text]⟩]

def connectRouter : List Handler :=
  [⟨.cmdConnect, none, [.command .connect]⟩,
    ⟨.onContact, some .waitingForPhone, [.contact]⟩,
    ⟨.onTypedPhone, some .waitingForPhone, [.text]⟩,
    ⟨.onTypedCodeWarning, some .waitingForCode, [.text, .noSlash, .noMenuButton]⟩,
    ⟨.onPassword, some .waitingForPassword, [.text]⟩]

def helpRouter : List Handler :=
  [⟨.cmdHelp, none, [.command .help]⟩, ⟨.cmdSupport, none, [.command .support]⟩]

def adminRouter : List Handler :=
  [⟨.cmdAdmin, none, [.command .admin]⟩, ⟨.cmdAdminStop, none, [.command .adminStop]⟩]

def menuRouter : List Handler :=
  [⟨.onSubscribe, none, [.button .subscribe]⟩,
    ⟨.onSettings, none, [.button .settings]⟩,
    ⟨.onHelp, none, [.button .help]⟩,
    ⟨.onSupport, none, [.button .support]⟩,
    ⟨.onMenu, none, [.button .menu]⟩]

/-- `build_dispatcher`. -/
def buildDispatcher : List (List Handler) :=
  [startRouter, subscribeRouter, settingsRouter, connectRouter, helpRouter, adminRouter,
    menuRouter]

/-- The state of the handler and all its filters match, for filters that hold as told. -/
def Handler.fits (h : Handler) (state : Option FsmState) (holds : Filter → Bool) : Bool :=
  (h.state.isNone || h.state = state) && h.filters.all holds

/-- The first match, router by router. -/
def selectBy (state : Option FsmState) (holds : Filter → Bool) : Option HandlerName :=
  buildDispatcher.findSome? fun router =>
    (router.find? fun h => h.fits state holds).map Handler.name

/-- The handler that a message goes to in a state of the conversation. -/
def select (state : Option FsmState) (message : Content) : Option HandlerName :=
  selectBy state fun filter => filter.holds accepts message

end Select

/-! ## Ways out of a conversation -/

/-- The first word of the text is the command; anything may follow it. -/
def BotCommand.Invokes (c : BotCommand) (s : Text) : Prop :=
  s.takeWhile (!isSpace ·) = slash :: text c.name

/-- What the filter for commands does with a command, and with a text that has no slash where its
first word starts. The filter drops white space before that word. -/
structure CommandLaws (accepts : BotCommand → Text → Bool) : Prop where
  of_invokes : ∀ c other s, BotCommand.Invokes c s → (accepts other s = true ↔ other = c)
  of_noSlash : ∀ c s, (s.dropWhile isSpace).head? ≠ some slash → accepts c s = false

inductive Escape where
  | command (c : BotCommand)
  | button (b : Button)
deriving DecidableEq

namespace Escape

/-- The text is the command with its arguments, or a label of the button. -/
def Sends : Escape → Text → Prop
  | command c, s => c.Invokes s
  | button b, s => s ∈ variants b

instance (c : BotCommand) (s : Text) : Decidable (c.Invokes s) :=
  inferInstanceAs (Decidable (s.takeWhile (!isSpace ·) = slash :: text c.name))

instance : ∀ (e : Escape) (s : Text), Decidable (e.Sends s)
  | command c, s => inferInstanceAs (Decidable (c.Invokes s))
  | button b, s => inferInstanceAs (Decidable (s ∈ variants b))

/-- The handler of the command or of the button. -/
def handler : Escape → HandlerName
  | command .start => .cmdStart
  | command .subscribe => .cmdSubscribe
  | command .settings => .cmdSettings
  | command .connect => .cmdConnect
  | command .help => .cmdHelp
  | command .support => .cmdSupport
  | command .admin => .cmdAdmin
  | command .adminStop => .cmdAdminStop
  | button .subscribe => .onSubscribe
  | button .settings => .onSettings
  | button .help => .onHelp
  | button .support => .onSupport
  | button .menu => .onMenu

/-- Which filters hold for the texts of a way out. -/
def seen : Escape → Filter → Bool
  | command c, .command other => other = c
  | command _, .text => true
  | command _, .noMenuButton => true
  | button _, .text => true
  | button _, .noSlash => true
  | button b, .button other => other = b
  | _, _ => false

end Escape

/-- The handler for the text that a state waits for. -/
def FsmState.input : FsmState → Option HandlerName
  | .meText => some .setMeText
  | .meLink => some .setMeLink
  | .meButtons => some .setMeButtons
  | .arMessage => some .setArMessage
  | .arButtons => some .setArButtons
  | .arTime => some .setArTime
  | .arExceptions => some .setArExceptions
  | .waitingForPhone => some .onTypedPhone
  | .waitingForPassword => some .onPassword
  -- a photo, or digits from the inline keyboard
  | .mePhoto => none
  | .arPhoto => none
  | .waitingForCode => none

/-- The commands of the routers before the one that has the state, and in it the commands
before the handlers for text. -/
def FsmState.earlier : FsmState → List BotCommand
  | .waitingForPhone => [.start, .subscribe, .settings, .connect]
  | .waitingForPassword => [.start, .subscribe, .settings, .connect]
  | _ => [.start, .subscribe, .settings]

/-- The state waits for no text, or the way out is a command that is looked at earlier. -/
def Escapes (state : FsmState) (e : Escape) : Prop :=
  state.input = none ∨ ∃ c ∈ state.earlier, e = .command c

instance (state : FsmState) (e : Escape) : Decidable (Escapes state e) :=
  inferInstanceAs (Decidable (state.input = none ∨ ∃ c ∈ state.earlier, e = .command c))

section Labels

variable {s : Text} {b other : Button} {c : BotCommand}

theorem BotCommand.Invokes.head (h : c.Invokes s) : s.head? = some slash := by
  cases s with
  | nil => cases h
  | cons first rest =>
      rw [Invokes, List.takeWhile_cons] at h
      split at h
      · exact congrArg some (List.cons.inj h).1
      · cases h

theorem label_no_slash (h : s ∈ variants b) : s.head? ≠ some slash := by
  have hlabels : ∀ t ∈ variants b, t.head? ≠ some slash := by
    cases b <;> decide +kernel
  exact hlabels s h

theorem label_word_no_slash (h : s ∈ variants b) :
    (s.dropWhile isSpace).head? ≠ some slash := by
  have hlabels : ∀ t ∈ variants b, (t.dropWhile isSpace).head? ≠ some slash := by
    cases b <;> decide +kernel
  exact hlabels s h

theorem label_ne_nil (b : Button) : [] ∉ variants b := by
  cases b <;> decide

theorem label_unique (h : s ∈ variants b) : s ∈ variants other ↔ other = b := by
  have hlabels : ∀ t ∈ variants b, (t ∈ variants other ↔ other = b) := by
    cases b <;> cases other <;> decide +kernel
  exact hlabels s h

theorem mem_menuButtonTexts : s ∈ MENU_BUTTON_TEXTS ↔ ∃ b, s ∈ variants b := by
  rw [MENU_BUTTON_TEXTS, List.mem_flatMap]
  constructor
  · rintro ⟨b, -, h⟩
    exact ⟨b, h⟩
  · rintro ⟨b, h⟩
    exact ⟨b, by cases b <;> decide, h⟩

end Labels

section Selected

variable {accepts : BotCommand → Text → Bool} {e : Escape} {s : Text}

/-- The filters see of a text nothing but which way out it is. -/
theorem holds_eq_seen (laws : CommandLaws accepts) (h : e.Sends s) (filter : Filter) :
    filter.holds accepts (.text s) = e.seen filter := by
  cases e with
  | command c =>
      have hhead : s.head? = some slash := h.head
      have hnone : ∀ b, s ∉ variants b := fun b hb => label_no_slash hb hhead
      cases filter with
      | command other => exact Bool.eq_iff_iff.mpr ((laws.of_invokes c other s h).trans
          decide_eq_true_iff.symm)
      | text =>
          cases s with
          | nil => cases hhead
          | cons first rest => rfl
      | noSlash => exact decide_eq_false fun hne => hne hhead
      | noMenuButton => exact decide_eq_true fun hmem =>
          (mem_menuButtonTexts.mp hmem).elim hnone
      | button other => exact decide_eq_false (hnone other)
      | contact => rfl
      | photo => rfl
      | successfulPayment => rfl
  | button b =>
      have hhead : s.head? ≠ some slash := label_no_slash h
      cases filter with
      | command other => exact laws.of_noSlash other s (label_word_no_slash h)
      | text =>
          cases s with
          | nil => exact absurd h (label_ne_nil b)
          | cons first rest => rfl
      | noSlash => exact decide_eq_true hhead
      | noMenuButton => exact decide_eq_false fun hnot => hnot (mem_menuButtonTexts.mpr ⟨b, h⟩)
      | button other => exact decide_eq_decide.mpr (label_unique h)
      | contact => rfl
      | photo => rfl
      | successfulPayment => rfl

/-- Where the texts of a way out go. -/
theorem selectBy_seen (state : FsmState) (e : Escape) : selectBy (some state) e.seen =
    if Escapes state e then some e.handler else state.input := by
  cases state <;> cases e with
  | command c => cases c <;> rfl
  | button b => cases b <;> rfl

/-- No way out is the handler for a text. -/
theorem input_ne_handler (state : FsmState) (e : Escape) : state.input ≠ some e.handler := by
  cases e with
  | command c => cases state <;> cases c <;> decide
  | button b => cases state <;> cases b <;> decide

/-- A command or a label of a button gets through to its own handler exactly if the state waits
for no text, or the command is looked at before the text; else it is taken for the text. -/
theorem escape_selected_iff (laws : CommandLaws accepts) (state : FsmState) (h : e.Sends s) :
    (select accepts (some state) (.text s) = some e.handler ↔ Escapes state e) ∧
      (¬Escapes state e → select accepts (some state) (.text s) = state.input) := by
  have hselect : select accepts (some state) (.text s) =
      if Escapes state e then some e.handler else state.input := by
    rw [← selectBy_seen, select]
    exact congrArg _ (funext (holds_eq_seen laws h))
  rw [hselect]
  by_cases hescapes : Escapes state e
  · rw [if_pos hescapes]
    exact ⟨iff_of_true rfl hescapes, fun hnot => absurd hescapes hnot⟩
  · rw [if_neg hescapes]
    exact ⟨iff_of_false (input_ne_handler state e) hescapes, fun _ => rfl⟩

end Selected

/-! The filter of the framework, as it is documented: the first word of the text, without the
white space before it, is a slash, the name, and perhaps a mention of the bot. -/

section CommandFilter

-- Whether a mention is the bot's own username.
variable (mentionsMe : Text → Bool)

def commandFilter (c : BotCommand) (s : Text) : Bool :=
  match (s.dropWhile isSpace).takeWhile (!isSpace ·) with
  | [] => false
  | first :: word =>
      let commandMention := partition (ofChar '@') word
      first = slash && commandMention.1 = text c.name &&
        (commandMention.2.isEmpty || mentionsMe commandMention.2)

theorem BotCommand.name_injective {c other : BotCommand} (h : text c.name = text other.name) :
    c = other := by
  cases c <;> cases other <;> first | rfl | exact absurd h (by decide)

theorem BotCommand.partition_name (c : BotCommand) :
    partition (ofChar '@') (text c.name) = (text c.name, []) := by
  cases c <;> rfl

theorem BotCommand.Invokes.dropWhile {c : BotCommand} {s : Text} (h : c.Invokes s) :
    s.dropWhile isSpace = s := by
  cases s with
  | nil => rfl
  | cons first rest =>
      have hfirst : first = slash := Option.some.inj h.head
      rw [List.dropWhile_cons_of_neg]
      rw [hfirst]
      decide +kernel

theorem commandFilter_laws : CommandLaws (commandFilter mentionsMe) where
  of_invokes c other s h := by
    have hfilter : commandFilter mentionsMe other s = decide (text c.name = text other.name) := by
      rw [commandFilter, h.dropWhile, h]
      simp [c.partition_name]
    rw [hfilter, decide_eq_true_iff]
    constructor
    · intro heq
      exact (BotCommand.name_injective heq).symm
    · rintro rfl
      rfl
  of_noSlash c s h := by
    rw [commandFilter]
    cases hword : s.dropWhile isSpace with
    | nil => rfl
    | cons first rest =>
        have hslash : first ≠ slash := fun heq => h (by rw [hword, heq]; rfl)
        rw [List.takeWhile_cons]
        split
        · rfl
        · rename_i word heq
          split at heq
          · cases heq
            simp [hslash]
          · cases heq

end CommandFilter

/-- A bot whose username is of no matter here. -/
def filters : BotCommand → Text → Bool := commandFilter fun _ => false

/-- In the state of the phone number `/connect` works, and so does `/start` with arguments. -/
theorem connect_escapes : select filters (some .waitingForPhone) (.text (text "/connect")) =
      some .cmdConnect ∧
    select filters (some .waitingForPhone) (.text (text "/start ref_5")) = some .cmdStart :=
  ⟨(escape_selected_iff (commandFilter_laws _) .waitingForPhone
      (e := .command .connect) (by decide +kernel)).1.mpr (by decide),
    (escape_selected_iff (commandFilter_laws _) .waitingForPhone
      (e := .command .start) (by decide +kernel)).1.mpr (by decide)⟩

/-- While the password is awaited, the label of the menu is taken for it. -/
theorem menu_taken_for_password :
    select filters (some .waitingForPassword) (.text (text "🏠 Меню")) = some .onPassword ∧
      ¬∀ state e s, Escape.Sends e s →
        select filters (some state) (.text s) = some e.handler := by
  have hpassword : select filters (some .waitingForPassword) (.text (text "🏠 Меню")) =
      some .onPassword := by
    decide +kernel
  refine ⟨hpassword, fun h => ?_⟩
  have hmenu := h .waitingForPassword (.button .menu) (text "🏠 Меню") (by decide +kernel)
  rw [hpassword] at hmenu
  cases hmenu

end UserTgBot.Routers
