import UserTgBot.Userbot.Supervisor

/-!
# The chosen language

A user's language is a column of `users`. `upsert_user` and `set_user_language` write what
Telegram reports, `set_user_language_manual` writes a choice and locks it. A writer reads the
row in one statement and flushes its changes in a later one; a flush names the columns that
differ from the row that was read. Whoever makes a text has found out the language before:
the middleware of the management bot, a connect page and a notice from the row, the manager
bot from the update, a worker of the userbot from the poll that started it.

`choice_wins_iff` says when a choice wins: what has been read since the choice respects it,
and nothing else does so by itself. Rows of `users` are not deleted here.
-/

namespace UserTgBot.I18n

open Transition Supervisor

/-! ## Languages -/

/-- The languages of `shared/i18n.py` and of the language picker. -/
inductive Language where
  | uk
  | ru
  | en
deriving DecidableEq, Repr

def Language.code : Language → String
  | .uk => "uk"
  | .ru => "ru"
  | .en => "en"

def DEFAULT_LANG : Language := .uk

/-- `c.lower()`, as far as it can give a letter of a code: besides the capitals, the Kelvin
sign is a capital k. -/
def lower (c : Char) : Char := if c = '\u212a' then 'k' else c.toLower

def resolveLang : Option String → Language
  | none => DEFAULT_LANG
  | some languageCode =>
      if languageCode = "" then DEFAULT_LANG
      else
        let code := (languageCode.toList.take 2).map lower
        if code = ['u', 'k'] then .uk else if code = ['r', 'u'] then .ru else .en

theorem resolveLang_code (lang : Language) : resolveLang (some lang.code) = lang := by
  cases lang <;> decide

/-! ## The columns and their writers -/

/-- The columns of a `users` row that this is about. -/
structure Columns where
  languageCode : Option String
  languageLocked : Bool := false
deriving DecidableEq, Repr

/-- The columns after the choice of a language. -/
def Language.locked (lang : Language) : Columns := ⟨some lang.code, true⟩

/-- What a session sends when it is flushed. -/
inductive Flush where
  | nothing
  | insert (row : Columns)
  | update (languageCode : Option String) (lock : Bool)
deriving DecidableEq, Repr

/-- `upsert_user` after it has looked for the row. -/
def upsertUser (languageCode : Option String) : Option Columns → Flush
  | none => .insert ⟨languageCode, false⟩
  | some user =>
      if languageCode ≠ none ∧ user.languageLocked = false ∧ user.languageCode ≠ languageCode then
        .update languageCode false
      else .nothing

/-- `set_user_language` after it has looked for the row; without a code it does not look. -/
def setUserLanguage (languageCode : Option String) : Option Columns → Flush
  | none => .nothing
  | some user =>
      if languageCode ≠ none ∧ languageCode ≠ some "" ∧ user.languageLocked = false ∧
          user.languageCode ≠ languageCode then
        .update languageCode false
      else .nothing

/-- `set_user_language_manual` after it has looked for the row. -/
def setUserLanguageManual (lang : Language) : Option Columns → Flush
  | none => .nothing
  | some user =>
      if user = lang.locked then .nothing
      else
        .update (if user.languageCode = some lang.code then none else some lang.code)
          (!user.languageLocked)

/-- The row after the flush and the commit; nothing if the insert is refused. -/
def Flush.apply (row : Option Columns) : Flush → Option (Option Columns)
  | .nothing => some row
  | .insert new => if row = none then some (some new) else none
  | .update languageCode lock => some (row.map fun row =>
      { languageCode := languageCode.orElse fun _ => row.languageCode
        languageLocked := row.languageLocked || lock })

/-! ## Tasks -/

/-- The two writers of what Telegram reports. -/
inductive Report where
  | upsertUser
  | setUserLanguage
deriving DecidableEq, Repr

/-- Something under way in one of the services. `seen` is the number of choices the user had
made when the row was read; the code has no such number, it only dates the read. -/
inductive Task where
  | reporting (report : Report) (user : Int) (languageCode : Option String)
      (loaded : Option Columns) (seen : Nat)
  | choosing (user : Int) (lang : Language) (loaded : Option Columns)
  /-- About to make texts for the user; a language from an update is not dated. -/
  | speaking (user : Int) (lang : Language) (seen : Option Nat)
deriving DecidableEq, Repr

/-- A text that was made for a user, and the choice that it should follow. -/
structure Message where
  user : Int
  lang : Language
  due : Option Language
deriving DecidableEq, Repr

/-- `chosen` is the last choice of each user, `choices` the number of them, and `polled` tells
whether a poll has been completed since. `seenAt` dates the snapshot of a poll that is under
way, and `seenBy` the ones that the workers were started from. -/
structure State where
  users : Int → Option Columns
  chosen : Int → Option Language := fun _ => none
  choices : Int → Nat := fun _ => 0
  polled : Int → Bool := fun _ => false
  tasks : Nat → Option Task := fun _ => none
  userbot : Userbot
  seenAt : Int → Nat := fun _ => 0
  seenBy : Nat → Nat → Nat := fun _ _ => 0
  messages : List Message := []

inductive Action where
  /-- `upsert_user` or `set_user_language` reads the row. -/
  | report (id : Nat) (report : Report) (user : Int) (languageCode : Option String)
  /-- `set_user_language_manual` reads the row. -/
  | choose (id : Nat) (user : Int) (lang : Language)
  /-- A writer flushes and commits. -/
  | write (id : Nat)
  /-- The middleware of the management bot handles an update. -/
  | update (id : Nat) (user : Int) (reported : Option String)
  /-- The manager bot handles an update. -/
  | managerUpdate (id : Nat) (user : Int) (reported : Option String)
  /-- A connect page with a valid token, the message after a login, or an expiry notice. -/
  | ownerLang (id : Nat) (user : Int)
  | say (id : Nat)
  /-- A task ends, or fails and is rolled back. -/
  | drop (id : Nat)
  /-- A session is linked or linked again. -/
  | link (sessionId : Nat) (row : SessionRow)
  /-- `_load_active_sessions`. -/
  | load
  /-- Any other step of the userbot. -/
  | userbot (action : Supervisor.Action)
  | workerSay (sessionId task : Nat)

/-! ## Steps -/

namespace State

def setTask (s : State) (id : Nat) (task : Task) : State :=
  { s with tasks := Function.update s.tasks id (some task) }

def endTask (s : State) (id : Nat) : State :=
  { s with tasks := Function.update s.tasks id none }

def setUser (s : State) (user : Int) (row : Option Columns) : State :=
  { s with users := Function.update s.users user row }

/-- The choice is made, and polls count from here. -/
def choose (s : State) (user : Int) (lang : Language) : State :=
  { s with
    chosen := Function.update s.chosen user (some lang)
    choices := Function.update s.choices user (s.choices user + 1)
    polled := Function.update s.polled user false }

def say (s : State) (user : Int) (lang : Language) (due : Option Language) : State :=
  { s with messages := ⟨user, lang, due⟩ :: s.messages }

/-- The language that the middleware publishes, or the one that `lang_of` falls back to. -/
def updateLang (s : State) (user : Int) (reported : Option String) : Language :=
  match s.users user with
  | some row => resolveLang row.languageCode
  | none => resolveLang reported

/-- `_owner_lang`. -/
def ownerLang (s : State) (user : Int) : Language :=
  resolveLang ((s.users user).bind Columns.languageCode)

/-- An active session joined with its user. -/
def activeSession (decrypt : Bytes → Option String) (s : State) (sessionId : Nat) :
    Option ActiveSession :=
  (s.userbot.rows sessionId).bind fun row =>
    (s.users row.telegramId).bind fun user =>
      loadActive decrypt { row with languageCode := user.languageCode }

end State

/-- The flush of a writer. -/
def Task.flush : Task → Flush
  | .reporting .upsertUser _ languageCode loaded _ => upsertUser languageCode loaded
  | .reporting .setUserLanguage _ languageCode loaded _ => setUserLanguage languageCode loaded
  | .choosing _ lang loaded => setUserLanguageManual lang loaded
  | .speaking _ _ _ => .nothing

/-- A writer commits. The handler of a choice goes on to answer in the chosen language. -/
def write (s : State) (id : Nat) (task : Task) : Option State :=
  match task with
  | .reporting _ user _ _ _ =>
      match task.flush.apply (s.users user) with
      | some row => some ((s.setUser user row).endTask id)
      | none => some (s.endTask id)
  | .choosing user lang _ =>
      (task.flush.apply (s.users user)).map fun row =>
        ((s.setUser user row).choose user lang).setTask id
          (.speaking user lang (some (s.choices user + 1)))
  | .speaking _ _ _ => none

/-- A step of the userbot; the workers that a poll starts are dated by its snapshot. -/
def stepUserbot (decrypt : Bytes → Option String) (s : State) (action : Supervisor.Action) :
    Option State :=
  match action with
  | .load => none
  | .supervise =>
      s.userbot.snapshot.bind fun active =>
        (Supervisor.step decrypt s.userbot .supervise).map fun userbot =>
          { s with
            userbot
            polled := fun _ => true
            seenBy := fun sessionId task =>
              if task < (s.userbot.slots sessionId).workers.length then s.seenBy sessionId task
              else ((active sessionId).map fun session => s.seenAt session.ownerTelegramId).getD 0 }
  | action => (Supervisor.step decrypt s.userbot action).map fun userbot => { s with userbot }

def step (decrypt : Bytes → Option String) (s : State) : Action → Option State
  | .report id report user languageCode =>
      if s.tasks id = none then
        some (s.setTask id (.reporting report user languageCode (s.users user) (s.choices user)))
      else none
  | .choose id user lang =>
      if s.tasks id = none then some (s.setTask id (.choosing user lang (s.users user))) else none
  | .write id => (s.tasks id).bind (write s id)
  | .update id user reported =>
      if s.tasks id = none then
        some (s.setTask id (.speaking user (s.updateLang user reported) (some (s.choices user))))
      else none
  | .managerUpdate id user reported =>
      if s.tasks id = none then
        some (s.setTask id (.speaking user (resolveLang reported) none))
      else none
  | .ownerLang id user =>
      if s.tasks id = none then
        some (s.setTask id (.speaking user (s.ownerLang user) (some (s.choices user))))
      else none
  | .say id =>
      match s.tasks id with
      | some (.speaking user lang _) => some (s.say user lang (s.chosen user))
      | _ => none
  | .drop id => if s.tasks id = none then none else some (s.endTask id)
  | .link sessionId row =>
      some { s with userbot := { s.userbot with
        rows := Function.update s.userbot.rows sessionId (some row) } }
  | .load =>
      if s.userbot.snapshot.isNone then
        some { s with
          userbot := { s.userbot with snapshot := some (s.activeSession decrypt) }
          seenAt := s.choices }
      else none
  | .userbot action => stepUserbot decrypt s action
  | .workerSay sessionId task =>
      (s.userbot.slots sessionId).workers[task]?.bind fun w =>
        if w.phase = .done then none
        else
          let user := w.args.ownerTelegramId
          some (s.say user (resolveLang (some w.args.lang))
            (if s.polled user then s.chosen user else none))

/-! ## What is wanted -/

/-- The last choice of every user is stored and locked, and every text follows it. -/
structure Wins (s : State) : Prop where
  stored : ∀ user lang, s.chosen user = some lang → s.users user = some lang.locked
  messages : ∀ message ∈ s.messages, ∀ lang, message.due = some lang → message.lang = lang

/-- What a step has to respect. A report that was read before the last choice changes the
code to no other one; a choice finds the row, and if that had the chosen code it still has
it, or nothing is left to write; a text is made in a language that was read since the last
choice, or in the chosen one anyway. -/
def Respects (s : State) : Action → Prop
  | .write id =>
      match s.tasks id with
      | some (.reporting report user languageCode loaded seen) =>
          ∀ lang ∈ s.chosen user, seen = s.choices user ∨
            (Task.reporting report user languageCode loaded seen).flush = .nothing ∨
            loaded = none ∨ languageCode = some lang.code
      | some (.choosing user lang loaded) =>
          (∃ row ∈ loaded, row.languageCode = some lang.code →
            (s.users user).bind Columns.languageCode = some lang.code) ∨
          s.users user = some lang.locked
      | _ => True
  | .say id =>
      match s.tasks id with
      | some (.speaking user lang seen) =>
          ∀ chosen ∈ s.chosen user, seen = some (s.choices user) ∨ lang = chosen
      | _ => True
  | .workerSay sessionId task =>
      match (s.userbot.slots sessionId).workers[task]? with
      | some w =>
          s.polled w.args.ownerTelegramId = true →
            ∀ chosen ∈ s.chosen w.args.ownerTelegramId,
              s.seenBy sessionId task = s.choices w.args.ownerTelegramId ∨
                resolveLang (some w.args.lang) = chosen
      | none => True
  | _ => True

/-! ## What a dated read knows -/

/-- A language that was read since the last choice is the chosen one. -/
def Dated (s : State) (user : Int) (lang : Language) (seen : Nat) : Prop :=
  seen ≤ s.choices user ∧ (seen = s.choices user → ∀ chosen ∈ s.chosen user, lang = chosen)

def TaskInv (s : State) : Task → Prop
  | .reporting _ user _ loaded seen =>
      seen ≤ s.choices user ∧
        (seen = s.choices user → ∀ chosen ∈ s.chosen user, loaded = some chosen.locked)
  | .choosing user _ loaded => ∀ row ∈ loaded, ∃ row' ∈ s.users user,
      row.languageLocked = true → row'.languageLocked = true
  | .speaking user lang (some seen) => Dated s user lang seen
  | .speaking _ _ none => True

structure Inv (s : State) : Prop where
  tasks : ∀ id task, s.tasks id = some task → TaskInv s task
  workers : ∀ sessionId task w, (s.userbot.slots sessionId).workers[task]? = some w →
    Dated s w.args.ownerTelegramId (resolveLang (some w.args.lang)) (s.seenBy sessionId task)
  snapshot : ∀ active, s.userbot.snapshot = some active → ∀ sessionId session,
    active sessionId = some session →
      Dated s session.ownerTelegramId (resolveLang (some session.lang))
        (s.seenAt session.ownerTelegramId)

/-- Rows have stayed, with their locks, and a user who has chosen again has one more choice. -/
structure Later (s t : State) : Prop where
  rows : ∀ user, ∀ row ∈ s.users user, ∃ row' ∈ t.users user,
    row.languageLocked = true → row'.languageLocked = true
  choice : ∀ user, (t.choices user = s.choices user ∧ t.chosen user = s.chosen user) ∨
    s.choices user < t.choices user

theorem Later.of_same {s t : State} (users : t.users = s.users) (choices : t.choices = s.choices)
    (chosen : t.chosen = s.chosen) : Later s t where
  rows := fun _ row hrow => ⟨row, users ▸ hrow, fun h => h⟩
  choice := fun user => .inl ⟨congrFun choices user, congrFun chosen user⟩

theorem Later.choices_le {s t : State} (h : Later s t) (user : Int) :
    s.choices user ≤ t.choices user := by
  cases h.choice user with
  | inl hsame => exact Nat.le_of_eq hsame.1.symm
  | inr hlt => exact Nat.le_of_lt hlt

/-- What was read before the last choice in `t` was read before the one in `s`. -/
theorem Later.same {s t : State} (h : Later s t) {user : Int} {seen : Nat}
    (le : seen ≤ s.choices user) (now : seen = t.choices user) :
    seen = s.choices user ∧ t.chosen user = s.chosen user := by
  cases h.choice user with
  | inl hsame => exact ⟨now.trans hsame.1, hsame.2⟩
  | inr hlt => omega

theorem Dated.later {s t : State} {user : Int} {lang : Language} {seen : Nat}
    (h : Dated s user lang seen) (later : Later s t) : Dated t user lang seen := by
  refine ⟨Nat.le_trans h.1 (later.choices_le user), fun hnow chosen hchosen => ?_⟩
  obtain ⟨hseen, hsame⟩ := later.same h.1 hnow
  exact h.2 hseen chosen (hsame ▸ hchosen)

theorem TaskInv.later {s t : State} {task : Task} (h : TaskInv s task) (later : Later s t) :
    TaskInv t task := by
  cases task with
  | reporting report user languageCode loaded seen =>
      refine ⟨Nat.le_trans h.1 (later.choices_le user), fun hnow chosen hchosen => ?_⟩
      obtain ⟨hseen, hsame⟩ := later.same h.1 hnow
      exact h.2 hseen chosen (hsame ▸ hchosen)
  | choosing user lang loaded =>
      intro row hrow
      obtain ⟨row', hrow', hlock⟩ := h row hrow
      obtain ⟨row'', hrow'', hlock'⟩ := later.rows user row' hrow'
      exact ⟨row'', hrow'', fun hlocked => hlock' (hlock hlocked)⟩
  | speaking user lang seen =>
      cases seen with
      | none => trivial
      | some seen => exact Dated.later h later

/-- What has not been touched stays dated. -/
theorem Inv.later {s t : State} (h : Inv s) (later : Later s t)
    (tasks : ∀ id task, t.tasks id = some task → s.tasks id = some task ∨ TaskInv t task)
    (userbot : t.userbot = s.userbot) (seenAt : t.seenAt = s.seenAt)
    (seenBy : t.seenBy = s.seenBy) : Inv t where
  tasks := by
    intro id task hid
    cases tasks id task hid with
    | inl hsame => exact (h.tasks id task hsame).later later
    | inr htask => exact htask
  workers := by
    rw [userbot, seenBy]
    exact fun sessionId task w hw => (h.workers sessionId task w hw).later later
  snapshot := by
    rw [userbot, seenAt]
    exact fun active hactive sessionId session hsession =>
      (h.snapshot active hactive sessionId session hsession).later later

theorem Inv.updateTask {s : State} {id : Nat} {task : Option Task} (h : Inv s)
    (htask : ∀ new ∈ task, TaskInv s new) :
    Inv { s with tasks := Function.update s.tasks id task } := by
  refine h.later (.of_same rfl rfl rfl) (fun other task' hother => ?_) rfl rfl rfl
  change Function.update s.tasks id task other = some task' at hother
  by_cases heq : other = id
  · rw [heq, Function.update_self] at hother
    exact .inr ((htask task' hother).later (.of_same rfl rfl rfl))
  · rw [Function.update_of_ne heq] at hother
    exact .inl hother

theorem Inv.setTask {s : State} {id : Nat} {task : Task} (h : Inv s) (htask : TaskInv s task) :
    Inv (s.setTask id task) :=
  h.updateTask fun _ hnew => Option.some.inj hnew ▸ htask

theorem Inv.endTask {s : State} {id : Nat} (h : Inv s) : Inv (s.endTask id) :=
  h.updateTask fun _ hnew => by cases hnew

theorem Inv.say {s : State} (h : Inv s) (user : Int) (lang : Language) (due : Option Language) :
    Inv (s.say user lang due) :=
  h.later (.of_same rfl rfl rfl) (fun _ _ hid => .inl hid) rfl rfl rfl

/-! ## Writers -/

/-- Neither a row nor a lock is taken back. -/
theorem Flush.rows_apply {flush : Flush} {row : Option Columns} {result : Option Columns}
    (h : flush.apply row = some result) : ∀ old ∈ row, ∃ new ∈ result,
      old.languageLocked = true → new.languageLocked = true := by
  intro old hold
  cases flush with
  | nothing =>
      cases h
      exact ⟨old, hold, fun hlocked => hlocked⟩
  | insert new =>
      rw [Flush.apply, if_neg (by rw [hold]; nofun)] at h
      cases h
  | update languageCode lock =>
      cases h
      rw [hold]
      exact ⟨_, rfl, fun hlocked => by simp [hlocked]⟩

theorem later_setUser {s : State} {user : Int} {row : Option Columns}
    (h : ∀ old ∈ s.users user, ∃ new ∈ row,
      old.languageLocked = true → new.languageLocked = true) :
    Later s (s.setUser user row) where
  rows := by
    intro other old hold
    show ∃ new ∈ Function.update s.users user row other, _
    by_cases heq : other = user
    · rw [heq] at hold
      rw [heq, Function.update_self]
      exact h old hold
    · rw [Function.update_of_ne heq]
      exact ⟨old, hold, fun hlocked => hlocked⟩
  choice := fun _ => .inl ⟨rfl, rfl⟩

theorem Inv.setUser {s : State} {user : Int} {row : Option Columns} (h : Inv s)
    (rows : ∀ old ∈ s.users user, ∃ new ∈ row,
      old.languageLocked = true → new.languageLocked = true) : Inv (s.setUser user row) :=
  h.later (later_setUser rows) (fun _ _ hid => .inl hid) rfl rfl rfl

theorem later_choose (s : State) (user : Int) (lang : Language) :
    Later s (s.choose user lang) where
  rows := fun _ row hrow => ⟨row, hrow, fun hlocked => hlocked⟩
  choice := by
    intro other
    show (Function.update s.choices user (s.choices user + 1) other = s.choices other ∧
      Function.update s.chosen user (some lang) other = s.chosen other) ∨
      s.choices other < Function.update s.choices user (s.choices user + 1) other
    by_cases heq : other = user
    · rw [heq, Function.update_self]
      exact .inr (Nat.lt_succ_self _)
    · rw [Function.update_of_ne heq, Function.update_of_ne heq]
      exact .inl ⟨rfl, rfl⟩

theorem Inv.choose {s : State} (h : Inv s) (user : Int) (lang : Language) :
    Inv (s.choose user lang) :=
  h.later (later_choose s user lang) (fun _ _ hid => .inl hid) rfl rfl rfl

theorem dated_choose (s : State) (user : Int) (lang : Language) :
    Dated (s.choose user lang) user lang (s.choices user + 1) := by
  have hchoices : (s.choose user lang).choices user = s.choices user + 1 :=
    Function.update_self user _ _
  have hchosen : (s.choose user lang).chosen user = some lang := Function.update_self user _ _
  refine ⟨Nat.le_of_eq hchoices.symm, fun _ chosen h => ?_⟩
  rw [hchosen] at h
  exact Option.some.inj h

theorem Inv.write {s t : State} {id : Nat} {task : Task} (h : Inv s)
    (hwrite : I18n.write s id task = some t) : Inv t := by
  cases task with
  | reporting report user languageCode loaded seen =>
      rw [I18n.write] at hwrite
      split at hwrite
      · next row hrow =>
          cases hwrite
          exact (h.setUser (Flush.rows_apply hrow)).endTask
      · cases hwrite
        exact h.endTask
  | choosing user lang loaded =>
      obtain ⟨row, hrow, rfl⟩ := Option.map_eq_some_iff.mp hwrite
      exact ((h.setUser (Flush.rows_apply hrow)).choose user lang).setTask
        (dated_choose (s.setUser user row) user lang)
  | speaking user lang seen => cases hwrite

/-! ## Workers -/

theorem workers_reap (slot : Slot) : slot.reap.workers = slot.workers := by
  rw [Slot.reap]
  split
  · rfl
  · split <;> rfl

theorem args_cancel {slot : Slot} {active : Option ActiveSession} {task : Nat} {w : Worker}
    (h : (slot.cancel active).workers[task]? = some w) :
    ∃ w₀, slot.workers[task]? = some w₀ ∧ w.args = w₀.args := by
  rw [Slot.cancel] at h
  split at h
  · exact ⟨w, h, rfl⟩
  · split at h
    · rw [Slot.cancelWorker, List.getElem?_modify] at h
      obtain ⟨w₀, hw₀, rfl⟩ := Option.map_eq_some_iff.mp h
      refine ⟨w₀, hw₀, ?_⟩
      split <;> rfl
    · exact ⟨w, h, rfl⟩

/-- A worker after a poll is one from before it, or the one that the poll has started. -/
theorem args_supervise {slot : Slot} {active : Option ActiveSession} {task : Nat} {w : Worker}
    (h : (slot.supervise active).workers[task]? = some w) :
    (task < slot.workers.length ∧ ∃ w₀, slot.workers[task]? = some w₀ ∧ w.args = w₀.args) ∨
      (¬ task < slot.workers.length ∧ active = some w.args) := by
  have hold : (slot.reap.cancel active).workers[task]? = some w →
      task < slot.workers.length ∧ ∃ w₀, slot.workers[task]? = some w₀ ∧ w.args = w₀.args := by
    intro hw
    obtain ⟨w₀, hw₀, hargs⟩ := args_cancel hw
    rw [workers_reap] at hw₀
    exact ⟨(List.getElem?_eq_some_iff.mp hw₀).1, w₀, hw₀, hargs⟩
  have hlength : (slot.reap.cancel active).workers.length = slot.workers.length := by
    rw [← workers_reap slot, Slot.cancel]
    split
    · rfl
    · split
      · rw [Slot.cancelWorker, List.length_modify]
      · rfl
  change (Slot.launch (slot.reap.cancel active) active).workers[task]? = some w at h
  unfold Slot.launch at h
  split at h
  · next session _ =>
      rw [List.getElem?_append] at h
      split at h
      · exact .inl (hold h)
      · next hlt =>
          rw [hlength] at hlt
          obtain ⟨hbound, hw⟩ := List.getElem?_eq_some_iff.mp h
          rw [List.getElem_singleton] at hw
          subst hw
          exact .inr ⟨hlt, rfl⟩
  · exact .inl (hold h)

theorem args_setWorker {b : Userbot} {sessionId task : Nat} {w w' : Worker}
    (hw : (b.slots sessionId).workers[task]? = some w) (hargs : w'.args = w.args)
    {sessionId' task' : Nat} {w'' : Worker}
    (h : ((b.setWorker sessionId task w').slots sessionId').workers[task']? = some w'') :
    ∃ w₀, (b.slots sessionId').workers[task']? = some w₀ ∧ w''.args = w₀.args := by
  change (Function.update b.slots sessionId _ sessionId').workers[task']? = some w'' at h
  by_cases heq : sessionId' = sessionId
  · rw [heq, Function.update_self] at h
    rw [heq]
    change ((b.slots sessionId).workers.set task w')[task']? = some w'' at h
    rw [List.getElem?_set] at h
    split at h
    · next htask =>
        split at h
        · cases h
          exact ⟨w, htask ▸ hw, hargs⟩
        · cases h
    · exact ⟨w'', h, rfl⟩
  · rw [Function.update_of_ne heq] at h
    exact ⟨w'', h, rfl⟩

/-- A step of a worker keeps what the workers were started with. -/
theorem work_cases {b b' : Userbot} {sessionId task : Nat} {w : Worker}
    {action : WorkerAction} (h : b.work sessionId task w action = some b') :
    ∃ w', w'.args = w.args ∧ b'.slots = (b.setWorker sessionId task w').slots ∧
      b'.snapshot = b.snapshot := by
  cases action with
  | die =>
      obtain ⟨-, hb⟩ := Option.ite_none_right_eq_some.mp h
      cases hb
      exact ⟨{ w with phase := .dying }, rfl, rfl, rfl⟩
  | deactivate =>
      obtain ⟨-, hb⟩ := Option.ite_none_right_eq_some.mp h
      cases hb
      rw [Userbot.deactivate]
      split
      · exact ⟨{ w with phase := .ending }, rfl, rfl, rfl⟩
      · split
        · exact ⟨{ w with phase := .ending }, rfl, rfl, rfl⟩
        · exact ⟨{ w with phase := .notifying }, rfl, rfl, rfl⟩
  | send =>
      obtain ⟨-, hb⟩ := Option.ite_none_right_eq_some.mp h
      cases hb
      exact ⟨{ w with phase := .ending }, rfl, rfl, rfl⟩
  | stop | finish | interrupt =>
      obtain ⟨-, hb⟩ := Option.ite_none_right_eq_some.mp h
      cases hb
      exact ⟨{ w with phase := .done }, rfl, rfl, rfl⟩

theorem Inv.stepUserbot {decrypt : Bytes → Option String} {s t : State}
    {action : Supervisor.Action} (h : Inv s)
    (hstep : I18n.stepUserbot decrypt s action = some t) : Inv t := by
  cases action with
  | load => cases hstep
  | unlink userId =>
      cases hstep
      exact ⟨h.tasks, h.workers, h.snapshot⟩
  | worker sessionId task action =>
      change (Supervisor.step decrypt s.userbot (.worker sessionId task action)).map
        (fun userbot => { s with userbot }) = some t at hstep
      obtain ⟨b', hb', rfl⟩ := Option.map_eq_some_iff.mp hstep
      obtain ⟨w, hw, hwork⟩ := Option.bind_eq_some_iff.mp hb'
      obtain ⟨w', hargs, hslots, hsnapshot⟩ := work_cases hwork
      refine ⟨h.tasks, fun sessionId' task' w'' hw'' => ?_, fun active hactive => ?_⟩
      · change (b'.slots sessionId').workers[task']? = some w'' at hw''
        rw [hslots] at hw''
        obtain ⟨w₀, hw₀, hargs₀⟩ := args_setWorker hw hargs hw''
        rw [hargs₀]
        exact h.workers sessionId' task' w₀ hw₀
      · exact h.snapshot active (hsnapshot ▸ hactive)
  | supervise =>
      obtain ⟨active, hactive, hmap⟩ := Option.bind_eq_some_iff.mp hstep
      obtain ⟨b', hb', rfl⟩ := Option.map_eq_some_iff.mp hmap
      have hbot : b' = { s.userbot with
          slots := fun id => (s.userbot.slots id).supervise (active id), snapshot := none } := by
        rw [Supervisor.step, hactive] at hb'
        exact (Option.some.inj hb').symm
      subst hbot
      refine ⟨h.tasks, fun sessionId task w hw => ?_, nofun⟩
      show Dated s _ _ (if task < (s.userbot.slots sessionId).workers.length then
        s.seenBy sessionId task
        else ((active sessionId).map fun session => s.seenAt session.ownerTelegramId).getD 0)
      cases args_supervise hw with
      | inl hold =>
          obtain ⟨hlt, w₀, hw₀, hargs⟩ := hold
          rw [if_pos hlt, hargs]
          exact h.workers sessionId task w₀ hw₀
      | inr hnew =>
          obtain ⟨hlt, hsession⟩ := hnew
          rw [if_neg hlt, hsession]
          exact h.snapshot active hactive sessionId w.args hsession

/-! ## One step -/

/-- A row that is read holds the last choice. -/
theorem dated_row {s : State} (wins : Wins s) {user : Int} {row : Columns}
    (hrow : s.users user = some row) :
    Dated s user (resolveLang row.languageCode) (s.choices user) := by
  refine ⟨Nat.le_refl _, fun _ chosen hchosen => ?_⟩
  have hlocked : row = chosen.locked :=
    Option.some.inj (hrow.symm.trans (wins.stored user chosen hchosen))
  rw [hlocked]
  exact resolveLang_code chosen

theorem dated_unknown {s : State} (wins : Wins s) {user : Int} (hrow : s.users user = none)
    (lang : Language) : Dated s user lang (s.choices user) := by
  refine ⟨Nat.le_refl _, fun _ chosen hchosen => ?_⟩
  cases hrow.symm.trans (wins.stored user chosen hchosen)

/-- What a poll makes of the code in a row. -/
theorem resolveLang_active {decrypt : Bytes → Option String} {row : SessionRow}
    {session : ActiveSession} (h : loadActive decrypt row = some session) :
    session.ownerTelegramId = row.telegramId ∧
      resolveLang (some session.lang) = resolveLang row.languageCode := by
  rw [loadActive] at h
  split at h
  · obtain ⟨sessionString, -, rfl⟩ := Option.map_eq_some_iff.mp h
    refine ⟨rfl, ?_⟩
    have huk : resolveLang (some "uk") = .uk := resolveLang_code .uk
    cases row.languageCode with
    | none => exact huk
    | some code =>
        by_cases hempty : code = ""
        · rw [hempty]
          exact huk
        · simp [hempty]
  · cases h

theorem Inv.step {decrypt : Bytes → Option String} {s t : State} {a : Action} (h : Inv s)
    (wins : Wins s) (hstep : I18n.step decrypt s a = some t) : Inv t := by
  cases a with
  | report id report user languageCode =>
      obtain ⟨-, ⟨⟩⟩ := Option.ite_none_right_eq_some.mp hstep
      exact h.setTask ⟨Nat.le_refl _, fun _ chosen hchosen => wins.stored user chosen hchosen⟩
  | choose id user lang =>
      obtain ⟨-, ⟨⟩⟩ := Option.ite_none_right_eq_some.mp hstep
      exact h.setTask fun row hrow => ⟨row, hrow, fun hlocked => hlocked⟩
  | write id =>
      obtain ⟨task, -, hwrite⟩ := Option.bind_eq_some_iff.mp hstep
      exact h.write hwrite
  | update id user reported =>
      obtain ⟨-, ⟨⟩⟩ := Option.ite_none_right_eq_some.mp hstep
      refine h.setTask ?_
      rw [State.updateLang]
      split
      · next row hrow => exact dated_row wins hrow
      · next hrow => exact dated_unknown wins hrow _
  | managerUpdate id user reported =>
      obtain ⟨-, ⟨⟩⟩ := Option.ite_none_right_eq_some.mp hstep
      exact h.setTask trivial
  | ownerLang id user =>
      obtain ⟨-, ⟨⟩⟩ := Option.ite_none_right_eq_some.mp hstep
      refine h.setTask ?_
      rw [State.ownerLang]
      cases hrow : s.users user with
      | none => exact dated_unknown wins hrow _
      | some row => exact dated_row wins hrow
  | say id =>
      rw [I18n.step] at hstep
      split at hstep
      · cases hstep
        exact h.say _ _ _
      · cases hstep
  | drop id =>
      rw [I18n.step] at hstep
      split at hstep
      · cases hstep
      · cases hstep
        exact h.endTask
  | link sessionId row =>
      cases hstep
      exact ⟨h.tasks, h.workers, h.snapshot⟩
  | load =>
      obtain ⟨-, ⟨⟩⟩ := Option.ite_none_right_eq_some.mp hstep
      refine ⟨h.tasks, h.workers, fun active hactive sessionId session hsession => ?_⟩
      obtain rfl := Option.some.inj hactive
      obtain ⟨row, -, hjoin⟩ := Option.bind_eq_some_iff.mp hsession
      obtain ⟨user, huser, hload⟩ := Option.bind_eq_some_iff.mp hjoin
      obtain ⟨howner, hlang⟩ := resolveLang_active hload
      rw [howner, hlang]
      exact dated_row wins huser
  | userbot action => exact h.stepUserbot hstep
  | workerSay sessionId task =>
      obtain ⟨w, -, hsay⟩ := Option.bind_eq_some_iff.mp hstep
      split at hsay
      · cases hsay
      · cases hsay
        exact h.say _ _ _

/-! ## The choice wins -/

theorem Wins.of_same {s t : State} (h : Wins s) (users : t.users = s.users)
    (chosen : t.chosen = s.chosen) (messages : t.messages = s.messages) : Wins t where
  stored := by
    rw [users, chosen]
    exact h.stored
  messages := by
    rw [messages]
    exact h.messages

theorem wins_say {s : State} {user : Int} {lang : Language} {due : Option Language} :
    Wins (s.say user lang due) ↔ Wins s ∧ ∀ chosen ∈ due, lang = chosen := by
  constructor
  · intro h
    have hmessages := List.forall_mem_cons.mp h.messages
    exact ⟨⟨h.stored, hmessages.2⟩, hmessages.1⟩
  · rintro ⟨h, hlang⟩
    exact ⟨h.stored, List.forall_mem_cons.mpr ⟨hlang, h.messages⟩⟩

/-- A row that holds the choice is written by no one, or with the chosen code again. -/
theorem wins_setUser {s : State} (h : Wins s) {user : Int} {row : Option Columns} :
    Wins (s.setUser user row) ↔ ∀ lang ∈ s.chosen user, row = some lang.locked := by
  constructor
  · intro hwins lang hlang
    have hstored := hwins.stored user lang hlang
    rwa [show (s.setUser user row).users user = row from Function.update_self ..] at hstored
  · intro hrow
    refine ⟨fun other lang hlang => ?_, h.messages⟩
    show Function.update s.users user row other = some lang.locked
    by_cases heq : other = user
    · rw [heq, Function.update_self]
      exact hrow lang (heq ▸ hlang)
    · rw [Function.update_of_ne heq]
      exact h.stored other lang hlang

/-- A choice wins at first if its row has become the chosen one. -/
theorem wins_choose {s : State} (h : Wins s) {user : Int} {lang : Language}
    {row : Option Columns} :
    Wins ((s.setUser user row).choose user lang) ↔ row = some lang.locked := by
  have hchosen : ((s.setUser user row).choose user lang).chosen =
      Function.update s.chosen user (some lang) := rfl
  have husers : ((s.setUser user row).choose user lang).users =
      Function.update s.users user row := rfl
  constructor
  · intro hwins
    have hstored := hwins.stored user lang (by rw [hchosen, Function.update_self])
    rwa [husers, Function.update_self] at hstored
  · intro hrow
    refine ⟨fun other lang' hlang' => ?_, h.messages⟩
    rw [hchosen] at hlang'
    rw [husers]
    by_cases heq : other = user
    · rw [heq, Function.update_self] at hlang'
      cases hlang'
      rw [heq, Function.update_self, hrow]
    · rw [Function.update_of_ne heq] at hlang'
      rw [Function.update_of_ne heq]
      exact h.stored other lang' hlang'

/-- What a report that has been read flushes. -/
theorem report_cases (report : Report) (user : Int) (languageCode : Option String)
    (loaded : Option Columns) (seen : Nat) {flush : Flush}
    (h : (Task.reporting report user languageCode loaded seen).flush = flush) :
    flush = .nothing ∨ (loaded = none ∧ flush = .insert ⟨languageCode, false⟩) ∨
      ∃ code row, languageCode = some code ∧ loaded = some row ∧ row.languageLocked = false ∧
        flush = .update (some code) false := by
  subst h
  cases report with
  | upsertUser =>
      cases loaded with
      | none => exact .inr (.inl ⟨rfl, rfl⟩)
      | some row =>
          rw [Task.flush, upsertUser]
          split
          · next hwrite =>
              obtain ⟨code, rfl⟩ := Option.ne_none_iff_exists'.mp hwrite.1
              exact .inr (.inr ⟨code, row, rfl, rfl, hwrite.2.1, rfl⟩)
          · exact .inl rfl
  | setUserLanguage =>
      cases loaded with
      | none => exact .inl rfl
      | some row =>
          rw [Task.flush, setUserLanguage]
          split
          · next hwrite =>
              obtain ⟨code, rfl⟩ := Option.ne_none_iff_exists'.mp hwrite.1
              exact .inr (.inr ⟨code, row, rfl, rfl, hwrite.2.2.1, rfl⟩)
          · exact .inl rfl

/-- The commit of a report spares a choice that was made since, or it does not. -/
theorem wins_report {s t : State} (wins : Wins s) {id : Nat} {report : Report} {user : Int}
    {languageCode : Option String} {loaded : Option Columns} {seen : Nat}
    (hwrite : write s id (.reporting report user languageCode loaded seen) = some t) :
    Wins t ↔ ∀ lang ∈ s.chosen user,
      (Task.reporting report user languageCode loaded seen).flush = .nothing ∨
        loaded = none ∨ languageCode = some lang.code := by
  rw [write] at hwrite
  split at hwrite
  · next row hrow =>
      cases hwrite
      have hsame : Wins ((s.setUser user row).endTask id) ↔ Wins (s.setUser user row) :=
        ⟨fun h => h.of_same rfl rfl rfl, fun h => h.of_same rfl rfl rfl⟩
      rw [hsame, wins_setUser wins]
      refine forall₂_congr fun lang hlang => ?_
      rw [wins.stored user lang hlang] at hrow
      generalize hflush : (Task.reporting report user languageCode loaded seen).flush = flush
        at hrow
      obtain rfl | ⟨rfl, rfl⟩ | ⟨code, old, rfl, rfl, -, rfl⟩ :=
        report_cases report user languageCode loaded seen hflush
      · cases hrow
        simp
      · cases hrow
      · cases hrow
        simp [Language.locked]
  · next hrow =>
      cases hwrite
      refine iff_of_true (wins.of_same rfl rfl rfl) fun lang hlang => ?_
      generalize hflush : (Task.reporting report user languageCode loaded seen).flush = flush
        at hrow
      obtain rfl | ⟨hloaded, -⟩ | ⟨code, old, rfl, rfl, -, rfl⟩ :=
        report_cases report user languageCode loaded seen hflush
      · exact .inl rfl
      · exact .inr (.inl hloaded)
      · cases hrow

/-- A report that was read after the choice leaves it alone. -/
theorem flush_locked (report : Report) (user : Int) (languageCode : Option String)
    (lang : Language) (seen : Nat) :
    (Task.reporting report user languageCode (some lang.locked) seen).flush = .nothing := by
  obtain h | ⟨h, -⟩ | ⟨code, row, -, hloaded, hlocked, -⟩ :=
    report_cases report user languageCode (some lang.locked) seen rfl
  · exact h
  · cases h
  · cases hloaded
    cases hlocked

/-- What the commit of a choice makes of the row. -/
theorem choose_row {lang : Language} {loaded row result : Option Columns}
    (lock : ∀ old ∈ loaded, ∃ new ∈ row,
      old.languageLocked = true → new.languageLocked = true)
    (h : (setUserLanguageManual lang loaded).apply row = some result) :
    result = some lang.locked ↔
      (∃ old ∈ loaded, old.languageCode = some lang.code →
        row.bind Columns.languageCode = some lang.code) ∨ row = some lang.locked := by
  cases loaded with
  | none =>
      cases h
      simp
  | some old =>
      obtain ⟨new, rfl, hlock⟩ := lock old rfl
      rw [setUserLanguageManual] at h
      split at h
      · next hchosen =>
          cases h
          rw [hchosen] at hlock
          have hlocked : new.languageLocked = true := hlock rfl
          obtain ⟨code, locked⟩ := new
          cases hlocked
          simp [hchosen, Language.locked]
      · cases h
        obtain ⟨code, locked⟩ := old
        obtain ⟨code', locked'⟩ := new
        by_cases hcode : code = some lang.code <;> cases locked <;> cases locked' <;>
          simp_all [Language.locked]

/-- A step of the userbot touches no row of `users` and makes no text. -/
theorem wins_stepUserbot {decrypt : Bytes → Option String} {s t : State}
    {action : Supervisor.Action} (wins : Wins s)
    (hstep : stepUserbot decrypt s action = some t) : Wins t := by
  cases action with
  | load => cases hstep
  | supervise =>
      obtain ⟨active, -, hmap⟩ := Option.bind_eq_some_iff.mp hstep
      obtain ⟨b', -, rfl⟩ := Option.map_eq_some_iff.mp hmap
      exact wins.of_same rfl rfl rfl
  | worker sessionId task action =>
      change (Supervisor.step decrypt s.userbot (.worker sessionId task action)).map
        (fun userbot => { s with userbot }) = some t at hstep
      obtain ⟨b', -, rfl⟩ := Option.map_eq_some_iff.mp hstep
      exact wins.of_same rfl rfl rfl
  | unlink userId =>
      cases hstep
      exact wins.of_same rfl rfl rfl

theorem wins_write {s t : State} (h : Inv s) (wins : Wins s) {id : Nat} {task : Task}
    (hid : s.tasks id = some task) (hwrite : write s id task = some t) :
    Wins t ↔ Respects s (.write id) := by
  rw [Respects, hid]
  cases task with
  | reporting report user languageCode loaded seen =>
      rw [wins_report wins hwrite]
      refine forall₂_congr fun lang hlang => ?_
      refine ⟨.inr, fun hrespects => ?_⟩
      cases hrespects with
      | inl hseen =>
          left
          rw [(h.tasks id _ hid).2 hseen lang hlang]
          exact flush_locked report user languageCode lang seen
      | inr hflush => exact hflush
  | choosing user lang loaded =>
      obtain ⟨row, hrow, rfl⟩ := Option.map_eq_some_iff.mp hwrite
      refine Iff.trans ?_ (choose_row (h.tasks id _ hid) hrow)
      rw [← wins_choose wins]
      exact ⟨fun hwins => hwins.of_same rfl rfl rfl, fun hwins => hwins.of_same rfl rfl rfl⟩
  | speaking user lang seen => cases hwrite

/-- A step keeps the choices winning exactly if it respects them. -/
theorem wins_step {decrypt : Bytes → Option String} {s t : State} {a : Action} (h : Inv s)
    (wins : Wins s) (hstep : step decrypt s a = some t) : Wins t ↔ Respects s a := by
  cases a with
  | report id report user languageCode =>
      obtain ⟨-, ⟨⟩⟩ := Option.ite_none_right_eq_some.mp hstep
      exact iff_of_true (wins.of_same rfl rfl rfl) trivial
  | choose id user lang =>
      obtain ⟨-, ⟨⟩⟩ := Option.ite_none_right_eq_some.mp hstep
      exact iff_of_true (wins.of_same rfl rfl rfl) trivial
  | write id =>
      obtain ⟨task, hid, hwrite⟩ := Option.bind_eq_some_iff.mp hstep
      exact wins_write h wins hid hwrite
  | update id user reported =>
      obtain ⟨-, ⟨⟩⟩ := Option.ite_none_right_eq_some.mp hstep
      exact iff_of_true (wins.of_same rfl rfl rfl) trivial
  | managerUpdate id user reported =>
      obtain ⟨-, ⟨⟩⟩ := Option.ite_none_right_eq_some.mp hstep
      exact iff_of_true (wins.of_same rfl rfl rfl) trivial
  | ownerLang id user =>
      obtain ⟨-, ⟨⟩⟩ := Option.ite_none_right_eq_some.mp hstep
      exact iff_of_true (wins.of_same rfl rfl rfl) trivial
  | say id =>
      rw [step] at hstep
      split at hstep
      · next user lang seen hid =>
          cases hstep
          rw [Respects, hid, wins_say]
          constructor
          · rintro ⟨-, hlang⟩ chosen hchosen
            exact .inr (hlang chosen hchosen)
          · intro hrespects
            refine ⟨wins, fun chosen hchosen => ?_⟩
            cases hrespects chosen hchosen with
            | inl hseen =>
                subst hseen
                exact (h.tasks id _ hid).2 rfl chosen hchosen
            | inr hlang => exact hlang
      · cases hstep
  | drop id =>
      rw [step] at hstep
      split at hstep
      · cases hstep
      · cases hstep
        exact iff_of_true (wins.of_same rfl rfl rfl) trivial
  | link sessionId row =>
      cases hstep
      exact iff_of_true (wins.of_same rfl rfl rfl) trivial
  | load =>
      obtain ⟨-, ⟨⟩⟩ := Option.ite_none_right_eq_some.mp hstep
      exact iff_of_true (wins.of_same rfl rfl rfl) trivial
  | userbot action => exact iff_of_true (wins_stepUserbot wins hstep) trivial
  | workerSay sessionId task =>
      obtain ⟨w, hw, hsay⟩ := Option.bind_eq_some_iff.mp hstep
      split at hsay
      · cases hsay
      · cases hsay
        rw [Respects, hw, wins_say]
        constructor
        · rintro ⟨-, hlang⟩ hpolled chosen hchosen
          exact .inr (hlang chosen (by rwa [if_pos hpolled]))
        · intro hrespects
          refine ⟨wins, fun chosen hdue => ?_⟩
          obtain ⟨hpolled, hchosen⟩ := Option.ite_none_right_eq_some.mp hdue
          cases hrespects hpolled chosen hchosen with
          | inl hseen => exact (h.workers sessionId task w hw).2 hseen chosen hchosen
          | inr hlang => exact hlang

/-- At first nobody has chosen, and nothing is under way. -/
def start (users : Int → Option Columns) (rows : Nat → Option SessionRow) : State where
  users
  userbot := Supervisor.start rows

theorem inv_start (users : Int → Option Columns) (rows : Nat → Option SessionRow) :
    Inv (start users rows) where
  tasks := fun _ _ h => by cases h
  workers := fun _ _ _ h => by cases h
  snapshot := fun _ h => by cases h

theorem wins_start (users : Int → Option Columns) (rows : Nat → Option SessionRow) :
    Wins (start users rows) where
  stored := fun _ _ h => by cases h
  messages := fun _ h => by cases h

/-- The choices win all along a run exactly if each of its steps respects them. -/
theorem choice_wins_iff {decrypt : Bytes → Option String} {users : Int → Option Columns}
    {rows : Nat → Option SessionRow} {actions : List Action} {final : State}
    (run : exec (step decrypt) (start users rows) actions = some final) :
    (∀ first rest s, actions = first ++ rest →
      exec (step decrypt) (start users rows) first = some s → Wins s) ↔
      Meets (step decrypt) Respects (start users rows) actions :=
  forall_prefix_iff_meets Inv Wins (fun _ _ _ h wins hstep => h.step wins hstep)
    (fun _ _ _ h wins hstep => wins_step h wins hstep) (inv_start users rows)
    (wins_start users rows) run

section Runs

instance (s : State) (a : Action) : Decidable (Respects s a) := by
  unfold Respects
  split
  · split <;> infer_instance
  · split <;> infer_instance
  · split <;> infer_instance
  · infer_instance

/-- An active session of the user 700. -/
def oneSession : Nat → Option SessionRow := fun id =>
  if id = 1 then some ⟨7, 700, none, ⟨[1], true⟩⟩ else none

/-- The ciphertext that stands for every session string. -/
def anyString : Bytes → Option String := fun _ => some "session"

def noUsers : Int → Option Columns := fun _ => none

/-- Telegram reports `en`, and the user picks a language. -/
def picks (lang : Language) : List Action :=
  [.report 0 .upsertUser 700 (some "en"), .write 0, .choose 1 700 lang, .write 1, .say 1]

/-- Every service is heard after the choice; the manager bot by chance in the right language. -/
def allServices : List Action :=
  picks .ru ++ [.report 2 .setUserLanguage 700 (some "en"), .write 2, .update 3 700 (some "en"),
    .say 3, .ownerLang 4 700, .say 4, .managerUpdate 5 700 (some "ru-RU"), .say 5, .load,
    .userbot .supervise, .workerSay 1 0]

theorem allServices_wins : ∃ final,
    exec (step anyString) (start noUsers oneSession) allServices = some final ∧
      final.messages.map Message.lang = [.ru, .ru, .ru, .ru, .ru] ∧
      ∀ first rest s, allServices = first ++ rest →
        exec (step anyString) (start noUsers oneSession) first = some s → Wins s := by
  have hobserved : (exec (step anyString) (start noUsers oneSession) allServices).map
      (·.messages.map Message.lang) = some [.ru, .ru, .ru, .ru, .ru] := by
    decide +kernel
  obtain ⟨final, hrun, hmessages⟩ := Option.map_eq_some_iff.mp hobserved
  exact ⟨final, hrun, hmessages, (choice_wins_iff hrun).mpr (by decide +kernel)⟩

/-- The manager bot answers in the language that Telegram reports. -/
def managerAnswers : List Action :=
  picks .ru ++ [.managerUpdate 2 700 (some "en"), .say 2]

/-- The worker was started before the choice, and no poll starts it again. -/
def workerAnswers : List Action :=
  [.report 0 .upsertUser 700 (some "en"), .write 0, .load, .userbot .supervise] ++
    [.choose 1 700 .ru, .write 1, .load, .userbot .supervise, .load, .userbot .supervise,
      .workerSay 1 0]

theorem not_wins {s : State} {lang : Language} (h : s.messages.head? = some ⟨700, .en, some lang⟩)
    (hlang : lang ≠ .en) : ¬ Wins s := by
  intro hwins
  have hmem := List.mem_of_head? h
  exact hlang (hwins.messages _ hmem lang rfl).symm

theorem choice_not_wins :
    (∃ s, exec (step anyString) (start noUsers oneSession) managerAnswers = some s ∧ ¬ Wins s) ∧
    ∃ s, exec (step anyString) (start noUsers oneSession) workerAnswers = some s ∧ ¬ Wins s := by
  have hmanager : (exec (step anyString) (start noUsers oneSession) managerAnswers).map
      (·.messages.head?) = some (some ⟨700, .en, some .ru⟩) := by
    decide +kernel
  have hworker : (exec (step anyString) (start noUsers oneSession) workerAnswers).map
      (·.messages.head?) = some (some ⟨700, .en, some .ru⟩) := by
    decide +kernel
  obtain ⟨s, hrun, hs⟩ := Option.map_eq_some_iff.mp hmanager
  obtain ⟨s', hrun', hs'⟩ := Option.map_eq_some_iff.mp hworker
  exact ⟨⟨s, hrun, not_wins hs (by decide)⟩, ⟨s', hrun', not_wins hs' (by decide)⟩⟩

end Runs

end UserTgBot.I18n
