import UserTgBot.Login.Manager

/-!
# Logins from the chat

The handlers of `handlers/connect.py` around the login manager, for all users at once, in the
keypad flow. The registry is a manager for each key. Handlers give way between their reads and
their calls of the manager, so a call is queued first and begun later; an update that is never
followed up stands for a handler that has raised.

The key under which a login starts is the sender of the message that `cmd_connect` gets, and
`on_link` passes on the bot's own message. All other keys are the user's. So users who link
through the settings with a phone on file share one entry of the registry.
-/

namespace UserTgBot.Login

open Transition

/-- `ConnectStates`, or none of them. -/
inductive ConnectState where
  | outside
  | waitingForPhone
  | waitingForCode
  | waitingForPassword
deriving DecidableEq

/-- The keys of the number pad. -/
inductive Tap where
  | digit (digit : String)
  | backspace
  | submit
  | resend
  | other
deriving DecidableEq

/-- A call of the login manager by a handler. -/
structure Call where
  chatId : Int
  /-- The sender of the update. -/
  userId : Int
  /-- The id that is passed to the manager. -/
  key : Int
  operation : Operation
  begun : Bool := false
deriving DecidableEq

structure Bot where
  managers : Int → Manager
  /-- The FSM state of a user in a chat. -/
  states : Int × Int → ConnectState
  subscribed : Int → Bool
  /-- `get_last_known_phone`. -/
  phones : Int → Option String
  calls : List Call
  /-- Whom an attempt has been started for, by the key and the number of the attempt. -/
  owner : Int → Nat → Option Int

/-- No login has been started yet. -/
def Bot.start (states : Int × Int → ConnectState) (subscribed : Int → Bool)
    (phones : Int → Option String) : Bot where
  managers := fun _ => .initial
  states := states
  subscribed := subscribed
  phones := phones
  calls := []
  owner := fun _ _ => none

inductive Update where
  /-- `/connect` or `/start connect`. -/
  | connect (chatId userId : Int)
  /-- `set:link`. -/
  | link (chatId userId : Int)
  /-- A contact or a text, as far as it gives a phone. -/
  | phone (chatId userId : Int) (phone : String)
  | tap (chatId userId : Int) (tap : Tap)
  | password (chatId userId : Int) (password : String)
  /-- Another handler changes the FSM state. -/
  | leave (chatId userId : Int)
  | begin (call : Nat)
  | reply (call : Nat) (reply : Reply)
  | subscription (chatId : Int) (active : Bool)
  | phoneOnFile (chatId : Int) (phone : Option String)
deriving DecidableEq

namespace Bot

/-- `login_manager.has_login`. -/
def hasLogin (b : Bot) (userId : Int) : Bool := (b.managers userId).registered.isSome

def setState (b : Bot) (chatId userId : Int) (state : ConnectState) : Bot :=
  { b with states := Function.update b.states (chatId, userId) state }

/-- A handler is about to call the manager. -/
def queue (b : Bot) (call : Call) : Bot := { b with calls := b.calls ++ [call] }

/-- The phone on file; an empty one counts as none. -/
def knownPhone (b : Bot) (chatId : Int) : Option String := (b.phones chatId).filter (· ≠ "")

/-- `cmd_connect`; `fromUser` is the sender of the message that it gets. -/
def cmdConnect (b : Bot) (chatId userId fromUser : Int) : Bot :=
  if b.subscribed chatId then
    match b.knownPhone chatId with
    | some phone => b.queue { chatId, userId, key := fromUser, operation := .start phone }
    | none => b.setState chatId userId .waitingForPhone
  else b

/-- What a handler does with the outcome of its call. -/
def settle (b : Bot) (call : Call) (result : Except LoginError Answer) : Bot :=
  match call.operation, result with
  | .start _, .ok _ => b.setState call.chatId call.userId .waitingForCode
  | .start _, .error _ => b.setState call.chatId call.userId .outside
  | .submitCode, .error .codeTooShort => b
  | .submitCode, .error .invalidCode => b
  | .submitPassword _, .error .wrongPassword => b
  -- not a `LoginError`: the handler raises
  | _, .error (.client _) => b
  | .submitCode, .error _ => b.setState call.chatId call.userId .outside
  | .submitPassword _, .error _ => b.setState call.chatId call.userId .outside
  | .resendCode, .error .noActiveLogin => b.setState call.chatId call.userId .outside
  | _, .ok (.login result) =>
      if result.status = "needs_password" then
        b.setState call.chatId call.userId .waitingForPassword
      else
        -- `_persist_and_finish`
        { b.setState call.chatId call.userId .outside with
          phones := Function.update b.phones call.chatId result.phone }
  | _, _ => b

end Bot

/-- The outcome that a step of the manager has brought. -/
def Manager.outcome? (m m' : Manager) : Option (Except LoginError Answer) :=
  if m.answers.length < m'.answers.length then m'.answers.head?.map Prod.snd else none

namespace Bot

/-- The manager under the key of a call has taken a step for it. -/
def advance (b : Bot) (call : Call) (m : Manager) : Bot :=
  let old := b.managers call.key
  let moved : Bot :=
    { b with
      managers := Function.update b.managers call.key m
      owner :=
        if old.created < m.created then
          Function.update b.owner call.key
            (Function.update (b.owner call.key) old.created (some call.userId))
        else b.owner }
  match old.outcome? m with
  | none => moved
  | some result => moved.settle call result

/-- A call reaches the manager and runs up to its first await. -/
def begin (b : Bot) (op : Nat) (call : Call) : Option Bot :=
  ((b.managers call.key).step (.call op call.operation)).map fun m =>
    { b with calls := b.calls.modify op fun call => { call with begun := true } }.advance call m

/-- A call without an await before it. -/
def callNow (b : Bot) (call : Call) : Option Bot := (b.queue call).begin b.calls.length call

/-- `on_code_button`. -/
def onCodeButton (b : Bot) (chatId userId : Int) (tap : Tap) : Option Bot :=
  if b.hasLogin userId then
    match tap with
    | .submit => some (b.queue { chatId, userId, key := userId, operation := .submitCode })
    | .resend => some (b.queue { chatId, userId, key := userId, operation := .resendCode })
    | .digit digit =>
        b.callNow { chatId, userId, key := userId, operation := .pushDigit digit }
    | .backspace => b.callNow { chatId, userId, key := userId, operation := .backspace }
    | .other => some b
  else some (b.setState chatId userId .outside)

/-- One step of the bot, whose own id is `botId`. -/
def step (botId : Int) (b : Bot) : Update → Option Bot
  | .connect chatId userId => some (b.cmdConnect chatId userId userId)
  | .link chatId userId => some (b.cmdConnect chatId userId botId)
  | .phone chatId userId phone =>
      if b.states (chatId, userId) = .waitingForPhone then
        some (b.queue { chatId, userId, key := userId, operation := .start phone })
      else none
  | .tap chatId userId tap =>
      if b.states (chatId, userId) = .waitingForCode then b.onCodeButton chatId userId tap
      else none
  | .password chatId userId password =>
      if b.states (chatId, userId) = .waitingForPassword then
        some (b.queue { chatId, userId, key := userId, operation := .submitPassword password })
      else none
  | .leave chatId userId => some (b.setState chatId userId .outside)
  | .begin op => b.calls[op]?.bind fun call => if call.begun then none else b.begin op call
  | .reply op reply => b.calls[op]?.bind fun call =>
      ((b.managers call.key).step (.resume op reply)).map (b.advance call)
  | .subscription chatId active =>
      some { b with subscribed := Function.update b.subscribed chatId active }
  | .phoneOnFile chatId phone => some { b with phones := Function.update b.phones chatId phone }

/-- The user that a step is taken for. -/
def actor (b : Bot) : Update → Option Int
  | .connect _ userId => some userId
  | .link _ userId => some userId
  | .phone _ userId _ => some userId
  | .tap _ userId _ => some userId
  | .password _ userId _ => some userId
  | .leave _ userId => some userId
  | .begin op => b.calls[op]?.map Call.userId
  | .reply op _ => b.calls[op]?.map Call.userId
  | .subscription _ _ => none
  | .phoneOnFile _ _ => none

end Bot

/-- An attempt is as it was: registered or not, asked to disconnect or not, with its state. -/
structure SameAttempt (m m' : Manager) (attempt : Nat) : Prop where
  registered : m'.registered = some attempt ↔ m.registered = some attempt
  disconnected : attempt ∈ m'.disconnected ↔ attempt ∈ m.disconnected
  state : m'.states attempt = m.states attempt

/-- A step keeps the logins apart. -/
structure Independent (b b' : Bot) (update : Update) : Prop where
  /-- Once the code request for a user has succeeded, the user has a login under the own id. -/
  served : ∀ op phoneCodeHash call phone client, update = .reply op (.sent phoneCodeHash) →
    b.calls[op]? = some call →
      (b.managers call.key).operations op = some (.requestingCode phone client) →
        b'.hasLogin call.userId = true
  /-- The attempts of other users stay as they are. -/
  others : ∀ userId, b.actor update = some userId → ∀ key attempt other,
    b.owner key attempt = some other → other ≠ userId →
      SameAttempt (b.managers key) (b'.managers key) attempt

/-- Every step of a run keeps the logins apart. -/
def LoginsIndependent (botId : Int) (b : Bot) (updates : List Update) : Prop :=
  ∀ past update rest t t', updates = past ++ update :: rest →
    exec (Bot.step botId) b past = some t → t.step botId update = some t' →
      Independent t t' update

/-- The update does not link through the settings with a subscription and a phone on file. -/
def AsksForPhone (b : Bot) : Update → Prop
  | .link chatId _ => b.subscribed chatId = true → b.knownPhone chatId = none
  | _ => True

instance (b : Bot) (update : Update) : Decidable (AsksForPhone b update) := by
  unfold AsksForPhone
  split <;> infer_instance

/-! ## Every key is the user's -/

/-- Calls and attempts are under the ids of the users they are for. -/
structure Keyed (b : Bot) : Prop where
  calls : ∀ call ∈ b.calls, call.key = call.userId
  owner : ∀ key attempt userId, b.owner key attempt = some userId → userId = key

section Steps

variable {b b' : Bot} {botId : Int} {call : Call} {update : Update}

/-- What is done with an outcome concerns the FSM and the phones only. -/
theorem settle_frame (b : Bot) (call : Call) (result : Except LoginError Answer) :
    (b.settle call result).managers = b.managers ∧ (b.settle call result).calls = b.calls ∧
      (b.settle call result).owner = b.owner := by
  unfold Bot.settle
  split <;> first | exact ⟨rfl, rfl, rfl⟩ | (split <;> exact ⟨rfl, rfl, rfl⟩)

theorem managers_advance (b : Bot) (call : Call) (m : Manager) :
    (b.advance call m).managers = Function.update b.managers call.key m := by
  simp only [Bot.advance]
  split
  · rfl
  · exact (settle_frame _ call _).1

theorem calls_advance (b : Bot) (call : Call) (m : Manager) :
    (b.advance call m).calls = b.calls := by
  simp only [Bot.advance]
  split
  · rfl
  · exact (settle_frame _ call _).2.1

theorem owner_advance (b : Bot) (call : Call) (m : Manager) :
    (b.advance call m).owner =
      if (b.managers call.key).created < m.created then
        Function.update b.owner call.key (Function.update (b.owner call.key)
          (b.managers call.key).created (some call.userId))
      else b.owner := by
  simp only [Bot.advance]
  split
  · rfl
  · exact (settle_frame _ call _).2.2

theorem Keyed.advance (h : Keyed b) (hkey : call.key = call.userId) (m : Manager) :
    Keyed (b.advance call m) := by
  constructor
  · rw [calls_advance]
    exact h.calls
  · intro key attempt userId howner
    rw [owner_advance] at howner
    split at howner
    · by_cases hsame : key = call.key
      · subst hsame
        rw [Function.update_self] at howner
        by_cases hattempt : attempt = (b.managers call.key).created
        · rw [hattempt, Function.update_self] at howner
          rw [← Option.some.inj howner, hkey]
        · rw [Function.update_of_ne hattempt] at howner
          exact h.owner call.key attempt userId howner
      · rw [Function.update_of_ne hsame] at howner
        exact h.owner key attempt userId howner
    · exact h.owner key attempt userId howner

theorem Keyed.queue (h : Keyed b) (hkey : call.key = call.userId) : Keyed (b.queue call) := by
  refine ⟨fun other hother => ?_, h.owner⟩
  cases List.mem_append.mp hother with
  | inl hmem => exact h.calls other hmem
  | inr hmem =>
      rw [List.mem_singleton.mp hmem]
      exact hkey

/-- A call has been begun. -/
theorem Keyed.begun (h : Keyed b) (op : Nat) :
    Keyed { b with calls := b.calls.modify op fun call => { call with begun := true } } := by
  refine ⟨fun other hother => ?_, h.owner⟩
  obtain ⟨i, hi⟩ := List.mem_iff_getElem?.mp hother
  rw [List.getElem?_modify] at hi
  obtain ⟨old, hold, rfl⟩ := Option.map_eq_some_iff.mp hi
  have hmem := h.calls old (List.mem_of_getElem? hold)
  split <;> exact hmem

/-- A step of one manager, or of none. -/
structure StepFor (b b' : Bot) (userId : Int) : Prop where
  keyed : Keyed b'
  managers : ∀ key, key ≠ userId → b'.managers key = b.managers key

theorem StepFor.of_managers {userId : Int} (keyed : Keyed b')
    (same : b'.managers = b.managers) : StepFor b b' userId :=
  ⟨keyed, fun key _ => congrFun same key⟩

theorem stepFor_advance (h : Keyed b) (hkey : call.key = call.userId) (m : Manager) :
    StepFor b (b.advance call m) call.userId := by
  refine ⟨h.advance hkey m, fun key hne => ?_⟩
  rw [managers_advance, Function.update_of_ne (hkey ▸ hne)]

theorem stepFor_begin {op : Nat} (h : Keyed b) (hkey : call.key = call.userId)
    (hbegin : b.begin op call = some b') : StepFor b b' call.userId := by
  obtain ⟨m, -, rfl⟩ := Option.map_eq_some_iff.mp hbegin
  have hstep := stepFor_advance (h.begun op) hkey m
  exact ⟨hstep.keyed, hstep.managers⟩

theorem stepFor_callNow (h : Keyed b) (hkey : call.key = call.userId)
    (hcall : b.callNow call = some b') : StepFor b b' call.userId := by
  have hstep := stepFor_begin (h.queue hkey) hkey hcall
  exact ⟨hstep.keyed, hstep.managers⟩

theorem stepFor_setState (h : Keyed b) (chatId userId : Int) (state : ConnectState) :
    StepFor b (b.setState chatId userId state) userId :=
  .of_managers ⟨h.calls, h.owner⟩ rfl

theorem stepFor_cmdConnect (h : Keyed b) (chatId userId : Int) :
    StepFor b (b.cmdConnect chatId userId userId) userId := by
  rw [Bot.cmdConnect]
  split
  · split
    · exact .of_managers (h.queue rfl) rfl
    · exact stepFor_setState h chatId userId _
  · exact .of_managers h rfl

/-- Without a phone on file it does not matter whose message `cmd_connect` gets. -/
theorem cmdConnect_of_asksForPhone {chatId userId : Int} (h : AsksForPhone b (.link chatId userId))
    (fromUser : Int) : b.cmdConnect chatId userId fromUser = b.cmdConnect chatId userId userId := by
  unfold Bot.cmdConnect
  split
  · rename_i hsubscribed
    rw [h hsubscribed]
  · rfl

theorem stepFor_onCodeButton {chatId userId : Int} {tap : Tap} (h : Keyed b)
    (htap : b.onCodeButton chatId userId tap = some b') : StepFor b b' userId := by
  unfold Bot.onCodeButton at htap
  split at htap
  · cases tap with
    | digit digit => exact stepFor_callNow h rfl htap
    | backspace => exact stepFor_callNow h rfl htap
    | submit =>
        cases htap
        exact .of_managers (h.queue rfl) rfl
    | resend =>
        cases htap
        exact .of_managers (h.queue rfl) rfl
    | other =>
        cases htap
        exact .of_managers h rfl
  · cases htap
    exact stepFor_setState h chatId userId _

/-- One step for a user that asks for a phone where it has to. -/
theorem stepFor_step (h : Keyed b) (asks : AsksForPhone b update) {userId : Int}
    (hactor : b.actor update = some userId) (hstep : b.step botId update = some b') :
    StepFor b b' userId := by
  cases update with
  | connect chatId userId' =>
      cases hactor
      cases hstep
      exact stepFor_cmdConnect h chatId userId
  | link chatId userId' =>
      cases hactor
      cases hstep
      rw [cmdConnect_of_asksForPhone asks]
      exact stepFor_cmdConnect h chatId userId
  | phone chatId userId' phone =>
      cases hactor
      simp only [Bot.step, Option.ite_none_right_eq_some, Option.some.injEq] at hstep
      obtain ⟨-, rfl⟩ := hstep
      exact .of_managers (h.queue rfl) rfl
  | tap chatId userId' tap =>
      cases hactor
      simp only [Bot.step, Option.ite_none_right_eq_some] at hstep
      exact stepFor_onCodeButton h hstep.2
  | password chatId userId' password =>
      cases hactor
      simp only [Bot.step, Option.ite_none_right_eq_some, Option.some.injEq] at hstep
      obtain ⟨-, rfl⟩ := hstep
      exact .of_managers (h.queue rfl) rfl
  | leave chatId userId' =>
      cases hactor
      cases hstep
      exact stepFor_setState h chatId userId _
  | begin op =>
      obtain ⟨call, hcall, hbegin⟩ := Option.bind_eq_some_iff.mp hstep
      obtain ⟨call', hcall', rfl⟩ := Option.map_eq_some_iff.mp hactor
      obtain rfl : call = call' := Option.some.inj (hcall.symm.trans hcall')
      split at hbegin
      · cases hbegin
      · exact stepFor_begin h (h.calls call (List.mem_of_getElem? hcall)) hbegin
  | reply op reply =>
      obtain ⟨call, hcall, hreply⟩ := Option.bind_eq_some_iff.mp hstep
      obtain ⟨call', hcall', rfl⟩ := Option.map_eq_some_iff.mp hactor
      obtain rfl : call = call' := Option.some.inj (hcall.symm.trans hcall')
      obtain ⟨m, -, rfl⟩ := Option.map_eq_some_iff.mp hreply
      exact stepFor_advance h (h.calls call (List.mem_of_getElem? hcall)) m
  | subscription chatId active => cases hactor
  | phoneOnFile chatId phone => cases hactor

/-- The database changes by itself. -/
theorem keyed_of_no_actor (h : Keyed b) (hactor : b.actor update = none)
    (hstep : b.step botId update = some b') : Keyed b' := by
  cases update with
  | subscription chatId active =>
      cases hstep
      exact ⟨h.calls, h.owner⟩
  | phoneOnFile chatId phone =>
      cases hstep
      exact ⟨h.calls, h.owner⟩
  | begin op =>
      obtain ⟨call, hcall, -⟩ := Option.bind_eq_some_iff.mp hstep
      simp [Bot.actor, hcall] at hactor
  | reply op reply =>
      obtain ⟨call, hcall, -⟩ := Option.bind_eq_some_iff.mp hstep
      simp [Bot.actor, hcall] at hactor
  | connect chatId userId => cases hactor
  | link chatId userId => cases hactor
  | phone chatId userId phone => cases hactor
  | tap chatId userId tap => cases hactor
  | password chatId userId password => cases hactor
  | leave chatId userId => cases hactor

theorem Keyed.step (b : Bot) (update : Update) (b' : Bot) (h : Keyed b)
    (asks : AsksForPhone b update) (hstep : b.step botId update = some b') : Keyed b' := by
  cases hactor : b.actor update with
  | none => exact keyed_of_no_actor h hactor hstep
  | some userId => exact (stepFor_step h asks hactor hstep).keyed

/-- The reply to a code request registers the login under the key of its call. -/
theorem hasLogin_of_sent {op : Nat} {phoneCodeHash phone : String} {client : Nat}
    (hkey : call.key = call.userId) (hcall : b.calls[op]? = some call)
    (hphase : (b.managers call.key).operations op = some (.requestingCode phone client))
    (hstep : b.step botId (.reply op (.sent phoneCodeHash)) = some b') :
    b'.hasLogin call.userId = true := by
  obtain ⟨call', hcall', hreply⟩ := Option.bind_eq_some_iff.mp hstep
  obtain rfl : call = call' := Option.some.inj (hcall.symm.trans hcall')
  obtain ⟨m, hm, rfl⟩ := Option.map_eq_some_iff.mp hreply
  rw [Manager.step, hphase] at hm
  cases hm
  rw [Bot.hasLogin, managers_advance, ← hkey, Function.update_self]
  rfl

theorem Keyed.independent (h : Keyed b) (asks : AsksForPhone b update)
    (hstep : b.step botId update = some b') : Independent b b' update := by
  constructor
  · rintro op phoneCodeHash call phone client rfl hcall hphase
    exact hasLogin_of_sent (h.calls call (List.mem_of_getElem? hcall)) hcall hphase hstep
  · intro userId hactor key attempt other howner hne
    have hkey : key ≠ userId := h.owner key attempt other howner ▸ hne
    have hsame := (stepFor_step h asks hactor hstep).managers key hkey
    exact ⟨by rw [hsame], by rw [hsame], by rw [hsame]⟩

end Steps

theorem keyed_start (states : Int × Int → ConnectState) (subscribed : Int → Bool)
    (phones : Int → Option String) : Keyed (.start states subscribed phones) := by
  constructor
  · intro call hcall
    cases hcall
  · intro key attempt userId howner
    cases howner

/-- As long as nobody links through the settings with a phone on file, the logins of different
users are independent. -/
theorem logins_independent (botId : Int) (states : Int × Int → ConnectState)
    (subscribed : Int → Bool) (phones : Int → Option String) (updates : List Update)
    (asks : Meets (Bot.step botId) AsksForPhone (.start states subscribed phones) updates) :
    LoginsIndependent botId (.start states subscribed phones) updates := by
  intro past update rest t t' heq hpast hstep
  have hsplit := meets_iff_split.mp asks
  have hmeets : Meets (Bot.step botId) AsksForPhone (.start states subscribed phones) past := by
    refine meets_iff_split.mpr fun first action last u hfirst hrun => ?_
    refine hsplit first action (last ++ update :: rest) u ?_ hrun
    simp [heq, hfirst]
  have hkeyed : Keyed t := exec_invariant_of_meets Keyed.step (keyed_start ..) hmeets hpast
  exact hkeyed.independent (hsplit past update rest t heq hpast) hstep

section Runs

/-- Everybody has a subscription, and the phone of user 1 is on file. -/
def newcomer : Bot :=
  .start (fun _ => .outside) (fun _ => true) fun chatId => if chatId = 1 then some "+1" else none

/-- User 1 links by a command. Meanwhile user 2 links through the settings, is asked for a
phone and gives one. Both enter a digit. -/
def mixedLogins : List Update :=
  [.connect 1 1, .begin 0, .link 2 2, .reply 0 .done, .phone 2 2 "+2", .begin 1,
    .reply 0 (.sent "first"), .reply 1 .done, .tap 1 1 (.digit "7"), .reply 1 (.sent "second"),
    .tap 2 2 (.digit "5")]

theorem mixedLogins_independent :
    LoginsIndependent 999 newcomer mixedLogins ∧
      (exec (Bot.step 999) newcomer mixedLogins).map
        (fun b => (b.hasLogin 1, b.hasLogin 2, b.owner 1 0, b.owner 2 0)) =
        some (true, true, some 1, some 2) :=
  ⟨logins_independent 999 (fun _ => .outside) (fun _ => true)
    (fun chatId => if chatId = 1 then some "+1" else none) mixedLogins (by decide +kernel),
    by decide +kernel⟩

/-- Everybody has a subscription and a phone on file. -/
def relinking : Bot := .start (fun _ => .outside) (fun _ => true) fun _ => some "+1"

/-- Two users link through the settings. -/
def settingsLogins : List Update :=
  [.link 1 1, .begin 0, .reply 0 .done, .reply 0 (.sent "hash"), .link 2 2, .begin 1]

/-- The first user gets a keyboard and has no login, and the second one cancels the attempt. -/
theorem settingsLogins_collide :
    ¬LoginsIndependent 999 relinking settingsLogins ∧
      ∃ t t', exec (Bot.step 999) relinking (settingsLogins.take 5) = some t ∧
        t.step 999 (.begin 1) = some t' ∧ t.actor (.begin 1) = some 2 ∧
        t.owner 999 0 = some 1 ∧ ¬SameAttempt (t.managers 999) (t'.managers 999) 0 := by
  constructor
  · intro h
    have hserved := (h (settingsLogins.take 3) (.reply 0 (.sent "hash")) _ _ _ rfl rfl rfl).served
      0 "hash" _ "+1" 0 rfl rfl rfl
    exact absurd hserved (by decide +kernel)
  · refine ⟨_, _, rfl, rfl, rfl, rfl, fun h => ?_⟩
    exact absurd (h.registered.mpr rfl) (by decide +kernel)

end Runs

end UserTgBot.Login
