import Mathlib.Data.List.Basic
import UserTgBot.Library.Transition

/-!
# The page of the Mini App

`connect_web/static/app.js` from its start to the screen it ends on. All of its functions run on
one thread, and between two awaits nothing else runs, so a step is either what a tap or the timer
does up to the first await, or what an answered await does up to the next one. Several handlers
may be waiting at a time, and their awaits are answered in any order.

The globals of the script, the elements it reads back and `localStorage` are the state. A
`localStorage` that may not be used holds nothing and takes nothing. Status lines, labels, the
boxes of the code and the drawing of the ring are written only and are left out.
-/

namespace UserTgBot.MiniappPage

open Transition

/-- A JavaScript string, as its UTF-16 code units. -/
abbrev JsString := List UInt16

/-- The elements of the class `step`. -/
inductive Step where
  | outside
  | expired
  | code
  | twoFa
  | done
deriving DecidableEq

/-- What the script saves of an attempt. -/
structure Pending where
  phoneCodeHash : JsString
  dcId : Nat
  authKeyB64 : JsString
deriving DecidableEq

/-- What the page is loaded with: the data that the server has put into it and the scripts that
are there. -/
structure Data where
  /-- `EXPIRES_AT` in milliseconds. -/
  expiresAt : Option Int
  expiredOnLoad : Bool
  /-- `tg && tg.initData`. -/
  initData : Bool
  /-- `TelegramClient && StringSession`. -/
  gramJs : Bool
  authKey : Bool
  computeCheck : Bool
deriving DecidableEq

/-- `client.session`, with no key while there is none. -/
structure Session where
  dcId : Nat
  authKeyB64 : JsString
deriving DecidableEq

/-- What has become of `client.connect()`. It may raise, and it may return `false` after its
retries, which `ensureClient` does not look at. -/
inductive Link where
  | connecting
  | connected
  | refused
  | raised
deriving DecidableEq

structure Client where
  session : Session
  link : Link
deriving DecidableEq

/-- Who has called `ensureClient`. -/
inductive Caller where
  | resume (pending : Pending)
  | sendCodeNow
deriving DecidableEq

/-- Who has called `finish`. -/
inductive Submit where
  | code
  | password
deriving DecidableEq

/-- The expressions that the script awaits, with the request where there is one. -/
inductive Await where
  | webappConfig (caller : Caller)
  | setKey (caller : Caller)
  | connect (caller : Caller)
  | sendCode
  | signIn (phoneCodeHash phoneCode : JsString)
  | getPassword (password : JsString)
  | computeCheck
  | checkPassword
  | handoff (submit : Submit) (session : Session)
  | handoffBody (submit : Submit) (status : Nat)
deriving DecidableEq

/-- What `submit-code` tells apart in an error. -/
inductive Error where
  | sessionPasswordNeeded
  | phoneCodeExpired
  | other
deriving DecidableEq

/-- How an await ends. -/
inductive Outcome where
  | ok
  | connected (session : Session)
  | notConnected
  /-- A code is sent, and `localStorage` takes the attempt or raises. -/
  | sent (phoneCodeHash : JsString) (stored : Bool)
  | response (status : Nat)
  /-- The body of a response, with or without an account. -/
  | body (account : Bool)
  | threw (error : Error)
deriving DecidableEq

structure Page where
  data : Data
  /-- `Date.now()`. -/
  now : Int
  /-- What `show` was called with, the last call first. -/
  shown : List Step
  client : Option Client
  phoneCodeHash : JsString
  code : JsString
  /-- `API_ID !== null`. -/
  configured : Bool
  ringTimer : Bool
  padEnabled : Bool
  retryVisible : Bool
  password : JsString
  /-- `disabled` of `send-password`. -/
  passwordDisabled : Bool
  /-- What `localStorage` holds under `STORAGE_KEY`. -/
  pending : Option Pending
  /-- What is awaited. -/
  tasks : List Await
deriving DecidableEq

/-- The page before its script has run, with the elements as `index.html` has them. -/
def loaded (data : Data) (pending : Option Pending) (now : Int) : Page where
  data := data
  now := now
  shown := []
  client := none
  phoneCodeHash := []
  code := []
  configured := false
  ringTimer := false
  padEnabled := false
  retryVisible := false
  password := []
  passwordDisabled := false
  pending := pending
  tasks := []

namespace Page

/-- The step that is shown. -/
def active (page : Page) : Option Step := page.shown.head?

/-- The countdown has run out. -/
def timeUp (page : Page) : Bool := page.data.expiresAt.any fun expiresAt => expiresAt ≤ page.now

def link (page : Page) : Option Link := page.client.map Client.link

/-- The client can be answered. -/
def connected (page : Page) : Bool := page.link = some .connected

/-- What `client.connect()` makes of the client. -/
def setLink (page : Page) (link : Link) : Page :=
  { page with client := page.client.map fun client => { client with link := link } }

/-- `client.connect()` returns, or the client has changed to another data centre. -/
def setSession (page : Page) (session : Session) : Page :=
  { page with client := page.client.map fun _ => { session := session, link := .connected } }

/-! ## The script -/

def await (page : Page) (task : Await) : Page := { page with tasks := page.tasks ++ [task] }

/-- The await is answered. -/
def forget (page : Page) (task : Await) : Page := { page with tasks := page.tasks.erase task }

/-- `show`. -/
def showStep (page : Page) (stepId : Step) : Page := { page with shown := stepId :: page.shown }

def savePending (page : Page) (state : Pending) (stored : Bool) : Page :=
  if stored then { page with pending := some state } else page

def clearPending (page : Page) : Page := { page with pending := none }

def ringSettle (page : Page) : Page := { page with ringTimer := false }

def expire (page : Page) : Page := page.clearPending.ringSettle.showStep .expired

def tick (page : Page) : Page := if page.timeUp then page.expire else page

def startTimer (page : Page) : Page :=
  if page.data.expiresAt.isSome then { page with ringTimer := true }.tick else page

/-- `pinDcId && DC_IPS[pinDcId]`. -/
def pinned (pending : Pending) : Bool := 1 ≤ pending.dcId && pending.dcId ≤ 5

/-- The saved key is restored. -/
def restoresKey (page : Page) : Caller → Bool
  | .resume pending => pinned pending && !pending.authKeyB64.isEmpty && page.data.authKey
  | .sendCodeNow => false

/-- The session of a new client, before it connects. -/
def newSession (page : Page) (caller : Caller) : Session :=
  match caller with
  | .resume pending =>
      { dcId := if pinned pending then pending.dcId else 0
        authKeyB64 := if page.restoresKey caller then pending.authKeyB64 else [] }
  | .sendCodeNow => { dcId := 0, authKeyB64 := [] }

/-- `ensureClient` from the new client on. -/
def connectClient (page : Page) (caller : Caller) : Page :=
  { page with
    client := some { session := page.newSession caller, link := .connecting } }.await
      (.connect caller)

/-- `ensureClient` behind `ensureConfig`. -/
def openSession (page : Page) (caller : Caller) : Page :=
  if page.restoresKey caller then page.await (.setKey caller) else page.connectClient caller

/-- `ensureClient` up to its first await. It returns to `ok`, or raises into `failed`. -/
def ensureClient (page : Page) (caller : Caller) (ok failed : Page → Page) : Page :=
  if page.client.isSome then ok page
  else if page.data.gramJs then
    if page.configured then page.openSession caller else page.await (.webappConfig caller)
  else failed page

/-- `sendCodeNow` behind `ensureClient`. -/
def requestCode (page : Page) : Page := page.await .sendCode

/-- The `catch` of `sendCodeNow`. -/
def sendCodeCaught (page : Page) : Page := { page with retryVisible := true }

/-- `sendCodeNow` up to `ensureClient`. -/
def sending (page : Page) : Page := { page with retryVisible := false, padEnabled := false }

def sendCodeNow (page : Page) : Page :=
  page.sending.ensureClient .sendCodeNow requestCode sendCodeCaught

/-- `sendCodeNow` behind `sendCode`. Without a client it raises where the key is read. -/
def codeSent (page : Page) (phoneCodeHash : JsString) (stored : Bool) : Page :=
  match page.client with
  | none => { page with phoneCodeHash := phoneCodeHash }.sendCodeCaught
  | some client =>
      { { page with phoneCodeHash := phoneCodeHash }.savePending
          { phoneCodeHash := phoneCodeHash, dcId := client.session.dcId,
            authKeyB64 := client.session.authKeyB64 } stored with
        code := [], padEnabled := true }

/-- The end of the resumption of an attempt. -/
def resumed (page : Page) : Page := { page with padEnabled := true }

/-- The `catch` of the resumption of an attempt. -/
def resumeCaught (page : Page) : Page := { page.clearPending with client := none }.sendCodeNow

/-- `ensureClient` returns to its caller. -/
def ensured (page : Page) : Caller → Page
  | .resume _ => page.resumed
  | .sendCodeNow => page.requestCode

/-- `ensureClient` raises in its caller. -/
def ensureFailed (page : Page) : Caller → Page
  | .resume _ => page.resumeCaught
  | .sendCodeNow => page.sendCodeCaught

/-- The resumption of an attempt up to `ensureClient`. -/
def resuming (page : Page) (pending : Pending) : Page :=
  { page with phoneCodeHash := pending.phoneCodeHash, padEnabled := false }

def resumeAttempt (page : Page) (pending : Pending) : Page :=
  (page.resuming pending).ensureClient (.resume pending) resumed resumeCaught

/-- `start` from `loadPending` on. -/
def begin (page : Page) : Page :=
  match page.pending with
  | some pending =>
      if pending.phoneCodeHash.isEmpty then (page.showStep .code).sendCodeNow
      else (page.showStep .code).resumeAttempt pending
  | none => (page.showStep .code).sendCodeNow

def start (page : Page) : Page :=
  if !page.data.initData then page.showStep .outside
  else if page.data.expiredOnLoad then page.expire
  else page.startTimer.begin

/-- The `catch` of `submit-code`. -/
def submitCodeCaught (page : Page) : Error → Page
  | .sessionPasswordNeeded => page.showStep .twoFa
  | .phoneCodeExpired =>
      { page.clearPending with code := [], padEnabled := false, retryVisible := true }
  | .other => { page with code := [] }

/-- The `catch` of `send-password`. -/
def sendPasswordCaught (page : Page) : Page := { page with passwordDisabled := false }

/-- The `catch` around `finish`. -/
def finishCaught (page : Page) (error : Error) : Submit → Page
  | .code => page.submitCodeCaught error
  | .password => page.sendPasswordCaught

/-- `finish` up to its `fetch`. -/
def finish (page : Page) (submit : Submit) : Page :=
  match page.client with
  | none => page.finishCaught .other submit
  | some client => page.await (.handoff submit client.session)

/-- `res.ok`. -/
def accepted (status : Nat) : Bool := 200 ≤ status && status ≤ 299

/-- `finish` behind `res.json()`. The account is read after the last step is shown. -/
def finished (page : Page) (submit : Submit) (status : Nat) (account : Bool) : Page :=
  if accepted status then
    if account then page.clearPending.ringSettle.showStep .done
    else (page.clearPending.ringSettle.showStep .done).finishCaught .other submit
  else if status = 410 then page.expire
  else page

def digit (page : Page) (d : Nat) : Page :=
  if page.code.length < 5 then { page with code := page.code ++ [UInt16.ofNat (0x30 + d)] }
  else page

def backspace (page : Page) : Page := { page with code := page.code.dropLast }

def submitCode (page : Page) : Page :=
  if page.code.length < 5 then page
  else match page.client with
    | none => page.submitCodeCaught .other
    | some _ => page.await (.signIn page.phoneCodeHash page.code)

def sendPassword (page : Page) : Page :=
  if page.password.isEmpty then page
  else if page.data.computeCheck && page.client.isSome then
    { page with passwordDisabled := true }.await (.getPassword page.password)
  else { page with passwordDisabled := true }.sendPasswordCaught

/-- What comes behind an await. -/
def resume (page : Page) : Await → Outcome → Page
  | .webappConfig caller, .ok => { page with configured := true }.openSession caller
  | .webappConfig caller, .threw _ => page.ensureFailed caller
  | .setKey caller, .ok => page.connectClient caller
  | .setKey caller, .threw _ => page.ensureFailed caller
  | .connect caller, .connected session => (page.setSession session).ensured caller
  | .connect caller, .notConnected => (page.setLink .refused).ensured caller
  | .connect caller, .threw _ => (page.setLink .raised).ensureFailed caller
  | .sendCode, .sent phoneCodeHash stored => page.codeSent phoneCodeHash stored
  | .sendCode, .threw _ => page.sendCodeCaught
  | .signIn _ _, .ok => page.finish .code
  | .signIn _ _, .threw error => page.submitCodeCaught error
  | .getPassword _, .ok => page.await .computeCheck
  | .getPassword _, .threw _ => page.sendPasswordCaught
  | .computeCheck, .ok => page.await .checkPassword
  | .computeCheck, .threw _ => page.sendPasswordCaught
  | .checkPassword, .ok => { page with password := [] }.finish .password
  | .checkPassword, .threw _ => page.sendPasswordCaught
  | .handoff submit _, .response status => page.await (.handoffBody submit status)
  | .handoff submit _, .threw error => page.finishCaught error submit
  | .handoffBody submit status, .body account => page.finished submit status account
  | _, _ => page

end Page

/-! ## The system -/

/-- Which outcomes an await may have. Telegram answers a client that is connected, with an error
or without. A request of a client that `connect` has given up on stays unanswered, since it waits
for the connection. -/
def Await.mayEnd (page : Page) : Await → Outcome → Bool
  | .webappConfig _, .ok | .webappConfig _, .threw .other => true
  | .setKey _, .ok | .setKey _, .threw .other => true
  | .connect _, .connected _ | .connect _, .notConnected | .connect _, .threw .other => true
  | .sendCode, .sent _ _ => page.connected
  | .sendCode, .threw .other => page.link ≠ some .refused
  | .signIn _ _, .ok | .signIn _ _, .threw .sessionPasswordNeeded
  | .signIn _ _, .threw .phoneCodeExpired => page.connected
  | .signIn _ _, .threw .other => page.link ≠ some .refused
  | .getPassword _, .ok | .checkPassword, .ok => page.connected
  | .getPassword _, .threw .other | .checkPassword, .threw .other => page.link ≠ some .refused
  | .computeCheck, .ok | .computeCheck, .threw .other => true
  | .handoff _ _, .response _ | .handoff _ _, .threw .other => true
  | .handoffBody _ _, .body _ => true
  | _, _ => false

inductive Action where
  | start
  | wait (milliseconds : Nat)
  /-- The interval of the ring. -/
  | tick
  | digit (d : Nat)
  | backspace
  | submitCode
  | retryCode
  | typePassword (password : JsString)
  | sendPassword
  /-- The client changes to another data centre. -/
  | migrate (session : Session)
  | settle (task : Await) (outcome : Outcome)
deriving DecidableEq

/-- One step of the page. The script runs on the page as it was loaded, and only controls that are
shown and enabled can be tapped. The guard of the pad is about taps only: `padEnabled` sets a class
that has `pointer-events: none` and leaves its buttons enabled, so a key pressed on a button that
has the focus still reaches its handler. Such keys are left out. -/
def step (page : Page) : Action → Option Page
  | .start =>
      if page = loaded page.data page.pending page.now then some page.start else none
  | .wait milliseconds => some { page with now := page.now + milliseconds }
  | .tick => if page.ringTimer then some page.tick else none
  | .digit d =>
      if page.active = some .code ∧ page.padEnabled ∧ d ≤ 9 then some (page.digit d) else none
  | .backspace =>
      if page.active = some .code ∧ page.padEnabled then some page.backspace else none
  | .submitCode =>
      if page.active = some .code ∧ page.padEnabled then some page.submitCode else none
  | .retryCode =>
      if page.active = some .code ∧ page.retryVisible then some page.sendCodeNow else none
  | .typePassword password =>
      if page.active = some .twoFa then some { page with password := password } else none
  | .sendPassword =>
      if page.active = some .twoFa ∧ !page.passwordDisabled then some page.sendPassword else none
  | .migrate session =>
      if page.connected then some (page.setSession session) else none
  | .settle task outcome =>
      if task ∈ page.tasks ∧ task.mayEnd page outcome then
        some ((page.forget task).resume task outcome)
      else none

/-! ## What the parts of the script do -/

namespace Page

variable {page : Page}

/-- `ensureClient` has a client, or raises, or goes for one. -/
theorem ensureClient_cases {P : Page → Prop} (page : Page) (caller : Caller)
    {ok failed : Page → Page} (has : page.client.isSome → P (ok page))
    (missing : page.client = none → P (failed page))
    (config : page.client = none → P (page.await (.webappConfig caller)))
    (session : page.client = none → P (page.openSession caller)) :
    P (page.ensureClient caller ok failed) := by
  unfold ensureClient
  split
  · next hclient => exact has hclient
  · next hclient =>
      have hnone : page.client = none := Option.not_isSome_iff_eq_none.mp hclient
      split
      · split
        · exact session hnone
        · exact config hnone
      · exact missing hnone

/-- `sendCodeNow` asks the client it has for a code, and otherwise goes for a new client. -/
theorem sendCodeNow_cases {P : Page → Prop} (page : Page)
    (request : page.client.isSome → P page.sending.requestCode)
    (missing : page.client = none → P page.sending.sendCodeCaught)
    (config : page.client = none → P (page.sending.await (.webappConfig .sendCodeNow)))
    (connect : page.client = none → P (page.sending.connectClient .sendCodeNow)) :
    P page.sendCodeNow :=
  ensureClient_cases page.sending .sendCodeNow request missing config connect

theorem openSession_cases {P : Page → Prop} (page : Page) (caller : Caller)
    (key : P (page.await (.setKey caller))) (connect : P (page.connectClient caller)) :
    P (page.openSession caller) := by
  unfold openSession
  split
  · exact key
  · exact connect

end Page

/-! ## What a step shows and saves -/

/-- The first tick expires the page if the time is up. -/
theorem startTimer_of_timeUp {page : Page} (time : page.timeUp = true) :
    page.startTimer = page.expire := by
  have hset : page.data.expiresAt.isSome = true := by
    cases hexpiresAt : page.data.expiresAt with
    | none => simp [Page.timeUp, hexpiresAt] at time
    | some expiresAt => rfl
  have hticks : ({ page with ringTimer := true } : Page).timeUp = true := time
  simp [Page.startTimer, Page.tick, hset, hticks, Page.expire, Page.clearPending, Page.ringSettle,
    Page.showStep]

/-- Nothing is shown and no attempt is saved. -/
structure Quiet (page next : Page) : Prop where
  shown : next.shown = page.shown
  pending : next.pending = page.pending ∨ next.pending = none

namespace Quiet

theorem trans {page middle next : Page} (first : Quiet page middle) (second : Quiet middle next) :
    Quiet page next where
  shown := second.shown.trans first.shown
  pending := by
    obtain hpending | hpending := second.pending
    · rw [hpending]
      exact first.pending
    · exact .inr hpending

variable (page : Page)

theorem sendCodeNow : Quiet page page.sendCodeNow := by
  refine Page.sendCodeNow_cases page ?_ ?_ ?_ ?_
  all_goals
    intro _
    exact ⟨rfl, .inl rfl⟩

theorem openSession (caller : Caller) : Quiet page (page.openSession caller) := by
  apply Page.openSession_cases
  · exact ⟨rfl, .inl rfl⟩
  · exact ⟨rfl, .inl rfl⟩

theorem resumeCaught : Quiet page page.resumeCaught := by
  have hsend := sendCodeNow { page.clearPending with client := none }
  refine ⟨hsend.shown, .inr ?_⟩
  obtain hpending | hpending := hsend.pending
  · exact hpending
  · exact hpending

theorem resumeAttempt (pending : Pending) : Quiet page (page.resumeAttempt pending) := by
  have hresuming : Quiet page (page.resuming pending) := ⟨rfl, .inl rfl⟩
  apply Page.ensureClient_cases
  · exact fun _ => ⟨rfl, .inl rfl⟩
  · exact fun _ => hresuming.trans (resumeCaught (page.resuming pending))
  · exact fun _ => ⟨rfl, .inl rfl⟩
  · exact fun _ => hresuming.trans (openSession (page.resuming pending) _)

theorem begin : Quiet (page.showStep .code) page.begin := by
  have hsend := sendCodeNow (page.showStep .code)
  unfold Page.begin
  split
  · next pending _ =>
      split
      · exact hsend
      · exact resumeAttempt (page.showStep .code) pending
  · exact hsend

theorem ensured (caller : Caller) : Quiet page (page.ensured caller) := by
  cases caller with
  | resume pending => exact ⟨rfl, .inl rfl⟩
  | sendCodeNow => exact ⟨rfl, .inl rfl⟩

theorem ensureFailed (caller : Caller) : Quiet page (page.ensureFailed caller) := by
  cases caller with
  | resume pending => exact resumeCaught page
  | sendCodeNow => exact ⟨rfl, .inl rfl⟩

/-- A storage that raises keeps what it has. -/
theorem codeSent (phoneCodeHash : JsString) : Quiet page (page.codeSent phoneCodeHash false) := by
  unfold Page.codeSent
  split
  · exact ⟨rfl, .inl rfl⟩
  · exact ⟨rfl, .inl rfl⟩

theorem finishCaught (submit : Submit) : Quiet page (page.finishCaught .other submit) := by
  cases submit with
  | code => exact ⟨rfl, .inl rfl⟩
  | password => exact ⟨rfl, .inl rfl⟩

theorem finish (submit : Submit) : Quiet page (page.finish submit) := by
  unfold Page.finish
  split
  · exact finishCaught page submit
  · exact ⟨rfl, .inl rfl⟩

theorem digit (d : Nat) : Quiet page (page.digit d) := by
  unfold Page.digit
  split
  · exact ⟨rfl, .inl rfl⟩
  · exact ⟨rfl, .inl rfl⟩

theorem submitCode : Quiet page page.submitCode := by
  unfold Page.submitCode
  split
  · exact ⟨rfl, .inl rfl⟩
  · split
    · exact ⟨rfl, .inl rfl⟩
    · exact ⟨rfl, .inl rfl⟩

theorem sendPassword : Quiet page page.sendPassword := by
  unfold Page.sendPassword
  split
  · exact ⟨rfl, .inl rfl⟩
  · split
    · exact ⟨rfl, .inl rfl⟩
    · exact ⟨rfl, .inl rfl⟩

end Quiet

/-- What an action can do to the screen and to the storage. -/
inductive Effect (page : Page) : Action → Page → Prop
  | quiet {action : Action} {next : Page} (quiet : Quiet page next) : Effect page action next
  | outside {next : Page} (fresh : page.shown = [])
      (shown : next.shown = .outside :: page.shown) : Effect page .start next
  /-- `start` shows the first step, whatever its first tick has found. -/
  | code {next : Page} (fresh : page.shown = []) (initData : page.data.initData = true)
      (load : page.data.expiredOnLoad = false)
      (shown : next.shown = .code :: page.startTimer.shown)
      (pending : next.pending = page.startTimer.pending ∨ next.pending = none) :
      Effect page .start next
  | saved {next : Page} {phoneCodeHash : JsString} (shown : next.shown = page.shown) :
      Effect page (.settle .sendCode (.sent phoneCodeHash true)) next
  | twoFa {next : Page} {phoneCodeHash phoneCode : JsString}
      (shown : next.shown = .twoFa :: page.shown) (pending : next.pending = page.pending) :
      Effect page (.settle (.signIn phoneCodeHash phoneCode) (.threw .sessionPasswordNeeded)) next
  | expired {action : Action} {next : Page} (shown : next.shown = .expired :: page.shown)
      (pending : next.pending = none) : Effect page action next
  | done {next : Page} {submit : Submit} {status : Nat} {account : Bool}
      (accepted : Page.accepted status = true) (shown : next.shown = .done :: page.shown)
      (pending : next.pending = none) :
      Effect page (.settle (.handoffBody submit status) (.body account)) next

namespace Effect

variable {page next : Page}

theorem tick (action : Action) : Effect page action page.tick := by
  unfold Page.tick
  split
  · exact .expired rfl rfl
  · exact .quiet ⟨rfl, .inl rfl⟩

theorem start (fresh : page.shown = []) : Effect page .start page.start := by
  unfold Page.start
  split
  · exact .outside fresh rfl
  · next hdata =>
      split
      · exact .expired rfl rfl
      · next hload =>
          have hbegin := Quiet.begin page.startTimer
          exact .code fresh (by simpa using hdata) (by simpa using hload) hbegin.shown
            hbegin.pending

theorem codeSent (page : Page) (phoneCodeHash : JsString) (stored : Bool) :
    Effect page (.settle .sendCode (.sent phoneCodeHash stored))
      (page.codeSent phoneCodeHash stored) := by
  cases stored with
  | false => exact .quiet (Quiet.codeSent page phoneCodeHash)
  | true =>
      apply Effect.saved
      unfold Page.codeSent
      split
      · rfl
      · rfl

theorem submitCodeCaught (page : Page) (phoneCodeHash phoneCode : JsString) (error : Error) :
    Effect page (.settle (.signIn phoneCodeHash phoneCode) (.threw error))
      (page.submitCodeCaught error) := by
  cases error with
  | sessionPasswordNeeded => exact .twoFa rfl rfl
  | phoneCodeExpired => exact .quiet ⟨rfl, .inr rfl⟩
  | other => exact .quiet ⟨rfl, .inl rfl⟩

theorem finished (page : Page) (submit : Submit) (status : Nat) (account : Bool) :
    Effect page (.settle (.handoffBody submit status) (.body account))
      (page.finished submit status account) := by
  unfold Page.finished
  split
  · next haccepted =>
      split
      · exact .done haccepted rfl rfl
      · have hcaught := Quiet.finishCaught (page.clearPending.ringSettle.showStep .done) submit
        refine .done haccepted hcaught.shown ?_
        obtain hpending | hpending := hcaught.pending
        · exact hpending
        · exact hpending
  · split
    · exact .expired rfl rfl
    · exact .quiet ⟨rfl, .inl rfl⟩

/-- What comes behind an await. -/
theorem resume (page : Page) {task : Await} {outcome : Outcome}
    (ends : task.mayEnd page outcome = true) :
    Effect page (.settle task outcome) (page.resume task outcome) := by
  cases task with
  | webappConfig caller =>
      cases outcome with
      | ok =>
          have hconfigured : Quiet page { page with configured := true } := ⟨rfl, .inl rfl⟩
          exact .quiet (hconfigured.trans (Quiet.openSession _ caller))
      | threw error => exact .quiet (Quiet.ensureFailed page caller)
      | _ => cases ends
  | setKey caller =>
      cases outcome with
      | ok => exact .quiet ⟨rfl, .inl rfl⟩
      | threw error => exact .quiet (Quiet.ensureFailed page caller)
      | _ => cases ends
  | connect caller =>
      cases outcome with
      | connected session =>
          have hsession : Quiet page (page.setSession session) := ⟨rfl, .inl rfl⟩
          exact .quiet (hsession.trans (Quiet.ensured _ caller))
      | notConnected =>
          have hlink : Quiet page (page.setLink .refused) := ⟨rfl, .inl rfl⟩
          exact .quiet (hlink.trans (Quiet.ensured _ caller))
      | threw error =>
          have hlink : Quiet page (page.setLink .raised) := ⟨rfl, .inl rfl⟩
          exact .quiet (hlink.trans (Quiet.ensureFailed _ caller))
      | _ => cases ends
  | sendCode =>
      cases outcome with
      | sent phoneCodeHash stored => exact Effect.codeSent page phoneCodeHash stored
      | threw error => exact .quiet ⟨rfl, .inl rfl⟩
      | _ => cases ends
  | signIn phoneCodeHash phoneCode =>
      cases outcome with
      | ok => exact .quiet (Quiet.finish page .code)
      | threw error => exact Effect.submitCodeCaught page phoneCodeHash phoneCode error
      | _ => cases ends
  | getPassword password =>
      cases outcome with
      | ok => exact .quiet ⟨rfl, .inl rfl⟩
      | threw error => exact .quiet ⟨rfl, .inl rfl⟩
      | _ => cases ends
  | computeCheck =>
      cases outcome with
      | ok => exact .quiet ⟨rfl, .inl rfl⟩
      | threw error => exact .quiet ⟨rfl, .inl rfl⟩
      | _ => cases ends
  | checkPassword =>
      cases outcome with
      | ok =>
          have hcleared : Quiet page { page with password := [] } := ⟨rfl, .inl rfl⟩
          exact .quiet (hcleared.trans (Quiet.finish _ .password))
      | threw error => exact .quiet ⟨rfl, .inl rfl⟩
      | _ => cases ends
  | handoff submit session =>
      cases outcome with
      | response status => exact .quiet ⟨rfl, .inl rfl⟩
      | threw error =>
          cases error with
          | other => exact .quiet (Quiet.finishCaught page submit)
          | _ => cases ends
      | _ => cases ends
  | handoffBody submit status =>
      cases outcome with
      | body account => exact Effect.finished page submit status account
      | _ => cases ends

end Effect

/-- An answered await is off the list before anything else happens. -/
theorem Effect.of_forget {page next : Page} {task : Await} {outcome : Outcome}
    (h : Effect (page.forget task) (.settle task outcome) next) :
    Effect page (.settle task outcome) next := by
  cases h with
  | quiet quiet => exact .quiet ⟨quiet.shown, quiet.pending⟩
  | saved shown => exact .saved shown
  | twoFa shown pending => exact .twoFa shown pending
  | expired shown pending => exact .expired shown pending
  | done accepted shown pending => exact .done accepted shown pending

/-- Every step has one of the effects. -/
theorem step_effect {page next : Page} {action : Action} (hstep : step page action = some next) :
    Effect page action next := by
  cases action with
  | start =>
      obtain ⟨hloaded, hnext⟩ := Option.ite_none_right_eq_some.mp hstep
      cases hnext
      exact Effect.start (congrArg Page.shown hloaded)
  | wait milliseconds =>
      cases hstep
      exact .quiet ⟨rfl, .inl rfl⟩
  | tick =>
      obtain ⟨-, hnext⟩ := Option.ite_none_right_eq_some.mp hstep
      cases hnext
      exact Effect.tick .tick
  | digit d =>
      obtain ⟨-, hnext⟩ := Option.ite_none_right_eq_some.mp hstep
      cases hnext
      exact .quiet (Quiet.digit page d)
  | backspace =>
      obtain ⟨-, hnext⟩ := Option.ite_none_right_eq_some.mp hstep
      cases hnext
      exact .quiet ⟨rfl, .inl rfl⟩
  | submitCode =>
      obtain ⟨-, hnext⟩ := Option.ite_none_right_eq_some.mp hstep
      cases hnext
      exact .quiet (Quiet.submitCode page)
  | retryCode =>
      obtain ⟨-, hnext⟩ := Option.ite_none_right_eq_some.mp hstep
      cases hnext
      exact .quiet (Quiet.sendCodeNow page)
  | typePassword password =>
      obtain ⟨-, hnext⟩ := Option.ite_none_right_eq_some.mp hstep
      cases hnext
      exact .quiet ⟨rfl, .inl rfl⟩
  | sendPassword =>
      obtain ⟨-, hnext⟩ := Option.ite_none_right_eq_some.mp hstep
      cases hnext
      exact .quiet (Quiet.sendPassword page)
  | migrate session =>
      obtain ⟨-, hnext⟩ := Option.ite_none_right_eq_some.mp hstep
      cases hnext
      exact .quiet ⟨rfl, .inl rfl⟩
  | settle task outcome =>
      obtain ⟨⟨-, hends⟩, hnext⟩ := Option.ite_none_right_eq_some.mp hstep
      cases hnext
      exact (Effect.resume (page.forget task) hends).of_forget

/-! ## A visit -/

/-- A page that is loaded with fifteen minutes to go. -/
def fifteenMinutes : Data where
  expiresAt := some 900000
  expiredOnLoad := false
  initData := true
  gramJs := true
  authKey := true
  computeCheck := true

/-- The first code is asked for. -/
def askForCode : List Action :=
  [.start, .settle (.webappConfig .sendCodeNow) .ok,
    .settle (.connect .sendCodeNow) (.connected ⟨2, [0x4b]⟩)]

/-- The code 12345 is entered and sent. -/
def enterCode : List Action :=
  askForCode ++ [.settle .sendCode (.sent [0x68] true), .digit 1, .digit 2, .digit 3, .digit 4,
    .digit 5, .submitCode]

/-- What `submit-code` sends then. -/
def signIn : Await := .signIn [0x68] [0x31, 0x32, 0x33, 0x34, 0x35]

end UserTgBot.MiniappPage
