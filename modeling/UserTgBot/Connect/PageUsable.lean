import UserTgBot.Connect.MiniappPage

/-!
# No dead end on the page

The controls of a step are disabled when a request goes out and enabled on the way back, each by
the handler that has sent it. `finish` tells its callers of a refusal by returning normally, so
`send-password` does not come to its `catch` and leaves its button disabled. The `catch` of
`sendCodeNow` offers a retry and keeps the client that has not connected, where the one of the
resumption drops it. Without these the page is never stuck.
-/

namespace UserTgBot.MiniappPage

open Transition

/-- While the await is on the way to a client, what has become of the client. -/
def Await.linkDuring : Await → Option (Option Link)
  | .webappConfig _ | .setKey _ => some none
  | .connect _ => some (some .connecting)
  | _ => none

/-- The await is on the way to a code, or to the pad for one. -/
def Await.fetchesCode : Await → Bool
  | .webappConfig _ | .setKey _ | .connect _ | .sendCode => true
  | _ => false

/-- The await belongs to `send-password`. -/
def Await.ofPassword : Await → Bool
  | .getPassword _ | .computeCheck | .checkPassword => true
  | .handoff submit _ | .handoffBody submit _ => submit = .password
  | _ => false

/-- The controls of the step that is shown can be used, and what they use is connected or will
be. -/
structure Usable (page : Page) : Prop where
  code : page.active = some .code → page.padEnabled = true ∨ page.retryVisible = true
  password : page.active = some .twoFa → page.passwordDisabled = false
  pad : page.active = some .code → page.padEnabled = true → page.connected = true
  retry : page.active = some .code → page.retryVisible = true →
    page.client = none ∨ page.connected = true

/-- A session that comes from the password is not refused but by 410 while that step is shown. No
sign-in shows the step over a button that is disabled for good. `connect` does not raise in
`sendCodeNow`, and does not give up in a resumption. -/
def Recoverable (page : Page) : Action → Prop
  | .settle (.handoffBody .password status) _ =>
      page.active = some .twoFa → Page.accepted status = true ∨ status = 410
  | .settle (.signIn _ _) (.threw .sessionPasswordNeeded) =>
      page.passwordDisabled = false ∨ ∃ task ∈ page.tasks, task.ofPassword = true
  | .settle (.connect .sendCodeNow) (.threw _) => page.active ≠ some .code
  | .settle (.connect (.resume _)) .notConnected => page.active ≠ some .code
  | _ => True

instance (page : Page) (action : Action) : Decidable (Recoverable page action) := by
  unfold Recoverable
  split <;> infer_instance

/-- For an await on the way to a client it does not matter what else is awaited. -/
theorem Recoverable.forget {page : Page} {task : Await} {outcome : Outcome}
    (opening : task.linkDuring ≠ none) (h : Recoverable page (.settle task outcome)) :
    Recoverable (page.forget task) (.settle task outcome) := by
  cases task with
  | webappConfig caller => exact h
  | setKey caller => exact h
  | connect caller =>
      cases caller with
      | resume pending => cases outcome <;> exact h
      | sendCodeNow => cases outcome <;> exact h
  | _ => exact absurd rfl opening

/-! ## The life of the client -/

/-- The first tick touches neither the client nor a control. -/
theorem Page.startTimer_eq (page : Page) : ∃ shown pending ringTimer,
    page.startTimer = { page with shown := shown, pending := pending, ringTimer := ringTimer } := by
  unfold startTimer tick
  split
  · split
    · exact ⟨_, _, _, rfl⟩
    · exact ⟨_, _, _, rfl⟩
  · exact ⟨_, _, _, rfl⟩

/-- There is no client and nothing happens, or one is being opened and nothing else happens, or
there is one. -/
inductive Stage (page : Page) : Prop
  | closed (client : page.client = none) (tasks : page.tasks = []) (pad : page.padEnabled = false)
      (active : page.active ≠ some .twoFa)
  | opening (task : Await) (client : task.linkDuring = some page.link)
      (tasks : page.tasks = [task]) (pad : page.padEnabled = false)
      (retry : page.retryVisible = false) (active : page.active ≠ some .twoFa)
  | opened (client : page.client ≠ none) (link : page.link ≠ some .connecting)
      (tasks : ∀ task ∈ page.tasks, task.linkDuring = none)

namespace Stage

variable {page next : Page}

theorem loaded (data : Data) (pending : Option Pending) (now : Int) :
    Stage (loaded data pending now) :=
  .closed rfl rfl rfl nofun

/-- Neither the client nor what is awaited changes, and nothing is offered. -/
theorem congr (h : Stage page) (client : next.client = page.client)
    (tasks : next.tasks = page.tasks) (pad : next.padEnabled = page.padEnabled)
    (retry : next.retryVisible = page.retryVisible)
    (active : page.active ≠ some .twoFa → next.active ≠ some .twoFa) : Stage next := by
  have hlink : next.link = page.link := congrArg (Option.map Client.link) client
  cases h with
  | closed hclient htasks hpad hactive =>
      exact .closed (client.trans hclient) (tasks.trans htasks) (pad.trans hpad) (active hactive)
  | opening task hclient htasks hpad hretry hactive =>
      exact .opening task (hlink ▸ hclient) (tasks.trans htasks) (pad.trans hpad)
        (retry.trans hretry) (active hactive)
  | opened hclient hlink' htasks =>
      exact .opened (client ▸ hclient) (hlink ▸ hlink') (tasks ▸ htasks)

/-- The pad and the step for the password are there only with a client. -/
theorem opened_of_control (h : Stage page)
    (control : page.padEnabled = true ∨ page.active = some .twoFa) :
    page.client ≠ none ∧ page.link ≠ some .connecting ∧
      ∀ task ∈ page.tasks, task.linkDuring = none := by
  cases h with
  | closed hclient htasks hpad hactive =>
      obtain hcontrol | hcontrol := control
      · simp [hpad] at hcontrol
      · exact absurd hcontrol hactive
  | opening task hclient htasks hpad hretry hactive =>
      obtain hcontrol | hcontrol := control
      · simp [hpad] at hcontrol
      · exact absurd hcontrol hactive
  | opened hclient hlink htasks => exact ⟨hclient, hlink, htasks⟩

/-- What is on the way to a client ends in one, or starts over. -/
theorem sendCodeNow (client : page.client = none) (tasks : page.tasks = [])
    (active : page.active ≠ some .twoFa) : Stage page.sendCodeNow := by
  have hone : ∀ task, page.tasks ++ [task] = [task] := fun task => by simp [tasks]
  have hlink : page.link = none := by simp [Page.link, client]
  apply Page.sendCodeNow_cases
  · intro hsome
    simp [client] at hsome
  · exact fun _ => .closed client tasks rfl active
  · exact fun _ => .opening (.webappConfig .sendCodeNow) (congrArg some hlink.symm) (hone _) rfl
      rfl active
  · exact fun _ => .opening (.connect .sendCodeNow) rfl (hone _) rfl rfl active

theorem resumeCaught (tasks : page.tasks = []) (active : page.active ≠ some .twoFa) :
    Stage page.resumeCaught :=
  sendCodeNow rfl tasks active

theorem connectClient (caller : Caller) (tasks : page.tasks = []) (pad : page.padEnabled = false)
    (retry : page.retryVisible = false) (active : page.active ≠ some .twoFa) :
    Stage (page.connectClient caller) :=
  .opening (.connect caller) rfl (congrArg (· ++ [_]) tasks) pad retry active

theorem openSession (caller : Caller) (client : page.client = none) (tasks : page.tasks = [])
    (pad : page.padEnabled = false) (retry : page.retryVisible = false)
    (active : page.active ≠ some .twoFa) : Stage (page.openSession caller) := by
  have hlink : page.link = none := by simp [Page.link, client]
  apply Page.openSession_cases
  · exact .opening (.setKey caller) (congrArg some hlink.symm) (congrArg (· ++ [_]) tasks) pad
      retry active
  · exact connectClient caller tasks pad retry active

theorem resumeAttempt (pending : Pending) (client : page.client = none) (tasks : page.tasks = [])
    (retry : page.retryVisible = false) (active : page.active ≠ some .twoFa) :
    Stage (page.resumeAttempt pending) := by
  have hlink : page.link = none := by simp [Page.link, client]
  apply Page.ensureClient_cases
  · intro hsome
    exact absurd client (Option.isSome_iff_ne_none.mp hsome)
  · exact fun _ => resumeCaught tasks active
  · exact fun _ => .opening (.webappConfig (.resume pending)) (congrArg some hlink.symm)
      (congrArg (· ++ [_]) tasks) rfl retry active
  · exact fun _ => openSession _ client tasks rfl retry active

theorem ensureFailed (caller : Caller) (client : page.client = none) (tasks : page.tasks = [])
    (pad : page.padEnabled = false) (active : page.active ≠ some .twoFa) :
    Stage (page.ensureFailed caller) := by
  cases caller with
  | resume pending => exact resumeCaught tasks active
  | sendCodeNow => exact .closed client tasks pad active

theorem ensured (caller : Caller) (client : page.client ≠ none)
    (link : page.link ≠ some .connecting) (tasks : page.tasks = []) :
    Stage (page.ensured caller) := by
  cases caller with
  | resume pending =>
      refine .opened client link fun task htask => ?_
      rw [Page.ensured, Page.resumed, tasks] at htask
      exact absurd htask List.not_mem_nil
  | sendCodeNow =>
      refine .opened client link fun task htask => ?_
      rw [Page.ensured, Page.requestCode, Page.await, tasks] at htask
      rw [List.mem_singleton.mp htask]
      rfl

end Stage

/-! ## Handlers that use the client -/

/-- The client stays as it is, what was awaited still is, no control is closed for good, and no
step that has controls is shown anew. -/
structure Serves (page next : Page) : Prop where
  client : next.client = page.client
  kept : ∀ task ∈ page.tasks, task ∈ next.tasks
  added : ∀ task ∈ next.tasks, task ∈ page.tasks ∨ task.linkDuring = none
  offered : page.padEnabled = true ∨ page.retryVisible = true →
    next.padEnabled = true ∨ next.retryVisible = true
  password : page.passwordDisabled = false → next.passwordDisabled = false
  active : next.active = page.active ∨ next.active = some .expired ∨ next.active = some .done

/-- Whatever comes of a request for a code, there is a control to go on with. -/
theorem Page.offered_codeSent {page : Page} (phoneCodeHash : JsString) (stored : Bool) :
    (page.codeSent phoneCodeHash stored).padEnabled = true ∨
      (page.codeSent phoneCodeHash stored).retryVisible = true := by
  unfold Page.codeSent
  split
  · exact .inr rfl
  · exact .inl rfl

namespace Serves

variable {page middle next : Page}

theorem trans (first : Serves page middle) (second : Serves middle next) : Serves page next where
  client := second.client.trans first.client
  kept := fun task htask => second.kept task (first.kept task htask)
  added := by
    intro task htask
    obtain hmiddle | hlink := second.added task htask
    · exact first.added task hmiddle
    · exact .inr hlink
  offered := second.offered ∘ first.offered
  password := second.password ∘ first.password
  active := by
    obtain hsame | hover := second.active
    · rw [hsame]
      exact first.active
    · exact .inr hover

variable (page)

theorem refl : Serves page page :=
  ⟨rfl, fun _ => id, fun _ => .inl, id, id, .inl rfl⟩

theorem await (task : Await) (client : task.linkDuring = none) : Serves page (page.await task) where
  client := rfl
  kept := fun _ => List.mem_append_left _
  added := by
    intro other hother
    obtain hold | hnew := List.mem_append.mp hother
    · exact .inl hold
    · rw [List.mem_singleton.mp hnew]
      exact .inr client
  offered := id
  password := id
  active := .inl rfl

theorem expire : Serves page page.expire :=
  ⟨rfl, fun _ => id, fun _ => .inl, id, id, .inr (.inl rfl)⟩

theorem tick : Serves page page.tick := by
  unfold Page.tick
  split
  · exact expire page
  · exact refl page

theorem sendCodeCaught : Serves page page.sendCodeCaught :=
  ⟨rfl, fun _ => id, fun _ => .inl, fun _ => .inr rfl, id, .inl rfl⟩

theorem sendPasswordCaught : Serves page page.sendPasswordCaught :=
  ⟨rfl, fun _ => id, fun _ => .inl, id, fun _ => rfl, .inl rfl⟩

theorem submitCodeCaught (error : Error) (h : error ≠ .sessionPasswordNeeded) :
    Serves page (page.submitCodeCaught error) := by
  cases error with
  | sessionPasswordNeeded => exact absurd rfl h
  | phoneCodeExpired => exact ⟨rfl, fun _ => id, fun _ => .inl, fun _ => .inr rfl, id, .inl rfl⟩
  | other => exact ⟨rfl, fun _ => id, fun _ => .inl, id, id, .inl rfl⟩

theorem finishCaught (submit : Submit) : Serves page (page.finishCaught .other submit) := by
  cases submit with
  | code => exact submitCodeCaught page .other (by decide)
  | password => exact sendPasswordCaught page

theorem finish (submit : Submit) : Serves page (page.finish submit) := by
  unfold Page.finish
  split
  · exact finishCaught page submit
  · exact await page _ rfl

theorem finished (submit : Submit) (status : Nat) (account : Bool) :
    Serves page (page.finished submit status account) := by
  have hdone : Serves page (page.clearPending.ringSettle.showStep .done) :=
    ⟨rfl, fun _ => id, fun _ => .inl, id, id, .inr (.inr rfl)⟩
  unfold Page.finished
  split
  · split
    · exact hdone
    · exact hdone.trans (finishCaught _ submit)
  · split
    · exact expire page
    · exact refl page

theorem codeSent (phoneCodeHash : JsString) (stored : Bool) :
    Serves page (page.codeSent phoneCodeHash stored) := by
  unfold Page.codeSent Page.savePending
  split
  · exact ⟨rfl, fun _ => id, fun _ => .inl, fun _ => .inr rfl, id, .inl rfl⟩
  · split
    · exact ⟨rfl, fun _ => id, fun _ => .inl, fun _ => .inl rfl, id, .inl rfl⟩
    · exact ⟨rfl, fun _ => id, fun _ => .inl, fun _ => .inl rfl, id, .inl rfl⟩

theorem typePassword (password : JsString) : Serves page { page with password := password } :=
  ⟨rfl, fun _ => id, fun _ => .inl, id, id, .inl rfl⟩

theorem backspace : Serves page page.backspace :=
  ⟨rfl, fun _ => id, fun _ => .inl, id, id, .inl rfl⟩

theorem digit (d : Nat) : Serves page (page.digit d) := by
  unfold Page.digit
  split
  · exact ⟨rfl, fun _ => id, fun _ => .inl, id, id, .inl rfl⟩
  · exact refl page

theorem submitCode : Serves page page.submitCode := by
  unfold Page.submitCode
  split
  · exact refl page
  · split
    · exact submitCodeCaught page .other (by decide)
    · exact await page _ rfl

end Serves

/-! ## What stays ready -/

/-- While the step for the code is shown, it has a control or waits for one, and its client is not
one that will never be answered. -/
structure CodeReady (page : Page) : Prop where
  offered : page.active = some .code → page.padEnabled = true ∨ page.retryVisible = true ∨
    ∃ task ∈ page.tasks, task.fetchesCode = true
  alive : page.active = some .code → page.link ≠ some .raised
  refused : page.active = some .code → page.link = some .refused → .sendCode ∈ page.tasks

/-- While the step for the password is shown, its button is enabled or will be. -/
def PasswordReady (page : Page) : Prop :=
  page.active = some .twoFa →
    page.passwordDisabled = false ∨ ∃ task ∈ page.tasks, task.ofPassword = true

section Ready

variable {page next : Page}

theorem Stage.serves (serves : Serves page next) (client : page.client ≠ none)
    (link : page.link ≠ some .connecting) (tasks : ∀ task ∈ page.tasks, task.linkDuring = none) :
    Stage next := by
  have hlink : next.link = page.link := congrArg (Option.map Client.link) serves.client
  refine .opened (serves.client ▸ client) (hlink ▸ link) fun task htask => ?_
  obtain hold | hnew := serves.added task htask
  · exact tasks task hold
  · exact hnew

theorem Serves.active_code (serves : Serves page next) (active : next.active = some .code) :
    page.active = some .code := by
  obtain hsame | hexpired | hdone := serves.active
  · exact hsame ▸ active
  · simp [hexpired] at active
  · simp [hdone] at active

theorem Serves.active_twoFa (serves : Serves page next) (active : next.active = some .twoFa) :
    page.active = some .twoFa := by
  obtain hsame | hexpired | hdone := serves.active
  · exact hsame ▸ active
  · simp [hexpired] at active
  · simp [hdone] at active

theorem CodeReady.serves (h : CodeReady page) (serves : Serves page next) : CodeReady next := by
  have hlink : next.link = page.link := congrArg (Option.map Client.link) serves.client
  refine ⟨fun hactive => ?_, fun hactive => ?_, fun hactive hrefused => ?_⟩
  · obtain hpad | hretry | ⟨task, htask, hfetches⟩ := h.offered (serves.active_code hactive)
    · exact or_assoc.mp (.inl (serves.offered (.inl hpad)))
    · exact or_assoc.mp (.inl (serves.offered (.inr hretry)))
    · exact .inr (.inr ⟨task, serves.kept task htask, hfetches⟩)
  · rw [hlink]
    exact h.alive (serves.active_code hactive)
  · exact serves.kept _ (h.refused (serves.active_code hactive) (hlink ▸ hrefused))

theorem PasswordReady.serves (h : PasswordReady page) (serves : Serves page next) :
    PasswordReady next := by
  intro hactive
  obtain henabled | ⟨task, htask, hpassword⟩ := h (serves.active_twoFa hactive)
  · exact .inl (serves.password henabled)
  · exact .inr ⟨task, serves.kept task htask, hpassword⟩

theorem CodeReady.of_active (active : page.active ≠ some .code) : CodeReady page :=
  ⟨fun hactive => absurd hactive active, fun hactive => absurd hactive active,
    fun hactive => absurd hactive active⟩

/-- The request for a code has been answered, with a code or with an error. -/
theorem CodeReady.answered (h : CodeReady page) {task : Await}
    (serves : Serves (page.forget task) next) (link : page.link ≠ some .refused)
    (offered : next.padEnabled = true ∨ next.retryVisible = true) : CodeReady next := by
  have hlink : next.link = page.link := congrArg (Option.map Client.link) serves.client
  refine ⟨fun _ => or_assoc.mp (.inl offered), fun hactive => ?_, fun _ hrefused => ?_⟩
  · rw [hlink]
    exact h.alive (serves.active_code hactive)
  · exact absurd (hlink ▸ hrefused) link

/-- An await that has been answered and did not bring the code. -/
theorem CodeReady.forget (h : CodeReady page) (task : Await) (fetches : task.fetchesCode = false) :
    CodeReady (page.forget task) where
  offered := by
    intro hactive
    obtain hpad | hretry | ⟨other, hother, hfetches⟩ := h.offered hactive
    · exact .inl hpad
    · exact .inr (.inl hretry)
    · refine .inr (.inr ⟨other, (List.mem_erase_of_ne ?_).mpr hother, hfetches⟩)
      rintro rfl
      simp [fetches] at hfetches
  alive := h.alive
  refused := by
    intro hactive hrefused
    refine (List.mem_erase_of_ne ?_).mpr (h.refused hactive hrefused)
    rintro rfl
    simp [Await.fetchesCode] at fetches

/-- An await that has been answered and is none of `send-password`. -/
theorem PasswordReady.forget (h : PasswordReady page) (task : Await)
    (password : task.ofPassword = false) : PasswordReady (page.forget task) := by
  intro hactive
  obtain henabled | ⟨other, hother, hpassword⟩ := h hactive
  · exact .inl henabled
  · refine .inr ⟨other, (List.mem_erase_of_ne ?_).mpr hother, hpassword⟩
    rintro rfl
    simp [password] at hpassword

/-- `send-password` goes on, or comes to its `catch`. -/
theorem PasswordReady.await {task : Await} (password : task.ofPassword = true) :
    PasswordReady (page.await task) :=
  fun _ => .inr ⟨task, List.mem_append_right _ List.mem_cons_self, password⟩

theorem PasswordReady.caught : PasswordReady page.sendPasswordCaught := fun _ => .inl rfl

theorem PasswordReady.finish : PasswordReady (page.finish .password) := by
  unfold Page.finish
  split
  · exact caught
  · exact await rfl

theorem PasswordReady.finished {status : Nat} {account : Bool}
    (reply : page.active = some .twoFa → Page.accepted status = true ∨ status = 410) :
    PasswordReady (page.finished .password status account) := by
  unfold Page.finished
  split
  · split
    · exact fun hactive => nomatch hactive
    · exact caught
  · next hrejected =>
      split
      · exact fun hactive => nomatch hactive
      · next hother =>
          intro hactive
          obtain haccepted | hgone := reply hactive
          · exact absurd haccepted hrejected
          · exact absurd hgone hother

theorem PasswordReady.of_quiet (quiet : Quiet page next) (active : page.active ≠ some .twoFa) :
    PasswordReady next := by
  intro hactive
  rw [Page.active, quiet.shown] at hactive
  exact absurd hactive active

end Ready

/-! ## On the way to a client -/

namespace CodeReady

variable {page : Page}

/-- The client is not there yet, or it is connected or about to be. -/
theorem of_link (offered : page.padEnabled = true ∨ page.retryVisible = true ∨
      ∃ task ∈ page.tasks, task.fetchesCode = true)
    (raised : page.link ≠ some .raised) (refused : page.link ≠ some .refused) : CodeReady page :=
  ⟨fun _ => offered, fun _ => raised, fun _ hrefused => absurd hrefused refused⟩

theorem await {task : Await} (fetches : task.fetchesCode = true)
    (raised : page.link ≠ some .raised) (refused : page.link ≠ some .refused) :
    CodeReady (page.await task) := by
  have hmem : task ∈ (page.await task).tasks := List.mem_append_right _ List.mem_cons_self
  exact of_link (.inr (.inr ⟨task, hmem, fetches⟩)) raised refused

/-- A code that is asked for is on its way, or waits for a client that has given up. -/
theorem requestCode (alive : page.active = some .code → page.link ≠ some .raised) :
    CodeReady page.requestCode := by
  have hmem : Await.sendCode ∈ page.requestCode.tasks :=
    List.mem_append_right _ List.mem_cons_self
  exact ⟨fun _ => .inr (.inr ⟨_, hmem, rfl⟩), alive, fun _ _ => hmem⟩

theorem connectClient (caller : Caller) : CodeReady (page.connectClient caller) := by
  apply await
  · rfl
  · exact fun hraised => nomatch hraised
  · exact fun hrefused => nomatch hrefused

theorem sendCodeNow (alive : page.active = some .code → page.link ≠ some .raised) :
    CodeReady page.sendCodeNow := by
  have hlink : page.client = none → page.link = none := fun hclient => by
    simp [Page.link, hclient]
  apply Page.sendCodeNow_cases
  · exact fun _ => requestCode alive
  · intro hclient
    have hnone : page.sending.sendCodeCaught.link = none := hlink hclient
    exact of_link (.inr (.inl rfl)) (by simp [hnone]) (by simp [hnone])
  · intro hclient
    have hnone : page.sending.link = none := hlink hclient
    exact await rfl (by simp [hnone]) (by simp [hnone])
  · exact fun _ => connectClient _

theorem resumeCaught : CodeReady page.resumeCaught :=
  sendCodeNow fun _ hraised => nomatch hraised

theorem openSession (caller : Caller) (client : page.client = none) :
    CodeReady (page.openSession caller) := by
  have hlink : page.link = none := by simp [Page.link, client]
  apply Page.openSession_cases
  · exact await rfl (by simp [hlink]) (by simp [hlink])
  · exact connectClient caller

theorem resumeAttempt (pending : Pending) (client : page.client = none) :
    CodeReady (page.resumeAttempt pending) := by
  have hlink : (page.resuming pending).link = none := by
    simp [Page.link, Page.resuming, client]
  apply Page.ensureClient_cases
  · intro hsome
    exact absurd client (Option.isSome_iff_ne_none.mp hsome)
  · exact fun _ => resumeCaught
  · exact fun _ => await rfl (by simp [hlink]) (by simp [hlink])
  · exact fun _ => openSession _ client

/-- `ensureClient` returns with whatever `connect` has returned. -/
theorem ensured (caller : Caller) (raised : page.link ≠ some .raised)
    (refused : ∀ pending, caller = .resume pending → page.active = some .code →
      page.link ≠ some .refused) : CodeReady (page.ensured caller) := by
  cases caller with
  | resume pending =>
      exact ⟨fun _ => .inl rfl, fun _ => raised,
        fun hactive hrefused => absurd hrefused (refused pending rfl hactive)⟩
  | sendCodeNow => exact requestCode fun _ => raised

/-- The `catch` of `sendCodeNow` offers the retry, and that of the resumption starts over. -/
theorem ensureFailed (caller : Caller)
    (link : caller = .sendCodeNow → page.active = some .code →
      page.link ≠ some .raised ∧ page.link ≠ some .refused) :
    CodeReady (page.ensureFailed caller) := by
  cases caller with
  | resume pending => exact resumeCaught
  | sendCodeNow =>
      exact ⟨fun _ => .inr (.inl rfl), fun hactive => (link rfl hactive).1,
        fun hactive hrefused => absurd hrefused (link rfl hactive).2⟩

end CodeReady

/-! ## The invariant -/

/-- What every recoverable step keeps. -/
structure Inv (page : Page) : Prop where
  stage : Stage page
  code : CodeReady page
  password : PasswordReady page

namespace Inv

variable {page next : Page}

theorem loaded (data : Data) (pending : Option Pending) (now : Int) :
    Inv (loaded data pending now) where
  stage := Stage.loaded data pending now
  code := .of_active nofun
  password := fun hactive => nomatch hactive

theorem tick (h : Inv page) : Inv page.tick := by
  have hserves := Serves.tick page
  refine ⟨?_, h.code.serves hserves, h.password.serves hserves⟩
  unfold Page.tick
  split
  · exact h.stage.congr rfl rfl rfl rfl fun _ => nofun
  · exact h.stage

/-- The await on the way to a client is answered. Nothing else is awaited, so everything is up to
what comes behind it. -/
theorem settle_opening {task : Await} {outcome : Outcome}
    (client : task.linkDuring = some page.link) (tasks : page.tasks = [])
    (pad : page.padEnabled = false) (retry : page.retryVisible = false)
    (active : page.active ≠ some .twoFa) (ends : task.mayEnd page outcome = true)
    (recoverable : Recoverable page (.settle task outcome)) :
    Inv (page.resume task outcome) := by
  have hfailed : page.client = none → ∀ caller, Inv (page.ensureFailed caller) := by
    intro hclient caller
    have hlink : page.link = none := by simp [Page.link, hclient]
    refine ⟨Stage.ensureFailed caller hclient tasks pad active, ?_,
      .of_quiet (Quiet.ensureFailed page caller) active⟩
    exact CodeReady.ensureFailed caller fun _ _ => by simp [hlink]
  cases task with
  | webappConfig caller =>
      have hclient : page.client = none := by
        simpa [Await.linkDuring, Page.link] using client
      cases outcome with
      | ok =>
          have hquiet := Quiet.openSession { page with configured := true } caller
          exact ⟨Stage.openSession caller hclient tasks pad retry active,
            CodeReady.openSession caller hclient, .of_quiet hquiet active⟩
      | threw error => exact hfailed hclient caller
      | _ => cases ends
  | setKey caller =>
      have hclient : page.client = none := by
        simpa [Await.linkDuring, Page.link] using client
      cases outcome with
      | ok =>
          exact ⟨Stage.connectClient caller tasks pad retry active, CodeReady.connectClient caller,
            fun hactive => absurd hactive active⟩
      | threw error => exact hfailed hclient caller
      | _ => cases ends
  | connect caller =>
      have hlink : page.link = some .connecting := (Option.some.inj client).symm
      obtain ⟨opened, hopened, -⟩ := Option.map_eq_some_iff.mp hlink
      have hset : ∀ link, (page.setLink link).link = some link := fun link => by
        simp [Page.setLink, Page.link, hopened]
      have hsome : ∀ link, (page.setLink link).client ≠ none := fun link => by
        simp [Page.setLink, hopened]
      cases outcome with
      | connected session =>
          have hconnected : (page.setSession session).link = some .connected := by
            simp [Page.setSession, Page.link, hopened]
          refine ⟨Stage.ensured caller (by simp [Page.setSession, hopened]) (by simp [hconnected])
            tasks, CodeReady.ensured caller (by simp [hconnected]) (by simp [hconnected]), ?_⟩
          exact .of_quiet (Quiet.ensured (page.setSession session) caller) active
      | notConnected =>
          refine ⟨Stage.ensured caller (hsome .refused) (by simp [hset]) tasks,
            CodeReady.ensured caller (by simp [hset]) ?_,
            .of_quiet (Quiet.ensured (page.setLink .refused) caller) active⟩
          rintro pending rfl hactive
          exact absurd hactive recoverable
      | threw error =>
          have hquiet := Quiet.ensureFailed (page.setLink .raised) caller
          cases caller with
          | resume pending =>
              exact ⟨Stage.resumeCaught tasks active, CodeReady.resumeCaught, .of_quiet hquiet active⟩
          | sendCodeNow =>
              have hstage : Stage (page.setLink .raised).sendCodeCaught :=
                .serves (Serves.sendCodeCaught _) (hsome .raised) (by simp [hset])
                  (by simp [Page.setLink, tasks])
              refine ⟨hstage, CodeReady.ensureFailed .sendCodeNow fun _ hactive => ?_,
                .of_quiet hquiet active⟩
              exact absurd hactive recoverable
      | _ => cases ends
  | _ => cases client

/-- An await of a handler that uses the client is answered. -/
theorem settle_opened {task : Await} {outcome : Outcome} (h : Inv page) (mem : task ∈ page.tasks)
    (client : page.client ≠ none) (link : page.link ≠ some .connecting)
    (tasks : ∀ task ∈ page.tasks, task.linkDuring = none) (ends : task.mayEnd page outcome = true)
    (recoverable : Recoverable page (.settle task outcome)) :
    Inv ((page.forget task).resume task outcome) := by
  have hrest : ∀ other ∈ (page.forget task).tasks, other.linkDuring = none :=
    fun other hother => tasks other (List.mem_of_mem_erase hother)
  have hstage : ∀ {next}, Serves (page.forget task) next → Stage next :=
    fun hserves => .serves hserves client link hrest
  -- what a handler that has not brought the code, and one that has not gone for the password, keep
  have hcode : ∀ {next}, task.fetchesCode = false → Serves (page.forget task) next →
      CodeReady next := fun hfetches hserves => (h.code.forget task hfetches).serves hserves
  have hpassword : ∀ {next}, task.ofPassword = false → Serves (page.forget task) next →
      PasswordReady next := fun hother hserves => (h.password.forget task hother).serves hserves
  cases task with
  | sendCode =>
      cases outcome with
      | sent phoneCodeHash stored =>
          have hserves := Serves.codeSent (page.forget .sendCode) phoneCodeHash stored
          have hlink : page.link = some .connected := of_decide_eq_true ends
          exact ⟨hstage hserves,
            h.code.answered hserves (by simp [hlink]) (Page.offered_codeSent phoneCodeHash stored),
            hpassword rfl hserves⟩
      | threw error =>
          have hserves := Serves.sendCodeCaught (page.forget .sendCode)
          cases error with
          | other =>
              exact ⟨hstage hserves, h.code.answered hserves (of_decide_eq_true ends) (.inr rfl),
                hpassword rfl hserves⟩
          | _ => cases ends
      | _ => cases ends
  | signIn phoneCodeHash phoneCode =>
      cases outcome with
      | ok =>
          have hserves := Serves.finish (page.forget (.signIn phoneCodeHash phoneCode)) .code
          exact ⟨hstage hserves, hcode rfl hserves, hpassword rfl hserves⟩
      | threw error =>
          by_cases herror : error = .sessionPasswordNeeded
          · subst herror
            have hready : PasswordReady (page.showStep .twoFa) := fun _ => recoverable
            exact ⟨.opened client link hrest, .of_active nofun,
              hready.forget (.signIn phoneCodeHash phoneCode) rfl⟩
          · have hserves := Serves.submitCodeCaught
              (page.forget (.signIn phoneCodeHash phoneCode)) error herror
            exact ⟨hstage hserves, hcode rfl hserves, hpassword rfl hserves⟩
      | _ => cases ends
  | getPassword password =>
      cases outcome with
      | ok =>
          have hserves := Serves.await (page.forget (.getPassword password)) .computeCheck rfl
          exact ⟨hstage hserves, hcode rfl hserves, .await rfl⟩
      | threw error =>
          have hserves := Serves.sendPasswordCaught (page.forget (.getPassword password))
          exact ⟨hstage hserves, hcode rfl hserves, .caught⟩
      | _ => cases ends
  | computeCheck =>
      cases outcome with
      | ok =>
          have hserves := Serves.await (page.forget .computeCheck) .checkPassword rfl
          exact ⟨hstage hserves, hcode rfl hserves, .await rfl⟩
      | threw error =>
          have hserves := Serves.sendPasswordCaught (page.forget .computeCheck)
          exact ⟨hstage hserves, hcode rfl hserves, .caught⟩
      | _ => cases ends
  | checkPassword =>
      cases outcome with
      | ok =>
          have hserves := (Serves.typePassword (page.forget .checkPassword) []).trans
            (Serves.finish _ .password)
          exact ⟨hstage hserves, hcode rfl hserves, .finish⟩
      | threw error =>
          have hserves := Serves.sendPasswordCaught (page.forget .checkPassword)
          exact ⟨hstage hserves, hcode rfl hserves, .caught⟩
      | _ => cases ends
  | handoff submit session =>
      cases outcome with
      | response status =>
          have hserves := Serves.await (page.forget (.handoff submit session))
            (.handoffBody submit status) rfl
          refine ⟨hstage hserves, hcode rfl hserves, ?_⟩
          cases submit with
          | code => exact hpassword rfl hserves
          | password => exact .await rfl
      | threw error =>
          cases error with
          | other =>
              have hserves := Serves.finishCaught (page.forget (.handoff submit session)) submit
              refine ⟨hstage hserves, hcode rfl hserves, ?_⟩
              cases submit with
              | code => exact hpassword rfl hserves
              | password => exact .caught
          | _ => cases ends
      | _ => cases ends
  | handoffBody submit status =>
      cases outcome with
      | body account =>
          have hserves := Serves.finished (page.forget (.handoffBody submit status)) submit status
            account
          refine ⟨hstage hserves, hcode rfl hserves, ?_⟩
          cases submit with
          | code => exact hpassword rfl hserves
          | password => exact .finished recoverable
      | _ => cases ends
  | _ => exact nomatch tasks _ mem

theorem settle {task : Await} {outcome : Outcome} (h : Inv page) (mem : task ∈ page.tasks)
    (ends : task.mayEnd page outcome = true)
    (recoverable : Recoverable page (.settle task outcome)) :
    Inv ((page.forget task).resume task outcome) := by
  cases h.stage with
  | closed hclient htasks => simp [htasks] at mem
  | opening other hclient htasks hpad hretry hactive =>
      obtain rfl : task = other := by simpa [htasks] using mem
      have hnone : (page.forget task).tasks = [] := by simp [Page.forget, htasks]
      have hopening : task.linkDuring ≠ none := by simp [hclient]
      exact settle_opening hclient hnone hpad hretry hactive ends (recoverable.forget hopening)
  | opened hclient hlink htasks =>
      exact h.settle_opened mem hclient hlink htasks ends recoverable

/-- A tap on a control that there is only with a client. -/
theorem used (h : Inv page) (control : page.padEnabled = true ∨ page.active = some .twoFa)
    (serves : Serves page next) : Inv next := by
  obtain ⟨hclient, hlink, htasks⟩ := h.stage.opened_of_control control
  exact ⟨.serves serves hclient hlink htasks, h.code.serves serves, h.password.serves serves⟩

theorem begin (client : page.client = none) (tasks : page.tasks = [])
    (retry : page.retryVisible = false) : Inv page.begin := by
  have hactive : (page.showStep .code).active ≠ some .twoFa := nofun
  refine ⟨?_, ?_, .of_quiet (Quiet.begin page) hactive⟩
  · unfold Page.begin
    split
    · split
      · exact Stage.sendCodeNow client tasks hactive
      · exact Stage.resumeAttempt _ client tasks retry hactive
    · exact Stage.sendCodeNow client tasks hactive
  · have hlink : (page.showStep .code).link = none := by
      simp [Page.link, Page.showStep, client]
    unfold Page.begin
    split
    · split
      · exact CodeReady.sendCodeNow fun _ => by simp [hlink]
      · exact CodeReady.resumeAttempt _ client
    · exact CodeReady.sendCodeNow fun _ => by simp [hlink]

theorem start (data : Data) (pending : Option Pending) (now : Int) :
    Inv (MiniappPage.loaded data pending now).start := by
  unfold Page.start
  split
  · exact ⟨.closed rfl rfl rfl nofun, .of_active nofun, fun hactive => nomatch hactive⟩
  · split
    · exact ⟨.closed rfl rfl rfl nofun, .of_active nofun, fun hactive => nomatch hactive⟩
    · obtain ⟨shown, stored, timer, htimer⟩ :=
        Page.startTimer_eq (MiniappPage.loaded data pending now)
      rw [htimer]
      exact begin rfl rfl rfl

/-- The retry asks the client for a code, and without a client goes for one. -/
theorem retryCode (h : Inv page) (active : page.active = some .code)
    (retry : page.retryVisible = true) : Inv page.sendCodeNow := by
  have htwoFa : page.active ≠ some .twoFa := by simp [active]
  refine ⟨?_, CodeReady.sendCodeNow h.code.alive, .of_quiet (Quiet.sendCodeNow page) htwoFa⟩
  cases h.stage with
  | closed hclient htasks => exact Stage.sendCodeNow hclient htasks htwoFa
  | opening task hclient htasks hpad hretry => simp [hretry] at retry
  | opened hclient hlink htasks =>
      apply Page.sendCodeNow_cases
      · exact fun _ => .serves (Serves.await page.sending .sendCode rfl) hclient hlink htasks
      · exact fun hnone => absurd hnone hclient
      · exact fun hnone => absurd hnone hclient
      · exact fun hnone => absurd hnone hclient

theorem sendPassword (h : Inv page) (active : page.active = some .twoFa)
    (enabled : page.passwordDisabled = false) : Inv page.sendPassword := by
  obtain ⟨hclient, hlink, htasks⟩ := h.stage.opened_of_control (.inr active)
  have hcode : page.sendPassword.active ≠ some .code := by
    rw [Page.active, (Quiet.sendPassword page).shown, ← Page.active, active]
    decide
  refine ⟨?_, .of_active hcode, ?_⟩
  · unfold Page.sendPassword
    split
    · exact .opened hclient hlink htasks
    · split
      · exact .serves (Serves.await { page with passwordDisabled := true } _ rfl) hclient hlink
          htasks
      · exact .opened hclient hlink htasks
  · unfold Page.sendPassword
    split
    · exact fun _ => .inl enabled
    · split
      · exact .await rfl
      · exact .caught

theorem migrate (h : Inv page) (session : Session) (connected : page.connected = true) :
    Inv (page.setSession session) := by
  have hlink : page.link = some .connected := of_decide_eq_true connected
  obtain ⟨client, hclient, -⟩ := Option.map_eq_some_iff.mp hlink
  have hnext : (page.setSession session).link = some .connected := by
    simp [Page.setSession, Page.link, hclient]
  refine ⟨?_, ⟨h.code.offered, by simp [hnext], by simp [hnext]⟩, h.password⟩
  refine .opened (by simp [Page.setSession, hclient]) (by simp [hnext]) fun task htask => ?_
  cases h.stage with
  | closed hnone => simp [hclient] at hnone
  | opening other hother htasks =>
      cases other <;> simp [Await.linkDuring, hlink] at hother
  | opened hsome hconnecting htasks => exact htasks task htask

theorem step {action : Action} (h : Inv page) (recoverable : Recoverable page action)
    (hstep : step page action = some next) : Inv next := by
  cases action with
  | start =>
      obtain ⟨hloaded, hnext⟩ := Option.ite_none_right_eq_some.mp hstep
      cases hnext
      rw [hloaded]
      exact start page.data page.pending page.now
  | wait milliseconds =>
      cases hstep
      exact ⟨h.stage.congr rfl rfl rfl rfl id, ⟨h.code.offered, h.code.alive, h.code.refused⟩,
        h.password⟩
  | tick =>
      obtain ⟨-, hnext⟩ := Option.ite_none_right_eq_some.mp hstep
      cases hnext
      exact h.tick
  | digit d =>
      obtain ⟨⟨-, hpad, -⟩, hnext⟩ := Option.ite_none_right_eq_some.mp hstep
      cases hnext
      exact h.used (.inl hpad) (Serves.digit page d)
  | backspace =>
      obtain ⟨⟨-, hpad⟩, hnext⟩ := Option.ite_none_right_eq_some.mp hstep
      cases hnext
      exact h.used (.inl hpad) (Serves.backspace page)
  | submitCode =>
      obtain ⟨⟨-, hpad⟩, hnext⟩ := Option.ite_none_right_eq_some.mp hstep
      cases hnext
      exact h.used (.inl hpad) (Serves.submitCode page)
  | retryCode =>
      obtain ⟨⟨hactive, hretry⟩, hnext⟩ := Option.ite_none_right_eq_some.mp hstep
      cases hnext
      exact h.retryCode hactive hretry
  | typePassword password =>
      obtain ⟨hactive, hnext⟩ := Option.ite_none_right_eq_some.mp hstep
      cases hnext
      exact h.used (.inr hactive) (Serves.typePassword page password)
  | sendPassword =>
      obtain ⟨⟨hactive, henabled⟩, hnext⟩ := Option.ite_none_right_eq_some.mp hstep
      cases hnext
      exact h.sendPassword hactive (by simpa using henabled)
  | migrate session =>
      obtain ⟨hconnected, hnext⟩ := Option.ite_none_right_eq_some.mp hstep
      cases hnext
      exact h.migrate session hconnected
  | settle task outcome =>
      obtain ⟨⟨hmem, hends⟩, hnext⟩ := Option.ite_none_right_eq_some.mp hstep
      cases hnext
      exact h.settle hmem hends recoverable

end Inv

/-- With no client the retry goes for one. -/
theorem retry_connects {page : Page} (client : page.client = none)
    (gramJs : page.data.gramJs = true) :
    ∃ task ∈ page.sendCodeNow.tasks, task.linkDuring ≠ none := by
  have hnone : page.sending.client = none := client
  have hgram : page.sending.data.gramJs = true := gramJs
  simp only [Page.sendCodeNow, Page.ensureClient, hnone, hgram, Option.isSome_none,
    Bool.false_eq_true, if_false, if_true]
  split
  · exact ⟨_, List.mem_append_right _ List.mem_cons_self, nofun⟩
  · exact ⟨_, List.mem_append_right _ List.mem_cons_self, nofun⟩

/-- When nothing is in flight, nothing is on the way, so what the invariant promises is there. -/
theorem Inv.usable {page : Page} (h : Inv page) (idle : page.tasks = []) : Usable page := by
  have hidle : ∀ task, task ∉ page.tasks := by simp [idle]
  have hcode : page.active = some .code → page.padEnabled = true ∨ page.retryVisible = true := by
    intro hactive
    obtain hpad | hretry | ⟨task, htask, -⟩ := h.code.offered hactive
    · exact .inl hpad
    · exact .inr hretry
    · exact absurd htask (hidle task)
  have hpassword : page.active = some .twoFa → page.passwordDisabled = false := by
    intro hactive
    obtain henabled | ⟨task, htask, -⟩ := h.password hactive
    · exact henabled
    · exact absurd htask (hidle task)
  cases h.stage with
  | closed hclient htasks hpad =>
      refine ⟨hcode, hpassword, fun _ hcontrol => ?_, fun _ _ => .inl hclient⟩
      simp [hpad] at hcontrol
  | opening task hclient htasks => exact absurd idle (by simp [htasks])
  | opened hclient hlink htasks =>
      have hconnected : page.active = some .code → page.connected = true := by
        intro hactive
        obtain ⟨client, hsome⟩ := Option.ne_none_iff_exists'.mp hclient
        have hpage : page.link = some client.link := by simp [Page.link, hsome]
        cases hstate : client.link with
        | connected => simp [Page.connected, hpage, hstate]
        | connecting => exact absurd (hstate ▸ hpage) hlink
        | raised => exact absurd (hstate ▸ hpage) (h.code.alive hactive)
        | refused => exact absurd (h.code.refused hactive (hstate ▸ hpage)) (hidle .sendCode)
      exact ⟨hcode, hpassword, fun hactive _ => hconnected hactive,
        fun hactive _ => .inr (hconnected hactive)⟩

/-- In a run whose steps are recoverable the page can be used whenever nothing is in flight. -/
theorem page_usable {data : Data} {pending : Option Pending} {now : Int} {actions : List Action}
    {page : Page} (run : exec step (loaded data pending now) actions = some page)
    (recoverable : Meets step Recoverable (loaded data pending now) actions)
    (idle : page.tasks = []) : Usable page := by
  have hinv : Inv page :=
    exec_invariant_of_meets (fun _ _ _ h => h.step) (Inv.loaded data pending now) recoverable run
  exact hinv.usable idle

section Runs

/-- Telegram refuses to send a code, and the user can try again. -/
theorem refusedCode_usable :
    ∃ page, exec step (loaded fifteenMinutes none 0)
        (askForCode ++ [.settle .sendCode (.threw .other)]) = some page ∧
      page.active = some .code ∧ page.retryVisible = true ∧ Usable page := by
  have hobserved : (exec step (loaded fifteenMinutes none 0)
      (askForCode ++ [.settle .sendCode (.threw .other)])).map (fun page =>
        (page.active, page.retryVisible, page.tasks)) = some (some .code, true, []) := by
    decide +kernel
  obtain ⟨page, hrun, hpage⟩ := Option.map_eq_some_iff.mp hobserved
  obtain ⟨hactive, hretry, htasks⟩ : page.active = some .code ∧ page.retryVisible = true ∧
      page.tasks = [] := by
    simpa only [Prod.mk.injEq] using hpage
  exact ⟨page, hrun, hactive, hretry, page_usable hrun (by decide +kernel) htasks⟩

/-- The code is right, and the password is right too. -/
def enterPassword : List Action :=
  [.settle signIn (.threw .sessionPasswordNeeded), .typePassword [0x70], .sendPassword,
    .settle (.getPassword [0x70]) .ok, .settle .computeCheck .ok, .settle .checkPassword .ok]

/-- An attempt that an earlier visit has saved. -/
def saved : Pending := ⟨[0x68], 2, [0x4b]⟩

/-- The server refuses the session of a password, or has refused it for good when another sign-in
is answered; `connect` raises, or gives up on a saved attempt. Each leaves a dead end. -/
theorem page_not_usable :
    (∃ page, exec step (loaded fifteenMinutes none 0) (enterCode ++ enterPassword ++
        [.settle (.handoff .password ⟨2, [0x4b]⟩) (.response 400),
          .settle (.handoffBody .password 400) (.body false)]) = some page ∧
      page.tasks = [] ∧ page.timeUp = false ∧ ¬Usable page) ∧
    (∃ page, exec step (loaded fifteenMinutes none 0) (enterCode ++ [.submitCode] ++
        enterPassword ++ [.settle (.handoff .password ⟨2, [0x4b]⟩) (.response 410),
          .settle (.handoffBody .password 410) (.body false),
          .settle signIn (.threw .sessionPasswordNeeded)]) = some page ∧
      page.tasks = [] ∧ page.timeUp = false ∧ ¬Usable page) ∧
    (∃ page, exec step (loaded fifteenMinutes none 0) [.start,
        .settle (.webappConfig .sendCodeNow) .ok,
        .settle (.connect .sendCodeNow) (.threw .other)] = some page ∧
      page.tasks = [] ∧ page.timeUp = false ∧ ¬Usable page) ∧
    ∃ page, exec step (loaded fifteenMinutes (some saved) 0) [.start,
        .settle (.webappConfig (.resume saved)) .ok, .settle (.setKey (.resume saved)) .ok,
        .settle (.connect (.resume saved)) .notConnected] = some page ∧
      page.tasks = [] ∧ page.timeUp = false ∧ ¬Usable page := by
  refine ⟨⟨_, rfl, rfl, rfl, fun h => ?_⟩, ⟨_, rfl, rfl, rfl, fun h => ?_⟩,
    ⟨_, rfl, rfl, rfl, fun h => ?_⟩, ⟨_, rfl, rfl, rfl, fun h => ?_⟩⟩
  · exact absurd (h.password rfl) (by decide)
  · exact absurd (h.password rfl) (by decide)
  · exact absurd (h.retry rfl rfl) (by decide)
  · exact absurd (h.pad rfl rfl) (by decide)

end Runs

end UserTgBot.MiniappPage
