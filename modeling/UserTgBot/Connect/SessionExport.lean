import UserTgBot.Connect.MiniappPage
import UserTgBot.Connect.SessionConvert
import UserTgBot.Library.Base64

/-!
# From the browser's key to the stored session

`bytesToBase64` and `base64ToBytes` of `connect_web/static/app.js` around the page: a key leaves
the client as text, waits in `localStorage` for the next visit, comes back as bytes, and goes to
`gramjs_to_telethon` with the hand-off. The runs here are several visits of one page over one
`localStorage`. What a request carries is told from what GramJS has reported, whatever the order in
which the awaits are answered.
-/

namespace UserTgBot.MiniappPage

open Base64 PyText SessionConvert Transition

/-! ## Keys as text -/

/-- `btoa` over `String.fromCharCode` of each byte. -/
def bytesToBase64 (bytes : List UInt8) : JsString := (btoa bytes).map UInt16.ofNat

/-- `atob`, and `charCodeAt` of each character. -/
def base64ToBytes (b64 : JsString) : Option (List UInt8) := atob (b64.map UInt16.toNat)

/-- A string without surrogates, as the server gets it in the body. -/
def posted (s : JsString) : Text := ofCodes (s.map UInt16.toNat)

theorem codes_bytesToBase64 (bytes : List UInt8) :
    (bytesToBase64 bytes).map UInt16.toNat = btoa bytes := by
  have hcode : ∀ n ∈ btoa bytes, (UInt16.toNat ∘ UInt16.ofNat) n = id n := by
    intro n hn
    have hlt := lt_of_mem_btoa hn
    exact Nat.mod_eq_of_lt (by omega)
  rw [bytesToBase64, List.map_map, List.map_congr_left hcode, List.map_id]

/-- A restored key is the saved one. -/
theorem base64ToBytes_bytesToBase64 (bytes : List UInt8) :
    base64ToBytes (bytesToBase64 bytes) = some bytes := by
  rw [base64ToBytes, codes_bytesToBase64, atob_btoa]

theorem b64decode_posted (bytes : List UInt8) :
    b64decode (posted (bytesToBase64 bytes)) = .ok bytes := by
  rw [posted, codes_bytesToBase64, b64decode_btoa]

/-! ## What `gramjs_to_telethon` accepts -/

/-- The digits of a key of 256 bytes: 342, and two `=` behind them. -/
theorem length_digits_of_authKey {ds : List Nat} {k : Nat} (padded : Padded ds.length k)
    (length : (bytes ds).length = authKeyBytes) : ds.length = 342 ∧ k = 2 := by
  rw [length_bytes, authKeyBytes] at length
  rw [Padded] at padded
  omega

theorem gramjsToTelethon_ok_iff {save : Int → String → Nat → List UInt8 → Text} {dcId : Int}
    {authKey session : Text} :
    gramjsToTelethon save dcId authKey = .ok session ↔
      ∃ ds ip, (∀ d ∈ ds, d < 64) ∧ ds.length = 342 ∧
        authKey = ofCodes (ds.map char) ++ [ofChar '=', ofChar '='] ∧
        dcIps.lookup dcId = some ip ∧ session = save dcId ip port (bytes ds) := by
  constructor
  · intro h
    rw [gramjsToTelethon] at h
    split at h
    · cases h
    · next key hdecode =>
        split at h
        · cases h
        · next hlength =>
            split at h
            · cases h
            · next ip hip =>
                obtain ⟨ds, k, hds, -, hs, hpadded, rfl⟩ := b64decode_ok_iff.mp hdecode
                obtain ⟨hcount, rfl⟩ := length_digits_of_authKey hpadded (not_not.mp hlength)
                exact ⟨ds, ip, hds, hcount, hs, hip, (Except.ok.inj h).symm⟩
  · rintro ⟨ds, ip, hds, hcount, rfl, hip, rfl⟩
    have hdecode : b64decode (ofCodes (ds.map char) ++ [ofChar '=', ofChar '=']) =
        .ok (bytes ds) := by
      refine b64decode_ok_iff.mpr ⟨ds, 2, hds, ?_, rfl, ?_, rfl⟩
      · rintro rfl
        cases hcount
      · rw [Padded]
        omega
    have hlength : (bytes ds).length = authKeyBytes := by
      rw [length_bytes, hcount]
      rfl
    rw [gramjsToTelethon, hdecode]
    simp only [hlength, ne_eq, not_true_eq_false, if_false, hip]

/-! ## What the page carries -/

/-- What a character of the code may be. -/
def IsDigit (c : UInt16) : Prop := 0x30 ≤ c.toNat ∧ c.toNat ≤ 0x39

/-- The resumed attempt that waits for its client. -/
def Await.attempt? : Await → Option Pending
  | .webappConfig (.resume pending) | .setKey (.resume pending) | .connect (.resume pending) =>
      some pending
  | _ => none

/-- `P` holds of the sessions of the clients, `H` of the hashes of the codes that are sent, and `R`
of the attempts in `localStorage`. -/
structure Reported (P : Session → Prop) (H : JsString → Prop) (R : Pending → Prop) : Prop where
  saves : ∀ session phoneCodeHash, P session → H phoneCodeHash →
    R { phoneCodeHash := phoneCodeHash, dcId := session.dcId, authKeyB64 := session.authKeyB64 }
  resumes : ∀ pending, R pending → H pending.phoneCodeHash

section Carried

variable (P : Session → Prop) (H : JsString → Prop) (R : Pending → Prop)

/-- What a request takes along. -/
def Await.Carries : Await → Prop
  | .webappConfig (.resume pending) | .setKey (.resume pending) | .connect (.resume pending) =>
      R pending
  | .signIn phoneCodeHash phoneCode =>
      H phoneCodeHash ∧ phoneCode.length = 5 ∧ ∀ c ∈ phoneCode, IsDigit c
  | .handoff _ session => P session
  | _ => True

/-- What GramJS reports in an action. -/
def Action.Reports : Action → Prop
  | .migrate session | .settle _ (.connected session) => P session
  | .settle _ (.sent phoneCodeHash _) => H phoneCodeHash
  | _ => True

/-- What the page holds has been reported to it. -/
structure Carried (page : Page) : Prop where
  pending : ∀ pending, page.pending = some pending → R pending
  client : ∀ client, page.client = some client → client.link = .connected → P client.session
  tasks : ∀ task ∈ page.tasks, task.Carries P H R
  length : page.code.length ≤ 5
  digits : ∀ c ∈ page.code, IsDigit c
  hash : (page.padEnabled = true ∨ ∃ task ∈ page.tasks, ∃ pending, task.attempt? = some pending) →
    H page.phoneCodeHash

end Carried

namespace Carried

variable {P : Session → Prop} {H : JsString → Prop} {R : Pending → Prop} {page : Page}

theorem loaded (data : Data) {pending : Option Pending} (now : Int)
    (stored : ∀ p, pending = some p → R p) : Carried P H R (loaded data pending now) where
  pending := stored
  client := by simp [MiniappPage.loaded]
  tasks := by simp [MiniappPage.loaded]
  length := by simp [MiniappPage.loaded]
  digits := by simp [MiniappPage.loaded]
  hash := by simp [MiniappPage.loaded]

theorem forget (h : Carried P H R page) (task : Await) : Carried P H R (page.forget task) where
  pending := h.pending
  client := h.client
  tasks := fun other hmem => h.tasks other (List.mem_of_mem_erase hmem)
  length := h.length
  digits := h.digits
  hash := by
    rintro (hpad | ⟨other, hmem, hattempt⟩)
    · exact h.hash (.inl hpad)
    · exact h.hash (.inr ⟨other, List.mem_of_mem_erase hmem, hattempt⟩)

theorem await (h : Carried P H R page) {task : Await} (carries : task.Carries P H R)
    (hash : ∀ pending, task.attempt? = some pending → H page.phoneCodeHash) :
    Carried P H R (page.await task) where
  pending := h.pending
  client := h.client
  tasks := by
    intro other hmem
    obtain hmem | hmem := List.mem_append.mp hmem
    · exact h.tasks other hmem
    · obtain rfl := List.mem_singleton.mp hmem
      exact carries
  length := h.length
  digits := h.digits
  hash := by
    rintro (hpad | ⟨other, hmem, pending, hattempt⟩)
    · exact h.hash (.inl hpad)
    · obtain hmem | hmem := List.mem_append.mp hmem
      · exact h.hash (.inr ⟨other, hmem, pending, hattempt⟩)
      · obtain rfl := List.mem_singleton.mp hmem
        exact hash pending hattempt

theorem showStep (h : Carried P H R page) (stepId : Step) : Carried P H R (page.showStep stepId) :=
  ⟨h.pending, h.client, h.tasks, h.length, h.digits, h.hash⟩

theorem clearPending (h : Carried P H R page) : Carried P H R page.clearPending :=
  ⟨fun _ hnone => (Option.some_ne_none _ hnone.symm).elim, h.client, h.tasks, h.length, h.digits,
    h.hash⟩

theorem ringSettle (h : Carried P H R page) : Carried P H R page.ringSettle :=
  ⟨h.pending, h.client, h.tasks, h.length, h.digits, h.hash⟩

theorem expire (h : Carried P H R page) : Carried P H R page.expire :=
  h.clearPending.ringSettle.showStep .expired

theorem tick (h : Carried P H R page) : Carried P H R page.tick := by
  unfold Page.tick
  split
  · exact h.expire
  · exact h

theorem startTimer (h : Carried P H R page) : Carried P H R page.startTimer := by
  unfold Page.startTimer
  split
  · exact tick ⟨h.pending, h.client, h.tasks, h.length, h.digits, h.hash⟩
  · exact h

theorem sendCodeCaught (h : Carried P H R page) : Carried P H R page.sendCodeCaught :=
  ⟨h.pending, h.client, h.tasks, h.length, h.digits, h.hash⟩

theorem requestCode (h : Carried P H R page) : Carried P H R page.requestCode :=
  h.await trivial fun _ hnone => (Option.some_ne_none _ hnone.symm).elim

theorem sending (h : Carried P H R page) : Carried P H R page.sending where
  pending := h.pending
  client := h.client
  tasks := h.tasks
  length := h.length
  digits := h.digits
  hash := by
    rintro (hpad | hattempt)
    · cases hpad
    · exact h.hash (.inr hattempt)

/-- What a caller brings with it. -/
theorem await_caller (h : Carried P H R page) {caller : Caller} {task : Caller → Await}
    (kind : task = .webappConfig ∨ task = .setKey ∨ task = .connect)
    (attempt : ∀ pending, caller = .resume pending → R pending ∧ H page.phoneCodeHash) :
    Carried P H R (page.await (task caller)) := by
  apply h.await
  · cases caller with
    | resume pending =>
        obtain rfl | rfl | rfl := kind
        · exact (attempt pending rfl).1
        · exact (attempt pending rfl).1
        · exact (attempt pending rfl).1
    | sendCodeNow => obtain rfl | rfl | rfl := kind <;> trivial
  · intro other hattempt
    cases caller with
    | resume pending => exact (attempt pending rfl).2
    | sendCodeNow => obtain rfl | rfl | rfl := kind <;> cases hattempt

theorem connectClient (h : Carried P H R page) {caller : Caller}
    (attempt : ∀ pending, caller = .resume pending → R pending ∧ H page.phoneCodeHash) :
    Carried P H R (page.connectClient caller) := by
  have hclient : Carried P H R { page with
      client := some { session := page.newSession caller, link := .connecting } } := by
    refine ⟨h.pending, ?_, h.tasks, h.length, h.digits, h.hash⟩
    intro client hsome hconnected
    obtain rfl := Option.some.inj hsome
    cases hconnected
  exact hclient.await_caller (.inr (.inr rfl)) attempt

theorem openSession (h : Carried P H R page) {caller : Caller}
    (attempt : ∀ pending, caller = .resume pending → R pending ∧ H page.phoneCodeHash) :
    Carried P H R (page.openSession caller) := by
  apply Page.openSession_cases
  · exact h.await_caller (.inr (.inl rfl)) attempt
  · exact h.connectClient attempt

theorem sendCodeNow (h : Carried P H R page) : Carried P H R page.sendCodeNow := by
  apply Page.sendCodeNow_cases
  · exact fun _ => h.sending.requestCode
  · exact fun _ => h.sending.sendCodeCaught
  · exact fun _ => h.sending.await_caller (.inl rfl) fun _ hcaller => Caller.noConfusion hcaller
  · exact fun _ => h.sending.connectClient fun _ hcaller => Caller.noConfusion hcaller

theorem resumeCaught (h : Carried P H R page) : Carried P H R page.resumeCaught :=
  sendCodeNow ⟨h.clearPending.pending, fun _ hnone => (Option.some_ne_none _ hnone.symm).elim,
    h.tasks, h.length, h.digits, h.hash⟩

theorem resumed (h : Carried P H R page) (hash : H page.phoneCodeHash) :
    Carried P H R page.resumed :=
  ⟨h.pending, h.client, h.tasks, h.length, h.digits, fun _ => hash⟩

theorem ensured (h : Carried P H R page) {caller : Caller}
    (attempt : ∀ pending, caller = .resume pending → H page.phoneCodeHash) :
    Carried P H R (page.ensured caller) := by
  cases caller with
  | resume pending => exact h.resumed (attempt pending rfl)
  | sendCodeNow => exact h.requestCode

theorem ensureFailed (h : Carried P H R page) (caller : Caller) :
    Carried P H R (page.ensureFailed caller) := by
  cases caller with
  | resume pending => exact h.resumeCaught
  | sendCodeNow => exact h.sendCodeCaught

theorem resumeAttempt (h : Carried P H R page) (reported : Reported P H R) {pending : Pending}
    (stored : R pending) : Carried P H R (page.resumeAttempt pending) := by
  have hhash : H pending.phoneCodeHash := reported.resumes pending stored
  have hresuming : Carried P H R (page.resuming pending) :=
    ⟨h.pending, h.client, h.tasks, h.length, h.digits, fun _ => hhash⟩
  have hattempt : ∀ other, Caller.resume pending = .resume other → R other ∧
      H (page.resuming pending).phoneCodeHash := by
    rintro other ⟨⟩
    exact ⟨stored, hhash⟩
  apply Page.ensureClient_cases
  · exact fun _ => hresuming.resumed hhash
  · exact fun _ => hresuming.resumeCaught
  · exact fun _ => hresuming.await_caller (.inl rfl) hattempt
  · exact fun _ => hresuming.openSession hattempt

theorem begin (h : Carried P H R page) (reported : Reported P H R) : Carried P H R page.begin := by
  unfold Page.begin
  split
  · next pending hpending =>
      split
      · exact (h.showStep .code).sendCodeNow
      · exact (h.showStep .code).resumeAttempt reported (h.pending pending hpending)
  · exact (h.showStep .code).sendCodeNow

theorem start (h : Carried P H R page) (reported : Reported P H R) : Carried P H R page.start := by
  unfold Page.start
  split
  · exact h.showStep .outside
  · split
    · exact h.expire
    · exact h.startTimer.begin reported

theorem session_of_connected (h : Carried P H R page) {client : Client}
    (some : page.client = some client) (connected : page.connected = true) : P client.session := by
  apply h.client client some
  simpa [Page.connected, Page.link, some] using connected

theorem codeSent (h : Carried P H R page) (reported : Reported P H R) {phoneCodeHash : JsString}
    (hash : H phoneCodeHash) (stored : Bool) (connected : page.connected = true) :
    Carried P H R (page.codeSent phoneCodeHash stored) := by
  unfold Page.codeSent
  split
  · next hclient => simp [Page.connected, Page.link, hclient] at connected
  · next client hclient =>
      have hattempt := reported.saves _ _ (h.session_of_connected hclient connected) hash
      cases stored with
      | true =>
          refine ⟨?_, h.client, h.tasks, Nat.zero_le _, fun _ hc => (List.not_mem_nil hc).elim,
            fun _ => hash⟩
          intro pending hpending
          obtain rfl := Option.some.inj hpending
          exact hattempt
      | false =>
          exact ⟨h.pending, h.client, h.tasks, Nat.zero_le _,
            fun _ hc => (List.not_mem_nil hc).elim, fun _ => hash⟩

theorem submitCodeCaught (h : Carried P H R page) (error : Error) :
    Carried P H R (page.submitCodeCaught error) := by
  cases error with
  | sessionPasswordNeeded => exact h.showStep .twoFa
  | phoneCodeExpired =>
      refine ⟨h.clearPending.pending, h.client, h.tasks, Nat.zero_le _,
        fun _ hc => (List.not_mem_nil hc).elim, ?_⟩
      rintro (hpad | hattempt)
      · cases hpad
      · exact h.hash (.inr hattempt)
  | other =>
      exact ⟨h.pending, h.client, h.tasks, Nat.zero_le _,
        fun _ hc => (List.not_mem_nil hc).elim, h.hash⟩

theorem finishCaught (h : Carried P H R page) (error : Error) (submit : Submit) :
    Carried P H R (page.finishCaught error submit) := by
  cases submit with
  | code => exact h.submitCodeCaught error
  | password => exact ⟨h.pending, h.client, h.tasks, h.length, h.digits, h.hash⟩

theorem finish (h : Carried P H R page) (connected : page.connected = true) (submit : Submit) :
    Carried P H R (page.finish submit) := by
  unfold Page.finish
  split
  · exact h.finishCaught .other submit
  · next client hclient =>
      apply h.await
      · exact h.session_of_connected hclient connected
      · intro pending hattempt
        cases hattempt

theorem finished (h : Carried P H R page) (submit : Submit) (status : Nat) (account : Bool) :
    Carried P H R (page.finished submit status account) := by
  have hdone := h.clearPending.ringSettle.showStep .done
  unfold Page.finished
  split
  · split
    · exact hdone
    · exact hdone.finishCaught .other submit
  · split
    · exact h.expire
    · exact h

theorem digit (h : Carried P H R page) {d : Nat} (hd : d ≤ 9) : Carried P H R (page.digit d) := by
  unfold Page.digit
  split
  · next hlength =>
      refine ⟨h.pending, h.client, h.tasks, ?_, ?_, h.hash⟩
      · rw [List.length_append, List.length_singleton]
        omega
      · intro c hc
        obtain hc | hc := List.mem_append.mp hc
        · exact h.digits c hc
        · obtain rfl := List.mem_singleton.mp hc
          have hcode : (UInt16.ofNat (0x30 + d)).toNat = 0x30 + d := Nat.mod_eq_of_lt (by omega)
          rw [IsDigit, hcode]
          omega
  · exact h

theorem backspace (h : Carried P H R page) : Carried P H R page.backspace := by
  refine ⟨h.pending, h.client, h.tasks, ?_, ?_, h.hash⟩
  · have hlength := h.length
    rw [Page.backspace, List.length_dropLast]
    omega
  · exact fun c hc => h.digits c (List.mem_of_mem_dropLast hc)

theorem submitCode (h : Carried P H R page) (pad : page.padEnabled = true) :
    Carried P H R page.submitCode := by
  unfold Page.submitCode
  split
  · exact h
  · next hshort =>
      split
      · exact h.submitCodeCaught .other
      · apply h.await
        · have hlength := h.length
          exact ⟨h.hash (.inl pad), by omega, h.digits⟩
        · intro pending hattempt
          cases hattempt

theorem sendPassword (h : Carried P H R page) : Carried P H R page.sendPassword := by
  have hdisabled : Carried P H R { page with passwordDisabled := true } :=
    ⟨h.pending, h.client, h.tasks, h.length, h.digits, h.hash⟩
  unfold Page.sendPassword
  split
  · exact h
  · split
    · exact hdisabled.await trivial fun _ hnone => (Option.some_ne_none _ hnone.symm).elim
    · exact hdisabled.finishCaught .other .password

theorem setSession (h : Carried P H R page) {session : Session} (reported : P session) :
    Carried P H R (page.setSession session) := by
  refine ⟨h.pending, ?_, h.tasks, h.length, h.digits, h.hash⟩
  intro client hclient _
  obtain ⟨_, -, rfl⟩ := Option.map_eq_some_iff.mp hclient
  exact reported

/-- A client that has not connected has no session to hand off. -/
theorem setLink (h : Carried P H R page) {link : Link} (broken : link ≠ .connected) :
    Carried P H R (page.setLink link) := by
  refine ⟨h.pending, ?_, h.tasks, h.length, h.digits, h.hash⟩
  intro client hclient hconnected
  obtain ⟨_, -, rfl⟩ := Option.map_eq_some_iff.mp hclient
  exact absurd hconnected broken

/-- What comes behind an await, with what the await was for. -/
theorem resume (h : Carried P H R page) (reported : Reported P H R) {task : Await}
    {outcome : Outcome} (carries : task.Carries P H R)
    (hash : ∀ pending, task.attempt? = some pending → H page.phoneCodeHash)
    (reports : (Action.settle task outcome).Reports P H)
    (ends : task.mayEnd page outcome = true) : Carried P H R (page.resume task outcome) := by
  have hcaller : ∀ caller, task = .webappConfig caller ∨ task = .setKey caller ∨
      task = .connect caller →
      ∀ pending, caller = .resume pending → R pending ∧ H page.phoneCodeHash := by
    rintro _ hkind pending rfl
    obtain rfl | rfl | rfl := hkind
    · exact ⟨carries, hash pending rfl⟩
    · exact ⟨carries, hash pending rfl⟩
    · exact ⟨carries, hash pending rfl⟩
  cases task with
  | webappConfig caller =>
      cases outcome with
      | ok =>
          have hconfigured : Carried P H R { page with configured := true } :=
            ⟨h.pending, h.client, h.tasks, h.length, h.digits, h.hash⟩
          exact hconfigured.openSession (hcaller caller (.inl rfl))
      | threw error => exact h.ensureFailed caller
      | _ => cases ends
  | setKey caller =>
      cases outcome with
      | ok => exact h.connectClient (hcaller caller (.inr (.inl rfl)))
      | threw error => exact h.ensureFailed caller
      | _ => cases ends
  | connect caller =>
      have hattempt : ∀ pending, caller = .resume pending → H page.phoneCodeHash :=
        fun pending hresume => (hcaller caller (.inr (.inr rfl)) pending hresume).2
      cases outcome with
      | connected session => exact (h.setSession reports).ensured hattempt
      | notConnected => exact (h.setLink Link.noConfusion).ensured hattempt
      | threw error => exact (h.setLink Link.noConfusion).ensureFailed caller
      | _ => cases ends
  | sendCode =>
      cases outcome with
      | sent phoneCodeHash stored => exact h.codeSent reported reports stored ends
      | threw error => exact h.sendCodeCaught
      | _ => cases ends
  | signIn phoneCodeHash phoneCode =>
      cases outcome with
      | ok => exact h.finish ends .code
      | threw error => exact h.submitCodeCaught error
      | _ => cases ends
  | getPassword password =>
      cases outcome with
      | ok => exact h.await trivial fun _ hnone => (Option.some_ne_none _ hnone.symm).elim
      | threw error => exact h.finishCaught .other .password
      | _ => cases ends
  | computeCheck =>
      cases outcome with
      | ok => exact h.await trivial fun _ hnone => (Option.some_ne_none _ hnone.symm).elim
      | threw error => exact h.finishCaught .other .password
      | _ => cases ends
  | checkPassword =>
      cases outcome with
      | ok =>
          have hcleared : Carried P H R { page with password := [] } :=
            ⟨h.pending, h.client, h.tasks, h.length, h.digits, h.hash⟩
          exact hcleared.finish ends .password
      | threw error => exact h.finishCaught .other .password
      | _ => cases ends
  | handoff submit session =>
      cases outcome with
      | response status =>
          exact h.await trivial fun _ hnone => (Option.some_ne_none _ hnone.symm).elim
      | threw error => exact h.finishCaught error submit
      | _ => cases ends
  | handoffBody submit status =>
      cases outcome with
      | body account => exact h.finished submit status account
      | _ => cases ends

/-- One step holds on to what is reported, and brings nothing of its own. -/
theorem step (h : Carried P H R page) (reported : Reported P H R) {action : Action} {next : Page}
    (reports : action.Reports P H) (hstep : step page action = some next) :
    Carried P H R next := by
  cases action with
  | start =>
      obtain ⟨-, hnext⟩ := Option.ite_none_right_eq_some.mp hstep
      cases hnext
      exact h.start reported
  | wait milliseconds =>
      cases hstep
      exact ⟨h.pending, h.client, h.tasks, h.length, h.digits, h.hash⟩
  | tick =>
      obtain ⟨-, hnext⟩ := Option.ite_none_right_eq_some.mp hstep
      cases hnext
      exact h.tick
  | digit d =>
      obtain ⟨⟨-, -, hd⟩, hnext⟩ := Option.ite_none_right_eq_some.mp hstep
      cases hnext
      exact h.digit hd
  | backspace =>
      obtain ⟨-, hnext⟩ := Option.ite_none_right_eq_some.mp hstep
      cases hnext
      exact h.backspace
  | submitCode =>
      obtain ⟨⟨-, hpad⟩, hnext⟩ := Option.ite_none_right_eq_some.mp hstep
      cases hnext
      exact h.submitCode hpad
  | retryCode =>
      obtain ⟨-, hnext⟩ := Option.ite_none_right_eq_some.mp hstep
      cases hnext
      exact h.sendCodeNow
  | typePassword password =>
      obtain ⟨-, hnext⟩ := Option.ite_none_right_eq_some.mp hstep
      cases hnext
      exact ⟨h.pending, h.client, h.tasks, h.length, h.digits, h.hash⟩
  | sendPassword =>
      obtain ⟨-, hnext⟩ := Option.ite_none_right_eq_some.mp hstep
      cases hnext
      exact h.sendPassword
  | migrate session =>
      obtain ⟨-, hnext⟩ := Option.ite_none_right_eq_some.mp hstep
      cases hnext
      exact h.setSession reports
  | settle task outcome =>
      obtain ⟨⟨hmem, hends⟩, hnext⟩ := Option.ite_none_right_eq_some.mp hstep
      cases hnext
      exact (h.forget task).resume reported (h.tasks task hmem)
        (fun pending hattempt => h.hash (.inr ⟨task, hmem, pending, hattempt⟩)) reports hends

end Carried

/-! ## One visit after another -/

/-- The page is loaded, used, and closed. -/
structure Visit where
  data : Data
  now : Int
  actions : List Action

def Action.sessions : Action → List Session
  | .migrate session | .settle _ (.connected session) => [session]
  | _ => []

def Action.hashes : Action → List JsString
  | .settle _ (.sent phoneCodeHash _) => [phoneCodeHash]
  | _ => []

/-- The sessions that GramJS has reported in a visit. -/
def Visit.sessions (visit : Visit) : List Session := visit.actions.flatMap Action.sessions

/-- The hashes of the codes that were sent in a visit. -/
def Visit.hashes (visit : Visit) : List JsString := visit.actions.flatMap Action.hashes

/-- The page at the end of a visit. -/
def Visit.page (storage : Option Pending) (visit : Visit) : Option Page :=
  exec step (loaded visit.data storage visit.now) visit.actions

/-- What a visit leaves in `localStorage` for the next one. -/
def reopen (storage : Option Pending) (visit : Visit) : Option (Option Pending) :=
  (visit.page storage).map Page.pending

/-- The attempt is one of an earlier visit: its key is that of a client, and its hash that of a
code that was sent. -/
def Saved (visits : List Visit) (pending : Pending) : Prop :=
  pending.phoneCodeHash ∈ visits.flatMap Visit.hashes ∧
    { dcId := pending.dcId, authKeyB64 := pending.authKeyB64 } ∈ visits.flatMap Visit.sessions

theorem reports_of_visit {visit : Visit} {P : Session → Prop} {H : JsString → Prop}
    (sessions : ∀ session ∈ visit.sessions, P session) (hashes : ∀ hash ∈ visit.hashes, H hash) :
    ∀ action ∈ visit.actions, action.Reports P H := by
  intro action hmem
  have hsessions : ∀ session ∈ action.sessions, P session := fun session hsession =>
    sessions session (List.mem_flatMap.mpr ⟨action, hmem, hsession⟩)
  have hhashes : ∀ hash ∈ action.hashes, H hash := fun hash hhash =>
    hashes hash (List.mem_flatMap.mpr ⟨action, hmem, hhash⟩)
  cases action with
  | migrate session => exact hsessions session List.mem_cons_self
  | settle task outcome =>
      cases outcome with
      | connected session => exact hsessions session List.mem_cons_self
      | sent phoneCodeHash stored => exact hhashes phoneCodeHash List.mem_cons_self
      | _ => trivial
  | _ => trivial

/-- What holds of the reports of a visit and of the storage holds of the page. -/
theorem carried_of_visit {visit : Visit} {storage : Option Pending} {page : Page}
    {P : Session → Prop} {H : JsString → Prop} {R : Pending → Prop} (reported : Reported P H R)
    (sessions : ∀ session ∈ visit.sessions, P session) (hashes : ∀ hash ∈ visit.hashes, H hash)
    (stored : ∀ pending, storage = some pending → R pending)
    (run : visit.page storage = some page) : Carried P H R page := by
  have hreports : ∀ action ∈ visit.actions, action.Reports P H :=
    reports_of_visit sessions hashes
  have hmeets : Meets MiniappPage.step (fun _ action => action.Reports P H)
      (loaded visit.data storage visit.now) visit.actions := by
    refine meets_iff_split.mpr fun first action rest _ heq _ => hreports action ?_
    rw [heq]
    exact List.mem_append_right _ List.mem_cons_self
  exact exec_invariant_of_meets (fun _ _ _ h reports hstep => h.step reported reports hstep)
    (Carried.loaded visit.data visit.now stored) hmeets run

/-- Sessions and hashes of one visit, and attempts of the visits up to it. -/
theorem reported_of_visits (visits : List Visit) (visit : Visit) :
    Reported (· ∈ visit.sessions) (· ∈ (visits ++ [visit]).flatMap Visit.hashes)
      (Saved (visits ++ [visit])) where
  saves := by
    intro session phoneCodeHash hsession hhash
    refine ⟨hhash, ?_⟩
    rw [List.flatMap_append]
    exact List.mem_append_right _ (by simpa using hsession)
  resumes := fun _ saved => saved.1

theorem Saved.later {visits : List Visit} {pending : Pending} (h : Saved visits pending)
    (visit : Visit) : Saved (visits ++ [visit]) pending := by
  rw [Saved, List.flatMap_append, List.flatMap_append]
  exact ⟨List.mem_append_left _ h.1, List.mem_append_left _ h.2⟩

/-- The page of a visit holds nothing that was not reported to it or to a visit before. -/
theorem carried_of_visits {visits : List Visit} {visit : Visit} {storage : Option Pending}
    {page : Page} (stored : ∀ pending, storage = some pending → Saved visits pending)
    (run : visit.page storage = some page) :
    Carried (· ∈ visit.sessions) (· ∈ (visits ++ [visit]).flatMap Visit.hashes)
      (Saved (visits ++ [visit])) page := by
  refine carried_of_visit (reported_of_visits visits visit) (fun _ h => h) ?_ ?_ run
  · intro hash hmem
    rw [List.flatMap_append]
    exact List.mem_append_right _ (by simpa using hmem)
  · exact fun pending hpending => (stored pending hpending).later visit

/-- What is in `localStorage` was put there in one of the visits. -/
theorem saved_of_visits {visits : List Visit} {storage : Option Pending}
    (run : exec reopen none visits = some storage) :
    ∀ pending, storage = some pending → Saved visits pending := by
  have hhistory := exec_history
    (I := fun visits storage => ∀ pending, storage = some pending → Saved visits pending)
    (fun past storage visit next stored hreopen => by
      obtain ⟨page, hpage, rfl⟩ := Option.map_eq_some_iff.mp hreopen
      exact (carried_of_visits stored hpage).pending) (fun _ hnone => by cases hnone) run
  exact hhistory

/-! ## What the page sends -/

/-- What a session of GramJS holds: one of Telegram's data centers, and a key of 256 bytes. -/
def Session.Keyed (session : Session) : Prop :=
  1 ≤ session.dcId ∧ session.dcId ≤ 5 ∧
    ∃ key, key.length = authKeyBytes ∧ session.authKeyB64 = bytesToBase64 key

theorem Session.Keyed.converts {session : Session} (h : session.Keyed)
    (save : Int → String → Nat → List UInt8 → Text) :
    ∃ key ip, session.authKeyB64 = bytesToBase64 key ∧
      dcIps.lookup (session.dcId : Int) = some ip ∧
      gramjsToTelethon save session.dcId (posted session.authKeyB64) =
        .ok (save session.dcId ip port key) := by
  obtain ⟨hlow, hhigh, key, hlength, hkey⟩ := h
  have hlookup : ∀ dcId : Nat, 1 ≤ dcId → dcId ≤ 5 →
      ∃ ip, dcIps.lookup (dcId : Int) = some ip := by
    intro dcId h1 h5
    obtain rfl | rfl | rfl | rfl | rfl :
        dcId = 1 ∨ dcId = 2 ∨ dcId = 3 ∨ dcId = 4 ∨ dcId = 5 := by omega
    all_goals exact ⟨_, rfl⟩
  obtain ⟨ip, hip⟩ := hlookup session.dcId hlow hhigh
  refine ⟨key, ip, hkey, hip, ?_⟩
  rw [gramjsToTelethon, hkey, b64decode_posted]
  simp only [hlength, ne_eq, not_true_eq_false, if_false, hip]

/-- However the visits before it went, a hand-off of the page carries a session of its own client,
and the server makes a session of the same data center and the same key of it. A key that is
restored is the key that a client had, byte for byte. -/
theorem keys_survive {visits : List Visit} {visit : Visit} {storage : Option Pending} {page : Page}
    (save : Int → String → Nat → List UInt8 → Text)
    (keyed : ∀ v ∈ visits ++ [visit], ∀ session ∈ v.sessions, session.Keyed)
    (earlier : exec reopen none visits = some storage) (run : visit.page storage = some page) :
    (∀ submit session, .handoff submit session ∈ page.tasks →
      session ∈ visit.sessions ∧
      ∃ key ip, session.authKeyB64 = bytesToBase64 key ∧
        dcIps.lookup (session.dcId : Int) = some ip ∧
        gramjsToTelethon save session.dcId (posted session.authKeyB64) =
          .ok (save session.dcId ip port key)) ∧
    (∀ pending, .setKey (.resume pending) ∈ page.tasks →
      ∃ session ∈ (visits ++ [visit]).flatMap Visit.sessions, session.dcId = pending.dcId ∧
        ∃ key, session.authKeyB64 = bytesToBase64 key ∧
          base64ToBytes pending.authKeyB64 = some key) := by
  have hcarried := carried_of_visits (saved_of_visits earlier) run
  constructor
  · intro submit session hmem
    have hsession : session ∈ visit.sessions := hcarried.tasks _ hmem
    have hkeyed := keyed visit (List.mem_append_right _ List.mem_cons_self) session hsession
    exact ⟨hsession, hkeyed.converts save⟩
  · intro pending hmem
    have hsaved : Saved (visits ++ [visit]) pending := hcarried.tasks _ hmem
    obtain ⟨v, hv, hsession⟩ := List.mem_flatMap.mp hsaved.2
    obtain ⟨-, -, key, -, hkey⟩ := keyed v hv _ hsession
    refine ⟨_, hsaved.2, rfl, key, hkey, ?_⟩
    simp only at hkey
    rw [hkey, base64ToBytes_bytesToBase64]

section NextVisit

/-- A key of 256 bytes at the second data center. -/
def keyAtTwo : Session := ⟨2, bytesToBase64 (List.replicate 256 0x41)⟩

/-- What the first visit saves. -/
def attemptAtTwo : Pending := ⟨[0x68], 2, keyAtTwo.authKeyB64⟩

/-- The code is asked for, and the Mini App is closed. -/
def askingVisit : Visit where
  data := fifteenMinutes
  now := 0
  actions := [.start, .settle (.webappConfig .sendCodeNow) .ok,
    .settle (.connect .sendCodeNow) (.connected keyAtTwo), .settle .sendCode (.sent [0x68] true)]

/-- The attempt is resumed, and the code is entered. -/
def enteringVisit : Visit where
  data := fifteenMinutes
  now := 60000
  actions := [.start, .settle (.webappConfig (.resume attemptAtTwo)) .ok,
    .settle (.setKey (.resume attemptAtTwo)) .ok,
    .settle (.connect (.resume attemptAtTwo)) (.connected keyAtTwo),
    .digit 1, .digit 2, .digit 3, .digit 4, .digit 5, .submitCode]

/-- The code is right. -/
def finishingVisit : Visit :=
  { enteringVisit with actions := enteringVisit.actions ++ [.settle signIn .ok] }

/-- The format of Telethon: a version, and the packed session in the URL-safe alphabet. -/
def stringSession (dcId : Int) (ip : String) (port : Nat) (key : List UInt8) : Text :=
  let address := (ip.toList.splitOn '.').map fun part =>
    UInt8.ofNat (part.foldl (fun n c => n * 10 + (c.toNat - 0x30)) 0)
  let packed := .ofNat dcId.toNat :: address ++ [.ofNat (port / 256), .ofNat port] ++ key
  let urlSafe := fun c => if c = 0x2b then 0x2d else if c = 0x2f then 0x5f else c
  text "1" ++ ofCodes ((btoa packed).map urlSafe)

theorem nextVisit_keys_survive :
    ∃ storage page, exec reopen none [askingVisit] = some storage ∧
      finishingVisit.page storage = some page ∧ .handoff .code keyAtTwo ∈ page.tasks ∧
      ∃ key ip, keyAtTwo.authKeyB64 = bytesToBase64 key ∧
        dcIps.lookup (keyAtTwo.dcId : Int) = some ip ∧
        gramjsToTelethon stringSession keyAtTwo.dcId (posted keyAtTwo.authKeyB64) =
          .ok (stringSession keyAtTwo.dcId ip port key) := by
  have hstored : exec reopen none [askingVisit] = some (some attemptAtTwo) := by decide +kernel
  have hobserved : (finishingVisit.page (some attemptAtTwo)).map Page.tasks =
      some [.handoff .code keyAtTwo] := by
    decide +kernel
  have hsessions : ∀ v ∈ [askingVisit] ++ [finishingVisit], ∀ session ∈ v.sessions,
      session = keyAtTwo := by
    decide +kernel
  have hkeyed : ∀ v ∈ [askingVisit] ++ [finishingVisit], ∀ session ∈ v.sessions,
      session.Keyed := by
    intro v hv session hsession
    rw [hsessions v hv session hsession]
    exact ⟨by decide, by decide, List.replicate 256 0x41, List.length_replicate, rfl⟩
  obtain ⟨page, hrun, htasks⟩ := Option.map_eq_some_iff.mp hobserved
  have hmem : .handoff .code keyAtTwo ∈ page.tasks := by
    rw [htasks]
    exact List.mem_cons_self
  obtain ⟨-, hconverts⟩ := (keys_survive stringSession hkeyed hstored hrun).1 .code keyAtTwo hmem
  exact ⟨_, page, hstored, hrun, hmem, hconverts⟩

end NextVisit

/-- A sign-in takes five digits along, and the hash of a code that was sent in one of the
visits. -/
theorem signIn_reported {visits : List Visit} {visit : Visit} {storage : Option Pending}
    {page : Page} (earlier : exec reopen none visits = some storage)
    (run : visit.page storage = some page) {phoneCodeHash phoneCode : JsString}
    (mem : .signIn phoneCodeHash phoneCode ∈ page.tasks) :
    phoneCode.length = 5 ∧ (∀ c ∈ phoneCode, IsDigit c) ∧
      phoneCodeHash ∈ (visits ++ [visit]).flatMap Visit.hashes := by
  have hcarried := carried_of_visits (saved_of_visits earlier) run
  obtain ⟨hhash, hlength, hdigits⟩ := hcarried.tasks _ mem
  exact ⟨hlength, hdigits, hhash⟩

theorem nextVisit_signIn_reported :
    ∃ storage page, exec reopen none [askingVisit] = some storage ∧
      enteringVisit.page storage = some page ∧ signIn ∈ page.tasks ∧
      [0x68] ∈ ([askingVisit] ++ [enteringVisit]).flatMap Visit.hashes := by
  have hstored : exec reopen none [askingVisit] = some (some attemptAtTwo) := by decide +kernel
  have hobserved : (enteringVisit.page (some attemptAtTwo)).map Page.tasks = some [signIn] := by
    decide +kernel
  obtain ⟨page, hrun, htasks⟩ := Option.map_eq_some_iff.mp hobserved
  have hmem : signIn ∈ page.tasks := by
    rw [htasks]
    exact List.mem_cons_self
  obtain ⟨-, -, hhash⟩ := signIn_reported hstored hrun hmem
  exact ⟨_, page, hstored, hrun, hmem, hhash⟩

end UserTgBot.MiniappPage
