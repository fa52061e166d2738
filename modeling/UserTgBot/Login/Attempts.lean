import UserTgBot.Login.Manager

/-!
# Old and new login attempts

Cleanup in the login manager goes by the user, not by the attempt: a submission that fails
cancels whatever is registered then, one that succeeds removes it, and a start overwrites it. As
long as what is registered at these moments is no newer attempt, and no `connect` raises, no
operation touches a newer attempt and no client is leaked.
-/

namespace UserTgBot.Login

open Transition

/-- The client that a start has made and not registered yet. -/
def Phase.client? : Phase → Option Nat
  | .connecting _ client => some client
  | .requestingCode _ client => some client
  | _ => none

namespace Manager

/-- No operation is in flight. -/
def Idle (m : Manager) : Prop := ∀ op, m.operations op = none

def client? (m : Manager) (op : Nat) : Option Nat := (m.operations op).bind Phase.client?

/-- The client is registered, or asked to disconnect, or still in the hands of a start. -/
def Owned (m : Manager) (client : Nat) : Prop :=
  m.registered = some client ∨ client ∈ m.disconnected ∨ ∃ op, m.client? op = some client

/-- The reply does not lead to a cleanup that hits another attempt. -/
def ReplyInTurn (m : Manager) : Phase → Reply → Prop
  | .connecting _ _, .raised _ => False
  | .requestingCode _ client, .sent _ =>
      ∀ other ∈ m.registered, other < client ∧ other ∈ m.disconnected
  | .signingIn attempt, .raised error =>
      error = .sessionPasswordNeeded ∨ error = .phoneCodeInvalid ∨ error = .phoneCodeExpired ∨
        ∀ other ∈ m.registered, other ≤ attempt
  | .checkingPassword attempt, .raised error =>
      error = .passwordHashInvalid ∨ ∀ other ∈ m.registered, other ≤ attempt
  | .finishing attempt _ _, _ =>
      ∀ other ∈ m.registered, other = attempt ∨ (other < attempt ∧ other ∈ m.disconnected)
  | _, _ => True

def InTurn (m : Manager) : Action → Prop
  | .call _ _ => True
  | .resume op reply => ∀ phase ∈ m.operations op, m.ReplyInTurn phase reply

instance (m : Manager) (phase : Phase) (reply : Reply) :
    Decidable (m.ReplyInTurn phase reply) := by
  unfold ReplyInTurn
  split <;> infer_instance

instance (m : Manager) (action : Action) : Decidable (m.InTurn action) := by
  unfold InTurn
  split <;> infer_instance

end Manager

/-- What holds as long as every step is in turn. -/
structure Inv (m : Manager) : Prop where
  registered_lt : ∀ client, m.registered = some client → client < m.created
  client_lt : ∀ op client, m.client? op = some client → client < m.created
  finishing : ∀ op attempt account sessionString,
    m.operations op = some (.finishing attempt account sessionString) → attempt ∈ m.disconnected
  older : ∀ t ∈ m.touches, t.target ≤ t.attempt
  owned : ∀ client < m.created, m.Owned client

section Moves

variable {m : Manager} {op : Nat} {next : Option Phase}

theorem client?_move : (m.move op next).client? op = next.bind Phase.client? := by
  simp [Manager.client?, Manager.move]

theorem client?_move_ne {other : Nat} (h : other ≠ op) :
    (m.move op next).client? other = m.client? other := by
  simp [Manager.client?, Manager.move, Function.update_of_ne h]

theorem client?_of_phase {phase : Phase} (hphase : m.operations op = some phase) :
    m.client? op = phase.client? := by
  rw [Manager.client?, hphase]
  rfl

theorem pop_of_none {attempt : Nat} (hreg : m.registered = none) : m.pop attempt = m := by
  simp [Manager.pop, hreg]

theorem pop_of_registered {attempt target : Nat} (hreg : m.registered = some target) :
    m.pop attempt =
      { m with registered := none, touches := ⟨attempt, target⟩ :: m.touches } := by
  simp [Manager.pop, hreg]

theorem registered_pop {attempt : Nat} : (m.pop attempt).registered = none := by
  cases hreg : m.registered with
  | none => rw [pop_of_none hreg, hreg]
  | some target => rw [pop_of_registered hreg]

theorem created_pop {attempt : Nat} : (m.pop attempt).created = m.created := by
  cases hreg : m.registered with
  | none => rw [pop_of_none hreg]
  | some target => rw [pop_of_registered hreg]

theorem client?_pop {attempt : Nat} : (m.pop attempt).client? op = m.client? op := by
  cases hreg : m.registered with
  | none => rw [pop_of_none hreg]
  | some target =>
      rw [pop_of_registered hreg]
      rfl

/-- An operation may go on as long as it does not lose its client. -/
theorem Inv.move (h : Inv m)
    (lt : ∀ client, next.bind Phase.client? = some client → client < m.created)
    (finishing : ∀ attempt account sessionString,
      next = some (.finishing attempt account sessionString) → attempt ∈ m.disconnected)
    (kept : ∀ client, m.client? op = some client → m.registered = some client ∨
      client ∈ m.disconnected ∨ next.bind Phase.client? = some client) :
    Inv (m.move op next) := by
  constructor
  · exact h.registered_lt
  · intro other client hclient
    by_cases heq : other = op
    · subst heq
      exact lt client (client?_move.symm.trans hclient)
    · rw [client?_move_ne heq] at hclient
      exact h.client_lt other client hclient
  · intro other attempt account sessionString hphase
    by_cases heq : other = op
    · subst heq
      exact finishing attempt account sessionString (by simpa [Manager.move] using hphase)
    · refine h.finishing other attempt account sessionString ?_
      simpa [Manager.move, Function.update_of_ne heq] using hphase
  · exact h.older
  · intro client hlt
    obtain hreg | hdis | ⟨other, hclient⟩ := h.owned client hlt
    · exact .inl hreg
    · exact .inr (.inl hdis)
    · by_cases heq : other = op
      · subst heq
        obtain hreg | hdis | hnext := kept client hclient
        · exact .inl hreg
        · exact .inr (.inl hdis)
        · exact .inr (.inr ⟨other, client?_move.trans hnext⟩)
      · exact .inr (.inr ⟨other, (client?_move_ne heq).trans hclient⟩)

/-- An operation without a client may go on in any phase without one. -/
theorem Inv.proceed (h : Inv m) (free : m.client? op = none) {phase : Phase}
    (hclient : phase.client? = none)
    (finishing : ∀ attempt account sessionString,
      phase = .finishing attempt account sessionString → attempt ∈ m.disconnected) :
    Inv (m.move op (some phase)) := by
  refine h.move ?_ ?_ ?_
  · intro client hnext
    cases hclient.symm.trans hnext
  · intro attempt account sessionString hnext
    exact finishing attempt account sessionString (Option.some.inj hnext)
  · intro client hheld
    cases free.symm.trans hheld

/-- An operation may end if its client is taken care of. -/
theorem Inv.answer (h : Inv m) {result : Except LoginError Answer}
    (kept : ∀ client, m.client? op = some client →
      m.registered = some client ∨ client ∈ m.disconnected) : Inv (m.answer op result) := by
  have hmove : Inv (m.move op none) := by
    refine h.move ?_ ?_ ?_
    · intro client hnext
      cases hnext
    · intro attempt account sessionString hnext
      cases hnext
    · intro client hclient
      exact (kept client hclient).imp_right .inl
  exact ⟨hmove.registered_lt, hmove.client_lt, hmove.finishing, hmove.older, hmove.owned⟩

theorem Inv.end (h : Inv m) {result : Except LoginError Answer} (free : m.client? op = none) :
    Inv (m.answer op result) := by
  refine h.answer fun client hclient => ?_
  cases free.symm.trans hclient

theorem Inv.edit (h : Inv m) {attempt : Nat} {change : LoginState → LoginState} :
    Inv (m.edit attempt change) := by
  refine ⟨h.registered_lt, h.client_lt, h.finishing, ?_, h.owned⟩
  intro t ht
  cases List.mem_cons.mp ht with
  | inl heq => exact heq ▸ Nat.le_refl attempt
  | inr hmem => exact h.older t hmem

theorem Inv.disconnect (h : Inv m) {attempt target : Nat} (le : target ≤ attempt) :
    Inv (m.disconnect attempt target) := by
  refine ⟨h.registered_lt, h.client_lt, ?_, ?_, ?_⟩
  · intro op a account sessionString hphase
    exact List.mem_cons_of_mem _ (h.finishing op a account sessionString hphase)
  · intro t ht
    cases List.mem_cons.mp ht with
    | inl heq => exact heq ▸ le
    | inr hmem => exact h.older t hmem
  · intro client hlt
    exact (h.owned client hlt).imp_right (Or.imp_left (List.mem_cons_of_mem _))

/-- A registered attempt may be forgotten if it is not newer and its client is on its way. -/
theorem Inv.pop (h : Inv m) {attempt : Nat}
    (asked : ∀ other, m.registered = some other → other ≤ attempt ∧ other ∈ m.disconnected) :
    Inv (m.pop attempt) := by
  cases hreg : m.registered with
  | none => exact (pop_of_none hreg).symm ▸ h
  | some target =>
      obtain ⟨le, hdis⟩ := asked target hreg
      rw [pop_of_registered hreg]
      refine ⟨nofun, h.client_lt, h.finishing, ?_, ?_⟩
      · intro t ht
        cases List.mem_cons.mp ht with
        | inl heq => exact heq ▸ le
        | inr hmem => exact h.older t hmem
      · intro client hlt
        refine .inr ((h.owned client hlt).elim (fun heq => ?_) id)
        rw [hreg] at heq
        exact .inl (Option.some.inj heq ▸ hdis)

/-- `cancel` takes a registered attempt away. -/
theorem Inv.drop (h : Inv m) {attempt target : Nat} (hreg : m.registered = some target)
    (le : target ≤ attempt) : Inv ((m.pop attempt).disconnect attempt target) := by
  rw [pop_of_registered hreg]
  refine ⟨nofun, h.client_lt, ?_, ?_, ?_⟩
  · intro op a account sessionString hphase
    exact List.mem_cons_of_mem _ (h.finishing op a account sessionString hphase)
  · intro t ht
    obtain heq | ht := List.mem_cons.mp ht
    · exact heq ▸ le
    · obtain heq | hmem := List.mem_cons.mp ht
      · exact heq ▸ le
      · exact h.older t hmem
  · intro client hlt
    refine .inr ((h.owned client hlt).elim (fun heq => ?_)
      (Or.imp_left (List.mem_cons_of_mem _)))
    rw [hreg] at heq
    exact .inl (Option.some.inj heq ▸ List.mem_cons_self)

theorem Inv.register (h : Inv m) {client : Nat} {state : LoginState} (lt : client < m.created)
    (asked : ∀ other, m.registered = some other → other ≤ client ∧ other ∈ m.disconnected) :
    Inv (m.register client state) := by
  have hpop := h.pop asked
  refine ⟨?_, hpop.client_lt, hpop.finishing, hpop.older, ?_⟩
  · intro c hc
    cases hc
    exact created_pop.symm ▸ lt
  · intro c hlt
    have howned := hpop.owned c hlt
    refine .inr (howned.resolve_left fun heq => ?_)
    cases registered_pop.symm.trans heq

/-- A start makes its client. -/
theorem Inv.connect (h : Inv m) {phone : String} (free : m.client? op = none) :
    Inv (m.connect op phone) := by
  constructor
  · exact fun client hreg => Nat.lt_succ_of_lt (h.registered_lt client hreg)
  · intro other client hclient
    by_cases heq : other = op
    · subst heq
      have hsome := client?_move.symm.trans hclient
      cases hsome
      exact Nat.lt_succ_self _
    · exact Nat.lt_succ_of_lt (h.client_lt other client ((client?_move_ne heq).symm.trans hclient))
  · intro other attempt account sessionString hphase
    by_cases heq : other = op
    · subst heq
      simp [Manager.connect, Manager.move] at hphase
    · refine h.finishing other attempt account sessionString ?_
      simpa [Manager.connect, Manager.move, Function.update_of_ne heq] using hphase
  · exact h.older
  · intro client hlt
    obtain hlt | rfl := Nat.lt_succ_iff_lt_or_eq.mp hlt
    · obtain hreg | hdis | ⟨other, hclient⟩ := h.owned client hlt
      · exact .inl hreg
      · exact .inr (.inl hdis)
      · have hne : other ≠ op := by
          rintro rfl
          cases free.symm.trans hclient
        exact .inr (.inr ⟨other, (client?_move_ne hne).trans hclient⟩)
    · exact .inr (.inr ⟨op, client?_move⟩)

/-- A submission that fails in turn cancels no newer attempt. -/
theorem Inv.fail (h : Inv m) {attempt : Nat} (free : m.client? op = none)
    (inTurn : ∀ other, m.registered = some other → other ≤ attempt) :
    Inv (m.fail op attempt) := by
  rw [Manager.fail]
  split
  · exact h.end free
  · rename_i target hreg
    refine (h.drop hreg (inTurn target hreg)).proceed ?_ rfl nofun
    exact client?_pop.trans free

end Moves

section Steps

variable {m m' : Manager} {op : Nat}

theorem Inv.call (h : Inv m) (idle : m.operations op = none) (operation : Operation) :
    Inv (m.call op operation) := by
  have free : m.client? op = none := by
    rw [Manager.client?, idle]
    rfl
  have hpop : ∀ attempt, (m.pop attempt).client? op = none := fun _ => client?_pop.trans free
  cases operation with
  | start phone =>
      dsimp only [Manager.call]
      split
      · exact h.connect free
      · rename_i stale hreg
        have hlt := h.registered_lt stale hreg
        exact (h.drop hreg (Nat.le_of_lt hlt)).proceed (hpop _) rfl nofun
  | cancel =>
      dsimp only [Manager.call]
      split
      · exact h.end free
      · rename_i attempt hreg
        exact (h.drop hreg (Nat.le_refl attempt)).proceed (hpop _) rfl nofun
  | resendCode =>
      dsimp only [Manager.call]
      split
      · exact h.end free
      · exact h.proceed free rfl nofun
  | pushDigit digit =>
      dsimp only [Manager.call]
      split
      · exact h.end free
      · split
        · exact h.edit.end free
        · exact h.end free
  | backspace =>
      dsimp only [Manager.call]
      split
      · exact h.end free
      · exact h.edit.end free
  | submitCode =>
      dsimp only [Manager.call]
      split
      · exact h.end free
      · split
        · exact h.end free
        · exact h.proceed free rfl nofun
  | submitPassword password =>
      dsimp only [Manager.call]
      split
      · exact h.end free
      · exact h.proceed free rfl nofun

/-- A start that gets its code registers the attempt. -/
theorem Inv.registered (h : Inv m) {phone phoneCodeHash : String} {client : Nat}
    (hphase : m.operations op = some (.requestingCode phone client))
    (inTurn : ∀ other, m.registered = some other → other < client ∧ other ∈ m.disconnected) :
    Inv ((m.register client { phone, phoneCodeHash }).answer op (.ok .done)) := by
  have hclient : m.client? op = some client := client?_of_phase hphase
  have hregister : Inv (m.register client { phone, phoneCodeHash }) :=
    h.register (h.client_lt op client hclient) fun other hreg =>
      (inTurn other hreg).imp_left Nat.le_of_lt
  refine hregister.answer fun c hc => ?_
  have hsame : (m.register client { phone, phoneCodeHash }).client? op = m.client? op :=
    client?_pop
  have heq : client = c := Option.some.inj (hclient.symm.trans (hsame.symm.trans hc))
  exact .inl (congrArg some heq)

/-- A start that gets no code lets its client go. -/
theorem Inv.givingUp (h : Inv m) {phone : String} {client : Nat} {error : ClientError}
    (hphase : m.operations op = some (.requestingCode phone client)) :
    Inv ((m.disconnect client client).move op (some (.givingUp error))) := by
  refine (h.disconnect (Nat.le_refl client)).move nofun nofun fun c hc => ?_
  have hclient : m.client? op = some client := client?_of_phase hphase
  have heq : client = c := Option.some.inj (hclient.symm.trans hc)
  exact .inr (.inl (heq ▸ List.mem_cons_self))

/-- A client that has connected stays in the hands of its start. -/
theorem Inv.requesting (h : Inv m) {phone : String} {client : Nat}
    (hphase : m.operations op = some (.connecting phone client)) :
    Inv (m.move op (some (.requestingCode phone client))) := by
  have hclient : m.client? op = some client := client?_of_phase hphase
  refine h.move ?_ nofun fun c hc => .inr (.inr (hclient.symm.trans hc))
  intro c hc
  exact h.client_lt op c (hclient.trans hc)

/-- A submission that succeeds in turn removes its own attempt, if any. -/
theorem Inv.finished (h : Inv m) {attempt : Nat} {account : AccountInfo} {sessionString : String}
    {result : Except LoginError Answer}
    (hphase : m.operations op = some (.finishing attempt account sessionString))
    (inTurn : ∀ other, m.registered = some other →
      other = attempt ∨ (other < attempt ∧ other ∈ m.disconnected)) :
    Inv ((m.pop attempt).answer op result) := by
  have hpop : Inv (m.pop attempt) := by
    refine h.pop fun other hreg => ?_
    cases inTurn other hreg with
    | inl heq =>
        subst heq
        exact ⟨Nat.le_refl other, h.finishing op other account sessionString hphase⟩
    | inr holder => exact ⟨Nat.le_of_lt holder.1, holder.2⟩
  exact hpop.end (client?_pop.trans (client?_of_phase hphase))

theorem Inv.resume (h : Inv m) {phase : Phase} {reply : Reply}
    (hphase : m.operations op = some phase) (inTurn : m.ReplyInTurn phase reply)
    (hresume : m.resume op phase reply = some m') : Inv m' := by
  have free : phase.client? = none → m.client? op = none := (client?_of_phase hphase).trans
  cases phase with
  | droppingStale phone => cases reply <;> cases hresume <;> exact h.connect (free rfl)
  | connecting phone client =>
      cases reply with
      | done =>
          cases hresume
          exact h.requesting hphase
      | raised error => exact inTurn.elim
      | sent _ => cases hresume
      | me _ _ => cases hresume
  | requestingCode phone client =>
      cases reply with
      | sent phoneCodeHash =>
          cases hresume
          exact h.registered hphase inTurn
      | raised error =>
          cases hresume
          exact h.givingUp hphase
      | done => cases hresume
      | me _ _ => cases hresume
  | givingUp error => cases reply <;> cases hresume <;> exact h.end (free rfl)
  | resending attempt =>
      cases reply with
      | sent phoneCodeHash =>
          cases hresume
          exact h.edit.end (free rfl)
      | raised error => cases error <;> cases hresume <;> exact h.end (free rfl)
      | done => cases hresume
      | me _ _ => cases hresume
  | cancelling => cases reply <;> cases hresume <;> exact h.end (free rfl)
  | signingIn attempt =>
      cases reply with
      | done =>
          cases hresume
          exact h.proceed (free rfl) rfl nofun
      | raised error =>
          cases error with
          | sessionPasswordNeeded =>
              cases hresume
              exact h.end (free rfl)
          | phoneCodeInvalid =>
              cases hresume
              exact h.edit.end (free rfl)
          | phoneCodeExpired =>
              cases hresume
              exact h.edit.end (free rfl)
          | _ =>
              cases hresume
              refine h.fail (free rfl) ?_
              simpa [Manager.ReplyInTurn] using inTurn
      | sent _ => cases hresume
      | me _ _ => cases hresume
  | checkingPassword attempt =>
      cases reply with
      | done =>
          cases hresume
          exact h.proceed (free rfl) rfl nofun
      | raised error =>
          cases error with
          | passwordHashInvalid =>
              cases hresume
              exact h.end (free rfl)
          | _ =>
              cases hresume
              refine h.fail (free rfl) ?_
              simpa [Manager.ReplyInTurn] using inTurn
      | sent _ => cases hresume
      | me _ _ => cases hresume
  | failing => cases reply <;> cases hresume <;> exact h.end (free rfl)
  | gettingMe attempt =>
      cases reply with
      | me account sessionString =>
          cases hresume
          refine (h.disconnect (Nat.le_refl attempt)).proceed (free rfl) rfl ?_
          intro a _ _ heq
          cases heq
          exact List.mem_cons_self
      | raised error =>
          cases hresume
          exact h.end (free rfl)
      | done => cases hresume
      | sent _ => cases hresume
  | finishing attempt account sessionString =>
      cases reply <;> cases hresume <;> exact h.finished hphase inTurn

/-- One step in turn. -/
theorem Inv.step (m : Manager) (action : Action) (m' : Manager) (h : Inv m)
    (inTurn : m.InTurn action) (hstep : m.step action = some m') : Inv m' := by
  cases action with
  | call op operation =>
      dsimp only [Manager.step] at hstep
      split at hstep
      · rename_i idle
        cases hstep
        exact h.call idle operation
      · cases hstep
  | resume op reply =>
      obtain ⟨phase, hphase, hresume⟩ := Option.bind_eq_some_iff.mp hstep
      exact h.resume hphase (inTurn phase hphase) hresume

theorem inv_initial : Inv Manager.initial where
  registered_lt := nofun
  client_lt := nofun
  finishing := nofun
  older := nofun
  owned := nofun

end Steps

/-- In a run whose cleanups are all in turn, no operation on an attempt touches a newer one, and
once no operation is in flight every client is registered or has been asked to disconnect. -/
theorem attempts_isolated {m : Manager} {actions : List Action}
    (inTurn : Meets Manager.step Manager.InTurn Manager.initial actions)
    (run : exec Manager.step Manager.initial actions = some m) :
    (∀ t ∈ m.touches, t.target ≤ t.attempt) ∧
      (m.Idle → ∀ client < m.created,
        m.registered = some client ∨ client ∈ m.disconnected) := by
  have h : Inv m := exec_invariant_of_meets Inv.step inv_initial inTurn run
  refine ⟨h.older, fun idle client hlt => ?_⟩
  refine (h.owned client hlt).imp_right fun howned => howned.resolve_right ?_
  rintro ⟨op, hclient⟩
  rw [Manager.client?, idle op] at hclient
  cases hclient

section Runs

/-- A login with the code 12345 on a fresh manager, up to the call of `sign_in`. -/
def firstLogin : List Action :=
  [.call 0 (.start "+1"), .resume 0 .done, .resume 0 (.sent "hash"), .call 0 (.pushDigit "1"),
    .call 0 (.pushDigit "2"), .call 0 (.pushDigit "3"), .call 0 (.pushDigit "4"),
    .call 0 (.pushDigit "5"), .call 0 .submitCode]

/-- The login succeeds before the user starts another one. -/
def logins : List Action :=
  firstLogin ++ [.resume 0 .done, .resume 0 (.me ⟨999, none, none, none⟩ "session"),
    .resume 0 .done, .call 1 (.start "+2"), .resume 1 .done, .resume 1 (.sent "hash")]

theorem logins_isolated : ∃ m, exec Manager.step Manager.initial logins = some m ∧
    m.registered = some 1 ∧ (∀ t ∈ m.touches, t.target ≤ t.attempt) ∧
      (m.Idle → ∀ client < m.created,
        m.registered = some client ∨ client ∈ m.disconnected) := by
  have hobserved : (exec Manager.step Manager.initial logins).map Manager.registered =
      some (some 1) := by
    decide +kernel
  obtain ⟨m, hrun, hregistered⟩ := Option.map_eq_some_iff.mp hobserved
  exact ⟨m, hrun, hregistered, attempts_isolated (by decide +kernel) hrun⟩

/-- The user starts again while `sign_in` is slow; that disconnects its client, and the error
cancels the new attempt. -/
def slowSignIn : List Action :=
  firstLogin ++ [.call 1 (.start "+2"), .resume 1 .done, .resume 1 .done, .resume 1 (.sent "hash"),
    .resume 0 (.raised .other)]

/-- A newer attempt is cancelled by an old submission; a client that does not connect leaks. -/
theorem attempts_not_isolated :
    (∃ m, exec Manager.step Manager.initial slowSignIn = some m ∧
      ¬∀ t ∈ m.touches, t.target ≤ t.attempt) ∧
    ∃ m, exec Manager.step Manager.initial
        [.call 0 (.start "+1"), .resume 0 (.raised .other)] = some m ∧ m.Idle ∧
      ¬∀ client < m.created, m.registered = some client ∨ client ∈ m.disconnected := by
  constructor
  · have hobserved : (exec Manager.step Manager.initial slowSignIn).map
        (fun m => decide (⟨0, 1⟩ ∈ m.touches)) = some true := by
      decide +kernel
    obtain ⟨m, hrun, htouch⟩ := Option.map_eq_some_iff.mp hobserved
    refine ⟨m, hrun, fun h => ?_⟩
    have hle := h _ (of_decide_eq_true htouch)
    exact absurd hle (by decide)
  · refine ⟨_, rfl, fun op => ?_, fun h => ?_⟩
    · by_cases hop : op = 0
      · subst hop
        rfl
      · simp [Manager.answer, Manager.move, Manager.connect,
          Manager.call, Manager.initial]
    · have hclient := h 0 (by decide)
      revert hclient
      decide

end Runs

end UserTgBot.Login
