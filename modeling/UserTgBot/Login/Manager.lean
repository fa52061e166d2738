import Mathlib.Data.Nat.Basic
import Mathlib.Logic.Function.Basic
import UserTgBot.Library.Transition

/-!
# The login manager

`management_bot/login.py` for one user. `LoginManager` keeps the state of the login attempt in a
registry keyed by the user, and its operations give way at every call of a Telethon client. So
an operation is a phase that waits for the reply of one call; between two replies operations of
the same user may interleave in any way.

An attempt is numbered by its client, in the order in which the factory has made the clients.
States are objects: an operation that has looked one up keeps it, registered or not.
-/

namespace UserTgBot.Login

def CODE_LENGTH : Nat := 5

structure AccountInfo where
  userId : Int
  username : Option String
  firstName : Option String
  lastName : Option String
deriving DecidableEq

structure LoginResult where
  status : String
  phone : Option String := none
  sessionString : Option String := none
  account : Option AccountInfo := none
deriving DecidableEq

/-- What a call of the client raises, as far as the manager tells it apart. -/
inductive ClientError where
  | sendCodeUnavailable
  | sessionPasswordNeeded
  | phoneCodeInvalid
  | phoneCodeExpired
  | passwordHashInvalid
  | other
deriving DecidableEq

/-- What an operation raises: a `LoginError`, or what the client has raised. -/
inductive LoginError where
  | base
  | codeTooShort
  | invalidCode
  | wrongPassword
  | noActiveLogin
  | noMoreDeliveryOptions
  | client (error : ClientError)
deriving DecidableEq

inductive Answer where
  | done
  | code (code : String)
  | login (result : LoginResult)
deriving DecidableEq

/-- `_LoginState`; the number of the attempt stands for the client. -/
structure LoginState where
  phone : String
  phoneCodeHash : String
  code : String := ""
deriving DecidableEq

inductive Operation where
  | start (phone : String)
  | resendCode
  | cancel
  | pushDigit (digit : String)
  | backspace
  | submitCode
  | submitPassword (password : String)
deriving DecidableEq

/-- The await an operation is suspended at. -/
inductive Phase where
  /-- `start`, while a stale client disconnects. -/
  | droppingStale (phone : String)
  | connecting (phone : String) (client : Nat)
  | requestingCode (phone : String) (client : Nat)
  /-- `start`, while its own client disconnects after a failure. -/
  | givingUp (error : ClientError)
  | resending (attempt : Nat)
  | cancelling
  | signingIn (attempt : Nat)
  | checkingPassword (attempt : Nat)
  /-- A submission that has failed, while `cancel` disconnects. -/
  | failing
  | gettingMe (attempt : Nat)
  | finishing (attempt : Nat) (account : AccountInfo) (sessionString : String)
deriving DecidableEq

/-- How a call of a client ends. -/
inductive Reply where
  | done
  | sent (phoneCodeHash : String)
  /-- `get_me`, along with what `session.save` then returns. -/
  | me (account : AccountInfo) (sessionString : String)
  | raised (error : ClientError)
deriving DecidableEq

/-- An operation on one attempt removes, disconnects or edits another or the same one. -/
structure Touch where
  attempt : Nat
  target : Nat
deriving DecidableEq

structure Manager where
  /-- How many clients the factory has made. -/
  created : Nat
  registered : Option Nat
  states : Nat → LoginState
  /-- The clients that have been asked to disconnect. -/
  disconnected : List Nat
  operations : Nat → Option Phase
  touches : List Touch
  answers : List (Nat × Except LoginError Answer)

def Manager.initial : Manager where
  created := 0
  registered := none
  states := fun _ => { phone := "", phoneCodeHash := "" }
  disconnected := []
  operations := fun _ => none
  touches := []
  answers := []

inductive Action where
  | call (op : Nat) (operation : Operation)
  | resume (op : Nat) (reply : Reply)
deriving DecidableEq

namespace Manager

/-- The operation goes on to wait, or is over. -/
def move (m : Manager) (op : Nat) (next : Option Phase) : Manager :=
  { m with operations := Function.update m.operations op next }

def answer (m : Manager) (op : Nat) (result : Except LoginError Answer) : Manager :=
  { m.move op none with answers := (op, result) :: m.answers }

/-- Ask the client of the target to disconnect. -/
def disconnect (m : Manager) (attempt target : Nat) : Manager :=
  { m with
    disconnected := target :: m.disconnected
    touches := ⟨attempt, target⟩ :: m.touches }

/-- `self._states.pop(user_id, None)`. -/
def pop (m : Manager) (attempt : Nat) : Manager :=
  match m.registered with
  | none => m
  | some target => { m with registered := none, touches := ⟨attempt, target⟩ :: m.touches }

/-- Assign fields of the state object of the attempt. -/
def edit (m : Manager) (attempt : Nat) (change : LoginState → LoginState) : Manager :=
  { m with
    states := Function.update m.states attempt (change (m.states attempt))
    touches := ⟨attempt, attempt⟩ :: m.touches }

/-- `self._states[user_id] = _LoginState(...)`. -/
def register (m : Manager) (client : Nat) (state : LoginState) : Manager :=
  { m.pop client with
    registered := some client
    states := Function.update m.states client state }

/-- `start` after its initial `cancel`. -/
def connect (m : Manager) (op : Nat) (phone : String) : Manager :=
  { m with created := m.created + 1 }.move op (some (.connecting phone m.created))

/-- The part of a submission that follows an unexpected error: `cancel`, then raise. -/
def fail (m : Manager) (op attempt : Nat) : Manager :=
  match m.registered with
  | none => m.answer op (.error .base)
  | some target => ((m.pop attempt).disconnect attempt target).move op (some .failing)

/-- An operation runs up to its first await. -/
def call (m : Manager) (op : Nat) : Operation → Manager
  | .start phone =>
      match m.registered with
      | none => m.connect op phone
      -- the client of the new attempt is not made yet
      | some stale =>
          ((m.pop m.created).disconnect m.created stale).move op (some (.droppingStale phone))
  | .cancel =>
      match m.registered with
      | none => m.answer op (.ok .done)
      | some attempt => ((m.pop attempt).disconnect attempt attempt).move op (some .cancelling)
  | .resendCode =>
      match m.registered with
      | none => m.answer op (.error .noActiveLogin)
      | some attempt => m.move op (some (.resending attempt))
  | .pushDigit digit =>
      match m.registered with
      | none => m.answer op (.error .noActiveLogin)
      | some attempt =>
          let code := (m.states attempt).code
          if code.length < CODE_LENGTH then
            (m.edit attempt fun state => { state with code := code ++ digit }).answer op
              (.ok (.code (code ++ digit)))
          else m.answer op (.ok (.code code))
  | .backspace =>
      match m.registered with
      | none => m.answer op (.error .noActiveLogin)
      | some attempt =>
          let code := String.ofList (m.states attempt).code.toList.dropLast
          (m.edit attempt fun state => { state with code }).answer op (.ok (.code code))
  | .submitCode =>
      match m.registered with
      | none => m.answer op (.error .noActiveLogin)
      | some attempt =>
          if (m.states attempt).code.length < CODE_LENGTH then m.answer op (.error .codeTooShort)
          else m.move op (some (.signingIn attempt))
  | .submitPassword _ =>
      match m.registered with
      | none => m.answer op (.error .noActiveLogin)
      | some attempt => m.move op (some (.checkingPassword attempt))

/-- An operation gets the reply it waits for and runs up to its next await. -/
def resume (m : Manager) (op : Nat) : Phase → Reply → Option Manager
  | .droppingStale phone, .done => some (m.connect op phone)
  | .droppingStale phone, .raised _ => some (m.connect op phone)
  | .connecting phone client, .done => some (m.move op (some (.requestingCode phone client)))
  | .connecting _ _, .raised error => some (m.answer op (.error (.client error)))
  | .requestingCode phone client, .sent phoneCodeHash =>
      some ((m.register client { phone, phoneCodeHash }).answer op (.ok .done))
  | .requestingCode _ client, .raised error =>
      some ((m.disconnect client client).move op (some (.givingUp error)))
  | .givingUp error, .done => some (m.answer op (.error (.client error)))
  | .givingUp error, .raised _ => some (m.answer op (.error (.client error)))
  | .resending attempt, .sent phoneCodeHash =>
      some ((m.edit attempt fun state => { state with phoneCodeHash, code := "" }).answer op
        (.ok .done))
  | .resending _, .raised .sendCodeUnavailable =>
      some (m.answer op (.error .noMoreDeliveryOptions))
  | .resending _, .raised error => some (m.answer op (.error (.client error)))
  | .cancelling, .done => some (m.answer op (.ok .done))
  | .cancelling, .raised _ => some (m.answer op (.ok .done))
  | .signingIn attempt, .done => some (m.move op (some (.gettingMe attempt)))
  | .signingIn attempt, .raised .sessionPasswordNeeded =>
      some (m.answer op (.ok (.login
        { status := "needs_password", phone := some (m.states attempt).phone })))
  | .signingIn attempt, .raised .phoneCodeInvalid =>
      some ((m.edit attempt fun state => { state with code := "" }).answer op (.error .invalidCode))
  | .signingIn attempt, .raised .phoneCodeExpired =>
      some ((m.edit attempt fun state => { state with code := "" }).answer op (.error .invalidCode))
  | .signingIn attempt, .raised _ => some (m.fail op attempt)
  | .checkingPassword attempt, .done => some (m.move op (some (.gettingMe attempt)))
  | .checkingPassword _, .raised .passwordHashInvalid =>
      some (m.answer op (.error .wrongPassword))
  | .checkingPassword attempt, .raised _ => some (m.fail op attempt)
  | .failing, .done => some (m.answer op (.error .base))
  | .failing, .raised _ => some (m.answer op (.error .base))
  | .gettingMe attempt, .me account sessionString =>
      some ((m.disconnect attempt attempt).move op
        (some (.finishing attempt account sessionString)))
  | .gettingMe _, .raised error => some (m.answer op (.error (.client error)))
  | .finishing attempt account sessionString, .done =>
      some ((m.pop attempt).answer op (.ok (.login
        { status := "success", phone := some (m.states attempt).phone,
          sessionString := some sessionString, account := some account })))
  | .finishing attempt account sessionString, .raised _ =>
      some ((m.pop attempt).answer op (.ok (.login
        { status := "success", phone := some (m.states attempt).phone,
          sessionString := some sessionString, account := some account })))
  | _, _ => none

/-- One step of one operation. A number that is not in use names a new operation. -/
def step (m : Manager) : Action → Option Manager
  | .call op operation => if m.operations op = none then some (m.call op operation) else none
  | .resume op reply => (m.operations op).bind fun phase => m.resume op phase reply

end Manager

end UserTgBot.Login
