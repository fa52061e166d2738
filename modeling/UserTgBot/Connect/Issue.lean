import UserTgBot.Connect.Tokens
import UserTgBot.Library.OrderBy
import UserTgBot.Library.Transition

/-!
# Issuing connect tokens

`cmd_connect` with the two handlers that take a phone number, and `create_token`. Updates are
handled as concurrent tasks. A handler looks for a pending attempt in one transaction, for a
known phone in another, and checks the rate limit and inserts the token in a third; where no
phone is known, the chat waits for one and a later handler goes on without looking again.

Every read sees what has been committed when it is made, so each guard speaks about the
tokens committed before it. What it does not speak about is committed between the guard and
the commit of the handler's own token, and `issued_apart_iff` says that nothing else matters.
The Mini App is configured, since tokens are not used without it.
-/

namespace UserTgBot.Issue

open Transition

/-- The chat and the user that an update comes from. The token is issued to the chat, which in
a private chat has the id of the user; the dialogue state is kept per pair. -/
structure Context where
  chatId : Int
  userId : Int
deriving DecidableEq, Repr

def DEFAULT_TTL_MINUTES : Int := 15
def DEFAULT_RATE_LIMIT_SECONDS : Int := 60

/-- Microseconds in a second. -/
def second : Int := 1000000

/-! ## Statements -/

/-- `get_active_token` over the committed rows. -/
def getActiveToken (tokens : List ConnectToken) (telegramId : Int) (now : DateTime) :
    Option ConnectToken :=
  (OrderBy.sortDesc ConnectToken.expiresAt
    (tokens.filter fun row => row.telegramId = telegramId ∧ row.IsValid now)).head?

/-- `check_rate_limit` over the committed rows. -/
def checkRateLimit (tokens : List ConnectToken) (telegramId : Int) (now : DateTime) : Bool :=
  match (OrderBy.sortDesc ConnectToken.createdAt
      (tokens.filter fun row => row.telegramId = telegramId)).head? with
  | none => true
  | some latest => DEFAULT_RATE_LIMIT_SECONDS * second ≤ now - latest.createdAt

/-- The row that `create_token` adds. -/
def newToken (context : Context) (phone : String) (now : DateTime) : ConnectToken where
  telegramId := context.chatId
  chatId := context.chatId
  messageId := none
  phone := phone
  expiresAt := now + DEFAULT_TTL_MINUTES * 60 * second
  usedAt := none
  expiryNotifiedAt := none
  createdAt := now

/-! ## Handlers -/

/-- How far a handler has come. `checked` is how many tokens had been committed when the
pending attempt was looked for, `rated` how many when the rate limit was checked; the code
does not have these numbers, they only name the snapshots. -/
inductive Phase where
  | begun
  | checking (now : DateTime)
  | foundPending
  | passed (checked : Nat)
  | asking (checked : Nat)
  | dispatching (checked : Nat) (phone : String)
  | starting (checked : Nat) (phone : String)
  | creating (checked : Nat) (phone : String) (now : DateTime)
  | allowed (checked : Nat) (phone : String) (now : DateTime) (rated : Nat)
  | inserted (checked rated : Nat) (row : ConnectToken)
deriving DecidableEq, Repr

structure Handler where
  context : Context
  phase : Phase
deriving DecidableEq, Repr

/-- `tokens` are the committed rows in the order of their commits. `waiting` tells which
dialogues are in `waiting_for_phone`, with the snapshot of the handler that put them there. -/
structure State where
  now : DateTime
  tokens : List ConnectToken := []
  waiting : Context → Option Nat := fun _ => none
  handlers : Nat → Option Handler := fun _ => none

/-- Time passes, an update starts a handler, a handler makes its next step, a handler fails,
or a Mini App login commits its `consume_token`, which has read the clock before. -/
inductive Action where
  | tick (microseconds : Nat)
  | command (id : Nat) (context : Context)
  | phone (id : Nat) (context : Context) (phone : String)
  | advance (id : Nat) (knownPhone : Option String)
  | abort (id : Nat)
  | consume (token : Nat) (now : DateTime)
deriving DecidableEq, Repr

namespace State

def setPhase (s : State) (id : Nat) (context : Context) (phase : Phase) : State :=
  { s with handlers := Function.update s.handlers id (some ⟨context, phase⟩) }

/-- The handler returns. -/
def finish (s : State) (id : Nat) : State :=
  { s with handlers := Function.update s.handlers id none }

/-- `state.clear()` or `state.set_state(waiting_for_phone)`. -/
def setWaiting (s : State) (context : Context) (checked : Option Nat) : State :=
  { s with waiting := Function.update s.waiting context checked }

end State

/-- The next step of a handler. `knownPhone` is what `get_last_known_phone` answers. -/
def advance (s : State) (id : Nat) (knownPhone : Option String) (context : Context) :
    Phase → State
  | .begun => s.setPhase id context (.checking s.now)
  | .checking now =>
      match getActiveToken s.tokens context.chatId now with
      | some _ => s.setPhase id context .foundPending
      | none => s.setPhase id context (.passed s.tokens.length)
  | .foundPending => (s.setWaiting context none).finish id
  | .passed checked =>
      match knownPhone with
      | some phone => s.setPhase id context (.dispatching checked phone)
      | none => s.setPhase id context (.asking checked)
  | .asking checked => (s.setWaiting context (some checked)).finish id
  | .dispatching checked phone =>
      (s.setWaiting context none).setPhase id context (.starting checked phone)
  | .starting checked phone => s.setPhase id context (.creating checked phone s.now)
  | .creating checked phone now =>
      if checkRateLimit s.tokens context.chatId now then
        s.setPhase id context (.allowed checked phone now s.tokens.length)
      else s.finish id
  | .allowed checked phone now rated =>
      s.setPhase id context (.inserted checked rated (newToken context phone now))
  | .inserted _ _ row => { s.finish id with tokens := s.tokens ++ [row] }

def step (s : State) : Action → Option State
  | .tick microseconds => some { s with now := s.now + microseconds }
  | .command id context =>
      if s.handlers id = none then some (s.setPhase id context .begun) else none
  | .phone id context phone =>
      match s.handlers id, s.waiting context with
      | none, some checked => some (s.setPhase id context (.dispatching checked phone))
      | _, _ => none
  | .advance id knownPhone =>
      (s.handlers id).map fun handler => advance s id knownPhone handler.context handler.phase
  | .abort id => (s.handlers id).map fun _ => s.finish id
  | .consume token now =>
      (s.tokens[token]?).bind fun row =>
        if now ≤ s.now ∧ row.IsValid now then
          some { s with tokens := s.tokens.set token { row with usedAt := some now } }
        else none

/-! ## What is wanted -/

/-- No two tokens of one user are live. -/
def OneLive (s : State) : Prop :=
  s.tokens.Pairwise fun row other => row.telegramId = other.telegramId →
    ¬ (row.IsValid s.now ∧ other.IsValid s.now)

/-- Two times of issue that the rate limit keeps apart. -/
def Apart (a b : DateTime) : Prop :=
  DEFAULT_RATE_LIMIT_SECONDS * second ≤ a - b ∨ DEFAULT_RATE_LIMIT_SECONDS * second ≤ b - a

instance (a b : DateTime) : Decidable (Apart a b) := inferInstanceAs (Decidable (_ ∨ _))

/-- Any two tokens of one user were issued at different enough times. -/
def Spaced (s : State) : Prop :=
  s.tokens.Pairwise fun row other => row.telegramId = other.telegramId →
    Apart row.createdAt other.createdAt

/-- When a handler commits a token that is still live, none is live that was committed after
the handler, or the one that asked for the phone, looked for a pending attempt; and none that
was committed after it checked the rate limit was issued within a minute of its own. -/
def Undisturbed (s : State) : Action → Prop
  | .advance id _ =>
      match (s.handlers id).map Handler.phase with
      | some (.inserted checked rated row) =>
          (∀ other ∈ s.tokens.drop checked, other.telegramId = row.telegramId →
            ¬ (other.IsValid s.now ∧ row.IsValid s.now)) ∧
          ∀ other ∈ s.tokens.drop rated, other.telegramId = row.telegramId →
            Apart other.createdAt row.createdAt
      | _ => True
  | _ => True

/-! ## What the guards know -/

/-- A later version of a row: it may have been used meanwhile. -/
structure Later (row' row : ConnectToken) : Prop where
  telegramId : row'.telegramId = row.telegramId
  createdAt : row'.createdAt = row.createdAt
  valid : ∀ now, row'.IsValid now → row.IsValid now

theorem Later.refl (row : ConnectToken) : Later row row := ⟨rfl, rfl, fun _ h => h⟩

theorem valid_mono {row : ConnectToken} {now now' : DateTime} (le : now ≤ now')
    (h : row.IsValid now') : row.IsValid now := ⟨h.1, Int.lt_of_le_of_lt le h.2⟩

/-- Time has passed, rows may have been used and new ones committed. -/
structure Aged (s t : State) : Prop where
  now : s.now ≤ t.now
  length : s.tokens.length ≤ t.tokens.length
  rows : List.Forall₂ Later (t.tokens.take s.tokens.length) s.tokens

/-- None of the first `count` tokens of the user is live. -/
def Dead (s : State) (context : Context) (count : Nat) : Prop :=
  count ≤ s.tokens.length ∧ ∀ row ∈ s.tokens.take count,
    row.telegramId = context.chatId → ¬ row.IsValid s.now

/-- The first `count` tokens of the user were issued at least a minute before. -/
def Rated (s : State) (context : Context) (now : DateTime) (count : Nat) : Prop :=
  count ≤ s.tokens.length ∧ ∀ row ∈ s.tokens.take count, row.telegramId = context.chatId →
    DEFAULT_RATE_LIMIT_SECONDS * second ≤ now - row.createdAt

/-- What a handler has established when it has come this far. -/
def PhaseInv (s : State) (context : Context) : Phase → Prop
  | .begun => True
  | .checking now => now ≤ s.now
  | .foundPending => True
  | .passed checked => Dead s context checked
  | .asking checked => Dead s context checked
  | .dispatching checked _ => Dead s context checked
  | .starting checked _ => Dead s context checked
  | .creating checked _ _ => Dead s context checked
  | .allowed checked _ now rated => Dead s context checked ∧ Rated s context now rated
  | .inserted checked rated row =>
      Dead s context checked ∧ Rated s context row.createdAt rated ∧
        row.telegramId = context.chatId

structure Inv (s : State) : Prop where
  handlers : ∀ id handler, s.handlers id = some handler →
    PhaseInv s handler.context handler.phase
  waiting : ∀ context checked, s.waiting context = some checked → Dead s context checked

theorem forall₂_later_refl (rows : List ConnectToken) : List.Forall₂ Later rows rows := by
  induction rows with
  | nil => exact .nil
  | cons row rows ih => exact .cons (Later.refl row) ih

theorem forall₂_later_set {rows : List ConnectToken} {i : Nat} {row row' : ConnectToken}
    (hrow : rows[i]? = some row) (later : Later row' row) :
    List.Forall₂ Later (rows.set i row') rows := by
  induction rows generalizing i with
  | nil => cases hrow
  | cons first rows ih =>
      cases i with
      | zero =>
          cases hrow
          exact .cons later (forall₂_later_refl rows)
      | succ i => exact .cons (Later.refl first) (ih hrow)

theorem Aged.of_same {s t : State} (now : t.now = s.now) (tokens : t.tokens = s.tokens) :
    Aged s t where
  now := Int.le_of_eq now.symm
  length := Nat.le_of_eq (congrArg List.length tokens.symm)
  rows := by
    rw [tokens, List.take_length]
    exact forall₂_later_refl s.tokens

/-- The version that a row of the prefix had before. -/
theorem Aged.exists_row {s t : State} (aged : Aged s t) {count : Nat}
    (le : count ≤ s.tokens.length) {row' : ConnectToken} (h : row' ∈ t.tokens.take count) :
    ∃ row ∈ s.tokens.take count, Later row' row := by
  have hrows := List.forall₂_take count aged.rows
  rw [List.take_take, Nat.min_eq_left le] at hrows
  obtain ⟨i, hi, rfl⟩ := List.mem_iff_getElem.mp h
  have hlength := hrows.length_eq
  exact ⟨_, List.getElem_mem (hlength ▸ hi), hrows.get hi (hlength ▸ hi)⟩

theorem Dead.aged {s t : State} {context : Context} {count : Nat} (h : Dead s context count)
    (aged : Aged s t) : Dead t context count := by
  refine ⟨Nat.le_trans h.1 aged.length, fun row' hrow' hown hvalid => ?_⟩
  obtain ⟨row, hrow, hlater⟩ := aged.exists_row h.1 hrow'
  exact h.2 row hrow (hlater.telegramId ▸ hown)
    (hlater.valid s.now (valid_mono aged.now hvalid))

theorem Rated.aged {s t : State} {context : Context} {now : DateTime} {count : Nat}
    (h : Rated s context now count) (aged : Aged s t) : Rated t context now count := by
  refine ⟨Nat.le_trans h.1 aged.length, fun row' hrow' hown => ?_⟩
  obtain ⟨row, hrow, hlater⟩ := aged.exists_row h.1 hrow'
  rw [hlater.createdAt]
  exact h.2 row hrow (hlater.telegramId ▸ hown)

theorem PhaseInv.aged {s t : State} {context : Context} {phase : Phase}
    (h : PhaseInv s context phase) (aged : Aged s t) : PhaseInv t context phase := by
  cases phase with
  | begun => trivial
  | checking now => exact Int.le_trans h aged.now
  | foundPending => trivial
  | passed checked => exact Dead.aged h aged
  | asking checked => exact Dead.aged h aged
  | dispatching checked phone => exact Dead.aged h aged
  | starting checked phone => exact Dead.aged h aged
  | creating checked phone now => exact Dead.aged h aged
  | allowed checked phone now rated => exact ⟨h.1.aged aged, h.2.aged aged⟩
  | inserted checked rated row => exact ⟨h.1.aged aged, h.2.1.aged aged, h.2.2⟩

/-- What has not been touched is still established. -/
theorem Inv.aged {s t : State} (h : Inv s) (aged : Aged s t)
    (handlers : ∀ id handler, t.handlers id = some handler →
      s.handlers id = some handler ∨ PhaseInv t handler.context handler.phase)
    (waiting : ∀ context checked, t.waiting context = some checked →
      s.waiting context = some checked ∨ Dead t context checked) : Inv t where
  handlers := by
    intro id handler hid
    cases handlers id handler hid with
    | inl hsame => exact (h.handlers id handler hsame).aged aged
    | inr hphase => exact hphase
  waiting := by
    intro context checked hwaiting
    cases waiting context checked hwaiting with
    | inl hsame => exact (h.waiting context checked hsame).aged aged
    | inr hdead => exact hdead

section Steps

variable {s : State} {id : Nat} {context : Context} {phase : Phase}

theorem Inv.setPhase (h : Inv s) (established : PhaseInv s context phase) :
    Inv (s.setPhase id context phase) := by
  refine h.aged (.of_same rfl rfl) (fun other handler hother => ?_) fun _ _ hw => .inl hw
  change Function.update s.handlers id (some ⟨context, phase⟩) other = some handler at hother
  by_cases heq : other = id
  · rw [heq, Function.update_self] at hother
    cases hother
    exact .inr (established.aged (.of_same rfl rfl))
  · rw [Function.update_of_ne heq] at hother
    exact .inl hother

/-- The handlers that are left when one returns were there before. -/
theorem of_finish {other : Nat} {handler : Handler}
    (h : (s.finish id).handlers other = some handler) : s.handlers other = some handler := by
  change Function.update s.handlers id none other = some handler at h
  by_cases heq : other = id
  · rw [heq, Function.update_self] at h
    cases h
  · rwa [Function.update_of_ne heq] at h

theorem Inv.finish (h : Inv s) : Inv (s.finish id) :=
  h.aged (.of_same rfl rfl) (fun _ _ hother => .inl (of_finish hother)) fun _ _ hw => .inl hw

theorem Inv.setWaiting (h : Inv s) {value : Option Nat}
    (established : ∀ checked ∈ value, Dead s context checked) :
    Inv (s.setWaiting context value) := by
  refine h.aged (.of_same rfl rfl) (fun _ _ hid => .inl hid) fun other checked hother => ?_
  change Function.update s.waiting context value other = some checked at hother
  by_cases heq : other = context
  · rw [heq, Function.update_self] at hother
    rw [heq]
    exact .inr ((established checked hother).aged (.of_same rfl rfl))
  · rw [Function.update_of_ne heq] at hother
    exact .inl hother

theorem Inv.clear (h : Inv s) : Inv (s.setWaiting context none) :=
  h.setWaiting fun _ hchecked => by cases hchecked

theorem aged_commit (s : State) (id : Nat) (row : ConnectToken) :
    Aged s { s.finish id with tokens := s.tokens ++ [row] } where
  now := Int.le_refl _
  length := by simp
  rows := by
    show List.Forall₂ Later ((s.tokens ++ [row]).take s.tokens.length) s.tokens
    rw [List.take_left]
    exact forall₂_later_refl s.tokens

theorem Inv.commit (h : Inv s) (row : ConnectToken) :
    Inv { s.finish id with tokens := s.tokens ++ [row] } :=
  h.aged (aged_commit s id row) (fun _ _ hother => .inl (of_finish hother)) fun _ _ hw => .inl hw

/-- Without a pending attempt, all tokens so far are dead. -/
theorem dead_of_getActiveToken {now : DateTime} (le : now ≤ s.now)
    (h : getActiveToken s.tokens context.chatId now = none) :
    Dead s context s.tokens.length := by
  have hnone := (OrderBy.desc_sortDesc _ _).head?_eq_none.mp h
  refine ⟨Nat.le_refl _, fun row hrow hown hvalid => ?_⟩
  rw [List.take_length] at hrow
  have hfilter := List.filter_eq_nil_iff.mp hnone row hrow
  exact hfilter (decide_eq_true ⟨hown, valid_mono le hvalid⟩)

/-- Within the rate limit, all tokens so far are old enough. -/
theorem rated_of_checkRateLimit {now : DateTime}
    (h : checkRateLimit s.tokens context.chatId now = true) :
    Rated s context now s.tokens.length := by
  refine ⟨Nat.le_refl _, fun row hrow hown => ?_⟩
  rw [List.take_length] at hrow
  have hmem : row ∈ s.tokens.filter fun row => row.telegramId = context.chatId :=
    List.mem_filter.mpr ⟨hrow, decide_eq_true hown⟩
  have hdesc := OrderBy.desc_sortDesc ConnectToken.createdAt
    (s.tokens.filter fun row => row.telegramId = context.chatId)
  rw [checkRateLimit] at h
  split at h
  · next hnone =>
      rw [hdesc.head?_eq_none.mp hnone] at hmem
      cases hmem
  · next latest hlatest =>
      have hmax : row.createdAt ≤ latest.createdAt := (hdesc.head?_max hlatest).2 row hmem
      have hlimit := of_decide_eq_true h
      exact Int.le_trans hlimit (Int.sub_le_sub_left hmax now)

theorem Inv.advance (h : Inv s) (knownPhone : Option String)
    (established : PhaseInv s context phase) :
    Inv (Issue.advance s id knownPhone context phase) := by
  cases phase with
  | begun => exact h.setPhase (Int.le_refl s.now)
  | checking now =>
      rw [Issue.advance]
      split
      · exact h.setPhase trivial
      · next hnone => exact h.setPhase (dead_of_getActiveToken established hnone)
  | foundPending => exact h.clear.finish
  | passed checked =>
      cases knownPhone with
      | none => exact h.setPhase established
      | some phone => exact h.setPhase established
  | asking checked =>
      refine (h.setWaiting fun checked' hchecked' => ?_).finish
      cases hchecked'
      exact established
  | dispatching checked phone => exact h.clear.setPhase established
  | starting checked phone => exact h.setPhase established
  | creating checked phone now =>
      rw [Issue.advance]
      split
      · next hallowed => exact h.setPhase ⟨established, rated_of_checkRateLimit hallowed⟩
      · exact h.finish
  | allowed checked phone now rated => exact h.setPhase ⟨established.1, established.2, rfl⟩
  | inserted checked rated row => exact h.commit row

end Steps

/-! ## Steps of the other parties -/

theorem aged_tick (s : State) (microseconds : Nat) :
    Aged s { s with now := s.now + microseconds } where
  now := Int.le_add_of_nonneg_right (Int.natCast_nonneg microseconds)
  length := Nat.le_refl _
  rows := by
    rw [List.take_length]
    exact forall₂_later_refl s.tokens

theorem later_consumed (row : ConnectToken) (now : DateTime) :
    Later { row with usedAt := some now } row := ⟨rfl, rfl, fun _ h => absurd h.1 nofun⟩

theorem aged_consume {s : State} {token : Nat} {row : ConnectToken} (now : DateTime)
    (hrow : s.tokens[token]? = some row) :
    Aged s { s with tokens := s.tokens.set token { row with usedAt := some now } } where
  now := Int.le_refl _
  length := Nat.le_of_eq List.length_set.symm
  rows := by
    show List.Forall₂ Later ((s.tokens.set token _).take s.tokens.length) s.tokens
    rw [List.take_of_length_le (Nat.le_of_eq List.length_set)]
    exact forall₂_later_set hrow (later_consumed row now)

theorem Inv.step {s t : State} {a : Action} (h : Inv s) (hstep : Issue.step s a = some t) :
    Inv t := by
  cases a with
  | tick microseconds =>
      cases hstep
      exact h.aged (aged_tick s microseconds) (fun _ _ hid => .inl hid) fun _ _ hw => .inl hw
  | command id context =>
      rw [Issue.step] at hstep
      split at hstep
      · cases hstep
        exact h.setPhase trivial
      · cases hstep
  | phone id context phone =>
      rw [Issue.step] at hstep
      split at hstep
      · next checked _ hwaiting =>
          cases hstep
          exact h.setPhase (h.waiting context checked hwaiting)
      · cases hstep
  | advance id knownPhone =>
      obtain ⟨handler, hid, rfl⟩ := Option.map_eq_some_iff.mp hstep
      exact h.advance knownPhone (h.handlers id handler hid)
  | abort id =>
      obtain ⟨handler, hid, rfl⟩ := Option.map_eq_some_iff.mp hstep
      exact h.finish
  | consume token now =>
      obtain ⟨row, hrow, hguard⟩ := Option.bind_eq_some_iff.mp hstep
      split at hguard
      · cases hguard
        exact h.aged (aged_consume now hrow) (fun _ _ hid => .inl hid) fun _ _ hw => .inl hw
      · cases hguard

theorem inv_start (now : DateTime) : Inv { now := now } where
  handlers := fun _ _ h => by cases h
  waiting := fun _ _ h => by cases h

/-! ## Live tokens and times of issue -/

theorem pairwise_of_forall₂ {R R' : ConnectToken → ConnectToken → Prop}
    {rows rows' : List ConnectToken} (later : List.Forall₂ Later rows' rows)
    (keep : ∀ row row' other other', Later row' row → Later other' other → R row other →
      R' row' other') (h : rows.Pairwise R) : rows'.Pairwise R' := by
  induction later with
  | nil => exact .nil
  | @cons row' row rows' rows hrow hrows ih =>
      rw [List.pairwise_cons] at h
      refine List.pairwise_cons.mpr ⟨fun other' hother' => ?_, ih h.2⟩
      obtain ⟨i, hi, rfl⟩ := List.mem_iff_getElem.mp hother'
      have hi' : i < rows.length := hrows.length_eq ▸ hi
      exact keep row row' _ _ hrow (hrows.get hi hi') (h.1 _ (List.getElem_mem hi'))

/-- Without a new row nothing gets worse. -/
theorem OneLive.aged {s t : State} (h : OneLive s) (aged : Aged s t)
    (length : t.tokens.length = s.tokens.length) : OneLive t := by
  have hrows := aged.rows
  rw [List.take_of_length_le (Nat.le_of_eq length)] at hrows
  refine pairwise_of_forall₂ hrows (fun row row' other other' hrow hother hpair hown => ?_) h
  rintro ⟨hvalid, hvalid'⟩
  rw [hrow.telegramId, hother.telegramId] at hown
  exact hpair hown ⟨hrow.valid s.now (valid_mono aged.now hvalid),
    hother.valid s.now (valid_mono aged.now hvalid')⟩

theorem Spaced.aged {s t : State} (h : Spaced s) (aged : Aged s t)
    (length : t.tokens.length = s.tokens.length) : Spaced t := by
  have hrows := aged.rows
  rw [List.take_of_length_le (Nat.le_of_eq length)] at hrows
  refine pairwise_of_forall₂ hrows (fun row row' other other' hrow hother hpair hown => ?_) h
  rw [hrow.telegramId, hother.telegramId] at hown
  rw [hrow.createdAt, hother.createdAt]
  exact hpair hown

/-- A step either commits the row of a handler or issues nothing. -/
theorem step_cases {s t : State} {a : Action} (hstep : step s a = some t) :
    (∃ id knownPhone context checked rated row, a = .advance id knownPhone ∧
      s.handlers id = some ⟨context, .inserted checked rated row⟩ ∧
      t = { s.finish id with tokens := s.tokens ++ [row] }) ∨
    (Aged s t ∧ t.tokens.length = s.tokens.length ∧ Undisturbed s a) := by
  cases a with
  | tick microseconds =>
      cases hstep
      exact .inr ⟨aged_tick s microseconds, rfl, trivial⟩
  | command id context =>
      rw [step] at hstep
      split at hstep
      · cases hstep
        exact .inr ⟨.of_same rfl rfl, rfl, trivial⟩
      · cases hstep
  | phone id context phone =>
      rw [step] at hstep
      split at hstep
      · cases hstep
        exact .inr ⟨.of_same rfl rfl, rfl, trivial⟩
      · cases hstep
  | abort id =>
      obtain ⟨handler, hid, rfl⟩ := Option.map_eq_some_iff.mp hstep
      exact .inr ⟨.of_same rfl rfl, rfl, trivial⟩
  | consume token now =>
      obtain ⟨row, hrow, hguard⟩ := Option.bind_eq_some_iff.mp hstep
      split at hguard
      · cases hguard
        exact .inr ⟨aged_consume now hrow, List.length_set, trivial⟩
      · cases hguard
  | advance id knownPhone =>
      obtain ⟨⟨context, phase⟩, hid, rfl⟩ := Option.map_eq_some_iff.mp hstep
      have hquiet : ∀ {t : State}, t.now = s.now → t.tokens = s.tokens →
          (∀ checked rated row, phase ≠ .inserted checked rated row) →
            Aged s t ∧ t.tokens.length = s.tokens.length ∧
              Undisturbed s (.advance id knownPhone) := by
        intro t hnow htokens hphase
        refine ⟨.of_same hnow htokens, congrArg List.length htokens, ?_⟩
        rw [Undisturbed, hid, Option.map_some]
        cases phase with
        | inserted checked rated row => exact absurd rfl (hphase checked rated row)
        | _ => trivial
      cases phase with
      | inserted checked rated row =>
          exact .inl ⟨id, knownPhone, context, checked, rated, row, rfl, hid, rfl⟩
      | checking now =>
          refine .inr (hquiet ?_ ?_ fun _ _ _ h => by cases h)
          · simp only [advance]
            split <;> rfl
          · simp only [advance]
            split <;> rfl
      | passed checked =>
          refine .inr (hquiet ?_ ?_ fun _ _ _ h => by cases h)
          · cases knownPhone <;> rfl
          · cases knownPhone <;> rfl
      | creating checked phone now =>
          refine .inr (hquiet ?_ ?_ fun _ _ _ h => by cases h)
          · simp only [advance]
            split <;> rfl
          · simp only [advance]
            split <;> rfl
      | _ => exact .inr (hquiet rfl rfl fun _ _ _ h => by cases h)

theorem mem_take_or_drop {rows : List ConnectToken} {row : ConnectToken} (count : Nat)
    (h : row ∈ rows) : row ∈ rows.take count ∨ row ∈ rows.drop count := by
  rwa [← List.mem_append, List.take_append_drop]

theorem undisturbed_inserted {s : State} {id : Nat} {knownPhone : Option String}
    {context : Context} {checked rated : Nat} {row : ConnectToken}
    (hid : s.handlers id = some ⟨context, .inserted checked rated row⟩) :
    Undisturbed s (.advance id knownPhone) ↔
      (∀ other ∈ s.tokens.drop checked, other.telegramId = row.telegramId →
        ¬ (other.IsValid s.now ∧ row.IsValid s.now)) ∧
      ∀ other ∈ s.tokens.drop rated, other.telegramId = row.telegramId →
        Apart other.createdAt row.createdAt := by
  rw [Undisturbed, hid]
  rfl

/-- An undisturbed step keeps tokens apart. -/
theorem apart_step {s t : State} {a : Action} (hinv : Inv s) (hlive : OneLive s)
    (hspaced : Spaced s) (undisturbed : Undisturbed s a) (hstep : step s a = some t) :
    OneLive t ∧ Spaced t := by
  cases step_cases hstep with
  | inr hquiet => exact ⟨hlive.aged hquiet.1 hquiet.2.1, hspaced.aged hquiet.1 hquiet.2.1⟩
  | inl hcommit =>
      obtain ⟨id, knownPhone, context, checked, rated, row, rfl, hid, rfl⟩ := hcommit
      obtain ⟨hdead, hrated, hown⟩ := hinv.handlers id _ hid
      obtain ⟨hdrop, hdrop'⟩ := (undisturbed_inserted hid).mp undisturbed
      constructor
      · refine List.pairwise_append.mpr ⟨hlive, List.pairwise_singleton _ _, ?_⟩
        intro other hother row' hrow' hsame
        obtain rfl := List.mem_singleton.mp hrow'
        cases mem_take_or_drop checked hother with
        | inl htake => exact fun hboth => hdead.2 other htake (hsame.trans hown) hboth.1
        | inr hmem => exact hdrop other hmem hsame
      · refine List.pairwise_append.mpr ⟨hspaced, List.pairwise_singleton _ _, ?_⟩
        intro other hother row' hrow' hsame
        obtain rfl := List.mem_singleton.mp hrow'
        cases mem_take_or_drop rated hother with
        | inl htake => exact .inr (hrated.2 other htake (hsame.trans hown))
        | inr hmem => exact hdrop' other hmem hsame

/-- A step that does not keep tokens apart was disturbed. -/
theorem undisturbed_of_apart {s t : State} {a : Action} (hstep : step s a = some t)
    (hlive : OneLive t) (hspaced : Spaced t) : Undisturbed s a := by
  cases step_cases hstep with
  | inr hquiet => exact hquiet.2.2
  | inl hcommit =>
      obtain ⟨id, knownPhone, context, checked, rated, row, rfl, hid, rfl⟩ := hcommit
      have hlive' := (List.pairwise_append.mp hlive).2.2
      have hspaced' := (List.pairwise_append.mp hspaced).2.2
      refine (undisturbed_inserted hid).mpr ⟨fun other hother => ?_, fun other hother => ?_⟩
      · exact hlive' other (List.mem_of_mem_drop hother) row (List.mem_singleton_self row)
      · exact hspaced' other (List.mem_of_mem_drop hother) row (List.mem_singleton_self row)

/-! ## Whole runs -/

/-- At every moment of every run: no user has two live tokens or two tokens issued within a
minute, exactly as long as the handlers that commit are not disturbed. -/
theorem issued_apart_iff {now : DateTime} {actions : List Action} {final : State}
    (run : exec step { now := now } actions = some final) :
    (∀ first rest s, actions = first ++ rest → exec step { now := now } first = some s →
      OneLive s ∧ Spaced s) ↔ Meets step Undisturbed { now := now } actions :=
  forall_prefix_iff_meets Inv (fun s => OneLive s ∧ Spaced s)
    (fun _ _ _ hinv _ hstep => hinv.step hstep)
    (fun _ _ _ hinv apart hstep =>
      ⟨fun apart' => undisturbed_of_apart hstep apart'.1 apart'.2,
        fun undisturbed => apart_step hinv apart.1 apart.2 undisturbed hstep⟩)
    (inv_start now) ⟨.nil, .nil⟩ run

instance (s : State) : Decidable (OneLive s) := List.instDecidablePairwise _

instance (s : State) : Decidable (Spaced s) := List.instDecidablePairwise _

instance (s : State) (a : Action) : Decidable (Undisturbed s a) := by
  unfold Undisturbed
  split
  · split <;> infer_instance
  · infer_instance

/-- A private chat. -/
def chat : Context := ⟨7, 7⟩

/-- The steps of a `/connect` with a known phone. -/
def connects (ids : List Nat) : List Action :=
  ids.map (.command · chat) ++
    (List.range 8).flatMap fun _ => ids.map (.advance · (some "+380501234567"))

/-- One attempt after the other: the first login is completed, and a minute passes. -/
def serialSchedule : List Action :=
  connects [0] ++ [.tick 60000000, .consume 0 60000000] ++ connects [1]

theorem serialSchedule_apart : ∃ final, exec step { now := 0 } serialSchedule = some final ∧
    ∀ first rest s, serialSchedule = first ++ rest → exec step { now := 0 } first = some s →
      OneLive s ∧ Spaced s := by
  have hrun : (exec step { now := 0 } serialSchedule).isSome = true := by decide +kernel
  obtain ⟨final, hfinal⟩ := Option.isSome_iff_exists.mp hrun
  exact ⟨final, hfinal, (issued_apart_iff hfinal).mpr (by decide +kernel)⟩

/-- Two handlers at once get two live tokens. -/
theorem twoConnects_not_apart :
    ¬ ∀ (now : DateTime) (actions : List Action) (s : State),
      exec step { now := now } actions = some s → OneLive s ∧ Spaced s := by
  intro h
  have hrun : (exec step { now := 0 } (connects [0, 1])).isSome = true := by decide +kernel
  have hbad : ∀ s ∈ exec step { now := 0 } (connects [0, 1]), ¬ OneLive s := by decide +kernel
  obtain ⟨s, hs⟩ := Option.isSome_iff_exists.mp hrun
  exact hbad s hs (h 0 (connects [0, 1]) s hs).1

end UserTgBot.Issue
