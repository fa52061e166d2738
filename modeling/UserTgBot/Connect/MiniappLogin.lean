import UserTgBot.Connect.Issue
import UserTgBot.Library.PyText

/-!
# A login that hands out no button

`_begin_miniapp_login` of `management_bot/handlers/connect.py` from its start to each of its
exits. The token is committed before the web server is started, before its address is looked
at and before the button is sent, and no exit takes it back. What the next `/connect` makes of
it is up to `get_active_token`, which knows rows and no buttons.

Everything that is awaited may take its time, may raise, and lets other tasks commit.
-/

namespace UserTgBot.MiniappLogin

open Issue PyText

/-- The clock and the committed tokens in the order of their commits. -/
structure Db where
  now : Int
  tokens : List ConnectToken

/-- Time passes, another login commits its token, a Mini App login commits its
`consume_token`, or the sweeper claims a token for a notice; the last two have read the clock
before. -/
inductive Event where
  | tick (microseconds : Nat)
  | insert (row : ConnectToken)
  | consume (token : Nat) (now : Int)
  | notify (token : Nat) (now : Int)
deriving DecidableEq

namespace Db

def apply (db : Db) : Event → Db
  | .tick microseconds => { db with now := db.now + microseconds }
  | .insert row => { db with tokens := db.tokens ++ [row] }
  | .consume token now =>
      { db with tokens := db.tokens.modify token fun row => (row.consumed now).getD row }
  | .notify token now =>
      { db with tokens := db.tokens.modify token fun row =>
          if row.IsDue now then row.notified now else row }

def applyAll (db : Db) (events : List Event) : Db := events.foldl apply db

end Db

/-- One run, with what happens while it waits and how that ends. -/
structure Run where
  context : Context
  phone : String
  beforeCheck : List Event
  beforeCommit : List Event
  /-- The `INSERT` and the commit succeed. -/
  saved : Bool
  duringStart : List Event
  /-- What `connect_server.start` returns, unless it raises. -/
  baseUrl : Option Text
  duringAnswer : List Event
  /-- What `message.answer` returns, unless it raises. -/
  messageId : Option Int

/-- The messages that a run may send. -/
inductive Reply where
  | rateLimited
  | error
  /-- The introduction with the button of the Mini App. -/
  | intro (messageId : Int)
deriving DecidableEq

/-- Where a run ends: the token it has committed, and what has reached the chat. -/
structure Outcome where
  db : Db
  created : Option Nat
  reached : Option Reply

def isHttps (url : Text) : Bool := (text "https://").isPrefixOf url

/-- `_begin_miniapp_login`. -/
def beginMiniappLogin (run : Run) (db : Db) : Outcome :=
  let now := db.now
  let db := db.applyAll run.beforeCheck
  if checkRateLimit db.tokens run.context.chatId now = false then
    { db := db.applyAll run.duringAnswer, created := none
      reached := run.messageId.map fun _ => .rateLimited }
  else
    let db := db.applyAll run.beforeCommit
    if run.saved = false then { db, created := none, reached := none }
    else
      let token := db.tokens.length
      let row := newToken run.context run.phone now
      let db := { db with tokens := db.tokens ++ [row] }.applyAll run.duringStart
      let answered := db.applyAll run.duringAnswer
      match run.baseUrl with
      | none =>
          { db := answered, created := some token, reached := run.messageId.map fun _ => .error }
      | some url =>
          if isHttps url = false then
            { db := answered, created := some token
              reached := run.messageId.map fun _ => .error }
          else
            match run.messageId with
            | none => { db := answered, created := some token, reached := none }
            | some messageId =>
                let set (row : ConnectToken) := { row with messageId := some messageId }
                { db := { answered with tokens := answered.tokens.modify token set }
                  created := some token, reached := some (.intro messageId) }

/-- No button of the Mini App has reached the chat. -/
def Outcome.Undelivered (outcome : Outcome) : Prop :=
  ∀ messageId, outcome.reached ≠ some (.intro messageId)

/-- The minutes that `cmd_connect` reports if it refuses with `connect_already_active`. -/
def alreadyActive (tokens : List ConnectToken) (chatId : Int) (now : Int) : Option Int :=
  (getActiveToken tokens chatId now).map fun pending =>
    max 1 (-((now - pending.expiresAt) / (60 * second)))

/-- The token of the run, if there is one, is not live, now or later. -/
def Outcome.BlocksNobody (outcome : Outcome) : Prop :=
  ∀ token row, outcome.created = some token → outcome.db.tokens[token]? = some row →
    ∀ later, outcome.db.now ≤ later → ¬row.IsValid later

section Events

variable {db : Db} {token : Nat} {row : ConnectToken} {event : Event} {events : List Event}

/-- The microseconds that pass. -/
def elapsed (events : List Event) : Int :=
  (events.map fun | .tick microseconds => (microseconds : Int) | _ => 0).sum

/-- The token is used before that time. -/
def Uses (token : Nat) (expiresAt : Int) (events : List Event) : Prop :=
  ∃ now, .consume token now ∈ events ∧ now < expiresAt

theorem elapsed_cons (event : Event) (events : List Event) :
    elapsed (event :: events) = elapsed [event] + elapsed events := by
  simp [elapsed]

theorem applyAll_cons (event : Event) (events : List Event) :
    db.applyAll (event :: events) = (db.apply event).applyAll events := rfl

theorem applyAll_append {first rest : List Event} :
    db.applyAll (first ++ rest) = (db.applyAll first).applyAll rest := List.foldl_append

theorem now_apply (event : Event) : (db.apply event).now = db.now + elapsed [event] := by
  cases event <;> simp [Db.apply, elapsed]

theorem now_applyAll : (db.applyAll events).now = db.now + elapsed events := by
  induction events generalizing db with
  | nil => exact (Int.add_zero _).symm
  | cons event events ih =>
      have hsum := elapsed_cons event events
      rw [applyAll_cons, ih, now_apply]
      omega

theorem uses_append {expiresAt : Int} {first rest : List Event} :
    Uses token expiresAt (first ++ rest) ↔
      Uses token expiresAt first ∨ Uses token expiresAt rest := by
  constructor
  · rintro ⟨now, hmem, hlt⟩
    cases List.mem_append.mp hmem with
    | inl hfirst => exact .inl ⟨now, hfirst, hlt⟩
    | inr hrest => exact .inr ⟨now, hrest, hlt⟩
  · rintro (⟨now, hfirst, hlt⟩ | ⟨now, hrest, hlt⟩)
    · exact ⟨now, List.mem_append_left _ hfirst, hlt⟩
    · exact ⟨now, List.mem_append_right _ hrest, hlt⟩

theorem uses_singleton {expiresAt : Int} :
    Uses token expiresAt [event] ↔ ∃ now, event = .consume token now ∧ now < expiresAt := by
  constructor
  · rintro ⟨now, hmem, hlt⟩
    exact ⟨now, (List.mem_singleton.mp hmem).symm, hlt⟩
  · rintro ⟨now, rfl, hlt⟩
    exact ⟨now, List.mem_singleton_self _, hlt⟩

theorem unused {expiresAt : Int} (h : ∀ now, event ≠ .consume token now) :
    ¬Uses token expiresAt [event] := by
  intro huses
  obtain ⟨now, hevent, -⟩ := uses_singleton.mp huses
  exact h now hevent

/-- What becomes of a row that is used, or is not. -/
structure Becomes (used : Prop) (row row' : ConnectToken) : Prop where
  telegramId : row'.telegramId = row.telegramId
  expiresAt : row'.expiresAt = row.expiresAt
  usedAt : row'.usedAt = none ↔ row.usedAt = none ∧ ¬used

theorem Becomes.refl {used : Prop} (unused : ¬used) : Becomes used row row :=
  ⟨rfl, rfl, (and_iff_left unused).symm⟩

theorem Becomes.trans {used used' : Prop} {row' row'' : ConnectToken}
    (h : Becomes used row row') (h' : Becomes used' row' row'') :
    Becomes (used ∨ used') row row'' := by
  refine ⟨h'.telegramId.trans h.telegramId, h'.expiresAt.trans h.expiresAt, ?_⟩
  rw [h'.usedAt, h.usedAt, not_or, and_assoc]

theorem Becomes.isValid_iff {used : Prop} {row' : ConnectToken} {now : Int}
    (h : Becomes used row row') (unused : row.usedAt = none) :
    row'.IsValid now ↔ ¬used ∧ now < row.expiresAt := by
  rw [ConnectToken.IsValid, h.usedAt, h.expiresAt, and_iff_right unused]

theorem becomes_consumed (now : Int) :
    Becomes (now < row.expiresAt) row ((row.consumed now).getD row) := by
  rw [ConnectToken.consumed]
  by_cases hvalid : row.IsValid now
  · rw [if_pos hvalid]
    refine ⟨rfl, rfl, fun h => ?_, fun h => absurd hvalid.2 h.2⟩
    cases h
  · rw [if_neg hvalid]
    exact ⟨rfl, rfl, fun h => ⟨h, fun hlt => hvalid ⟨h, hlt⟩⟩, fun h => h.1⟩

/-- What one event makes of a row. -/
theorem becomes_apply (hrow : db.tokens[token]? = some row) (event : Event) :
    ∃ row', (db.apply event).tokens[token]? = some row' ∧
      Becomes (Uses token row.expiresAt [event]) row row' := by
  cases event with
  | tick microseconds => exact ⟨row, hrow, .refl (unused fun _ h => by cases h)⟩
  | insert other =>
      refine ⟨row, ?_, .refl (unused fun _ h => by cases h)⟩
      obtain ⟨hlt, -⟩ := List.getElem?_eq_some_iff.mp hrow
      exact (List.getElem?_append_left hlt).trans hrow
  | consume used now =>
      by_cases heq : used = token
      · subst heq
        refine ⟨(row.consumed now).getD row, ?_, ?_⟩
        · rw [Db.apply, List.getElem?_modify_eq, hrow]
          rfl
        · have huses : Uses used row.expiresAt [.consume used now] ↔ now < row.expiresAt := by
            rw [uses_singleton]
            constructor
            · rintro ⟨_, ⟨⟩, hlt⟩
              exact hlt
            · intro hlt
              exact ⟨now, rfl, hlt⟩
          rw [huses]
          exact becomes_consumed now
      · refine ⟨row, (List.getElem?_modify_ne _ _ heq).trans hrow, .refl (unused fun _ h => ?_)⟩
        cases h
        exact heq rfl
  | notify claimed now =>
      have hunused : ¬Uses token row.expiresAt [.notify claimed now] :=
        unused fun _ h => by cases h
      by_cases heq : claimed = token
      · subst heq
        refine ⟨if row.IsDue now then row.notified now else row, ?_, ?_⟩
        · rw [Db.apply, List.getElem?_modify_eq, hrow]
          rfl
        · split
          · exact ⟨rfl, rfl, (and_iff_left hunused).symm⟩
          · exact .refl hunused
      · exact ⟨row, (List.getElem?_modify_ne _ _ heq).trans hrow, .refl hunused⟩

/-- What any number of events makes of a row. -/
theorem becomes_applyAll (hrow : db.tokens[token]? = some row) :
    ∃ row', (db.applyAll events).tokens[token]? = some row' ∧
      Becomes (Uses token row.expiresAt events) row row' := by
  induction events generalizing db row with
  | nil =>
      refine ⟨row, hrow, .refl ?_⟩
      rintro ⟨now, hmem, -⟩
      cases hmem
  | cons event events ih =>
      obtain ⟨row₁, hrow₁, hbecomes₁⟩ := becomes_apply hrow event
      obtain ⟨row₂, hrow₂, hbecomes₂⟩ := ih hrow₁
      refine ⟨row₂, hrow₂, ?_⟩
      rw [hbecomes₁.expiresAt] at hbecomes₂
      have hboth := hbecomes₁.trans hbecomes₂
      rwa [← uses_append] at hboth

end Events

/-! ## The exits -/

section Exits

variable {run : Run} {db : Db}

/-- `create_token` raises. -/
def Refused (run : Run) (db : Db) : Prop :=
  checkRateLimit (db.applyAll run.beforeCheck).tokens run.context.chatId db.now = false

/-- The number that the token gets. -/
def tokenId (run : Run) (db : Db) : Nat :=
  (db.applyAll (run.beforeCheck ++ run.beforeCommit)).tokens.length

/-- When the token expires. -/
def expiry (db : Db) : Int := db.now + DEFAULT_TTL_MINUTES * 60 * second

/-- The table right after the commit. -/
def committed (run : Run) (db : Db) : Db :=
  let before := db.applyAll (run.beforeCheck ++ run.beforeCommit)
  { before with tokens := before.tokens ++ [newToken run.context run.phone db.now] }

/-- Nothing has been committed, or somebody uses the token, or the run waits until it has
expired. -/
def Spared (run : Run) (db : Db) : Prop :=
  Refused run db ∨ run.saved = false ∨
    Uses (tokenId run db) (expiry db) (run.duringStart ++ run.duringAnswer) ∨
    DEFAULT_TTL_MINUTES * 60 * second ≤
      elapsed (run.beforeCheck ++ run.beforeCommit ++ (run.duringStart ++ run.duringAnswer))

/-- A run without a button has committed nothing, or has left its token as it was. -/
theorem exits (undelivered : (beginMiniappLogin run db).Undelivered) :
    (Refused run db ∨ run.saved = false) ∧ (beginMiniappLogin run db).created = none ∨
    ¬Refused run db ∧ run.saved = true ∧
      (beginMiniappLogin run db).created = some (tokenId run db) ∧
      (beginMiniappLogin run db).db =
        (committed run db).applyAll (run.duringStart ++ run.duringAnswer) := by
  by_cases hrefused : Refused run db
  · refine .inl ⟨.inl hrefused, ?_⟩
    rw [Refused] at hrefused
    rw [beginMiniappLogin, if_pos hrefused]
  · by_cases hsaved : run.saved = false
    · refine .inl ⟨.inr hsaved, ?_⟩
      rw [Refused] at hrefused
      rw [beginMiniappLogin, if_neg hrefused, if_pos hsaved]
    · refine .inr ⟨hrefused, eq_true_of_ne_false hsaved, ?_⟩
      rw [Refused] at hrefused
      rw [tokenId, committed, applyAll_append, applyAll_append]
      rw [beginMiniappLogin, if_neg hrefused, if_neg hsaved] at undelivered ⊢
      cases hurl : run.baseUrl with
      | none => exact ⟨rfl, rfl⟩
      | some url =>
          by_cases hhttps : isHttps url = false
          · simp only [if_pos hhttps, and_self]
          · simp only [hurl, if_neg hhttps] at undelivered ⊢
            cases hmessage : run.messageId with
            | none => exact ⟨rfl, rfl⟩
            | some messageId =>
                rw [hmessage] at undelivered
                exact absurd rfl (undelivered messageId)

/-- The token at the end of a run that has committed it. -/
theorem committed_row (events : List Event) :
    ∃ row, ((committed run db).applyAll events).tokens[tokenId run db]? = some row ∧
      row.telegramId = run.context.chatId ∧
      ∀ later, row.IsValid later ↔
        ¬Uses (tokenId run db) (expiry db) events ∧ later < expiry db := by
  have hnew : (committed run db).tokens[tokenId run db]? =
      some (newToken run.context run.phone db.now) := List.getElem?_concat_length
  obtain ⟨row, hrow, hbecomes⟩ := becomes_applyAll hnew
  exact ⟨row, hrow, hbecomes.telegramId, fun later => hbecomes.isValid_iff rfl⟩

theorem now_committed (events : List Event) :
    ((committed run db).applyAll events).now =
      db.now + elapsed (run.beforeCheck ++ run.beforeCommit ++ events) := by
  have hcommitted : ((committed run db).applyAll events).now =
      (db.applyAll (run.beforeCheck ++ run.beforeCommit)).now + elapsed events := now_applyAll
  have hall : (db.applyAll (run.beforeCheck ++ run.beforeCommit ++ events)).now =
      (db.applyAll (run.beforeCheck ++ run.beforeCommit)).now + elapsed events := by
    rw [applyAll_append]
    exact now_applyAll
  exact hcommitted.trans (hall.symm.trans now_applyAll)

/-- A live token of the chat makes `cmd_connect` refuse. -/
theorem alreadyActive_isSome {tokens : List ConnectToken} {row : ConnectToken} {chatId later : Int}
    (mem : row ∈ tokens) (own : row.telegramId = chatId) (valid : row.IsValid later) :
    (alreadyActive tokens chatId later).isSome = true := by
  rw [alreadyActive, Option.isSome_map, Option.isSome_iff_ne_none, getActiveToken]
  intro hnone
  have hrows := (OrderBy.desc_sortDesc ConnectToken.expiresAt _).head?_eq_none.mp hnone
  exact List.filter_eq_nil_iff.mp hrows row mem (decide_eq_true ⟨own, valid⟩)

/-- A run that has committed its token leaves it live exactly if it is not used and the run
ends in time. -/
theorem blocksNobody_of_committed {events : List Event} {outcome : Outcome}
    (created : outcome.created = some (tokenId run db))
    (final : outcome.db = (committed run db).applyAll events) :
    outcome.BlocksNobody ↔ Uses (tokenId run db) (expiry db) events ∨
      DEFAULT_TTL_MINUTES * 60 * second ≤
        elapsed (run.beforeCheck ++ run.beforeCommit ++ events) := by
  obtain ⟨row, hrow, -, hvalid⟩ := @committed_row run db events
  have hnow : outcome.db.now =
      db.now + elapsed (run.beforeCheck ++ run.beforeCommit ++ events) := by
    rw [final]
    exact now_committed events
  have hlast : outcome.db.now < expiry db ↔
      ¬DEFAULT_TTL_MINUTES * 60 * second ≤
        elapsed (run.beforeCheck ++ run.beforeCommit ++ events) := by
    rw [hnow, expiry]
    omega
  rw [← final] at hrow
  constructor
  · intro hblocks
    by_contra hnot
    obtain ⟨hunused, hintime⟩ := not_or.mp hnot
    have hlive : row.IsValid outcome.db.now := (hvalid _).mpr ⟨hunused, hlast.mpr hintime⟩
    exact hblocks _ row created hrow outcome.db.now (Int.le_refl _) hlive
  · intro hspared token row' htoken hrow' later hlater hlive
    obtain rfl := Option.some.inj (created.symm.trans htoken)
    obtain rfl := Option.some.inj (hrow.symm.trans hrow')
    obtain ⟨hunused, hbefore⟩ := (hvalid later).mp hlive
    cases hspared with
    | inl hused => exact hunused hused
    | inr hlate => exact hlast.mp (Int.lt_of_le_of_lt hlater hbefore) hlate

/-- A run without a button blocks nobody exactly if it is spared; otherwise every `/connect`
is refused until the token has expired. -/
theorem blocksNobody_iff_spared (undelivered : (beginMiniappLogin run db).Undelivered) :
    ((beginMiniappLogin run db).BlocksNobody ↔ Spared run db) ∧
      (¬Spared run db → ∀ later, (beginMiniappLogin run db).db.now ≤ later →
        later < expiry db →
        (alreadyActive (beginMiniappLogin run db).db.tokens run.context.chatId later).isSome) := by
  cases exits undelivered with
  | inl hnothing =>
      obtain ⟨hspared, hcreated⟩ := hnothing
      have hspared : Spared run db := by
        cases hspared with
        | inl hrefused => exact .inl hrefused
        | inr hsaved => exact .inr (.inl hsaved)
      refine ⟨⟨fun _ => hspared, fun _ token row htoken => ?_⟩, fun hnot => absurd hspared hnot⟩
      rw [hcreated] at htoken
      cases htoken
  | inr hleft =>
      obtain ⟨hallowed, hsaved, hcreated, hfinal⟩ := hleft
      have hspared : Spared run db ↔
          Uses (tokenId run db) (expiry db) (run.duringStart ++ run.duringAnswer) ∨
            DEFAULT_TTL_MINUTES * 60 * second ≤ elapsed
              (run.beforeCheck ++ run.beforeCommit ++ (run.duringStart ++ run.duringAnswer)) := by
        rw [Spared, or_iff_right hallowed, hsaved, or_iff_right Bool.noConfusion]
      refine ⟨(blocksNobody_of_committed hcreated hfinal).trans hspared.symm, ?_⟩
      intro hnot later hlater hbefore
      have hunused := (not_or.mp (mt hspared.mpr hnot)).1
      obtain ⟨row, hrow, hown, hvalid⟩ := @committed_row run db (run.duringStart ++ run.duringAnswer)
      rw [hfinal]
      exact alreadyActive_isSome (List.mem_of_getElem? hrow) hown
        ((hvalid later).mpr ⟨hunused, hbefore⟩)

end Exits

/-- The web server does not start, which shows after so many microseconds. -/
def failedStart (microseconds : Nat) : Run where
  context := chat
  phone := "+380501234567"
  beforeCheck := []
  beforeCommit := []
  saved := true
  duringStart := [.tick microseconds]
  baseUrl := none
  duringAnswer := []
  messageId := some 1

/-- The start that fails after a quarter of an hour. -/
theorem slowStart_blocksNobody :
    (beginMiniappLogin (failedStart 900000000) ⟨0, []⟩).BlocksNobody := by
  refine (blocksNobody_iff_spared ?_).1.mpr (.inr (.inr (.inr (by decide +kernel))))
  intro messageId hreached
  cases hreached

/-- The start fails at once; two minutes later the user is told to finish the attempt whose
button was never sent. -/
theorem failedStart_blocks :
    (beginMiniappLogin (failedStart 0) ⟨0, []⟩).Undelivered ∧
      ¬(beginMiniappLogin (failedStart 0) ⟨0, []⟩).BlocksNobody ∧
      alreadyActive (beginMiniappLogin (failedStart 0) ⟨0, []⟩).db.tokens 7 120000000 =
        some 13 := by
  refine ⟨fun messageId hreached => ?_, fun hblocks => ?_, by decide +kernel⟩
  · cases hreached
  · exact hblocks 0 (newToken chat "+380501234567" 0) rfl (by decide +kernel) 120000000
      (by decide +kernel) (by decide +kernel)

end UserTgBot.MiniappLogin
