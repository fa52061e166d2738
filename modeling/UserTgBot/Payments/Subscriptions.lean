import UserTgBot.Db.Models
import UserTgBot.Library.Transition
import UserTgBot.Payments.Tariffs

/-!
# Buying a subscription

`management_bot/subscriptions.py` with the handlers of `handlers/subscribe.py` that use it, and
`revoke_subscription` of `admin_web/service.py`, as one transition system: users tap, the
provider reports invoices paid and delivers payments, an administrator revokes, time passes. A
handler that waits for the provider continues in a step of its own.

Rows are addressed by their index. Callback data and payloads come from outside, so their ids
are arbitrary.
-/

namespace UserTgBot.Payments

def DEFAULT_PERIOD_DAYS : Int := 30

/-- What an activation is for: a paid invoice, a charge of a delivered payment, or a price that
a referral discount has brought to zero. -/
inductive Payment where
  | invoice (invoiceId : String)
  | charge (chargeId : String)
  | discount
deriving DecidableEq, Repr

inductive Channel where
  | stars
  | crypto
deriving DecidableEq, Repr

def Channel.providerName : Channel → String
  | .stars => "stars"
  | .crypto => "crypto_pay"

structure Shop where
  now : DateTime
  /-- The Telegram ids of the known users; a user's id is the index. -/
  users : List Int := []
  subs : List Subscription := []
  /-- Rows whose Crypto Pay invoice is being created. -/
  invoicing : List Nat := []
  /-- The invoices that the provider reports as paid. -/
  paid : List String := []
  /-- Checks that have been told that their invoice is paid. -/
  checks : List (Nat × String) := []
  /-- The payments that a row has been activated for. -/
  credited : List (Nat × Payment) := []
deriving DecidableEq

inductive Action where
  | tick (elapsed : Nat)
  | payTap (channel : Channel) (telegramId : Int) (tariffId durCode : String) (discount : ℚ)
  | invoiceCreated (index : Nat) (invoiceId : String)
  | invoicePaid (invoiceId : String)
  | check (sub : Nat)
  | confirmCheck (index : Nat)
  | successfulPayment (sub : Nat) (chargeId : String)
  | revoke (telegramId : Int)
deriving DecidableEq

/-- The days that an activation covers. -/
def periodOf (periodDays : Option Int) (sub : Subscription) : Int :=
  match periodDays with
  | some days => days
  | none => if sub.periodDays = 0 then DEFAULT_PERIOD_DAYS else sub.periodDays

/-- `activate`. -/
def activate (now : DateTime) (periodDays : Option Int) (sub : Subscription) : Subscription :=
  { sub with
    status := .active
    startedAt := some now
    expiresAt := some (now + daysDelta (periodOf periodDays sub)) }

namespace Shop

/-- `upsert_user`: the user's id, of a new row if there is none. -/
def upsertUser (m : Shop) (telegramId : Int) : Shop × Nat :=
  match m.users.idxOf? telegramId with
  | some id => (m, id)
  | none => ({ m with users := m.users ++ [telegramId] }, m.users.length)

/-- `create_pending`: the new row comes last. -/
def createPending (m : Shop) (telegramId : Int) (tariff providerName : String)
    (periodDays : Int) : Shop :=
  let (m, userId) := m.upsertUser telegramId
  let sub : Subscription :=
    { userId, tariff, paymentProvider := providerName, periodDays, createdAt := m.now }
  { m with subs := m.subs ++ [sub] }

/-- Activate a row for a payment; without the row the handler stops or raises. -/
def confirm (m : Shop) (sub : Nat) (payment : Payment) : Shop :=
  match m.subs[sub]? with
  | none => m
  | some row =>
      { m with
        subs := m.subs.set sub (activate m.now none row)
        credited := (sub, payment) :: m.credited }

/-- `_grant_free`. -/
def grantFree (m : Shop) (telegramId : Int) (tariffId : String) (days : Int) : Shop :=
  (m.createPending telegramId tariffId "referral_free" days).confirm m.subs.length .discount

/-- `on_pay_stars`, and `on_pay_crypto` up to the creation of the invoice. -/
def payTap (m : Shop) (channel : Channel) (telegramId : Int) (tariffId durCode : String)
    (discount : ℚ) : Shop :=
  match getPlan tariffId, getDuration durCode with
  | some plan, some opt =>
      if !plan.available then m
      else if effectiveProfitUah plan.profitUah opt discount ≤ 0 then
        m.grantFree telegramId tariffId opt.days
      else
        let created := m.createPending telegramId tariffId channel.providerName opt.days
        match channel with
        | .stars => created
        | .crypto => { created with invoicing := created.invoicing ++ [m.subs.length] }
  -- an unknown tariff or duration raises
  | _, _ => m

/-- `revoke_subscription`. -/
def revoke (m : Shop) (telegramId : Int) : Shop :=
  match m.users.idxOf? telegramId with
  | none => m
  | some id =>
      { m with
        subs := m.subs.map fun sub =>
          if sub.userId = id ∧ sub.status = .active then { sub with status := .cancelled }
          else sub }

/-- `on_check_crypto` up to the provider's answer. -/
def check (m : Shop) (sub : Nat) : Shop :=
  match (m.subs[sub]?).bind Subscription.externalInvoiceId with
  | none => m
  | some invoiceId =>
      if invoiceId ∈ m.paid then { m with checks := m.checks ++ [(sub, invoiceId)] } else m

/-- One step of the shop. Handlers that wait continue in any order. -/
def step (m : Shop) : Action → Option Shop
  | .tick elapsed => some { m with now := m.now + elapsed }
  | .payTap channel telegramId tariffId durCode discount =>
      some (m.payTap channel telegramId tariffId durCode discount)
  | .invoiceCreated index invoiceId => m.invoicing[index]?.map fun sub =>
      { m with
        subs := m.subs.modify sub fun row => { row with externalInvoiceId := some invoiceId }
        invoicing := m.invoicing.eraseIdx index }
  | .invoicePaid invoiceId => some { m with paid := invoiceId :: m.paid }
  | .check sub => some (m.check sub)
  | .confirmCheck index => m.checks[index]?.map fun (sub, invoiceId) =>
      { m with checks := m.checks.eraseIdx index }.confirm sub (.invoice invoiceId)
  | .successfulPayment sub chargeId => some (m.confirm sub (.charge chargeId))
  | .revoke telegramId => some (m.revoke telegramId)

end Shop

end UserTgBot.Payments
