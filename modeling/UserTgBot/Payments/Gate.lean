import UserTgBot.Payments.Readers

/-!
# What has just been paid for

The history of `subscriptions`: rows are created when an invoice is opened, and become active
when it is paid; an administrator grants and revokes. Every action brings the times it takes
itself, so that rows may be created and paid in any order. Rows are addressed by their index.

The gate sorts by `created_at` and not by `started_at`. So a payment is overridden by any row
that was opened later and is still active.
-/

namespace UserTgBot.Payments

open OrderBy Transition

inductive RowAction where
  | createPending (userId : Nat) (tariff providerName : String) (periodDays : Int)
      (createdAt : DateTime)
  /-- `sub.external_invoice_id = invoice.id`. -/
  | setInvoice (sub : Nat) (invoiceId : String)
  | activate (sub : Nat) (now : DateTime) (periodDays : Option Int)
  | grantSubscription (userId : Nat) (tariff : String) (days : Int) (now createdAt : DateTime)
  | revokeSubscription (userId : Nat)
deriving DecidableEq

/-- `revoke_subscription` on a row. -/
def revokeRow (userId : Nat) (sub : Subscription) : Subscription :=
  if sub.userId = userId ∧ sub.status = .active then { sub with status := .cancelled } else sub

/-- One write to the table. -/
def rowStep (subs : List Subscription) : RowAction → Option (List Subscription)
  | .createPending userId tariff providerName periodDays createdAt =>
      some (subs ++
        [{ userId, tariff, paymentProvider := providerName, periodDays, createdAt }])
  | .setInvoice sub invoiceId =>
      some (subs.modify sub fun row => { row with externalInvoiceId := some invoiceId })
  | .activate sub now periodDays => some (subs.modify sub (activate now periodDays))
  | .grantSubscription userId tariff days now createdAt =>
      match Tariff.ofValue? tariff with
      -- an unknown tariff raises
      | none => some subs
      | some _ => some (subs ++
          [{ userId, tariff, status := .active, paymentProvider := "admin"
             startedAt := some now, expiresAt := some (now + daysDelta days), createdAt }])
  | .revokeSubscription userId => some (subs.map (revokeRow userId))

/-- The rows with their primary keys. -/
def keyedRows (subs : List Subscription) : List SubscriptionRow :=
  subs.zipIdx.map fun e => ⟨e.1, e.2⟩

/-- `SELECT ... WHERE user_id = ... AND status = 'active'`. -/
def activeRowsFor (subs : List Subscription) (userId : Nat) : List SubscriptionRow :=
  (keyedRows subs).filter fun sub => sub.userId = userId && sub.status = .active

/-- The gate of a user finds this row and no other, and every command goes by its tariff. -/
def GatesBy (subs : List Subscription) (now : DateTime) (row : SubscriptionRow) : Prop :=
  ∀ result, Desc (fun sub : SubscriptionRow => sub.createdAt)
    (activeRowsFor subs row.userId) result →
      getActiveSubscriptionForUser (.utc now) result = some (some row) ∧
        ∀ command, checkCommand (.utc now) result command = gateOf (some row) command

/-- In a history, every row that an activation has just paid for is what the user's gate goes
by, if the period is positive. -/
def PaidRowGates (subs : List Subscription) (actions : List RowAction) : Prop :=
  ∀ past rest sub now periodDays t row, actions = past ++ .activate sub now periodDays :: rest →
    exec rowStep subs past = some t → t[sub]? = some row → 0 < periodOf periodDays row →
      GatesBy (t.modify sub (activate now periodDays)) now
        ⟨activate now periodDays row, sub⟩

/-- Every other row of the user that is active and has not expired was created before the row
that is being paid for. -/
def OpenedLast (subs : List Subscription) : RowAction → Prop
  | .activate sub now periodDays => ∀ row, subs[sub]? = some row → 0 < periodOf periodDays row →
      ∀ other row', subs[other]? = some row' → other ≠ sub → row'.userId = row.userId →
        row'.status = .active → (∀ expiresAt, row'.expiresAt = some expiresAt → now < expiresAt) →
          row'.createdAt < row.createdAt
  | _ => True

theorem mem_keyedRows {subs : List Subscription} {row : SubscriptionRow} :
    row ∈ keyedRows subs ↔ subs[row.id]? = some row.toSubscription := by
  rw [keyedRows, List.mem_map]
  constructor
  · rintro ⟨⟨sub, id⟩, hmem, rfl⟩
    exact List.mem_zipIdx_iff_getElem?.mp hmem
  · intro hrow
    exact ⟨(row.toSubscription, row.id), List.mem_zipIdx_iff_getElem?.mpr hrow, rfl⟩

theorem mem_activeRowsFor {subs : List Subscription} {userId : Nat} {row : SubscriptionRow} :
    row ∈ activeRowsFor subs userId ↔ subs[row.id]? = some row.toSubscription ∧
      row.userId = userId ∧ row.status = .active := by
  rw [activeRowsFor, List.mem_filter, mem_keyedRows]
  simp

theorem current_iff {now : DateTime} {row : SubscriptionRow} :
    row.current now = true ↔
      ∀ expiresAt, row.expiresAt = some expiresAt → now < expiresAt := by
  rw [SubscriptionRow.current]
  cases row.expiresAt with
  | none => simp
  | some expiresAt => simp

/-- The gate goes by a row exactly if it is active, has not expired and was created after all
others of the user that are so. -/
theorem gatesBy_iff {subs : List Subscription} {now : DateTime} {row : SubscriptionRow} :
    GatesBy subs now row ↔ row ∈ activeRowsFor subs row.userId ∧ row.current now = true ∧
      ∀ other ∈ activeRowsFor subs row.userId, other.current now = true → other ≠ row →
        other.createdAt < row.createdAt := by
  rw [← find?_eq_some_iff, GatesBy]
  refine forall_congr' fun result => forall_congr' fun _ => ?_
  rw [getActiveSubscriptionForUser_utc]
  constructor
  · rintro ⟨hfind, -⟩
    exact Option.some.inj hfind
  · intro hfind
    refine ⟨congrArg some hfind, fun command => ?_⟩
    rw [checkCommand, getActiveSubscriptionForUser_utc, hfind]
    rfl

/-- An activation with a positive period: the condition is exact. -/
theorem gatesBy_activate_iff {subs : List Subscription} {sub : Nat} {now : DateTime}
    {periodDays : Option Int} {row : Subscription} (hrow : subs[sub]? = some row)
    (positive : 0 < periodOf periodDays row) :
    GatesBy (subs.modify sub (activate now periodDays)) now
        ⟨activate now periodDays row, sub⟩ ↔
      ∀ other row', subs[other]? = some row' → other ≠ sub → row'.userId = row.userId →
        row'.status = .active → (∀ expiresAt, row'.expiresAt = some expiresAt → now < expiresAt) →
          row'.createdAt < row.createdAt := by
  have hself : (subs.modify sub (activate now periodDays))[sub]? =
      some (activate now periodDays row) := by
    rw [List.getElem?_modify_eq, hrow]
    rfl
  have hother : ∀ other, other ≠ sub →
      (subs.modify sub (activate now periodDays))[other]? = subs[other]? := by
    intro other hne
    rw [List.getElem?_modify_ne _ _ (Ne.symm hne)]
  have hcurrent : SubscriptionRow.current now ⟨activate now periodDays row, sub⟩ = true := by
    refine current_iff.mpr fun expiresAt hexpires => ?_
    have hsame : now + daysDelta (periodOf periodDays row) = expiresAt :=
      Option.some.inj hexpires
    have hdays : 0 < daysDelta (periodOf periodDays row) := by
      rw [daysDelta]
      omega
    exact hsame ▸ Int.lt_add_of_pos_right now hdays
  rw [gatesBy_iff]
  constructor
  · rintro ⟨-, -, hnewer⟩ other row' hrow' hne huser hactive hexpires
    refine hnewer ⟨row', other⟩ ?_ (current_iff.mpr hexpires) ?_
    · exact mem_activeRowsFor.mpr ⟨(hother other hne).trans hrow', huser, hactive⟩
    · exact fun heq => hne (congrArg SubscriptionRow.id heq)
  · intro hnewer
    refine ⟨mem_activeRowsFor.mpr ⟨hself, rfl, rfl⟩, hcurrent, fun other hmem hlater hne => ?_⟩
    obtain ⟨hfound, huser, hactive⟩ := mem_activeRowsFor.mp hmem
    by_cases hid : other.id = sub
    · rw [hid, hself] at hfound
      refine absurd ?_ hne
      obtain ⟨other, id⟩ := other
      obtain rfl : id = sub := hid
      exact congrArg (SubscriptionRow.mk · id) (Option.some.inj hfound).symm
    · rw [hother other.id hid] at hfound
      exact hnewer other.id other.toSubscription hfound hid huser hactive (current_iff.mp hlater)

/-- In a history every payment decides the gate at once exactly if each activation is one of a
row opened after all others that are active. -/
theorem paidRowGates_iff (subs : List Subscription) (actions : List RowAction) :
    PaidRowGates subs actions ↔ Meets rowStep OpenedLast subs actions := by
  rw [meets_iff_split]
  constructor
  · intro h past action rest t heq hrun
    cases action with
    | activate sub now periodDays =>
        intro row hrow positive
        exact (gatesBy_activate_iff hrow positive).mp
          (h past rest sub now periodDays t row heq hrun hrow positive)
    | createPending userId tariff providerName periodDays createdAt => trivial
    | setInvoice sub invoiceId => trivial
    | grantSubscription userId tariff days now createdAt => trivial
    | revokeSubscription userId => trivial
  · intro h past rest sub now periodDays t row heq hrun hrow positive
    exact (gatesBy_activate_iff hrow positive).mpr
      (h past _ rest t heq hrun row hrow positive)

section Shops

/-- What a step of the shop writes to the table. -/
def Shop.writes (m : Shop) : Action → List RowAction
  | .payTap channel telegramId tariffId durCode discount =>
      match getPlan tariffId, getDuration durCode with
      | some plan, some opt =>
          let userId := (m.upsertUser telegramId).2
          if !plan.available then []
          else if effectiveProfitUah plan.profitUah opt discount ≤ 0 then
            [.createPending userId tariffId "referral_free" opt.days m.now,
              .activate m.subs.length m.now none]
          else [.createPending userId tariffId channel.providerName opt.days m.now]
      | _, _ => []
  | .invoiceCreated index invoiceId =>
      match m.invoicing[index]? with
      | none => []
      | some sub => [.setInvoice sub invoiceId]
  | .confirmCheck index =>
      match m.checks[index]? with
      | none => []
      | some check => [.activate check.1 m.now none]
  | .successfulPayment sub _ => [.activate sub m.now none]
  | .revoke telegramId =>
      match m.users.idxOf? telegramId with
      | none => []
      | some userId => [.revokeSubscription userId]
  | _ => []

theorem subs_createPending (m : Shop) (telegramId : Int) (tariff providerName : String)
    (days : Int) :
    (m.createPending telegramId tariff providerName days).subs = m.subs ++
      [{ userId := (m.upsertUser telegramId).2, tariff, paymentProvider := providerName
         periodDays := days, createdAt := m.now }] := by
  rw [Shop.createPending, Shop.upsertUser]
  cases m.users.idxOf? telegramId <;> rfl

theorem now_createPending (m : Shop) (telegramId : Int) (tariff providerName : String)
    (days : Int) : (m.createPending telegramId tariff providerName days).now = m.now := by
  rw [Shop.createPending, Shop.upsertUser]
  cases m.users.idxOf? telegramId <;> rfl

theorem subs_confirm (m : Shop) (sub : Nat) (payment : Payment) :
    (m.confirm sub payment).subs = m.subs.modify sub (activate m.now none) := by
  rw [Shop.confirm]
  cases hrow : m.subs[sub]? with
  | none => exact (List.modify_eq_self (List.getElem?_eq_none_iff.mp hrow)).symm
  | some row =>
      refine List.ext_getElem? fun i => ?_
      by_cases hi : sub = i
      · subst hi
        have hlt := (List.getElem?_eq_some_iff.mp hrow).1
        rw [List.getElem?_set_self hlt, List.getElem?_modify_eq, hrow]
        rfl
      · rw [List.getElem?_set_ne hi, List.getElem?_modify_ne _ _ hi]

theorem subs_payTap (m : Shop) (channel : Channel) (telegramId : Int) (tariffId durCode : String)
    (discount : ℚ) :
    exec rowStep m.subs (m.writes (.payTap channel telegramId tariffId durCode discount)) =
      some (m.payTap channel telegramId tariffId durCode discount).subs := by
  have hcreate := fun providerName (opt : DurationOption) =>
    subs_createPending m telegramId tariffId providerName opt.days
  simp only [Shop.payTap, Shop.writes]
  cases getPlan tariffId with
  | none => rfl
  | some plan =>
      cases getDuration durCode with
      | none => rfl
      | some opt =>
          dsimp only
          split_ifs
          · rfl
          · rw [Shop.grantFree, subs_confirm, hcreate, now_createPending]
            rfl
          · cases channel <;> exact congrArg some (hcreate _ opt).symm

/-- The shop writes to its table what the history says. -/
theorem shop_writes {m m' : Shop} {action : Action} (h : m.step action = some m') :
    exec rowStep m.subs (m.writes action) = some m'.subs := by
  cases action with
  | tick elapsed =>
      cases h
      rfl
  | payTap channel telegramId tariffId durCode discount =>
      cases h
      exact subs_payTap m channel telegramId tariffId durCode discount
  | invoiceCreated index invoiceId =>
      obtain ⟨sub, hsub, rfl⟩ := Option.map_eq_some_iff.mp h
      simp only [Shop.writes, hsub]
      rfl
  | invoicePaid invoiceId =>
      cases h
      rfl
  | check sub =>
      cases h
      rw [Shop.check]
      split
      · rfl
      · split <;> rfl
  | confirmCheck index =>
      obtain ⟨check, hcheck, rfl⟩ := Option.map_eq_some_iff.mp h
      simp only [Shop.writes, hcheck, subs_confirm]
      rfl
  | successfulPayment sub chargeId =>
      cases h
      rw [subs_confirm]
      rfl
  | revoke telegramId =>
      cases h
      simp only [Shop.revoke, Shop.writes]
      cases m.users.idxOf? telegramId <;> rfl

/-- The writes of a run, in order. -/
def Shop.history (m : Shop) : List Action → List RowAction
  | [] => []
  | action :: actions => m.writes action ++ ((m.step action).elim [] (·.history actions))

/-- The rows of the shop after a run are those of its history. -/
theorem shop_history {m m' : Shop} {actions : List Action}
    (run : exec Shop.step m actions = some m') :
    exec rowStep m.subs (m.history actions) = some m'.subs := by
  induction actions generalizing m with
  | nil =>
      cases run
      rfl
  | cons action actions ih =>
      obtain ⟨t, hstep, hrest⟩ := exec_cons_eq_some.mp run
      rw [Shop.history, hstep]
      exact exec_append_eq_some.mpr ⟨t.subs, shop_writes hstep, ih hrest⟩

end Shops

/-- A user opens an invoice for Standard and one for Pro, pays for Pro and then for Standard. -/
def lateUpgrade : List RowAction :=
  [.createPending 1 "standard" "stars" 30 0, .createPending 1 "pro" "stars" 30 1,
    .activate 1 2 none, .activate 0 3 none]

/-- After the payment for Standard the gate goes by Pro. -/
theorem lateUpgrade_not_gates : ¬PaidRowGates [] lateUpgrade := by
  intro h
  have hrow := h (lateUpgrade.take 3) [] 0 3 none _ _ rfl rfl rfl (by decide)
  have hnewest := (gatesBy_iff.mp hrow).2.2
  exact absurd (hnewest ⟨activate 2 none
    { userId := 1, tariff := "pro", paymentProvider := "stars", createdAt := 1 }, 1⟩
    (by decide) (by decide) (by decide)) (by decide)

end UserTgBot.Payments
