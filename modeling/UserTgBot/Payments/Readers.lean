import Mathlib.Data.List.Dedup
import UserTgBot.Library.Loops
import UserTgBot.Library.OrderBy
import UserTgBot.Library.PyDateTime
import UserTgBot.Payments.Subscriptions

/-!
# Who reads subscriptions

The gate of the commands (`db/queries.py`, `userbot/gating.py`), the dashboard
(`management_bot/storage.py`), the admin panel (`admin_web/service.py`) and the statistics of the
referral links (`shared/referrals.py`). Each takes the results of its queries; rows with the
same `created_at`, and the groups of a `GROUP BY`, come in any order.

Columns hold naive UTC. No code ever sets a status to `EXPIRED`.
-/

namespace UserTgBot.Payments

open Loops OrderBy

/-- A row of `subscriptions` with its primary key. -/
structure SubscriptionRow extends Subscription where
  id : Nat
deriving DecidableEq

/-- A row of `users`, with the columns that are read here. -/
structure Account where
  id : Nat
  telegramId : Int
  referredByLinkId : Option Nat
deriving DecidableEq

/-- A row of `referral_links`. -/
structure ReferralLink where
  id : Nat
  code : String
  label : Option String
  discountPercent : Int
  createdAt : DateTime
deriving DecidableEq

/-- `SubscriptionStatus.value`. -/
def statusValue : SubscriptionStatus → String
  | .pending => "pending"
  | .active => "active"
  | .expired => "expired"
  | .cancelled => "cancelled"

/-! ## The gate -/

/-- `get_active_subscription_for_user`; nothing if a comparison raises. -/
def getActiveSubscriptionForUser (now : PyDateTime) (result : List SubscriptionRow) :
    Option (Option SubscriptionRow) :=
  result.findM? fun sub =>
    match sub.expiresAt with
    | none => some true
    | some expiresAt => (PyDateTime.naive expiresAt).asAware.gt? now

/-- `BASE_COMMANDS`. -/
def BASE_COMMANDS : List String := ["info", "me", "ban", "check"]

/-- `tariff_grants_command`. -/
def tariffGrantsCommand (tariff : Tariff) (command : String) : Bool :=
  let plan := PLANS tariff
  if !plan.available then false
  else if command = "autoresponder" then plan.hasAutoresponder
  else if command = "send" then plan.hasSend
  else command ∈ BASE_COMMANDS

structure GateResult where
  allowed : Bool
  tariff : Option Tariff := none
  reason : String := ""
deriving DecidableEq

/-- What `check_command` makes of the subscription; nothing if the tariff is none. -/
def gateOf (sub : Option SubscriptionRow) (command : String) : Option GateResult :=
  match sub with
  | none => some { allowed := false, reason := "no_subscription" }
  | some sub => (Tariff.ofValue? sub.tariff).map fun tariff =>
      if !tariffGrantsCommand tariff command then
        { allowed := false, tariff := some tariff, reason := "tariff_excludes" }
      else { allowed := true, tariff := some tariff }

/-- `check_command`. -/
def checkCommand (now : PyDateTime) (result : List SubscriptionRow) (command : String) :
    Option GateResult := do
  let sub ← getActiveSubscriptionForUser now result
  gateOf sub command

/-! ## The dashboard -/

structure SubscriptionInfo where
  tariff : String
  status : String
  expiresAt : Option DateTime
deriving DecidableEq

structure SessionInfo where
  phoneNumber : String
  lastUsedAt : Option DateTime
deriving DecidableEq

structure UserStatus where
  known : Bool
  subscription : Option SubscriptionInfo := none
  sessions : List SessionInfo := []
deriving DecidableEq

/-- `get_user_status`. -/
def getUserStatus (user : Option Account) (subs : List SubscriptionRow)
    (sessions : List SessionInfo) : UserStatus :=
  match user with
  | none => { known := false }
  | some _ =>
      let chosen := (subs.find? (·.status = .active)).or subs.head?
      { known := true
        subscription := chosen.map fun sub =>
          { tariff := sub.tariff, status := statusValue sub.status, expiresAt := sub.expiresAt }
        sessions }

/-! ## The admin panel -/

/-- `_naive_utc` of `admin_web/service.py`. -/
def naiveUtc (now : PyDateTime) : PyDateTime :=
  match now.utcOffset with
  | some _ => now.dropZone
  | none => now

/-- The test of the admin panel: a naive comparison. -/
def adminUnexpired (now : PyDateTime) (sub : SubscriptionRow) : Option Bool :=
  match sub.expiresAt with
  | none => some true
  | some expiresAt => (PyDateTime.naive expiresAt).gt? now

/-- `_active_sub`. -/
def activeSub (now : PyDateTime) (result : List SubscriptionRow) :
    Option (Option SubscriptionRow) :=
  result.findM? (adminUnexpired now)

/-- The part of `Metrics` that is about subscriptions. -/
structure Metrics where
  activeSubscriptions : Nat := 0
  byTariff : Dict String Nat := Dict.ofPairs [("standard", 0), ("pro", 0), ("premium", 0)]

/-- A round of the loop of `get_metrics`. -/
def Metrics.count (now : PyDateTime) (m : Metrics) (sub : SubscriptionRow) : Option Metrics :=
  (adminUnexpired now sub).map fun unexpired =>
    if unexpired then
      { activeSubscriptions := m.activeSubscriptions + 1
        byTariff := m.byTariff.insert sub.tariff ((m.byTariff.lookup sub.tariff).getD 0 + 1) }
    else m

/-- The loop of `get_metrics`. -/
def getMetrics (now : PyDateTime) (result : List SubscriptionRow) : Option Metrics :=
  result.foldlM (Metrics.count (naiveUtc now)) {}

/-! ## The referral links -/

/-- `SELECT key, count(*) ... GROUP BY key`, in one of the possible orders. -/
def groupCount {κ : Type} [DecidableEq κ] (keys : List κ) : List (κ × Nat) :=
  keys.dedup.map fun key => (key, keys.countP (· = key))

structure ReferralLinkStats where
  code : String
  label : Option String
  discountPercent : Int
  clicks : Nat
  byTariff : Dict String Nat := ∅

/-- `by_tariff_by_link`. -/
def byTariffByLink (tariffRows : List ((Nat × String) × Nat)) : Dict Nat (Dict String Nat) :=
  tariffRows.foldl
    (fun d row =>
      d.insert row.1.1 (((d.lookup row.1.1).getD ∅).insert row.1.2 row.2)) ∅

/-- The `ReferralLinkStats` of a link. -/
def linkStats (clicksRows : List (Nat × Nat)) (tariffRows : List ((Nat × String) × Nat))
    (link : ReferralLink) : ReferralLinkStats where
  code := link.code
  label := link.label
  discountPercent := link.discountPercent
  clicks := ((Dict.ofPairs clicksRows).lookup link.id).getD 0
  byTariff := ((byTariffByLink tariffRows).lookup link.id).getD ∅

/-- `list_links_with_stats`. -/
def listLinksWithStats (links : List ReferralLink) (clicksRows : List (Nat × Nat))
    (tariffRows : List ((Nat × String) × Nat)) : List ReferralLinkStats :=
  links.map (linkStats clicksRows tariffRows)

/-! ## What the tests and the counts amount to -/

/-- The row has not expired at this moment. -/
def SubscriptionRow.current (now : DateTime) (sub : SubscriptionRow) : Bool :=
  sub.expiresAt.all (now < ·)

theorem getActiveSubscriptionForUser_utc (now : DateTime) (result : List SubscriptionRow) :
    getActiveSubscriptionForUser (.utc now) result = some (result.find? (·.current now)) := by
  rw [← Option.pure_def, ← List.findM?_pure, getActiveSubscriptionForUser]
  refine congrArg (result.findM? ·) (funext fun sub => ?_)
  rw [SubscriptionRow.current]
  cases sub.expiresAt with
  | none => rfl
  | some expiresAt => exact PyDateTime.gt?_asAware_utc expiresAt now

theorem adminUnexpired_naiveUtc (now : DateTime) :
    adminUnexpired (naiveUtc (.utc now)) = fun sub => some (sub.current now) := by
  funext sub
  rw [adminUnexpired, SubscriptionRow.current]
  cases sub.expiresAt with
  | none => rfl
  | some expiresAt => exact PyDateTime.gt?_naive expiresAt now

theorem activeSub_naiveUtc (now : DateTime) (result : List SubscriptionRow) :
    activeSub (naiveUtc (.utc now)) result = some (result.find? (·.current now)) := by
  rw [activeSub, adminUnexpired_naiveUtc]
  exact List.findM?_pure (m := Option) _ result

theorem Metrics.count_utc (now : DateTime) (m : Metrics) (sub : SubscriptionRow) :
    Metrics.count (naiveUtc (.utc now)) m sub =
      some (if sub.current now then
        { activeSubscriptions := m.activeSubscriptions + 1
          byTariff := m.byTariff.insert sub.tariff ((m.byTariff.lookup sub.tariff).getD 0 + 1) }
        else m) := by
  rw [Metrics.count, adminUnexpired_naiveUtc]
  rfl

/-- The loop of `get_metrics` counts the rows that have not expired. -/
theorem foldlM_count (now : DateTime) (result : List SubscriptionRow) (m : Metrics) :
    ∃ m', result.foldlM (Metrics.count (naiveUtc (.utc now))) m = some m' ∧
      m'.activeSubscriptions = m.activeSubscriptions + result.countP (·.current now) ∧
      ∀ tariff, (m'.byTariff.lookup tariff).getD 0 = (m.byTariff.lookup tariff).getD 0 +
        result.countP fun sub => sub.current now && sub.tariff = tariff := by
  induction result generalizing m with
  | nil => exact ⟨m, rfl, rfl, fun _ => rfl⟩
  | cons sub result ih =>
      rw [List.foldlM_cons, Metrics.count_utc]
      cases hcurrent : sub.current now with
      | false =>
          obtain ⟨m', hfold, htotal, hcounts⟩ := ih m
          refine ⟨m', hfold, ?_, fun tariff => ?_⟩
          · rw [htotal, List.countP_cons_of_neg (by simp [hcurrent])]
          · rw [hcounts, List.countP_cons_of_neg (by simp [hcurrent])]
      | true =>
          obtain ⟨m', hfold, htotal, hcounts⟩ := ih
            { activeSubscriptions := m.activeSubscriptions + 1
              byTariff := m.byTariff.insert sub.tariff
                ((m.byTariff.lookup sub.tariff).getD 0 + 1) }
          refine ⟨m', hfold, ?_, fun tariff => ?_⟩
          · rw [htotal, List.countP_cons_of_pos (by simp [hcurrent]), Nat.add_right_comm]
            rfl
          · rw [hcounts, Dict.lookup_insert_eq]
            by_cases htariff : tariff = sub.tariff
            · rw [List.countP_cons_of_pos (by simp [hcurrent, htariff]), if_pos htariff,
                htariff, Option.getD_some]
              omega
            · rw [List.countP_cons_of_neg (by simp [hcurrent, Ne.symm htariff]),
                if_neg htariff]

theorem getMetrics_utc (now : DateTime) (result : List SubscriptionRow) :
    ∃ m, getMetrics (.utc now) result = some m ∧
      m.activeSubscriptions = result.countP (·.current now) ∧
      ∀ tariff, (m.byTariff.lookup tariff).getD 0 =
        result.countP fun sub => sub.current now && sub.tariff = tariff := by
  obtain ⟨m, hfold, htotal, hcounts⟩ := foldlM_count now result {}
  refine ⟨m, hfold, by rw [htotal, Nat.zero_add], fun tariff => ?_⟩
  have hstart : ((({} : Metrics).byTariff).lookup tariff).getD 0 = 0 := by
    simp only [Dict.ofPairs, List.foldl_cons, List.foldl_nil, Dict.lookup_insert_eq]
    split_ifs <;> rfl
  rw [hcounts, hstart, Nat.zero_add]

/-- The groups of a `GROUP BY` have different keys. -/
theorem nodup_groupCount {κ : Type} [DecidableEq κ] (keys : List κ) :
    ((groupCount keys).map Prod.fst).Nodup := by
  rw [groupCount, List.map_map]
  exact (List.map_id _).symm ▸ List.nodup_dedup keys

/-- What the dictionary of dictionaries holds for a link and a tariff is the size of their
group. -/
theorem lookup_byTariffByLink {keys : List (Nat × String)} {rows : List ((Nat × String) × Nat)}
    (groups : rows.Perm (groupCount keys)) (link : Nat) (tariff : String) :
    (((byTariffByLink rows).lookup link).getD ∅).lookup tariff =
      if (link, tariff) ∈ keys then some (keys.countP (· = (link, tariff))) else none := by
  have hdistinct : (rows.map Prod.fst).Nodup :=
    (groups.map Prod.fst).nodup_iff.mpr (nodup_groupCount keys)
  have hother : ∀ (d : Dict Nat (Dict String Nat)) (row : (Nat × String) × Nat)
      (k : Nat × String), k ≠ row.1 →
      (((d.insert row.1.1 (((d.lookup row.1.1).getD ∅).insert row.1.2 row.2)).lookup
        k.1).getD ∅).lookup k.2 = ((d.lookup k.1).getD ∅).lookup k.2 := by
    intro d row k hne
    rw [Dict.lookup_insert_eq]
    by_cases hlink : k.1 = row.1.1
    · have htariff : k.2 ≠ row.1.2 := fun h => hne (Prod.ext hlink h)
      rw [if_pos hlink, Option.getD_some, Dict.lookup_insert_eq, if_neg htariff, hlink]
    · rw [if_neg hlink]
  have hown : ∀ (d : Dict Nat (Dict String Nat)) (row : (Nat × String) × Nat),
      (((d.insert row.1.1 (((d.lookup row.1.1).getD ∅).insert row.1.2 row.2)).lookup
        row.1.1).getD ∅).lookup row.1.2 = some row.2 := by
    intro d row
    rw [AList.lookup_insert, Option.getD_some, AList.lookup_insert]
  by_cases hmem : (link, tariff) ∈ keys
  · have hrow : ((link, tariff), keys.countP (· = (link, tariff))) ∈ rows :=
      groups.mem_iff.mpr (List.mem_map.mpr ⟨_, List.mem_dedup.mpr hmem, rfl⟩)
    rw [if_pos hmem]
    exact view_foldl_of_mem (κ := Nat × String) Prod.fst
      (fun (d : Dict Nat (Dict String Nat)) k => ((d.lookup k.1).getD ∅).lookup k.2)
      (fun row _ => some row.2) hown hother hdistinct hrow ∅
  · have hfresh : (link, tariff) ∉ rows.map Prod.fst := by
      rw [(groups.map Prod.fst).mem_iff, groupCount, List.map_map]
      simpa using hmem
    rw [if_neg hmem]
    exact view_foldl_of_notMem (κ := Nat × String) Prod.fst
      (fun (d : Dict Nat (Dict String Nat)) k => ((d.lookup k.1).getD ∅).lookup k.2)
      hother hfresh ∅

/-- The statistics count every key of the grouped query. -/
theorem getD_lookup_byTariffByLink {keys : List (Nat × String)}
    {rows : List ((Nat × String) × Nat)} (groups : rows.Perm (groupCount keys)) (link : Nat)
    (tariff : String) :
    ((((byTariffByLink rows).lookup link).getD ∅).lookup tariff).getD 0 =
      keys.countP (· = (link, tariff)) := by
  rw [lookup_byTariffByLink groups]
  by_cases hmem : (link, tariff) ∈ keys
  · rw [if_pos hmem, Option.getD_some]
  · have hzero : keys.countP (· = (link, tariff)) = 0 :=
      List.countP_eq_zero.mpr fun key hkey heq => hmem (of_decide_eq_true heq ▸ hkey)
    rw [if_neg hmem, Option.getD_none, hzero]

end UserTgBot.Payments
