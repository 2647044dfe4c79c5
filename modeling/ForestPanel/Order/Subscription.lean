import ForestPanel.Store.Database
import Mathlib.Data.List.Sort

/-!
# Subscription arithmetic

What opening an order, and replaying or rolling one back for a refund, does to
the buyer's row. None of these functions touches money: `SameWallet` says so
once for each, and the transactions rely on nothing else about them.

Calendar arithmetic and the `float64` price formulas are parameters, collected
in `Runtime`; every result below holds for all of them.
-/
namespace ForestPanel

open Relational Outcome

/-- The fields of `config.Config` these transactions read. -/
structure Config where
  appURL : String
  orderCancelRecoverTTL : Int
  planChangeEnable : Bool
  surplusEnable : Bool
  newOrderEventID : Int
  renewOrderEventID : Int
  changeOrderEventID : Int
  inviteCommission : Int
  commissionFirstTime : Bool
  commissionAutoCheckEnable : Bool
  commissionAutoCheckMinutes : Int
  withdrawCloseEnable : Bool
deriving Repr, DecidableEq

/-- What `checkoutFingerprint` hashes. -/
structure FingerprintPayload where
  paymentID : Int
  gateway : String
  config : String
  userID : Int
  tradeNo : String
  total : Int
  notifyURL : String
  returnURL : String
  tokenHash : String
deriving Repr, DecidableEq

/-- Library and floating point functions the code calls. -/
structure Runtime where
  /-- `time.Unix(t, 0).AddDate(0, months, 0).Unix()`. -/
  addMonths : Int → Int → Int
  /-- Equal `Month()` and equal `Day()` of two Unix times. -/
  sameMonthDay : Int → Int → Bool
  /-- The integer part of `remainingTrafficRatio*paidTotal`, from the quota, the
  used traffic and the price paid. -/
  oneTimeSurplus : Int → Int → Int → Int
  /-- The integer part of `orderSurplusAmount`, from the price sum, the covered
  and the remaining seconds, the quota and the used traffic. -/
  periodSurplus : Int → Int → Int → Int → Int → Int
  /-- `int64(float64(total)*(percent/100) + float64(fixed) + 0.5)`. -/
  handlingFee : Int → Float8 → Int → Int
  /-- `Scheme + "://" + Host` of an `http` or `https` URL, else the empty text. -/
  publicBase : String → String
  /-- Hex SHA-256 of a text. -/
  sha256 : String → String
  /-- Hex SHA-256 of the JSON text of the payload. -/
  fingerprint : FingerprintPayload → String

def trafficGB : Int := 1073741824

def planTransferEnableBytes (value : Int) : Int :=
  if value ≤ 0 then 0 else if trafficGB ≤ value then value else value * trafficGB

def periodMonths : Period → Option Int
  | .monthPrice => some 1
  | .quarterPrice => some 3
  | .halfYearPrice => some 6
  | .yearPrice => some 12
  | .twoYearPrice => some 24
  | .threeYearPrice => some 36
  | .onetimePrice | .resetPrice | .deposit => none

/-- `nextExpiredAtAt`; `nextExpiredAt` is the case `effectiveAt = now`. -/
def nextExpiredAtAt (rt : Runtime) (period : Period) (expiredAt : Option Int)
    (effectiveAt : Int) : Int :=
  let base := match expiredAt with
    | some e => if effectiveAt < e then e else effectiveAt
    | none => effectiveAt
  match periodMonths period with
  | some months => rt.addMonths base months
  | none => base

def applyOrderPeriod (rt : Runtime) (now : Int) (order : OrderRecord) (plan : PlanRecord)
    (userRow : UserRecord) : UserRecord :=
  let expiredAt := if order.type = .change then some now else userRow.expiredAt
  let sameDay := match expiredAt with
    | some e => order.type = .renewal && rt.sameMonthDay e now
    | none => false
  let resetUsage : Bool := expiredAt.isNone || order.type = .purchase || sameDay
  { userRow with
    transferEnable := planTransferEnableBytes plan.transferEnable
    deviceLimit := plan.deviceLimit
    u := if resetUsage then 0 else userRow.u
    d := if resetUsage then 0 else userRow.d
    planID := some plan.id
    groupID := some plan.groupID
    expiredAt := some (nextExpiredAtAt rt order.period expiredAt now) }

/-- The unused traffic is carried over in whole GiB; below 2^53 bytes the
`float64` division by 2^30 is exact. -/
def applyOrderOneTime (order : OrderRecord) (plan : PlanRecord) (userRow : UserRecord) :
    UserRecord :=
  let notUsed := userRow.transferEnable - (userRow.u + userRow.d)
  let carried := if order.surplusOrderIDs.isNone ∧ 0 < notUsed ∧ userRow.expiredAt.isNone then
    notUsed / trafficGB else 0
  { userRow with
    u := 0
    d := 0
    transferEnable := planTransferEnableBytes (plan.transferEnable + carried)
    deviceLimit := plan.deviceLimit
    planID := some plan.id
    groupID := some plan.groupID
    expiredAt := none }

def applyOrderCompletionEvent (cfg : Config) (orderType : OrderType) (userRow : UserRecord) :
    UserRecord :=
  let eventID := match orderType with
    | .purchase => some cfg.newOrderEventID
    | .renewal => some cfg.renewOrderEventID
    | .change => some cfg.changeOrderEventID
    | .reset | .deposit => none
  if eventID = some 1 then { userRow with u := 0, d := 0 } else userRow

/-- The `switch order.Period` of `openOrderTx` with what follows it. -/
def applyOpenedOrder (rt : Runtime) (cfg : Config) (now : Int) (order : OrderRecord)
    (plan : PlanRecord) (userRow : UserRecord) : UserRecord :=
  let applied := match order.period with
    | .onetimePrice => applyOrderOneTime order plan userRow
    | .resetPrice => { userRow with u := 0, d := 0 }
    | _ => applyOrderPeriod rt now order plan userRow
  { applyOrderCompletionEvent cfg order.type applied with speedLimit := plan.speedLimit }

def effectiveOrderAt (order : OrderRecord) : Int :=
  match order.paidAt with
  | some paidAt => if 0 < paidAt then paidAt else order.createdAt
  | none => order.createdAt

def applyHistoricalOrder (rt : Runtime) (userRow : UserRecord) (order : OrderRecord)
    (plan : PlanRecord) : UserRecord :=
  let applied := match order.period with
    | .onetimePrice => applyOrderOneTime order plan userRow
    | .resetPrice => { userRow with u := 0, d := 0 }
    | _ => applyOrderPeriod rt (effectiveOrderAt order) order plan userRow
  { applied with speedLimit := plan.speedLimit }

/-- The row a replay starts from; alone it is `clearSubscriptionForRefund`. -/
def clearSubscriptionForRefund (current : UserRecord) : UserRecord :=
  { current with
    u := 0
    d := 0
    transferEnable := 0
    deviceLimit := none
    groupID := none
    planID := none
    speedLimit := none
    expiredAt := none }

def rollbackRenewalSubscription (rt : Runtime) (current : UserRecord) (refunded : OrderRecord) :
    Except ServiceError UserRecord := do
  let months ← require (periodMonths refunded.period) .refundTargetNotSupported
  match current.expiredAt with
  | none => pure (clearSubscriptionForRefund current)
  | some expiredAt =>
    let restoredAt := rt.addMonths expiredAt (-months)
    pure { current with expiredAt := if restoredAt ≤ 0 then none else some restoredAt }

def preserveUserUsage (current restored : UserRecord) : UserRecord :=
  if restored.transferEnable ≤ 0 then { restored with u := 0, d := 0 }
  else
    let u := min current.u restored.transferEnable
    { restored with u, d := min current.d (restored.transferEnable - u) }

/-- `ORDER BY COALESCE(paid_at, created_at) ASC, id ASC`. -/
def replayOrder (a b : OrderRecord) : Prop :=
  a.paidAt.getD a.createdAt < b.paidAt.getD b.createdAt ∨
    (a.paidAt.getD a.createdAt = b.paidAt.getD b.createdAt ∧ a.id ≤ b.id)

instance : DecidableRel replayOrder := fun a b => by
  unfold replayOrder
  infer_instance

/-- The loop over the rows: each is applied with its plan, which must exist. -/
def replay (rt : Runtime) (db : Db) (start : UserRecord) :
    List OrderRecord → Except ServiceError UserRecord
  | [] => .ok start
  | order :: rest => do
    let plan ← require (db.plans.find? order.planID) .planNotFound
    replay rt db (applyHistoricalOrder rt start order plan) rest

structure SameWallet (a b : UserRecord) : Prop where
  id : a.id = b.id
  balance : a.balance = b.balance
  commissionBalance : a.commissionBalance = b.commissionBalance

theorem SameWallet.refl (a : UserRecord) : SameWallet a a := ⟨rfl, rfl, rfl⟩

theorem SameWallet.trans {a b c : UserRecord} (h : SameWallet a b) (k : SameWallet b c) :
    SameWallet a c :=
  ⟨h.id.trans k.id, h.balance.trans k.balance, h.commissionBalance.trans k.commissionBalance⟩

theorem applyOrderCompletionEvent_wallet (cfg : Config) (t : OrderType) (row : UserRecord) :
    SameWallet (applyOrderCompletionEvent cfg t row) row := by
  unfold applyOrderCompletionEvent
  dsimp only
  split_ifs
  · exact ⟨rfl, rfl, rfl⟩
  · exact .refl row

theorem applyOpenedOrder_wallet (rt : Runtime) (cfg : Config) (now : Int) (order : OrderRecord)
    (plan : PlanRecord) (row : UserRecord) :
    SameWallet (applyOpenedOrder rt cfg now order plan row) row := by
  have event := applyOrderCompletionEvent_wallet cfg order.type
  unfold applyOpenedOrder
  dsimp only
  split <;> exact ⟨(event _).id, (event _).balance, (event _).commissionBalance⟩

theorem applyHistoricalOrder_wallet (rt : Runtime) (row : UserRecord) (order : OrderRecord)
    (plan : PlanRecord) : SameWallet (applyHistoricalOrder rt row order plan) row := by
  unfold applyHistoricalOrder
  dsimp only
  split <;> exact ⟨rfl, rfl, rfl⟩

theorem clearSubscriptionForRefund_wallet (row : UserRecord) :
    SameWallet (clearSubscriptionForRefund row) row := ⟨rfl, rfl, rfl⟩

theorem preserveUserUsage_wallet (current restored : UserRecord) :
    SameWallet (preserveUserUsage current restored) restored := by
  unfold preserveUserUsage
  split <;> exact ⟨rfl, rfl, rfl⟩

theorem rollbackRenewalSubscription_wallet (rt : Runtime) (current : UserRecord)
    (refunded : OrderRecord) (row : UserRecord)
    (returned : rollbackRenewalSubscription rt current refunded = .ok row) :
    SameWallet row current := by
  simp only [rollbackRenewalSubscription, bind_eq_ok] at returned
  obtain ⟨months, -, returned⟩ := returned
  split at returned
  · rw [pure_eq_ok] at returned
    exact returned ▸ clearSubscriptionForRefund_wallet current
  · rw [pure_eq_ok] at returned
    exact returned ▸ ⟨rfl, rfl, rfl⟩

theorem replay_wallet (rt : Runtime) (db : Db) (orders : List OrderRecord) (start row : UserRecord)
    (returned : replay rt db start orders = .ok row) : SameWallet row start := by
  induction orders generalizing start with
  | nil =>
    cases returned
    exact .refl _
  | cons order rest ih =>
    simp only [replay, bind_eq_ok] at returned
    obtain ⟨plan, -, returned⟩ := returned
    exact (ih _ returned).trans (applyHistoricalOrder_wallet rt start order plan)

end ForestPanel
