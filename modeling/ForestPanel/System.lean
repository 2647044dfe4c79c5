import ForestPanel.Lib.Transition
import ForestPanel.Order.Commission
import ForestPanel.Order.Refund
import ForestPanel.Order.Save
import ForestPanel.Order.Settle
import ForestPanel.Payment.Checkout

/-!
# The system

The state is the database, the checkouts that are between their transactions,
and the payment links the gateways have issued. Every input is one atomic step;
it carries its own clock and the configuration it reads, so clocks may disagree
and settings may change at any time. Concurrent requests are the interleavings
of inputs.
-/
namespace ForestPanel

open Relational Outcome Transition

/-- A `Checkout` whose first transaction has committed. -/
inductive InFlight
  /-- About to call `MarkOrderPaid` for an order without anything to pay. -/
  | free (tradeNo : String)
  /-- The gateway is being called. -/
  | creating (call : CheckoutCall)
  /-- The call failed and the claim is being released. -/
  | releasing (call : CheckoutCall)
  /-- The gateway's answer is about to be stored. -/
  | answered (call : CheckoutCall) (encoded : CheckoutSnapshot) (result : CheckoutResult)
  | done
deriving Repr, DecidableEq

/-- A payment link that exists at a gateway. -/
structure Link where
  tradeNo : String
  paymentID : Int
  amount : Int
deriving Repr, DecidableEq

def CheckoutCall.link (call : CheckoutCall) : Link := ⟨call.tradeNo, call.paymentID, call.total⟩

structure Sys where
  db : Db
  inFlight : List InFlight
  links : List Link

inductive Op
  | saveOrder (userID : Int) (req : OrderSaveRequest) (tradeNo : String)
  | cancelOrder (userID : Int) (tradeNo : String)
  | handleQueuedOrder (tradeNo : String)
  /-- A verified gateway callback: `Notify` calls `MarkOrderPaid`. -/
  | notify (tradeNo callbackNo : String) (paymentID amount : Int)
  /-- The administrator's `MarkOrderPaid`, after its check of the status. -/
  | completeManually (tradeNo : String)
  | refundManagedOrder (tradeNo : String)
  | handleQueuedCommission (tradeNo : String)
  | updateOrderCommissionStatus (tradeNo : String) (commissionStatus : Option Int)
  | checkout (userID : Int) (req : CheckoutRequest) (claim : String)
  /-- The free checkout `n` calls `MarkOrderPaid`. -/
  | completeFree (n : Nat)
  /-- The gateway has created the link of call `n` but not answered yet. -/
  | gatewayLinked (n : Nat)
  | gatewayFailed (n : Nat)
  | gatewayAnswered (n : Nat) (result : CheckoutResult)
  | releaseAttemptClaim (n : Nat)
  | releaseOrderClaim (n : Nat)
  | persistCheckoutResult (n : Nat)
  /-- The administrator edits the payment methods. -/
  | editPayments (payments : Table PaymentRecord.id PaymentRecord.id)

structure Input where
  now : Int
  cfg : Config
  op : Op

def gatewayConfirmation (callbackNo : String) (paymentID amount : Int) :
    OrderPaymentConfirmation where
  callbackNo
  allowCancelled := false
  manual := false
  paymentID := some paymentID
  amount := some amount

namespace Sys

/-- A transaction on the database alone. -/
def withDb (s : Sys) (result : Except ServiceError Db) : Sys :=
  { s with db := commit s.db result }

def setInFlight (s : Sys) (n : Nat) (flight : InFlight) : Sys :=
  { s with inFlight := s.inFlight.set n flight }

@[simp] theorem setInFlight_db (s : Sys) (n : Nat) (flight : InFlight) :
    (s.setInFlight n flight).db = s.db := rfl

/-- The first transaction of a checkout leaves work behind unless it answered. -/
def beginCheckout (s : Sys) : Except ServiceError (Db × CheckoutOutcome) → Sys
  | .error _ => s
  | .ok (db, .free tradeNo) => { s with db, inFlight := s.inFlight ++ [.free tradeNo] }
  | .ok (db, .creating call) => { s with db, inFlight := s.inFlight ++ [.creating call] }
  | .ok (db, .answered _) => { s with db }

/-- An answer that cannot be stored counts as a failed call; its link exists. -/
def gatewayAnswered (s : Sys) (n : Nat) (call : CheckoutCall) (result : CheckoutResult) : Sys :=
  let s := { s with links := s.links ++ [call.link] }
  match encodeCheckoutSnapshot call.paymentID call.total result with
  | .ok encoded => s.setInFlight n (.answered call encoded result)
  | .error _ => s.setInFlight n (.releasing call)

/-- The steps of a checkout after its first transaction. -/
def continueCheckout (rt : Runtime) (s : Sys) (i : Input) (n : Nat) : InFlight → Sys
  | .free tradeNo =>
    match i.op with
    | .completeFree _ =>
      (s.withDb (markOrderPaid rt i.cfg i.now tradeNo (freeConfirmation tradeNo) s.db)).setInFlight n
        .done
    | _ => s
  | .creating call =>
    match i.op with
    | .gatewayLinked _ => { s with links := s.links ++ [call.link] }
    | .gatewayFailed _ => s.setInFlight n (.releasing call)
    | .gatewayAnswered _ result => s.gatewayAnswered n call result
    | _ => s
  | .releasing call =>
    match i.op with
    | .releaseAttemptClaim _ => { s with db := ForestPanel.releaseAttemptClaim call s.db }
    | .releaseOrderClaim _ =>
      ({ s with db := ForestPanel.releaseOrderClaim i.now call s.db } : Sys).setInFlight n .done
    | _ => s
  | .answered call encoded result =>
    match i.op with
    | .persistCheckoutResult _ =>
      ({ s with db := (ForestPanel.persistCheckoutResult i.now call encoded result s.db).1 }
        : Sys).setInFlight n .done
    | _ => s
  | .done => s

def step (rt : Runtime) (s : Sys) (i : Input) : Sys :=
  match i.op with
  | .saveOrder userID req tradeNo => s.withDb (saveOrder rt i.cfg i.now userID req tradeNo s.db)
  | .cancelOrder userID tradeNo => s.withDb (cancelOrder i.cfg i.now userID tradeNo s.db)
  | .handleQueuedOrder tradeNo => s.withDb (handleQueuedOrder rt i.cfg i.now tradeNo s.db)
  | .notify tradeNo callbackNo paymentID amount =>
    s.withDb (markOrderPaid rt i.cfg i.now tradeNo
      (gatewayConfirmation callbackNo paymentID amount) s.db)
  | .completeManually tradeNo =>
    s.withDb (markOrderPaid rt i.cfg i.now tradeNo (manualConfirmation (trimSpace tradeNo)) s.db)
  | .refundManagedOrder tradeNo => s.withDb (refundManagedOrder rt i.now tradeNo s.db)
  | .handleQueuedCommission tradeNo => s.withDb (handleQueuedCommission i.cfg i.now tradeNo s.db)
  | .updateOrderCommissionStatus tradeNo commissionStatus =>
    s.withDb (updateOrderCommissionStatus i.now tradeNo commissionStatus s.db)
  | .checkout userID req claim =>
    s.beginCheckout (checkout rt i.cfg i.now userID req claim s.db)
  | .editPayments payments => { s with db := { s.db with payments } }
  | .completeFree n | .gatewayLinked n | .gatewayFailed n | .gatewayAnswered n _
  | .releaseAttemptClaim n | .releaseOrderClaim n | .persistCheckoutResult n =>
    match s.inFlight[n]? with
    | some flight => s.continueCheckout rt i n flight
    | none => s

/-- The confirmation a step hands to `MarkOrderPaid`, with its trade number. -/
def confirmation (s : Sys) : Op → Option (String × OrderPaymentConfirmation)
  | .notify tradeNo callbackNo paymentID amount =>
    some (tradeNo, gatewayConfirmation callbackNo paymentID amount)
  | .completeManually tradeNo => some (tradeNo, manualConfirmation (trimSpace tradeNo))
  | .completeFree n =>
    match s.inFlight[n]? with
    | some (.free tradeNo) => some (tradeNo, freeConfirmation tradeNo)
    | _ => none
  | _ => none

end Sys

/-! ## The order a step is about

The checks the code makes before it moves money or writes a row, on the state a
step is taken from. -/

/-- `MarkOrderPaid` finds nothing against opening `order` by the confirmation `c`. -/
def acceptsConfirmation (db : Db) (now : Int) (tradeNo : String) (c : OrderPaymentConfirmation)
    (order : OrderRecord) : Bool :=
  let attempt := confirmationAttempt db order c
  (order.status = .pending || order.status = .cancelled &&
      (c.allowCancelled || db.canRecoverCancelledOrder tradeNo now)) &&
    (checkAttempt order c attempt).isOk && (confirmedOrder order c attempt).isOk &&
    (lockPaymentCallback db tradeNo (trimSpace c.callbackNo) c.paymentID).isOk

/-- The order the step opens, if it opens one. -/
def Sys.opening (s : Sys) (i : Input) : Option OrderRecord :=
  match s.confirmation i.op with
  | some (tradeNo, c) =>
    (s.db.orders.findUniq? (trimSpace tradeNo)).filter
      (acceptsConfirmation s.db i.now (trimSpace tradeNo) c)
  | none =>
    match i.op with
    | .handleQueuedOrder tradeNo =>
      (s.db.orders.findUniq? (trimSpace tradeNo)).filter fun o => o.status = .processing
    | _ => none

/-- The order the step refunds, if it refunds one. -/
def Sys.refunding (s : Sys) (i : Input) : Option OrderRecord :=
  match i.op with
  | .refundManagedOrder tradeNo =>
    (s.db.orders.findUniq? (trimSpace tradeNo)).filter fun o =>
      o.status = .completed && refundTargetSupported o && !hasLaterCompleted s.db o
  | _ => none

/-- An order row an older runtime marked as paid and left to the queue: nothing
else refers to it, and its buyer paid its balance part. -/
structure PaidUnopened (o : OrderRecord) : Prop where
  status : o.status = .processing
  amounts : 0 ≤ o.balanceAmount.getD 0 ∧ 0 ≤ o.refundAmount.getD 0
  plain : o.surplusOrderIDs = none ∧ o.couponID = none
  unsettled : o.paymentID = none ∧ o.callbackNo = none
  uncredited : o.commissionStatus ≠ .paid ∧ o.actualCommissionBalance = none

/-- A database the code starts on: users, plans, coupons, campaigns and payment
methods of any kind, and no orders but paid ones that were never opened. -/
structure Db.Start (db : Db) : Prop where
  balances : ∀ u ∈ db.users, 0 ≤ u.balance
  coupons : ∀ c ∈ db.coupons, (∀ limit, c.limitUse = some limit → 0 ≤ limit) ∧
    ∀ limit, c.limitUseWithUser = some limit → 0 ≤ limit
  orders : ∀ o ∈ db.orders, PaidUnopened o
  ids : ∀ o ∈ db.orders, o.id ≤ db.orderSeq
  attempts : db.attempts.rows = []
  commissionLogs : db.commissionLogs = []
  ledger : db.ledger = db.orders.rows.map fun o => ⟨o.userID, o.id, .balancePart, -balancePart o, 0⟩

def Sys.Start (s : Sys) : Prop := s.db.Start ∧ s.inFlight = [] ∧ s.links = []

/-! ## A small panel

Buyers and monthly plans, in January 1970: `runtime` takes a month as 31 days and
computes the prices in integers, which is exact there; the hashes are those of
the checkouts that the examples make. -/

namespace Small

/-- The hashes of the checkouts below: `card` for the orders "A" and "B" of the
buyers 1 and 2 over 1000, and `app` for the order "A". -/
def fingerprints : List ((Int × String) × String) :=
  [((1, "A"), "45b973257fa04ce86423931759c703e871ddb036c19f78eab088bd6540ed88b5"),
    ((1, "B"), "19b95c6d85b8b9a67301e9b3cbb36db8f894740a09aab3a71d3dc7c5f022dcbf"),
    ((2, "A"), "941bfd94673bffb0693950bd9d0a4cdda0c82bbf155457b9f655588c16a3a582")]

def runtime : Runtime where
  addMonths t months := t + months * 2678400
  sameMonthDay a b := a / 86400 = b / 86400
  oneTimeSurplus quota used paid := if quota ≤ used then 0 else paid * (quota - used) / quota
  periodSurplus sum range left quota used :=
    if range ≤ 31 * 86400 then
      sum * left * min (left * quota) ((quota - used) * range) / (range * range * quota)
    else
      let firstMonth := left % 2592000
      sum * (min (firstMonth * quota) ((quota - used) * 2592000) + (left - firstMonth) * quota) /
        (range * quota)
  handlingFee total percent fixed :=
    match percent with
    | .finite p => (total * p / 100 + fixed + 1 / 2).floor
    | .nan | .inf | .negInf => fixed
  publicBase url := url
  sha256 text :=
    if text = "" then "e3b0c44298fc1c149afbf4c8996fb92427ae41e4649b934ca495991b7852b855" else text
  fingerprint payload :=
    (fingerprints.lookup (payload.paymentID, payload.tradeNo)).getD payload.tradeNo

def config : Config where
  appURL := "https://panel.test"
  orderCancelRecoverTTL := 1800
  planChangeEnable := true
  surplusEnable := true
  newOrderEventID := 0
  renewOrderEventID := 0
  changeOrderEventID := 0
  inviteCommission := 10
  commissionFirstTime := false
  commissionAutoCheckEnable := true
  commissionAutoCheckMinutes := 0
  withdrawCloseEnable := false

def buyer (id balance : Int) : UserRecord where
  id
  inviteUserID := none
  balance
  commissionBalance := 0
  discount := none
  commissionType := 0
  commissionRate := none
  u := 0
  d := 0
  transferEnable := 0
  deviceLimit := none
  banned := 0
  groupID := none
  planID := none
  speedLimit := none
  expiredAt := none

def plan (id price : Int) : PlanRecord where
  id
  groupID := 1
  transferEnable := 100
  deviceLimit := none
  speedLimit := none
  shown := 1
  renew := 1
  monthPrice := some price
  quarterPrice := none
  halfYearPrice := none
  yearPrice := none
  twoYearPrice := none
  threeYearPrice := none
  onetimePrice := none
  resetPrice := none
  capacityLimit := none

theorem one_buyer : ([buyer 1 0].map UserRecord.id).Nodup := List.nodup_singleton _

theorem two_buyers : ([buyer 1 0, buyer 2 0].map UserRecord.id).Nodup := by decide

theorem one_plan : ([plan 1 1000].map PlanRecord.id).Nodup := List.nodup_singleton _

def sys (users : Table UserRecord.id UserRecord.id) (plans : Table PlanRecord.id PlanRecord.id)
    (coupons : Table CouponRecord.id CouponRecord.id) : Sys where
  db := {
    users
    plans
    coupons
    campaigns := .empty
    payments := .empty
    orders := .empty
    attempts := .empty
    kv := .empty
    commissionLogs := []
    orderSeq := 0
    attemptSeq := 0
    ledger := [] }
  inFlight := []
  links := []

theorem sys_start {users : Table UserRecord.id UserRecord.id}
    {plans : Table PlanRecord.id PlanRecord.id} {coupons : Table CouponRecord.id CouponRecord.id}
    (balances : ∀ u ∈ users, 0 ≤ u.balance)
    (limits : ∀ c ∈ coupons, (∀ limit, c.limitUse = some limit → 0 ≤ limit) ∧
      ∀ limit, c.limitUseWithUser = some limit → 0 ≤ limit) :
    (sys users plans coupons).Start :=
  ⟨⟨balances, limits, fun _ member => (List.not_mem_nil member).elim,
    fun _ member => (List.not_mem_nil member).elim, rfl, rfl, rfl⟩, rfl, rfl⟩

def input (now : Int) (op : Op) : Input := ⟨now, config, op⟩

def save (now userID planID : Int) (tradeNo : String) : Input :=
  input now (.saveOrder userID ⟨planID, "month_price", "", 0⟩ tradeNo)

def card : PaymentRecord where
  id := 1
  positive := by decide
  uuid := "u1"
  payment := "EPay"
  config := "\x7b\x7d"
  notifyDomain := none
  handlingFeeFixed := some 50
  handlingFeePercent := none
  enable := 1

def app : PaymentRecord where
  id := 2
  positive := by decide
  uuid := "u2"
  payment := "AlipayF2F"
  config := "\x7b\x7d"
  notifyDomain := none
  handlingFeeFixed := none
  handlingFeePercent := none
  enable := 1

def offer (now : Int) : Input := input now (.editPayments ⟨[card, app], by decide, by decide⟩)

def pay (now userID methodID : Int) (tradeNo claim : String) : Input :=
  input now (.checkout userID ⟨tradeNo, methodID, "", ""⟩ claim)

end Small

end ForestPanel
