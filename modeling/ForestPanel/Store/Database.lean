import ForestPanel.Lib.Outcome
import ForestPanel.Store.Errors
import ForestPanel.Store.Rows
import ForestPanel.Store.Text

/-!
# The database and its statements

`Db` holds the tables the order, payment and commission transactions touch.
A transaction is a function from a database to an updated database or an error;
row locks make transactions that share a row serial, so each is atomic. Every
helper below is one SQL statement of the source, under its Go name.

`ledger` is ghost state: each transaction that moves a user's money on account
of an order records the movement there, and no transaction reads it.
-/
namespace ForestPanel

open Relational Outcome

structure Db where
  users : Table UserRecord.id UserRecord.id
  plans : Table PlanRecord.id PlanRecord.id
  coupons : Table CouponRecord.id CouponRecord.id
  campaigns : Table InviteCampaignRecord.id InviteCampaignRecord.id
  payments : Table PaymentRecord.id PaymentRecord.id
  orders : Table OrderRecord.id OrderRecord.tradeNo
  attempts : Table OrderPaymentAttempt.id OrderPaymentAttempt.method
  kv : Table RuntimeKV.k RuntimeKV.k
  commissionLogs : List CommissionLog
  orderSeq : Int
  attemptSeq : Int
  ledger : List Movement

namespace Db

def normalizeNullableExpiry (value : Option Int) : Option Int := value.filter fun v => 0 < v

def lockUser (db : Db) (userID : Int) : Except ServiceError UserRecord := do
  let row ← require (db.users.find? userID) .notFound
  pure { row with expiredAt := normalizeNullableExpiry row.expiredAt }

def setUserBalance (db : Db) (userID balance : Int) : Db :=
  { db with
    users := db.users.updateWhere (fun r => r.id = userID)
      (fun r => { r with balance }) fun _ => ⟨rfl, rfl⟩ }

def updateUserBalance (db : Db) (userID balance : Int) : Except ServiceError Db := do
  ensure (0 ≤ balance) .insufficientBalance
  pure (db.setUserBalance userID balance)

/-- Lock a user and write the balance `amount` above the one read. -/
def addToBalance (db : Db) (userID amount : Int) : Except ServiceError Db := do
  let userRow ← db.lockUser userID
  db.updateUserBalance userID (userRow.balance + amount)

def updateUserSubscription (db : Db) (row : UserRecord) : Db :=
  { db with
    users := db.users.updateWhere (fun r => r.id = row.id)
      (fun r => { r with
        balance := row.balance
        commissionBalance := row.commissionBalance
        u := row.u
        d := row.d
        transferEnable := row.transferEnable
        deviceLimit := row.deviceLimit
        groupID := row.groupID
        planID := row.planID
        speedLimit := row.speedLimit
        expiredAt := row.expiredAt }) fun _ => ⟨rfl, rfl⟩ }

/-- Ghost: note why a user's money changes. -/
def record (db : Db) (userID orderID : Int) (reason : Reason)
    (balance commissionBalance : Int) : Db :=
  { db with ledger := db.ledger ++ [⟨userID, orderID, reason, balance, commissionBalance⟩] }

def lockOrder (db : Db) (userID : Int) (tradeNo : String) : Option OrderRecord :=
  (db.orders.findUniq? tradeNo).filter fun o => o.userID = userID

def lockOrderByTradeNo (db : Db) (tradeNo : String) : Option OrderRecord :=
  db.orders.findUniq? tradeNo

/-- `SELECT EXISTS(… WHERE user_id = $1 AND status IN (0, 1))`. -/
def hasPendingOrder (db : Db) (userID : Int) : Bool :=
  db.orders.rows.any fun o => o.userID = userID && (o.status = .pending || o.status = .processing)

/-- `SELECT EXISTS(… WHERE user_id = $1 AND status NOT IN (0, 2))`. -/
def haveValidOrder (db : Db) (userID : Int) : Bool :=
  db.orders.rows.any fun o => o.userID = userID && !(o.status = .pending || o.status = .cancelled)

/-- The update of one order row; `f` is the `SET` list. -/
def updateOrder (db : Db) (id : Int) (f : OrderRecord → OrderRecord)
    (hf : Preserves OrderRecord.id OrderRecord.tradeNo f) : Db :=
  { db with orders := db.orders.updateWhere (fun r => r.id = id) f hf }

def updateOrderPayment (db : Db) (order : OrderRecord) (now : Int) : Db :=
  db.updateOrder order.id (fun r => { r with
    paymentID := order.paymentID
    handlingAmount := order.handlingAmount
    updatedAt := now }) fun _ => ⟨rfl, rfl⟩

def updateOrderStatus (db : Db) (order : OrderRecord) : Db :=
  db.updateOrder order.id (fun r => { r with
    status := order.status
    updatedAt := order.updatedAt }) fun _ => ⟨rfl, rfl⟩

def updateOrderPaymentState (db : Db) (order : OrderRecord) : Db :=
  db.updateOrder order.id (fun r => { r with
    status := order.status
    callbackNo := order.callbackNo
    paidAt := order.paidAt
    updatedAt := order.updatedAt }) fun _ => ⟨rfl, rfl⟩

def updateOrderCommissionState (db : Db) (order : OrderRecord) : Db :=
  db.updateOrder order.id (fun r => { r with
    commissionStatus := order.commissionStatus
    actualCommissionBalance := order.actualCommissionBalance
    updatedAt := order.updatedAt }) fun _ => ⟨rfl, rfl⟩

def updateOrderRefundState (db : Db) (order : OrderRecord) : Db :=
  db.updateOrder order.id (fun r => { r with
    status := order.status
    commissionStatus := order.commissionStatus
    actualCommissionBalance := order.actualCommissionBalance
    updatedAt := order.updatedAt }) fun _ => ⟨rfl, rfl⟩

/-- The update inside `disableDepositCommissionTx`. -/
def disableDepositCommission (db : Db) (order : OrderRecord) (now : Int) : Db :=
  db.updateOrder order.id (fun r => { r with
    commissionBalance := 0
    commissionStatus := .paid
    actualCommissionBalance := some 0
    updatedAt := now }) fun _ => ⟨rfl, rfl⟩

/-- `UPDATE v2_order SET status = 4 WHERE id IN (…)`: no guard on the old status. -/
def markSurplusOrdersClosed (db : Db) (ids : List Int) (now : Int) : Db :=
  { db with
    orders := db.orders.updateWhere (fun r => r.id ∈ ids)
      (fun r => { r with status := .closed, updatedAt := now }) fun _ => ⟨rfl, rfl⟩ }

/-- `UPDATE v2_order SET status = 3 WHERE status = 4 AND id IN (…)`. -/
def restoreSurplusOrdersForRefund (db : Db) (ids : List Int) (now : Int) : Db :=
  { db with
    orders := db.orders.updateWhere (fun r => r.status = .closed && r.id ∈ ids)
      (fun r => { r with status := .completed, updatedAt := now }) fun _ => ⟨rfl, rfl⟩ }

/-- `INSERT INTO v2_order` under the next identity value. -/
def insertOrder (db : Db) (draft : OrderRecord) : Except ServiceError Db := do
  let orders ← require (db.orders.insert? { draft with id := db.orderSeq + 1 }) .duplicateRow
  pure { db with orders, orderSeq := db.orderSeq + 1 }

def loadCoupon (db : Db) (code : String) : Option CouponRecord :=
  db.coupons.rows.find? fun c => c.code = code

/-- `SELECT COUNT(*) … WHERE coupon_id = $1 AND user_id = $2 AND status NOT IN (0, 2)`. -/
def couponUsedCount (db : Db) (couponID userID : Int) : Int :=
  db.orders.rows.countP fun o =>
    o.couponID = some couponID && o.userID = userID &&
      !(o.status = .pending || o.status = .cancelled)

def updateCouponLimit (db : Db) (couponID nextLimit : Int) : Db :=
  { db with
    coupons := db.coupons.updateWhere (fun c => c.id = couponID)
      (fun c => { c with limitUse := some nextLimit }) fun _ => ⟨rfl, rfl⟩ }

/-- `SELECT … WHERE user_id = $1 AND status IN (0, 1) ORDER BY id DESC LIMIT 1`. -/
def currentInviteCampaign (db : Db) (userID : Int) : Option InviteCampaignRecord :=
  (db.campaigns.rows.filter fun c =>
    c.userID = userID && (c.status = .active || c.status = .completed)).foldl
    (fun best c =>
      match best with
      | none => some c
      | some b => if b.id < c.id then some c else some b) none

def setCampaignStatus (db : Db) (campaignID : Int) (status : CampaignStatus) : Db :=
  { db with
    campaigns := db.campaigns.updateWhere (fun c => c.id = campaignID)
      (fun c => { c with status }) fun _ => ⟨rfl, rfl⟩ }

def cancelRecoveryKey (tradeNo : String) : String := "order:cancel:recover:" ++ tradeNo

/-- `INSERT … ON CONFLICT (k) DO UPDATE`. -/
def setCancelRecovery (db : Db) (tradeNo : String) (ttl now : Int) : Db :=
  let row : RuntimeKV := ⟨cancelRecoveryKey tradeNo, if 0 < ttl then now + ttl else 0⟩
  match db.kv.insert? row with
  | some kv => { db with kv }
  | none =>
    { db with
      kv := db.kv.updateWhere (fun r => r.k = row.k)
        (fun r => { r with expireAt := row.expireAt }) fun _ => ⟨rfl, rfl⟩ }

def canRecoverCancelledOrder (db : Db) (tradeNo : String) (now : Int) : Bool :=
  db.kv.rows.any fun r => r.k = cancelRecoveryKey tradeNo && (r.expireAt = 0 || now < r.expireAt)

def deleteCancelRecovery (db : Db) (tradeNo : String) : Db :=
  { db with kv := db.kv.deleteWhere fun r => r.k = cancelRecoveryKey tradeNo }

/-- `WHERE order_id = $1 AND payment_id = $2 FOR UPDATE`. -/
def lockOrderPaymentAttempt (db : Db) (orderID paymentID : Int) : Option OrderPaymentAttempt :=
  db.attempts.findUniq? (orderID, paymentID)

def insertCommissionLog (db : Db) (row : CommissionLog) : Db :=
  { db with commissionLogs := db.commissionLogs ++ [row] }

def deleteCommissionLog (db : Db) (tradeNo : String) : Db :=
  { db with commissionLogs := db.commissionLogs.filter fun l => l.tradeNo ≠ tradeNo }

end Db

end ForestPanel
