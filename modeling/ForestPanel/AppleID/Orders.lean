import ForestPanel.AppleID.Tables
import ForestPanel.Store.Rows

/-!
# Ordering and paying for an Apple ID

Every function is one transaction. It takes the clock it reads, the trade number it makes up and
the items that other transactions have locked.
-/
namespace ForestPanel.AppleID

open Relational Outcome

/-- `reservationTTL` in seconds. -/
def reservationTTL : Int := 900

namespace Store

def expiredOrder (now : Int) (o : AppleOrder) : Bool :=
  o.status = .pending && o.reservedUntil.any (· < now)

def expiredItem (now : Int) (i : Inventory) : Bool :=
  i.status = .reserved && i.reservedUntil.any (· < now)

/-- `releaseExpiredReservationsTx`: the two tables are swept by a column of their own. -/
def releaseExpiredReservations (now : Int) (s : Store) : Store :=
  { s with
    orders := s.orders.updateWhere (expiredOrder now) (AppleOrder.expire now)
      (AppleOrder.expire_preserves now)
    inventory := s.inventory.updateWhere (expiredItem now) (Inventory.release now)
      (Inventory.release_preserves now)
    audits := s.audits ++ (s.orders.rows.filter (expiredOrder now)).map fun o =>
      ⟨o.id, "reservation_expired", now⟩ }

structure CreateOrderRequest where
  productID : Int
  idempotencyKey : String
deriving Repr, DecidableEq

def newOrder (userID : Int) (p : Product) (tradeNo key : String) (now id : Int) : AppleOrder where
  id
  userID
  productID := p.id
  productName := p.name
  region := p.region
  ownedShadowrocket := p.ownedShadowrocket
  afterSales := p.afterSales
  price := p.price
  handlingAmount := 0
  tradeNo
  idempotencyKey := key
  paymentID := none
  callbackNo := none
  status := .pending
  inventoryID := none
  reservedUntil := some (now + reservationTTL)
  paidAt := none
  createdAt := now
  updatedAt := now

def keyed (s : Store) (userID : Int) (key : String) : Option AppleOrder :=
  if key = "" then none else s.findKeyed userID key

def repeated (s : Store) (req : CreateOrderRequest) (existing : AppleOrder) :
    Except StockError (Store × AppleOrder) := do
  ensure (existing.productID = req.productID) .invalidParameter
  pure (s, existing)

/-- The order row, the item that it reserves, and the two references between them. -/
def placeOrder (userID : Int) (p : Product) (tradeNo key : String) (now : Int) (locked : List Int)
    (s : Store) : Except StockError (Store × AppleOrder) := do
  let order := newOrder userID p tradeNo key now (s.orderSeq + 1)
  let orders ← require (s.orders.insert? order) .duplicateRow
  let s := { s with orders, orderSeq := s.orderSeq + 1 }
  let item ← require (s.nextAvailable locked p.id) .outOfStock
  let s := s.updateItem item.id (fun _ => true)
    (Inventory.reserve order.id (now + reservationTTL) now)
    (Inventory.reserve_preserves order.id (now + reservationTTL) now)
  let s := s.updateOrder order.id (AppleOrder.setInventory item.id)
    (AppleOrder.setInventory_preserves item.id)
  pure (s.audit order.id "created" now, order)

/-- `raced` says that the order under the key was not there yet when it was looked up, and is
there when the row is inserted. -/
def createOrder (userID : Int) (req : CreateOrderRequest) (now : Int) (tradeNo : String)
    (raced : Bool) (locked : List Int) (s : Store) : Except StockError (Store × AppleOrder) := do
  ensure (0 < userID ∧ 0 < req.productID) .invalidParameter
  let key := trimSpace req.idempotencyKey
  ensure (key.utf8ByteSize ≤ 128) .invalidParameter
  let s := releaseExpiredReservations now s
  match if raced then none else s.keyed userID key with
  | some existing => s.repeated req existing
  | none => do
    let p ← require (s.products.find? req.productID) .productNotFound
    ensure (p.enabled = true) .productDisabled
    ensure (0 ≤ p.price) .invalidParameter
    -- `ON CONFLICT (user_id,idempotency_key) DO NOTHING`, and the second lookup.
    match s.keyed userID key with
    | some existing => s.repeated req existing
    | none => s.placeOrder userID p tradeNo key now locked

def ownsExternalTradeNo (tradeNo : String) : Bool :=
  "apple-".toList.isPrefixOf (trimSpace tradeNo).toList

/-- The order a payment can still be chosen for. -/
def payable (userID : Int) (tradeNo : String) (o : AppleOrder) : Bool :=
  o.userID = userID && o.tradeNo = trimSpace tradeNo && o.status = .pending

def setExternalPayment (userID : Int) (tradeNo : String) (paymentID handlingAmount now : Int)
    (s : Store) : Except StockError Store := do
  ensure (0 < userID ∧ 0 < paymentID ∧ 0 ≤ handlingAmount ∧ ownsExternalTradeNo tradeNo = true)
    .invalidParameter
  ensure (∃ o ∈ s.orders, payable userID tradeNo o = true) .orderPaidOrMissing
  pure { s with
    orders := s.orders.updateWhere (payable userID tradeNo)
      (AppleOrder.setPayment paymentID handlingAmount now)
      (AppleOrder.setPayment_preserves paymentID handlingAmount now) }

def reservationActive (o : AppleOrder) (i : Inventory) (now : Int) : Bool :=
  !(o.reservedUntil.any (· < now)) && !(i.reservedUntil.any (· < now))

/-- A pending order buys the item it has reserved in time; one that is late gives it back. -/
def sellReserved (o : AppleOrder) (now : Int) (s : Store) : Store × Option Int :=
  match if o.status = .pending then o.inventoryID.bind s.inventory.find? else none with
  | none => (s, none)
  | some i =>
    if i.status = .reserved ∧ i.reservedOrderID = some o.id then
      if reservationActive o i now = true then
        (s.updateItem i.id (fun _ => true) (Inventory.sell o.id now)
          (Inventory.sell_preserves o.id now), some i.id)
      else
        (s.updateItem i.id (fun i => i.status = .reserved && i.reservedOrderID = some o.id)
          (Inventory.release now) (Inventory.release_preserves now), none)
    else (s, none)

def sellAvailable (o : AppleOrder) (now : Int) (locked : List Int) (s : Store) :
    Store × Option Int :=
  match s.nextAvailable locked o.productID with
  | none => (s, none)
  | some i =>
    (s.updateItem i.id (fun _ => true) (Inventory.sell o.id now)
      (Inventory.sell_preserves o.id now), some i.id)

/-- The item an order that has been paid gets, if there is one. -/
def fulfil (o : AppleOrder) (now : Int) (locked : List Int) (s : Store) : Store × Option Int :=
  match sellReserved o now s with
  | (s, some id) => (s, some id)
  | (s, none) => sellAvailable o now locked s

def paidAction (o : AppleOrder) (allowCancelled : Bool) : String :=
  if allowCancelled then "manual_paid"
  else if o.status = .canceled then "late_payment_fulfilled"
  else "paid"

def settleOrder (o : AppleOrder) (callbackNo : String) (allowCancelled : Bool) (now : Int)
    (locked : List Int) (s : Store) : Store :=
  match fulfil o now locked s with
  | (s, none) =>
    (s.updateOrder o.id (AppleOrder.settle .manual none callbackNo now)
      (AppleOrder.settle_preserves .manual none callbackNo now)).audit o.id "late_payment" now
  | (s, some id) =>
    (s.updateOrder o.id (AppleOrder.settle .paid (some id) callbackNo now)
      (AppleOrder.settle_preserves .paid (some id) callbackNo now)).audit o.id
        (paidAction o allowCancelled) now

/-- What the gateway confirmed is what the order asks for; an order that costs nothing needs no
confirmation. -/
def confirmed (o : AppleOrder) (paymentID amount : Option Int) : Bool :=
  match paymentID, amount with
  | none, none => o.price = 0 && o.handlingAmount = 0
  | some paymentID, some amount =>
    0 < paymentID && o.paymentID = some paymentID && 0 < amount &&
      amount = o.price + o.handlingAmount
  | _, _ => false

/-- Paid, with or without an item, and perhaps refunded. -/
def isSettled (o : AppleOrder) : Bool :=
  o.status = .paid || o.status = .manual || o.status = .refunded

def markExternalPaid (tradeNo callbackNo : String) (allowCancelled : Bool)
    (paymentID amount : Option Int) (now : Int) (locked : List Int) (s : Store) :
    Except StockError Store := do
  ensure (trimSpace tradeNo ≠ "" ∧ trimSpace callbackNo ≠ "") .invalidParameter
  let o ← require (s.orders.findUniq? (trimSpace tradeNo)) .orderNotFound
  if isSettled o = true then pure s
  else do
    ensure (0 ≤ o.price ∧ 0 ≤ o.handlingAmount ∧ o.price ≤ maxInt64 - o.handlingAmount)
      .invalidParameter
    ensure (confirmed o paymentID amount = true) .invalidParameter
    ensure (o.status = .pending ∨ o.status = .canceled) .orderPaid
    pure (settleOrder o (trimSpace callbackNo) allowCancelled now locked s)

/-- The row whose credentials the buyer is shown, with its order. -/
def delivery (userID : Int) (tradeNo : String) (s : Store) :
    Except StockError (AppleOrder × Inventory) := do
  ensure (0 < userID ∧ ownsExternalTradeNo tradeNo = true) .invalidParameter
  let o ← require (s.orders.rows.find? fun o =>
    o.userID = userID && o.tradeNo = trimSpace tradeNo) .orderNotFound
  ensure (o.status = .paid) .deliveryNotReady
  let id ← require o.inventoryID .deliveryNotReady
  let i ← require (s.inventory.rows.find? fun i =>
    i.id = id && i.status = .sold && i.soldOrderID = some o.id) .deliveryNotReady
  pure (o, i)

def releaseItemOf (o : AppleOrder) (now : Int) (s : Store) : Store :=
  match o.inventoryID with
  | none => s
  | some id =>
    s.updateItem id (fun i => i.status = .reserved && i.reservedOrderID = some o.id)
      (Inventory.release now) (Inventory.release_preserves now)

def cancelOrder (userID : Int) (tradeNo : String) (now : Int) (s : Store) :
    Except StockError Store := do
  ensure (0 < userID ∧ ownsExternalTradeNo tradeNo = true) .invalidParameter
  let o ← require (s.orders.rows.find? fun o =>
    o.userID = userID && o.tradeNo = trimSpace tradeNo) .orderNotFound
  if o.status = .canceled then pure s
  else do
    ensure (o.status = .pending) .orderPaid
    let s := s.updateOrder o.id (AppleOrder.cancel now) (AppleOrder.cancel_preserves now)
    pure ((releaseItemOf o now s).audit o.id "cancel" now)

end Store

end ForestPanel.AppleID
