import ForestPanel.Lib.Outcome
import ForestPanel.Lib.Table
import ForestPanel.Store.Text
import Mathlib.Data.List.Sort

/-!
# Stock and orders of Apple IDs

An item of the stock is the credentials of one Apple ID. A pending order reserves an item for a
quarter of an hour, a paid one has bought it; the reservation stands in both tables.
-/
namespace ForestPanel.AppleID

open Relational Outcome

inductive StockError
  | invalidParameter
  | productNotFound
  | productDisabled
  | outOfStock
  | orderNotFound
  | orderPaid
  | deliveryNotReady
  | inventoryNotFound
  | duplicateInventory
  | productInUse
  | inventorySold
  | inventoryReserved
  | orderStatus
  /-- `payment.ErrOrderPaidOrMissing`. -/
  | orderPaidOrMissing
  /-- `payment.ErrPaymentMethodUnavailable`. -/
  | paymentMethodUnavailable
  /-- The database refused the statement. -/
  | duplicateRow
deriving Repr, DecidableEq

inductive InventoryStatus
  | available | reserved | sold
  /-- Taken out of the stock, before it was sold or as the replaced item of an order. -/
  | disabled
deriving Repr, DecidableEq

inductive OrderStatus
  | pending | paid | canceled | refunded
  /-- Paid when no item was left. -/
  | manual
deriving Repr, DecidableEq

structure Product where
  id : Int
  name : String
  region : String
  ownedShadowrocket : Bool
  price : Int
  afterSales : String
  enabled : Bool
  createdAt : Int
  updatedAt : Int
deriving Repr, DecidableEq

structure Inventory where
  id : Int
  productID : Int
  accountCiphertext : String
  passwordCiphertext : String
  accountFingerprint : String
  status : InventoryStatus
  reservedOrderID : Option Int
  reservedUntil : Option Int
  soldOrderID : Option Int
  createdAt : Int
  updatedAt : Int
deriving Repr, DecidableEq

structure AppleOrder where
  id : Int
  userID : Int
  productID : Int
  productName : String
  region : String
  ownedShadowrocket : Bool
  afterSales : String
  price : Int
  handlingAmount : Int
  tradeNo : String
  /-- Empty where the request brought none. -/
  idempotencyKey : String
  paymentID : Option Int
  callbackNo : Option String
  status : OrderStatus
  inventoryID : Option Int
  reservedUntil : Option Int
  paidAt : Option Int
  createdAt : Int
  updatedAt : Int
deriving Repr, DecidableEq

structure OrderAudit where
  orderID : Int
  action : String
  createdAt : Int
deriving Repr, DecidableEq

structure Store where
  products : Table Product.id Product.id
  productSeq : Int
  inventory : Table Inventory.id Inventory.id
  inventorySeq : Int
  orders : Table AppleOrder.id AppleOrder.tradeNo
  orderSeq : Int
  audits : List OrderAudit

namespace Store

def empty : Store := ⟨.empty, 0, .empty, 0, .empty, 0, []⟩

/-- `WHERE user_id=$1 AND idempotency_key=$2`. -/
def findKeyed (s : Store) (userID : Int) (key : String) : Option AppleOrder :=
  s.orders.rows.find? fun o => o.userID = userID && o.idempotencyKey = key

/-- `ORDER BY id FOR UPDATE SKIP LOCKED LIMIT 1` over the available items of a product, where
other transactions have locked some. -/
def nextAvailable (s : Store) (locked : List Int) (productID : Int) : Option Inventory :=
  ((s.inventory.rows.filter fun i =>
    i.productID = productID && i.status = .available && !(locked.contains i.id)).insertionSort
      fun a b => a.id ≤ b.id).head?

def audit (s : Store) (orderID : Int) (action : String) (now : Int) : Store :=
  { s with audits := s.audits ++ [⟨orderID, action, now⟩] }

end Store

namespace Inventory

def release (now : Int) (i : Inventory) : Inventory :=
  { i with status := .available, reservedOrderID := none, reservedUntil := none, updatedAt := now }

def reserve (orderID reservedUntil now : Int) (i : Inventory) : Inventory :=
  { i with
    status := .reserved
    reservedOrderID := some orderID
    reservedUntil := some reservedUntil
    updatedAt := now }

def sell (orderID now : Int) (i : Inventory) : Inventory :=
  { i with
    status := .sold
    soldOrderID := some orderID
    reservedOrderID := none
    reservedUntil := none
    updatedAt := now }

def disable (now : Int) (i : Inventory) : Inventory :=
  { i with status := .disabled, updatedAt := now }

theorem release_preserves (now : Int) : Preserves Inventory.id Inventory.id (release now) :=
  fun _ => ⟨rfl, rfl⟩

theorem reserve_preserves (orderID reservedUntil now : Int) :
    Preserves Inventory.id Inventory.id (reserve orderID reservedUntil now) :=
  fun _ => ⟨rfl, rfl⟩

theorem sell_preserves (orderID now : Int) :
    Preserves Inventory.id Inventory.id (sell orderID now) :=
  fun _ => ⟨rfl, rfl⟩

theorem disable_preserves (now : Int) : Preserves Inventory.id Inventory.id (disable now) :=
  fun _ => ⟨rfl, rfl⟩

end Inventory

namespace AppleOrder

/-- The sweep leaves `reserved_until` as it is. -/
def expire (now : Int) (o : AppleOrder) : AppleOrder :=
  { o with status := .canceled, inventoryID := none, updatedAt := now }

def cancel (now : Int) (o : AppleOrder) : AppleOrder :=
  { o with status := .canceled, inventoryID := none, reservedUntil := none, updatedAt := now }

def setPayment (paymentID handlingAmount now : Int) (o : AppleOrder) : AppleOrder :=
  { o with paymentID := some paymentID, handlingAmount, updatedAt := now }

def setInventory (inventoryID : Int) (o : AppleOrder) : AppleOrder :=
  { o with inventoryID := some inventoryID }

def replaceInventory (inventoryID now : Int) (o : AppleOrder) : AppleOrder :=
  { o with inventoryID := some inventoryID, updatedAt := now }

/-- What a payment writes: the order has bought an item, or waits for one. -/
def settle (status : OrderStatus) (inventoryID : Option Int) (callbackNo : String) (now : Int)
    (o : AppleOrder) : AppleOrder :=
  { o with
    status
    inventoryID
    callbackNo := some callbackNo
    paidAt := some now
    updatedAt := now }

def refund (now : Int) (o : AppleOrder) : AppleOrder :=
  { o with status := .refunded, updatedAt := now }

theorem expire_preserves (now : Int) :
    Preserves AppleOrder.id AppleOrder.tradeNo (expire now) := fun _ => ⟨rfl, rfl⟩

theorem cancel_preserves (now : Int) :
    Preserves AppleOrder.id AppleOrder.tradeNo (cancel now) := fun _ => ⟨rfl, rfl⟩

theorem setPayment_preserves (paymentID handlingAmount now : Int) :
    Preserves AppleOrder.id AppleOrder.tradeNo (setPayment paymentID handlingAmount now) :=
  fun _ => ⟨rfl, rfl⟩

theorem setInventory_preserves (inventoryID : Int) :
    Preserves AppleOrder.id AppleOrder.tradeNo (setInventory inventoryID) := fun _ => ⟨rfl, rfl⟩

theorem replaceInventory_preserves (inventoryID now : Int) :
    Preserves AppleOrder.id AppleOrder.tradeNo (replaceInventory inventoryID now) :=
  fun _ => ⟨rfl, rfl⟩

theorem settle_preserves (status : OrderStatus) (inventoryID : Option Int) (callbackNo : String)
    (now : Int) :
    Preserves AppleOrder.id AppleOrder.tradeNo (settle status inventoryID callbackNo now) :=
  fun _ => ⟨rfl, rfl⟩

theorem refund_preserves (now : Int) :
    Preserves AppleOrder.id AppleOrder.tradeNo (refund now) := fun _ => ⟨rfl, rfl⟩

end AppleOrder

namespace Store

/-- `UPDATE v2_apple_inventory SET f WHERE id=$1 AND p`. -/
def updateItem (s : Store) (id : Int) (p : Inventory → Bool) (f : Inventory → Inventory)
    (hf : Preserves Inventory.id Inventory.id f) : Store :=
  { s with inventory := s.inventory.updateWhere (fun i => i.id = id && p i) f hf }

/-- `UPDATE v2_apple_order SET f WHERE id=$1`. -/
def updateOrder (s : Store) (id : Int) (f : AppleOrder → AppleOrder)
    (hf : Preserves AppleOrder.id AppleOrder.tradeNo f) : Store :=
  { s with orders := s.orders.updateWhere (fun o => o.id = id) f hf }

end Store

theorem Store.mem_nextAvailable {s : Store} {locked : List Int} {productID : Int} {i : Inventory}
    (next : s.nextAvailable locked productID = some i) :
    i ∈ s.inventory ∧ i.productID = productID ∧ i.status = .available := by
  have listed := List.mem_of_mem_head? next
  rw [List.mem_insertionSort, List.mem_filter] at listed
  simp only [Bool.and_eq_true, decide_eq_true_eq] at listed
  exact ⟨listed.1, listed.2.1⟩

end ForestPanel.AppleID
