import ForestPanel.AppleID.Orders

/-!
# Managing the Apple IDs

The operations of the administrator, and all operations as the steps of one machine.
-/
namespace ForestPanel.AppleID

open Relational Outcome

namespace Store

structure AdminSaveProductRequest where
  id : Option Int
  name : String
  region : String
  ownedShadowrocket : Bool
  price : Int
  afterSales : String
  enabled : Option Bool
deriving Repr, DecidableEq

def savedProduct (req : AdminSaveProductRequest) (now : Int) (p : Product) : Product :=
  { p with
    name := trimSpace req.name
    region := trimSpace req.region
    ownedShadowrocket := req.ownedShadowrocket
    price := req.price
    afterSales := trimSpace req.afterSales
    enabled := req.enabled.getD p.enabled
    updatedAt := now }

theorem savedProduct_preserves (req : AdminSaveProductRequest) (now : Int) :
    Preserves Product.id Product.id (savedProduct req now) := fun _ => ⟨rfl, rfl⟩

def adminSaveProduct (req : AdminSaveProductRequest) (now : Int) (s : Store) :
    Except StockError Store := do
  ensure (trimSpace req.name ≠ "" ∧ trimSpace req.region ≠ "" ∧ 0 < req.price ∧
    (trimSpace req.name).length ≤ 255 ∧ (trimSpace req.region).length ≤ 64) .invalidParameter
  match req.id with
  | none => do
    let row := savedProduct req now ⟨s.productSeq + 1, "", "", false, 0, "", true, now, now⟩
    let products ← require (s.products.insert? row) .duplicateRow
    pure { s with products, productSeq := s.productSeq + 1 }
  | some id => do
    ensure (0 < id) .invalidParameter
    ensure (∃ p ∈ s.products, p.id = id) .productNotFound
    pure { s with
      products := s.products.updateWhere (fun p => p.id = id) (savedProduct req now)
        (savedProduct_preserves req now) }

def setEnabled (enabled : Bool) (now : Int) (p : Product) : Product :=
  { p with enabled, updatedAt := now }

theorem setEnabled_preserves (enabled : Bool) (now : Int) :
    Preserves Product.id Product.id (setEnabled enabled now) := fun _ => ⟨rfl, rfl⟩

def adminSetProductEnabled (productID : Int) (enabled : Bool) (now : Int) (s : Store) :
    Except StockError Store := do
  ensure (0 < productID) .invalidParameter
  ensure (∃ p ∈ s.products, p.id = productID) .productNotFound
  pure { s with
    products := s.products.updateWhere (fun p => p.id = productID) (setEnabled enabled now)
      (setEnabled_preserves enabled now) }

def adminDeleteProduct (productID : Int) (s : Store) : Except StockError Store := do
  ensure (0 < productID) .invalidParameter
  ensure (∃ p ∈ s.products, p.id = productID) .productNotFound
  ensure ((∀ i ∈ s.inventory, i.productID ≠ productID) ∧ ∀ o ∈ s.orders, o.productID ≠ productID)
    .productInUse
  pure { s with products := s.products.deleteWhere fun p => p.id = productID }

/-- An account with its ciphertexts and its fingerprint, as `encrypt` and `accountFingerprint`
return them. -/
structure EncryptedItem where
  account : String
  password : String
  fingerprint : String
deriving Repr, DecidableEq

/-- `INSERT … ON CONFLICT (account_fingerprint) DO NOTHING`. -/
def insertItem (productID now : Int) (s : Store) (item : EncryptedItem) :
    Except StockError Store := do
  ensure (item.fingerprint = "" ∨ ∀ i ∈ s.inventory, i.accountFingerprint ≠ item.fingerprint)
    .duplicateInventory
  let inventory ← require (s.inventory.insert?
    ⟨s.inventorySeq + 1, productID, item.account, item.password, item.fingerprint, .available,
      none, none, none, now, now⟩) .duplicateRow
  pure { s with inventory, inventorySeq := s.inventorySeq + 1 }

/-- `AddInventory` is a batch of one. -/
def adminAddInventoryBatch (productID : Int) (items : List EncryptedItem) (now : Int) (s : Store) :
    Except StockError Store := do
  ensure (0 < productID ∧ items ≠ [] ∧ items.length ≤ 500) .invalidParameter
  ensure (∃ p ∈ s.products, p.id = productID) .productNotFound
  items.foldlM (insertItem productID now) s

def adminDisableInventory (inventoryID adminID now : Int) (s : Store) :
    Except StockError Store := do
  ensure (0 < inventoryID ∧ 0 < adminID) .invalidParameter
  let i ← require (s.inventory.find? inventoryID) .inventoryNotFound
  match i.status with
  | .sold => .error .inventorySold
  | .reserved => .error .inventoryReserved
  | .disabled => pure s
  | .available =>
    pure (s.updateItem inventoryID (fun i => i.status = .available) (Inventory.disable now)
      (Inventory.disable_preserves now))

def replacement (productID : Int) (newInventoryID : Option Int) (locked : List Int) (s : Store) :
    Option Inventory :=
  match newInventoryID with
  | none => s.nextAvailable locked productID
  | some id => s.inventory.rows.find? fun i =>
    i.id = id && i.productID = productID && i.status = .available && !(locked.contains i.id)

def adminReplaceInventory (orderID adminID : Int) (newInventoryID : Option Int) (now : Int)
    (locked : List Int) (s : Store) : Except StockError Store := do
  ensure (0 < orderID ∧ 0 < adminID ∧ ∀ id ∈ newInventoryID, 0 < id) .invalidParameter
  let o ← require (s.orders.find? orderID) .orderNotFound
  let oldID ← require o.inventoryID .inventoryNotFound
  ensure (o.status = .paid) .orderStatus
  let old ← require (s.inventory.find? oldID) .inventoryNotFound
  ensure (old.status = .sold ∧ old.soldOrderID = some orderID) .orderStatus
  ensure (newInventoryID ≠ some oldID) .invalidParameter
  let new ← require (s.replacement o.productID newInventoryID locked) .outOfStock
  let s := s.updateItem oldID (fun i => i.status = .sold) (Inventory.disable now)
    (Inventory.disable_preserves now)
  let s := s.updateItem new.id (fun i => i.status = .available) (Inventory.sell orderID now)
    (Inventory.sell_preserves orderID now)
  let s := s.updateOrder orderID (AppleOrder.replaceInventory new.id now)
    (AppleOrder.replaceInventory_preserves new.id now)
  pure (s.audit orderID "inventory_replace" now)

def adminMarkOrderRefunded (orderID adminID now : Int) (s : Store) : Except StockError Store := do
  ensure (0 < orderID ∧ 0 < adminID) .invalidParameter
  let o ← require (s.orders.find? orderID) .orderNotFound
  if o.status = .refunded then pure s
  else do
    ensure (o.status = .paid ∨ o.status = .manual) .orderStatus
    let s := s.updateOrder orderID (AppleOrder.refund now) (AppleOrder.refund_preserves now)
    pure (s.audit orderID "refund_confirmed" now)

def adminCancelOrder (orderID adminID now : Int) (s : Store) : Except StockError Store := do
  ensure (0 < orderID ∧ 0 < adminID) .invalidParameter
  let o ← require (s.orders.find? orderID) .orderNotFound
  if o.status = .canceled then pure s
  else do
    ensure (o.status = .pending) .orderStatus
    let s := (releaseItemOf o now s).updateOrder orderID (AppleOrder.cancel now)
      (AppleOrder.cancel_preserves now)
    pure (s.audit orderID "admin_cancel" now)

end Store

inductive Operation
  | adminSaveProduct (req : Store.AdminSaveProductRequest)
  | adminSetProductEnabled (productID : Int) (enabled : Bool)
  | adminDeleteProduct (productID : Int)
  | adminAddInventoryBatch (productID : Int) (items : List Store.EncryptedItem)
  | adminDisableInventory (inventoryID adminID : Int)
  | createOrder (userID : Int) (req : Store.CreateOrderRequest) (tradeNo : String) (raced : Bool)
  | setExternalPayment (userID : Int) (tradeNo : String) (paymentID handlingAmount : Int)
  | markExternalPaid (tradeNo callbackNo : String) (allowCancelled : Bool)
      (paymentID amount : Option Int)
  | cancelOrder (userID : Int) (tradeNo : String)
  | releaseExpiredReservations
  | adminReplaceInventory (orderID adminID : Int) (newInventoryID : Option Int)
  | adminMarkOrderRefunded (orderID adminID : Int)
  | adminCancelOrder (orderID adminID : Int)
deriving Repr, DecidableEq

/-- An operation with its clock and the items that others have locked. -/
structure Request where
  operation : Operation
  now : Int
  locked : List Int
deriving Repr, DecidableEq

namespace Store

def perform (s : Store) (r : Request) : Except StockError Store :=
  match r.operation with
  | .adminSaveProduct req => adminSaveProduct req r.now s
  | .adminSetProductEnabled productID enabled => adminSetProductEnabled productID enabled r.now s
  | .adminDeleteProduct productID => adminDeleteProduct productID s
  | .adminAddInventoryBatch productID items => adminAddInventoryBatch productID items r.now s
  | .adminDisableInventory inventoryID adminID => adminDisableInventory inventoryID adminID r.now s
  | .createOrder userID req tradeNo raced =>
    Prod.fst <$> createOrder userID req r.now tradeNo raced r.locked s
  | .setExternalPayment userID tradeNo paymentID handlingAmount =>
    setExternalPayment userID tradeNo paymentID handlingAmount r.now s
  | .markExternalPaid tradeNo callbackNo allowCancelled paymentID amount =>
    markExternalPaid tradeNo callbackNo allowCancelled paymentID amount r.now r.locked s
  | .cancelOrder userID tradeNo => cancelOrder userID tradeNo r.now s
  | .releaseExpiredReservations => pure (releaseExpiredReservations r.now s)
  | .adminReplaceInventory orderID adminID newInventoryID =>
    adminReplaceInventory orderID adminID newInventoryID r.now r.locked s
  | .adminMarkOrderRefunded orderID adminID => adminMarkOrderRefunded orderID adminID r.now s
  | .adminCancelOrder orderID adminID => adminCancelOrder orderID adminID r.now s

/-- A failed operation is rolled back. -/
def step (s : Store) (r : Request) : Store := commit s (s.perform r)

end Store

end ForestPanel.AppleID
