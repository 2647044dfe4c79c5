import ForestPanel.AppleID.Admin
import ForestPanel.Lib.Transition

/-!
# No item is sold twice

A transaction works on one order. While it runs, the other orders and the items they hold agree;
when it has closed, so does its own order. An item that was sold names its order for good.
-/
namespace ForestPanel.AppleID

open Relational Outcome Transition

/-- The pending order and the item have reserved each other, until the same time. -/
structure Holds (o : AppleOrder) (i : Inventory) : Prop where
  pending : o.status = .pending
  item : o.inventoryID = some i.id
  reserved : i.status = .reserved
  order : i.reservedOrderID = some o.id
  deadline : i.reservedUntil = o.reservedUntil

structure Bought (o : AppleOrder) (i : Inventory) : Prop where
  item : o.inventoryID = some i.id
  sold : i.status = .sold
  order : i.soldOrderID = some o.id

namespace Store

/-- Everything but the order `x` and what is reserved for it agrees. -/
structure Apart (x : Int) (s : Store) : Prop where
  held : ∀ i ∈ s.inventory, i.status = .reserved →
    i.reservedOrderID = some x ∨ ∃ o ∈ s.orders, o.id ≠ x ∧ Holds o i
  holding : ∀ o ∈ s.orders, o.id ≠ x → o.status = .pending → ∀ id, o.inventoryID = some id →
    ∃ i ∈ s.inventory, i.id = id ∧ Holds o i
  bought : ∀ o ∈ s.orders, o.id ≠ x → o.status = .paid → ∃ i ∈ s.inventory, Bought o i
  unsold : ∀ i ∈ s.inventory, i.status = .available ∨ i.status = .reserved → i.soldOrderID = none
  named : ∀ i ∈ s.inventory, i.status = .sold → i.soldOrderID ≠ none
  keyed : ∀ o ∈ s.orders, ∀ o' ∈ s.orders, o.userID = o'.userID →
    o.idempotencyKey = o'.idempotencyKey → o.idempotencyKey ≠ "" → o = o'

structure Own (x : Int) (s : Store) : Prop where
  held : ∀ i ∈ s.inventory, i.status = .reserved → i.reservedOrderID = some x →
    ∃ o ∈ s.orders, o.id = x ∧ Holds o i
  holding : ∀ o ∈ s.orders, o.id = x → o.status = .pending → ∀ id, o.inventoryID = some id →
    ∃ i ∈ s.inventory, i.id = id ∧ Holds o i
  bought : ∀ o ∈ s.orders, o.id = x → o.status = .paid → ∃ i ∈ s.inventory, Bought o i

structure Stocked (s : Store) : Prop where
  held : ∀ i ∈ s.inventory, i.status = .reserved → ∃ o ∈ s.orders, Holds o i
  holding : ∀ o ∈ s.orders, o.status = .pending → ∀ id, o.inventoryID = some id →
    ∃ i ∈ s.inventory, i.id = id ∧ Holds o i
  bought : ∀ o ∈ s.orders, o.status = .paid → ∃ i ∈ s.inventory, Bought o i
  unsold : ∀ i ∈ s.inventory, i.status = .available ∨ i.status = .reserved → i.soldOrderID = none
  named : ∀ i ∈ s.inventory, i.status = .sold → i.soldOrderID ≠ none
  keyed : ∀ o ∈ s.orders, ∀ o' ∈ s.orders, o.userID = o'.userID →
    o.idempotencyKey = o'.idempotencyKey → o.idempotencyKey ≠ "" → o = o'

/-- What has been sold is still there, sold to the same order. -/
def Kept (s s' : Store) : Prop :=
  ∀ i ∈ s.inventory, i.soldOrderID ≠ none →
    ∃ i' ∈ s'.inventory, i'.id = i.id ∧ i'.soldOrderID = i.soldOrderID

theorem Kept.refl (s : Store) : Kept s s := fun i member _ => ⟨i, member, rfl, rfl⟩

variable {s : Store} {x id : Int} {o : AppleOrder} {i : Inventory} {p : Inventory → Bool}
  {f : Inventory → Inventory}

theorem Kept.trans {t u : Store} (first : Kept s t) (second : Kept t u) : Kept s u := by
  intro i member sold
  obtain ⟨j, member', same, buyer⟩ := first i member sold
  obtain ⟨k, member'', same', buyer'⟩ := second j member' (buyer ▸ sold)
  exact ⟨k, member'', same'.trans same, buyer'.trans buyer⟩

theorem Kept.of_inventory {s' : Store} (same : s'.inventory = s.inventory) : Kept s s' :=
  fun i member _ => ⟨i, same ▸ member, rfl, rfl⟩

theorem Stocked.apart (h : Stocked s) (x : Int) : Apart x s where
  held i member reserved := by
    obtain ⟨o, ordered, holds⟩ := h.held i member reserved
    by_cases same : o.id = x
    · exact Or.inl (same ▸ holds.order)
    · exact Or.inr ⟨o, ordered, same, holds⟩
  holding o ordered _ := h.holding o ordered
  bought o ordered _ := h.bought o ordered
  unsold := h.unsold
  named := h.named
  keyed := h.keyed

theorem Apart.stocked (h : Apart x s) (own : Own x s) : Stocked s where
  held i member reserved := by
    rcases h.held i member reserved with mine | ⟨o, ordered, -, holds⟩
    · obtain ⟨o, ordered, -, holds⟩ := own.held i member reserved mine
      exact ⟨o, ordered, holds⟩
    · exact ⟨o, ordered, holds⟩
  holding o ordered := by
    by_cases same : o.id = x
    · exact own.holding o ordered same
    · exact h.holding o ordered same
  bought o ordered := by
    by_cases same : o.id = x
    · exact own.bought o ordered same
    · exact h.bought o ordered same
  unsold := h.unsold
  named := h.named
  keyed := h.keyed

theorem Stocked.of_same {s' : Store} (h : Stocked s) (inventory : s'.inventory = s.inventory)
    (orders : s'.orders = s.orders) : Stocked s' := by
  obtain ⟨held, holding, bought, unsold, named, keyed⟩ := h
  rw [← inventory, ← orders] at *
  exact ⟨held, holding, bought, unsold, named, keyed⟩

theorem Stocked.reserved_for (h : Stocked s) (ordered : o ∈ s.orders) (member : i ∈ s.inventory)
    (reserved : i.status = .reserved) (mine : i.reservedOrderID = some o.id) : Holds o i := by
  obtain ⟨o', ordered', holds⟩ := h.held i member reserved
  have same : o'.id = o.id := Option.some.inj (holds.order.symm.trans mine)
  exact s.orders.eq_of_key ordered' ordered same ▸ holds

theorem mem_updateItem {w : Preserves Inventory.id Inventory.id f} {j : Inventory} :
    j ∈ (s.updateItem id p f w).inventory ↔
      ∃ i ∈ s.inventory, (if (i.id = id && p i) = true then f i else i) = j :=
  Table.mem_updateWhere s.inventory _ f w j

theorem mem_updateOrder {f : AppleOrder → AppleOrder}
    {w : Preserves AppleOrder.id AppleOrder.tradeNo f} {o' : AppleOrder} :
    o' ∈ (s.updateOrder id f w).orders ↔
      ∃ o ∈ s.orders, (if o.id = id then f o else o) = o' := by
  have rows := Table.mem_updateWhere s.orders (fun o => decide (o.id = id)) f w o'
  simp only [decide_eq_true_eq] at rows
  exact rows

theorem updateItem_self {w : Preserves Inventory.id Inventory.id f} (member : i ∈ s.inventory)
    (chosen : p i = true) : f i ∈ (s.updateItem i.id p f w).inventory :=
  mem_updateItem.mpr ⟨i, member, if_pos (by simp [chosen])⟩

theorem updateItem_spared {w : Preserves Inventory.id Inventory.id f} (member : i ∈ s.inventory)
    (spared : ¬(i.id = id ∧ p i = true)) : i ∈ (s.updateItem id p f w).inventory :=
  mem_updateItem.mpr ⟨i, member, if_neg (by simpa using spared)⟩

theorem updateItem_cases {w : Preserves Inventory.id Inventory.id f} {j : Inventory}
    (member : j ∈ (s.updateItem id p f w).inventory) :
    (∃ i ∈ s.inventory, i.id = id ∧ p i = true ∧ j = f i) ∨
      j ∈ s.inventory ∧ ¬(j.id = id ∧ p j = true) := by
  obtain ⟨i, stored, rfl⟩ := mem_updateItem.mp member
  simp only [Bool.and_eq_true, decide_eq_true_eq]
  split
  next chosen => exact Or.inl ⟨i, stored, chosen.1, chosen.2, rfl⟩
  next spared => exact Or.inr ⟨stored, spared⟩

theorem updateOrder_cases {f : AppleOrder → AppleOrder}
    {w : Preserves AppleOrder.id AppleOrder.tradeNo f} {o' : AppleOrder}
    (member : o' ∈ (s.updateOrder id f w).orders) :
    (∃ o ∈ s.orders, o.id = id ∧ o' = f o) ∨ o' ∈ s.orders ∧ o'.id ≠ id := by
  obtain ⟨o, ordered, rfl⟩ := mem_updateOrder.mp member
  split
  next same => exact Or.inl ⟨o, ordered, same, rfl⟩
  next other => exact Or.inr ⟨ordered, other⟩

theorem Kept.updateItem {w : Preserves Inventory.id Inventory.id f}
    (sale : ∀ i ∈ s.inventory, i.id = id → p i = true →
      (f i).soldOrderID = i.soldOrderID ∨ i.soldOrderID = none) :
    Kept s (s.updateItem id p f w) := by
  intro i member sold
  refine ⟨_, mem_updateItem.mpr ⟨i, member, rfl⟩, ?_⟩
  split
  next chosen =>
    rw [Bool.and_eq_true, decide_eq_true_eq] at chosen
    rcases sale i member chosen.1 chosen.2 with same | free
    · exact ⟨(w i).1, same⟩
    · exact absurd free sold
  next => exact ⟨rfl, rfl⟩

/-- What a write to an item of the order `x`, or to a free one, may do. -/
structure Proper (x : Int) (f : Inventory → Inventory) (i : Inventory) : Prop where
  notOthers : i.status = .reserved → i.reservedOrderID = some x
  notBought : i.status = .sold → i.soldOrderID = some x
  reserves : (f i).status = .reserved → (f i).reservedOrderID = some x
  unsold : (f i).status = .available ∨ (f i).status = .reserved → (f i).soldOrderID = none
  named : (f i).status = .sold → (f i).soldOrderID ≠ none

theorem Apart.updateItem (h : Apart x s) {w : Preserves Inventory.id Inventory.id f}
    (proper : ∀ i ∈ s.inventory, i.id = id → p i = true → Proper x f i) :
    Apart x (s.updateItem id p f w) where
  held j member reserved := by
    rcases updateItem_cases member with ⟨i, stored, same, chosen, rfl⟩ | ⟨stored, -⟩
    · exact Or.inl ((proper i stored same chosen).reserves reserved)
    · exact h.held j stored reserved
  holding o ordered other pending k item := by
    obtain ⟨i, stored, same, holds⟩ := h.holding o ordered other pending k item
    refine ⟨i, updateItem_spared stored ?_, same, holds⟩
    rintro ⟨touched, chosen⟩
    have mine := (proper i stored touched chosen).notOthers holds.reserved
    exact other (Option.some.inj (holds.order.symm.trans mine))
  bought o ordered other paid := by
    obtain ⟨i, stored, bought⟩ := h.bought o ordered other paid
    refine ⟨i, updateItem_spared stored ?_, bought⟩
    rintro ⟨touched, chosen⟩
    have mine := (proper i stored touched chosen).notBought bought.sold
    exact other (Option.some.inj (bought.order.symm.trans mine))
  unsold j member free := by
    rcases updateItem_cases member with ⟨i, stored, same, chosen, rfl⟩ | ⟨stored, -⟩
    · exact (proper i stored same chosen).unsold free
    · exact h.unsold j stored free
  named j member sold := by
    rcases updateItem_cases member with ⟨i, stored, same, chosen, rfl⟩ | ⟨stored, -⟩
    · exact (proper i stored same chosen).named sold
    · exact h.named j stored sold
  keyed := h.keyed

theorem Apart.updateRow (h : Apart x s) {w : Preserves Inventory.id Inventory.id f}
    (stored : i ∈ s.inventory) (proper : p i = true → Proper x f i) :
    Apart x (s.updateItem i.id p f w) := by
  apply h.updateItem
  intro j member same
  rw [s.inventory.eq_of_key member stored same]
  exact proper

theorem Kept.updateRow {w : Preserves Inventory.id Inventory.id f} (stored : i ∈ s.inventory)
    (unsold : i.soldOrderID = none) : Kept s (s.updateItem i.id p f w) := by
  apply Kept.updateItem
  intro j member same _
  rw [s.inventory.eq_of_key member stored same]
  exact Or.inr unsold

theorem proper_sell {now : Int} (own : i.status = .reserved → i.reservedOrderID = some x)
    (unsold : i.status ≠ .sold) : Proper x (Inventory.sell x now) i where
  notOthers := own
  notBought sold := absurd sold unsold
  reserves reserved := by cases reserved
  unsold := by simp [Inventory.sell]
  named := by simp [Inventory.sell]

theorem proper_release {now : Int} (reserved : i.status = .reserved)
    (own : i.reservedOrderID = some x) (free : i.soldOrderID = none) :
    Proper x (Inventory.release now) i where
  notOthers _ := own
  notBought := by simp [reserved]
  reserves released := by cases released
  unsold _ := free
  named := by simp [Inventory.release]

def KeepsKey (f : AppleOrder → AppleOrder) : Prop :=
  ∀ o, (f o).userID = o.userID ∧ (f o).idempotencyKey = o.idempotencyKey

theorem expire_keepsKey (now : Int) : KeepsKey (AppleOrder.expire now) := fun _ => ⟨rfl, rfl⟩

theorem cancel_keepsKey (now : Int) : KeepsKey (AppleOrder.cancel now) := fun _ => ⟨rfl, rfl⟩

theorem setPayment_keepsKey (paymentID handlingAmount now : Int) :
    KeepsKey (AppleOrder.setPayment paymentID handlingAmount now) := fun _ => ⟨rfl, rfl⟩

theorem setInventory_keepsKey (inventoryID : Int) :
    KeepsKey (AppleOrder.setInventory inventoryID) := fun _ => ⟨rfl, rfl⟩

theorem replaceInventory_keepsKey (inventoryID now : Int) :
    KeepsKey (AppleOrder.replaceInventory inventoryID now) := fun _ => ⟨rfl, rfl⟩

theorem settle_keepsKey (status : OrderStatus) (inventoryID : Option Int) (callbackNo : String)
    (now : Int) : KeepsKey (AppleOrder.settle status inventoryID callbackNo now) :=
  fun _ => ⟨rfl, rfl⟩

theorem refund_keepsKey (now : Int) : KeepsKey (AppleOrder.refund now) := fun _ => ⟨rfl, rfl⟩

theorem keyed_map {p : AppleOrder → Prop} [DecidablePred p] {f : AppleOrder → AppleOrder}
    (hf : KeepsKey f) {P : AppleOrder → Prop}
    (keyed : ∀ o, P o → ∀ o', P o' → o.userID = o'.userID →
      o.idempotencyKey = o'.idempotencyKey → o.idempotencyKey ≠ "" → o = o') {o' : AppleOrder}
    (ordered : P o) (ordered' : P o')
    (buyer : (if p o then f o else o).userID = (if p o' then f o' else o').userID)
    (key : (if p o then f o else o).idempotencyKey = (if p o' then f o' else o').idempotencyKey)
    (present : (if p o then f o else o).idempotencyKey ≠ "") :
    (if p o then f o else o) = if p o' then f o' else o' := by
  have kept : ∀ o, (if p o then f o else o).userID = o.userID ∧
      (if p o then f o else o).idempotencyKey = o.idempotencyKey := by
    intro o
    split
    · exact hf o
    · exact ⟨rfl, rfl⟩
  rw [(kept o).1, (kept o').1] at buyer
  rw [(kept o).2] at key present
  rw [(kept o').2] at key
  rw [keyed o ordered o' ordered' buyer key present]

theorem Apart.updateOrder (h : Apart x s) {f : AppleOrder → AppleOrder}
    {w : Preserves AppleOrder.id AppleOrder.tradeNo f} (keeps : KeepsKey f) :
    Apart x (s.updateOrder x f w) where
  held i member reserved := by
    apply (h.held i member reserved).imp_right
    rintro ⟨o, ordered, other, holds⟩
    exact ⟨o, mem_updateOrder.mpr ⟨o, ordered, if_neg other⟩, other, holds⟩
  holding o' member other := by
    rcases updateOrder_cases member with ⟨o, -, same, rfl⟩ | ⟨ordered, -⟩
    · exact absurd ((w o).1.trans same) other
    · exact h.holding o' ordered other
  bought o' member other := by
    rcases updateOrder_cases member with ⟨o, -, same, rfl⟩ | ⟨ordered, -⟩
    · exact absurd ((w o).1.trans same) other
    · exact h.bought o' ordered other
  unsold := h.unsold
  named := h.named
  keyed o member o' member' buyer key present := by
    obtain ⟨o, ordered, rfl⟩ := mem_updateOrder.mp member
    obtain ⟨o', ordered', rfl⟩ := mem_updateOrder.mp member'
    exact keyed_map (p := fun o => o.id = x) keeps h.keyed ordered ordered' buyer key present

def NoneHeld (x : Int) (s : Store) : Prop :=
  ∀ i ∈ s.inventory, i.status = .reserved → i.reservedOrderID ≠ some x

/-- An order that is not pending agrees with the stock when nothing is reserved for it and, if it
is paid, an item was sold to it. -/
theorem Own.of_noneHeld (nothing : NoneHeld x s)
    (closed : ∀ o ∈ s.orders, o.id = x → o.status ≠ .pending)
    (bought : ∀ o ∈ s.orders, o.id = x → o.status = .paid → ∃ i ∈ s.inventory, Bought o i) :
    Own x s where
  held i member reserved mine := absurd mine (nothing i member reserved)
  holding o ordered same pending := absurd pending (closed o ordered same)
  bought := bought

theorem Stocked.noneHeld (h : Stocked s) (ordered : o ∈ s.orders) (closed : o.status ≠ .pending) :
    NoneHeld o.id s :=
  fun _ member reserved mine => closed (h.reserved_for ordered member reserved mine).pending

end Store

end ForestPanel.AppleID
