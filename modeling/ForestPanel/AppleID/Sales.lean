import ForestPanel.AppleID.Stock

/-!
# The stock along whole runs

Each transaction is followed statement by statement, apart from the order it works on.
-/
namespace ForestPanel.AppleID

open Relational Outcome Transition

namespace Store

structure Proceeds (s s' : Store) : Prop where
  stocked : Stocked s'
  kept : Kept s s'

variable {s s' : Store} {o order : AppleOrder} {i : Inventory}
  {now userID orderID adminID productID : Int} {tradeNo : String} {locked : List Int}

theorem Proceeds.trans {t u : Store} (first : Proceeds s t) (second : Proceeds t u) :
    Proceeds s u :=
  ⟨second.stocked, first.kept.trans second.kept⟩

theorem Stocked.unchanged {ε : Type} (h : Stocked s)
    (returned : (pure s : Except ε Store) = .ok s') : Proceeds s s' := by
  obtain rfl := (pure_eq_ok s s').mp returned
  exact ⟨h, Kept.refl s⟩

theorem Proceeds.of_same (h : Stocked s) (inventory : s'.inventory = s.inventory)
    (orders : s'.orders = s.orders) : Proceeds s s' :=
  ⟨h.of_same inventory orders, .of_inventory inventory⟩

theorem Proceeds.audit (h : Proceeds s s') (orderID : Int) (action : String) (now : Int) :
    Proceeds s (s'.audit orderID action now) :=
  ⟨h.stocked.of_same rfl rfl, h.kept⟩

/-! ## The sweep -/

private theorem expired_together (holds : Holds o i) (now : Int) :
    expiredItem now i = expiredOrder now o := by
  unfold expiredItem expiredOrder
  rw [holds.pending, holds.reserved, holds.deadline]
  rfl

private theorem mem_sweptOrders :
    o ∈ (releaseExpiredReservations now s).orders ↔
      ∃ b ∈ s.orders, (if expiredOrder now b = true then b.expire now else b) = o :=
  Table.mem_updateWhere s.orders _ _ (AppleOrder.expire_preserves now) o

private theorem mem_sweptItems {j : Inventory} :
    j ∈ (releaseExpiredReservations now s).inventory ↔
      ∃ i ∈ s.inventory, (if expiredItem now i = true then i.release now else i) = j :=
  Table.mem_updateWhere s.inventory _ _ (Inventory.release_preserves now) j

private theorem sweptItems_cases {j : Inventory}
    (member : j ∈ (releaseExpiredReservations now s).inventory) :
    (∃ i ∈ s.inventory, expiredItem now i = true ∧ j = i.release now) ∨
      j ∈ s.inventory ∧ ¬expiredItem now j = true := by
  obtain ⟨i, stored, rfl⟩ := mem_sweptItems.mp member
  split
  next expired => exact Or.inl ⟨i, stored, expired, rfl⟩
  next lasting => exact Or.inr ⟨stored, lasting⟩

private theorem sweptOrders_cases (member : o ∈ (releaseExpiredReservations now s).orders) :
    (∃ b : AppleOrder, o = b.expire now) ∨ o ∈ s.orders ∧ ¬expiredOrder now o = true := by
  obtain ⟨b, ordered, rfl⟩ := mem_sweptOrders.mp member
  split
  next => exact Or.inl ⟨b, rfl⟩
  next lasting => exact Or.inr ⟨ordered, lasting⟩

theorem Stocked.releaseExpiredReservations (h : Stocked s) (now : Int) :
    Proceeds s (s.releaseExpiredReservations now) where
  stocked := by
    constructor
    case held =>
      intro j member reserved
      rcases sweptItems_cases member with ⟨i, -, -, rfl⟩ | ⟨stored, lasting⟩
      · cases reserved
      · obtain ⟨o, ordered, holds⟩ := h.held j stored reserved
        rw [expired_together holds] at lasting
        exact ⟨o, mem_sweptOrders.mpr ⟨o, ordered, if_neg lasting⟩, holds⟩
    case holding =>
      intro o member pending id item
      rcases sweptOrders_cases member with ⟨b, rfl⟩ | ⟨ordered, lasting⟩
      · cases pending
      · obtain ⟨i, stored, same, holds⟩ := h.holding o ordered pending id item
        rw [← expired_together holds] at lasting
        exact ⟨i, mem_sweptItems.mpr ⟨i, stored, if_neg lasting⟩, same, holds⟩
    case bought =>
      intro o member paid
      rcases sweptOrders_cases member with ⟨b, rfl⟩ | ⟨ordered, -⟩
      · cases paid
      · obtain ⟨i, stored, bought⟩ := h.bought o ordered paid
        refine ⟨i, mem_sweptItems.mpr ⟨i, stored, if_neg ?_⟩, bought⟩
        simp [expiredItem, bought.sold]
    case unsold =>
      intro j member free
      rcases sweptItems_cases member with ⟨i, stored, expired, rfl⟩ | ⟨stored, -⟩
      · simp only [expiredItem, Bool.and_eq_true, decide_eq_true_eq] at expired
        exact h.unsold i stored (Or.inr expired.1)
      · exact h.unsold j stored free
    case named =>
      intro j member sold
      rcases sweptItems_cases member with ⟨i, -, -, rfl⟩ | ⟨stored, -⟩
      · cases sold
      · exact h.named j stored sold
    case keyed =>
      intro o member o' member' buyer key present
      obtain ⟨b, ordered, rfl⟩ := mem_sweptOrders.mp member
      obtain ⟨b', ordered', rfl⟩ := mem_sweptOrders.mp member'
      exact keyed_map (p := fun o => expiredOrder now o = true) (expire_keepsKey now) h.keyed
        ordered ordered' buyer key present
  kept := by
    intro i stored sold
    refine ⟨_, mem_sweptItems.mpr ⟨i, stored, rfl⟩, ?_⟩
    split
    · exact ⟨rfl, rfl⟩
    · exact ⟨rfl, rfl⟩

/-! ## Ordering -/

private theorem keyed_eq_none {key : String} (unused : s.keyed userID key = none)
    (ordered : o ∈ s.orders) (buyer : o.userID = userID) (same : o.idempotencyKey = key) :
    key = "" := by
  unfold keyed at unused
  split at unused
  next empty => exact empty
  next =>
    have other := List.find?_eq_none.mp unused o ordered
    simp [buyer, same] at other

private theorem Stocked.insertOrder (h : Stocked s)
    {orders : Table AppleOrder.id AppleOrder.tradeNo}
    (inserted : s.orders.insert? order = some orders)
    (unused : s.keyed order.userID order.idempotencyKey = none) (n : Int) :
    Apart order.id { s with orders, orderSeq := n } ∧
      NoneHeld order.id { s with orders, orderSeq := n } := by
  obtain ⟨-, fresh, -⟩ := (s.orders.insert?_eq_some orders order).mp inserted
  have rows := Table.mem_of_insert? inserted
  constructor
  · constructor
    case held =>
      intro i member reserved
      obtain ⟨o, ordered, holds⟩ := h.held i member reserved
      exact Or.inr ⟨o, (rows o).mpr (Or.inl ordered), fresh o ordered, holds⟩
    case holding =>
      intro o member other
      rcases (rows o).mp member with ordered | rfl
      · exact h.holding o ordered
      · exact absurd rfl other
    case bought =>
      intro o member other
      rcases (rows o).mp member with ordered | rfl
      · exact h.bought o ordered
      · exact absurd rfl other
    case unsold => exact h.unsold
    case named => exact h.named
    case keyed =>
      intro o member o' member' buyer key present
      rcases (rows o).mp member with ordered | rfl
      · rcases (rows o').mp member' with ordered' | rfl
        · exact h.keyed o ordered o' ordered' buyer key present
        · exact absurd (key.trans (keyed_eq_none unused ordered buyer key)) present
      · rcases (rows o').mp member' with ordered' | rfl
        · exact absurd (keyed_eq_none unused ordered' buyer.symm key.symm) present
        · rfl
  · intro i member reserved mine
    obtain ⟨o, ordered, holds⟩ := h.held i member reserved
    exact fresh o ordered (Option.some.inj (holds.order.symm.trans mine))

private theorem Stocked.placeOrder (h : Stocked s) {p : Product} {key : String}
    (unused : s.keyed userID key = none)
    (returned : s.placeOrder userID p tradeNo key now locked = .ok (s', order)) :
    Proceeds s s' := by
  simp only [Store.placeOrder, bind_eq_ok, require_eq_ok, pure_eq_ok, Prod.mk.injEq] at returned
  obtain ⟨orders, inserted, item, next, rfl, -⟩ := returned
  obtain ⟨apart, nothing⟩ := h.insertOrder inserted unused (s.orderSeq + 1)
  obtain ⟨stored, -, available⟩ := mem_nextAvailable next
  have rows := Table.mem_of_insert? inserted
  generalize hnew : newOrder userID p tradeNo key now (s.orderSeq + 1) = new at *
  have pending : new.status = .pending := hnew ▸ rfl
  have deadline : new.reservedUntil = some (now + reservationTTL) := hnew ▸ rfl
  have free := h.unsold item stored (Or.inl available)
  apply Proceeds.audit
  refine ⟨((apart.updateRow stored fun _ => ?_).updateOrder (setInventory_keepsKey item.id)).stocked
    ?_, ?_⟩
  · constructor
    case notOthers => simp [available]
    case notBought => simp [available]
    case reserves => exact fun _ => rfl
    case unsold => exact fun _ => free
    case named => exact fun sold => by cases sold
  · have placed : new.setInventory item.id ∈ (({ s with orders, orderSeq := s.orderSeq + 1 } :
        Store).updateOrder new.id (AppleOrder.setInventory item.id)
          (AppleOrder.setInventory_preserves item.id)).orders :=
      mem_updateOrder.mpr ⟨new, (rows new).mpr (Or.inr rfl), if_pos rfl⟩
    have holds : Holds (new.setInventory item.id)
        (item.reserve new.id (now + reservationTTL) now) :=
      ⟨pending, rfl, rfl, rfl, deadline.symm⟩
    have reserved := @updateItem_self { s with orders, orderSeq := s.orderSeq + 1 }
      item (fun _ => true) (Inventory.reserve new.id (now + reservationTTL) now)
      (Inventory.reserve_preserves new.id (now + reservationTTL) now) stored rfl
    have unique : ∀ o ∈ (({ s with orders, orderSeq := s.orderSeq + 1 } : Store).updateOrder new.id
        (AppleOrder.setInventory item.id) (AppleOrder.setInventory_preserves item.id)).orders,
        o.id = new.id → o = new.setInventory item.id := by
      intro o member same
      exact Table.eq_of_key (({ s with orders, orderSeq := s.orderSeq + 1 } : Store).updateOrder
        new.id (AppleOrder.setInventory item.id)
        (AppleOrder.setInventory_preserves item.id)).orders member placed same
    constructor
    case held =>
      intro j member status mine
      rcases updateItem_cases (w := Inventory.reserve_preserves new.id (now + reservationTTL) now)
        member with ⟨i, stored', same, -, rfl⟩ | ⟨stored', -⟩
      · rw [s.inventory.eq_of_key stored' stored same]
        exact ⟨_, placed, rfl, holds⟩
      · exact absurd mine (nothing j stored' status)
    case holding =>
      intro o member same _ id named
      rw [unique o member same] at named ⊢
      exact ⟨_, reserved, Option.some.inj named, holds⟩
    case bought =>
      intro o member same paid
      rw [unique o member same] at paid
      exact absurd (pending.symm.trans paid) (by decide)
  · exact Kept.updateItem (w := Inventory.reserve_preserves new.id (now + reservationTTL) now)
      fun i _ _ _ => Or.inl rfl

private theorem repeated_eq {req : CreateOrderRequest} {existing : AppleOrder}
    (returned : s.repeated req existing = .ok (s', order)) : s' = s := by
  simp only [repeated, bind_eq_ok, ensure_eq_ok, pure_eq_ok, Prod.mk.injEq] at returned
  obtain ⟨-, -, rfl, -⟩ := returned
  rfl

theorem Stocked.createOrder (h : Stocked s) {req : CreateOrderRequest} {raced : Bool}
    (returned : s.createOrder userID req now tradeNo raced locked = .ok (s', order)) :
    Proceeds s s' := by
  simp only [Store.createOrder, bind_eq_ok, ensure_eq_ok] at returned
  obtain ⟨-, -, -, -, returned⟩ := returned
  have swept := h.releaseExpiredReservations now
  split at returned
  next => exact repeated_eq returned ▸ swept
  next =>
    simp only [bind_eq_ok, ensure_eq_ok, require_eq_ok] at returned
    obtain ⟨p, -, -, -, -, -, returned⟩ := returned
    split at returned
    next => exact repeated_eq returned ▸ swept
    next unused => exact swept.trans (swept.stocked.placeOrder unused returned)

/-! ## Paying -/

private theorem Stocked.updateColumns (h : Stocked s) {p : AppleOrder → Bool}
    {f : AppleOrder → AppleOrder} {w : Preserves AppleOrder.id AppleOrder.tradeNo f}
    (keeps : KeepsKey f) (same : ∀ o, (f o).status = o.status ∧ (f o).inventoryID = o.inventoryID ∧
      (f o).reservedUntil = o.reservedUntil) :
    Proceeds s { s with orders := s.orders.updateWhere p f w } := by
  have rows : ∀ o', o' ∈ s.orders.updateWhere p f w ↔
      ∃ o ∈ s.orders, (if p o = true then f o else o) = o' :=
    Table.mem_updateWhere s.orders p f w
  have columns : ∀ o, (if p o = true then f o else o).id = o.id ∧
      (if p o = true then f o else o).status = o.status ∧
      (if p o = true then f o else o).inventoryID = o.inventoryID ∧
      (if p o = true then f o else o).reservedUntil = o.reservedUntil := by
    intro o
    split
    · exact ⟨(w o).1, same o⟩
    · exact ⟨rfl, rfl, rfl, rfl⟩
  have holds : ∀ o i, Holds o i → Holds (if p o = true then f o else o) i := by
    rintro o i ⟨pending, item, reserved, order, deadline⟩
    obtain ⟨sameID, sameStatus, sameItem, sameTime⟩ := columns o
    exact ⟨sameStatus.trans pending, sameItem.trans item, reserved, order.trans (by rw [sameID]),
      deadline.trans sameTime.symm⟩
  refine ⟨?_, Kept.of_inventory rfl⟩
  constructor
  case held =>
    intro i member reserved
    obtain ⟨o, ordered, held⟩ := h.held i member reserved
    exact ⟨_, (rows _).mpr ⟨o, ordered, rfl⟩, holds o i held⟩
  case holding =>
    intro o' member pending id item
    obtain ⟨o, ordered, rfl⟩ := (rows o').mp member
    obtain ⟨-, sameStatus, sameItem, -⟩ := columns o
    obtain ⟨i, stored, named, held⟩ :=
      h.holding o ordered (sameStatus.symm.trans pending) id (sameItem.symm.trans item)
    exact ⟨i, stored, named, holds o i held⟩
  case bought =>
    intro o' member paid
    obtain ⟨o, ordered, rfl⟩ := (rows o').mp member
    obtain ⟨sameID, sameStatus, sameItem, -⟩ := columns o
    obtain ⟨i, stored, bought⟩ := h.bought o ordered (sameStatus.symm.trans paid)
    exact ⟨i, stored, sameItem.trans bought.item, bought.sold, bought.order.trans (by rw [sameID])⟩
  case unsold => exact h.unsold
  case named => exact h.named
  case keyed =>
    intro o member o' member' buyer key present
    obtain ⟨o, ordered, rfl⟩ := (rows o).mp member
    obtain ⟨o', ordered', rfl⟩ := (rows o').mp member'
    exact keyed_map (p := fun o => p o = true) keeps h.keyed ordered ordered' buyer key present

theorem Stocked.setExternalPayment (h : Stocked s) {paymentID handlingAmount : Int}
    (returned : s.setExternalPayment userID tradeNo paymentID handlingAmount now = .ok s') :
    Proceeds s s' := by
  simp only [Store.setExternalPayment, bind_eq_ok, ensure_eq_ok, pure_eq_ok] at returned
  obtain ⟨-, -, -, -, rfl⟩ := returned
  exact h.updateColumns (setPayment_keepsKey paymentID handlingAmount now) fun _ => ⟨rfl, rfl, rfl⟩

/-- While the order `o` is being paid: the rest agrees, nothing is reserved for it any more, and
the item it gets is sold to it. -/
structure Paying (o : AppleOrder) (s s' : Store) (got : Option Int) : Prop where
  apart : Apart o.id s'
  orders : s'.orders = s.orders
  nothing : NoneHeld o.id s'
  item : ∀ id ∈ got, ∃ i ∈ s'.inventory, i.id = id ∧ i.status = .sold ∧ i.soldOrderID = some o.id
  kept : Kept s s'

private theorem noneHeld_updateItem {id : Int} {p : Inventory → Bool} {f : Inventory → Inventory}
    {w : Preserves Inventory.id Inventory.id f}
    (item : ∀ i ∈ s.inventory, i.status = .reserved → i.reservedOrderID = some o.id →
      i.id = id ∧ p i = true) (written : ∀ i, (f i).status ≠ .reserved) :
    NoneHeld o.id (s.updateItem id p f w) := by
  intro j member reserved mine
  rcases updateItem_cases member with ⟨i, -, -, -, rfl⟩ | ⟨stored, spared⟩
  · exact written i reserved
  · exact spared (item j stored reserved mine)

private theorem Stocked.sellReserved (h : Stocked s) (ordered : o ∈ s.orders) (now : Int) :
    Paying o s (s.sellReserved o now).1 (s.sellReserved o now).2 := by
  have mine : ∀ i ∈ s.inventory, i.status = .reserved → i.reservedOrderID = some o.id → Holds o i :=
    fun i member => h.reserved_for ordered member
  have untouched (nothing : NoneHeld o.id s) : Paying o s s none :=
    ⟨h.apart o.id, rfl, nothing, (fun _ got => by cases got), Kept.refl s⟩
  unfold Store.sellReserved
  split
  next found =>
    apply untouched
    intro i member reserved own
    have holds := mine i member reserved own
    rw [if_pos holds.pending, holds.item, Option.bind_some, s.inventory.find?_key member] at found
    cases found
  next i found =>
    have pending : o.status = .pending := by
      by_contra closed
      rw [if_neg closed] at found
      cases found
    rw [if_pos pending] at found
    obtain ⟨id, item, row⟩ := Option.bind_eq_some_iff.mp found
    have stored := Table.mem_of_find? row
    have same := Table.key_of_find? row
    have only : ∀ j ∈ s.inventory, j.status = .reserved → j.reservedOrderID = some o.id →
        j = i := by
      intro j member reserved own
      have named := (mine j member reserved own).item
      rw [item] at named
      exact s.inventory.eq_of_key member stored ((Option.some.inj named).symm.trans same.symm)
    split
    next agreed =>
      have free := h.unsold i stored (Or.inr agreed.1)
      split
      next active =>
        constructor
        case apart =>
          exact (h.apart o.id).updateRow stored fun _ =>
            proper_sell (fun _ => agreed.2) (by simp [agreed.1])
        case orders => rfl
        case nothing =>
          apply noneHeld_updateItem
          · intro j member reserved own
            exact ⟨congrArg Inventory.id (only j member reserved own), rfl⟩
          · simp [Inventory.sell]
        case item =>
          rintro _ ⟨⟩
          exact ⟨_, updateItem_self stored rfl, rfl, rfl, rfl⟩
        case kept => exact Kept.updateRow stored free
      next late =>
        constructor
        case apart =>
          exact (h.apart o.id).updateRow stored fun _ => proper_release agreed.1 agreed.2 free
        case orders => rfl
        case nothing =>
          apply noneHeld_updateItem
          · intro j member reserved own
            rw [only j member reserved own]
            exact ⟨rfl, by simp [agreed]⟩
          · simp [Inventory.release]
        case item => exact fun _ got => by cases got
        case kept => exact Kept.updateRow stored free
    next differs =>
      apply untouched
      intro j member reserved own
      obtain rfl := only j member reserved own
      exact differs ⟨reserved, own⟩

private theorem Paying.sell {got : Option Int} (h : Paying o s s' got) (stored : i ∈ s'.inventory)
    (available : i.status = .available) {p : Inventory → Bool} (chosen : p i = true) (now : Int) :
    Paying o s (s'.updateItem i.id p (Inventory.sell o.id now) (Inventory.sell_preserves o.id now))
      (some i.id) := by
  have free := h.apart.unsold i stored (Or.inl available)
  constructor
  case apart =>
    exact h.apart.updateRow stored fun _ => proper_sell (by simp [available]) (by simp [available])
  case orders => exact h.orders
  case nothing =>
    intro j member reserved
    rcases updateItem_cases member with ⟨k, -, -, -, rfl⟩ | ⟨stored', -⟩
    · cases reserved
    · exact h.nothing j stored' reserved
  case item =>
    rintro _ ⟨⟩
    exact ⟨_, updateItem_self stored chosen, rfl, rfl, rfl⟩
  case kept => exact h.kept.trans (Kept.updateRow stored free)

private theorem Stocked.fulfil (h : Stocked s) (ordered : o ∈ s.orders) (now : Int)
    (locked : List Int) : Paying o s (s.fulfil o now locked).1 (s.fulfil o now locked).2 := by
  have first := h.sellReserved ordered now
  unfold Store.fulfil
  split
  next s' id sold =>
    rw [sold] at first
    exact first
  next s' unsold =>
    rw [unsold] at first
    unfold Store.sellAvailable
    split
    next => exact first
    next i next =>
      obtain ⟨stored, -, available⟩ := mem_nextAvailable next
      exact first.sell stored available rfl now

private theorem Paying.close {got : Option Int} (h : Paying o s s' got) (ordered : o ∈ s.orders)
    {f : AppleOrder → AppleOrder} {w : Preserves AppleOrder.id AppleOrder.tradeNo f}
    (keeps : KeepsKey f) (closed : (f o).status ≠ .pending)
    (buys : (f o).status = .paid → ∃ id ∈ got, (f o).inventoryID = some id) :
    Proceeds s (s'.updateOrder o.id f w) := by
  have only : ∀ o' ∈ (s'.updateOrder o.id f w).orders, o'.id = o.id → o' = f o := by
    intro o' member same
    apply Table.eq_of_key _ member (mem_updateOrder.mpr ⟨o, h.orders ▸ ordered, if_pos rfl⟩)
    exact same.trans (w o).1.symm
  refine ⟨(h.apart.updateOrder keeps).stocked (Own.of_noneHeld h.nothing ?_ ?_), h.kept⟩
  · intro o' member same
    rw [only o' member same]
    exact closed
  · intro o' member same paid
    rw [only o' member same] at paid ⊢
    obtain ⟨id, bought, item⟩ := buys paid
    obtain ⟨i, stored, named, sold, buyer⟩ := h.item id bought
    exact ⟨i, stored, item.trans (by rw [named]), sold, buyer.trans (by rw [(w o).1])⟩

theorem Stocked.settleOrder (h : Stocked s) (ordered : o ∈ s.orders) (callbackNo : String)
    (allowCancelled : Bool) (now : Int) (locked : List Int) :
    Proceeds s (s.settleOrder o callbackNo allowCancelled now locked) := by
  have paying := h.fulfil ordered now locked
  unfold Store.settleOrder
  split
  next s' unsold =>
    rw [unsold] at paying
    refine (paying.close ordered (settle_keepsKey .manual none callbackNo now) ?_ ?_).audit _ _ _
    · exact fun pending => by cases pending
    · exact fun paid => by cases paid
  next s' id sold =>
    rw [sold] at paying
    refine (paying.close ordered (settle_keepsKey .paid (some id) callbackNo now) ?_ ?_).audit _ _ _
    · exact fun pending => by cases pending
    · exact fun _ => ⟨id, rfl, rfl⟩

theorem Stocked.markExternalPaid (h : Stocked s) {callbackNo : String} {allowCancelled : Bool}
    {paymentID amount : Option Int}
    (returned : s.markExternalPaid tradeNo callbackNo allowCancelled paymentID amount now locked =
      .ok s') : Proceeds s s' := by
  simp only [Store.markExternalPaid, bind_eq_ok, ensure_eq_ok, require_eq_ok] at returned
  obtain ⟨-, -, o, found, returned⟩ := returned
  have ordered := ((s.orders.findUniq?_eq_some _ o).mp found).1
  split at returned
  next => exact h.unchanged returned
  next =>
    simp only [bind_eq_ok, ensure_eq_ok, pure_eq_ok] at returned
    obtain ⟨-, -, -, -, -, -, rfl⟩ := returned
    exact h.settleOrder ordered _ _ _ _

/-! ## Cancelling, replacing and refunding -/

private theorem Apart.releaseItemOf (h : Apart o.id s') (stocked : Stocked s)
    (ordered : o ∈ s.orders) (same : s'.inventory = s.inventory) (now : Int) :
    Apart o.id (s'.releaseItemOf o now) ∧ NoneHeld o.id (s'.releaseItemOf o now) ∧
      (s'.releaseItemOf o now).orders = s'.orders ∧ Kept s (s'.releaseItemOf o now) := by
  have item : ∀ i ∈ s'.inventory, i.status = .reserved → i.reservedOrderID = some o.id →
      o.inventoryID = some i.id := fun i member reserved mine =>
    (stocked.reserved_for ordered (same ▸ member) reserved mine).item
  unfold Store.releaseItemOf
  split
  next none_ =>
    refine ⟨h, ?_, rfl, Kept.of_inventory same⟩
    intro i member reserved mine
    have named := item i member reserved mine
    rw [none_] at named
    cases named
  next id holds =>
    refine ⟨?_, ?_, rfl, (Kept.of_inventory same).trans ?_⟩
    · apply h.updateItem
      intro i member _ chosen
      rw [Bool.and_eq_true, decide_eq_true_eq, decide_eq_true_eq] at chosen
      exact proper_release chosen.1 chosen.2 (h.unsold i member (Or.inr chosen.1))
    · apply noneHeld_updateItem
      · intro i member reserved mine
        have named := item i member reserved mine
        rw [holds] at named
        exact ⟨(Option.some.inj named).symm, by simp [reserved, mine]⟩
      · simp [Inventory.release]
    · exact Kept.updateItem fun _ _ _ _ => Or.inl rfl

private theorem cancel_closes {x : Int}
    (member : o ∈ (s.updateOrder x (AppleOrder.cancel now) (AppleOrder.cancel_preserves now)).orders)
    (same : o.id = x) : o.status = .canceled := by
  rcases updateOrder_cases member with ⟨b, -, -, rfl⟩ | ⟨-, other⟩
  · rfl
  · exact absurd same other

theorem Stocked.cancelOrder (h : Stocked s) (returned : s.cancelOrder userID tradeNo now = .ok s') :
    Proceeds s s' := by
  simp only [Store.cancelOrder, bind_eq_ok, ensure_eq_ok, require_eq_ok] at returned
  obtain ⟨-, -, o, found, returned⟩ := returned
  have ordered : o ∈ s.orders := List.mem_of_find?_eq_some found
  split at returned
  next => exact h.unchanged returned
  next =>
    simp only [bind_eq_ok, ensure_eq_ok, pure_eq_ok] at returned
    obtain ⟨-, -, rfl⟩ := returned
    obtain ⟨apart, nothing, orders, kept⟩ :=
      ((h.apart o.id).updateOrder (w := AppleOrder.cancel_preserves now)
        (cancel_keepsKey now)).releaseItemOf h ordered rfl now
    have canceled : ∀ o' ∈ (Store.releaseItemOf o now (s.updateOrder o.id (AppleOrder.cancel now)
        (AppleOrder.cancel_preserves now))).orders, o'.id = o.id → o'.status = .canceled :=
      fun o' member same => cancel_closes (orders ▸ member) same
    refine Proceeds.audit ⟨apart.stocked (Own.of_noneHeld nothing ?_ ?_), kept⟩ _ _ _
    · exact fun o' member same pending => by simp [canceled o' member same] at pending
    · exact fun o' member same paid => by simp [canceled o' member same] at paid

theorem Stocked.adminCancelOrder (h : Stocked s)
    (returned : s.adminCancelOrder orderID adminID now = .ok s') : Proceeds s s' := by
  simp only [Store.adminCancelOrder, bind_eq_ok, ensure_eq_ok, require_eq_ok] at returned
  obtain ⟨-, -, o, found, returned⟩ := returned
  have ordered := Table.mem_of_find? found
  obtain rfl := Table.key_of_find? found
  split at returned
  next => exact h.unchanged returned
  next =>
    simp only [bind_eq_ok, ensure_eq_ok, pure_eq_ok] at returned
    obtain ⟨-, -, rfl⟩ := returned
    obtain ⟨apart, nothing, -, kept⟩ := (h.apart o.id).releaseItemOf h ordered rfl now
    refine Proceeds.audit
      ⟨(apart.updateOrder (cancel_keepsKey now)).stocked (Own.of_noneHeld nothing ?_ ?_), kept⟩ _ _ _
    · exact fun o' member same pending => by simp [cancel_closes member same] at pending
    · exact fun o' member same paid => by simp [cancel_closes member same] at paid

theorem Stocked.adminMarkOrderRefunded (h : Stocked s)
    (returned : s.adminMarkOrderRefunded orderID adminID now = .ok s') : Proceeds s s' := by
  simp only [Store.adminMarkOrderRefunded, bind_eq_ok, ensure_eq_ok, require_eq_ok] at returned
  obtain ⟨-, -, o, found, returned⟩ := returned
  have ordered := Table.mem_of_find? found
  obtain rfl := Table.key_of_find? found
  split at returned
  next => exact h.unchanged returned
  next =>
    simp only [bind_eq_ok, ensure_eq_ok, pure_eq_ok] at returned
    obtain ⟨-, paid, rfl⟩ := returned
    have closed : o.status ≠ .pending := by
      rcases paid with status | status
      · simp [status]
      · simp [status]
    have paying : Paying o s s none :=
      ⟨h.apart o.id, rfl, h.noneHeld ordered closed, (fun _ got => by cases got), Kept.refl s⟩
    refine (paying.close ordered (refund_keepsKey now) ?_ ?_).audit _ _ _
    · exact fun pending => by cases pending
    · exact fun paid => by cases paid

private theorem mem_replacement {newInventoryID : Option Int}
    (found : s.replacement productID newInventoryID locked = some i) :
    i ∈ s.inventory ∧ i.status = .available := by
  unfold replacement at found
  split at found
  next =>
    obtain ⟨stored, -, available⟩ := mem_nextAvailable found
    exact ⟨stored, available⟩
  next =>
    have named := List.find?_some found
    simp only [Bool.and_eq_true, decide_eq_true_eq] at named
    exact ⟨List.mem_of_find?_eq_some found, named.1.2⟩

theorem Stocked.adminReplaceInventory (h : Stocked s) {newInventoryID : Option Int}
    (returned : s.adminReplaceInventory orderID adminID newInventoryID now locked = .ok s') :
    Proceeds s s' := by
  simp only [Store.adminReplaceInventory, bind_eq_ok, ensure_eq_ok, require_eq_ok, pure_eq_ok]
    at returned
  obtain ⟨-, -, o, found, oldID, -, -, paid, old, oldRow, -, sold, -, -, new, chosen, rfl⟩ :=
    returned
  have ordered := Table.mem_of_find? found
  obtain rfl := Table.key_of_find? found
  have stored := Table.mem_of_find? oldRow
  obtain rfl := Table.key_of_find? oldRow
  obtain ⟨newStored, available⟩ := mem_replacement chosen
  have closed : o.status ≠ .pending := by simp [paid]
  have other : new.id ≠ old.id := by
    intro same
    rw [s.inventory.eq_of_key newStored stored same, sold.1] at available
    cases available
  -- The old item is taken out of the stock first.
  have retired : Paying o s (s.updateItem old.id (fun i => i.status = .sold)
      (Inventory.disable now) (Inventory.disable_preserves now)) none := by
    constructor
    case apart =>
      refine (h.apart o.id).updateRow stored fun _ => ?_
      constructor
      case notOthers => simp [sold.1]
      case notBought => exact fun _ => sold.2
      case reserves => exact fun reserved => by cases reserved
      case unsold => simp [Inventory.disable]
      case named => simp [Inventory.disable]
    case orders => rfl
    case nothing =>
      apply noneHeld_updateItem
      · exact fun i member reserved mine =>
          absurd mine (h.noneHeld ordered closed i member reserved)
      · simp [Inventory.disable]
    case item => exact fun _ got => by cases got
    case kept => exact Kept.updateItem fun _ _ _ _ => Or.inl rfl
  have bought := retired.sell (updateItem_spared newStored fun both => other both.1) available
    (p := fun i => i.status = .available) (by simp [available]) now
  refine (bought.close ordered (replaceInventory_keepsKey new.id now) ?_ ?_).audit _ _ _
  · exact closed
  · exact fun _ => ⟨new.id, rfl, rfl⟩

/-! ## Filling the stock -/

private theorem Stocked.insertItem (h : Stocked s) {item : EncryptedItem}
    (returned : s.insertItem productID now item = .ok s') : Proceeds s s' := by
  simp only [Store.insertItem, bind_eq_ok, ensure_eq_ok, require_eq_ok, pure_eq_ok] at returned
  obtain ⟨-, -, inventory, inserted, rfl⟩ := returned
  have rows := Table.mem_of_insert? inserted
  constructor
  case kept => exact fun i member _ => ⟨i, (rows i).mpr (Or.inl member), rfl, rfl⟩
  case stocked =>
    constructor
    case held =>
      intro i member reserved
      rcases (rows i).mp member with stored | rfl
      · exact h.held i stored reserved
      · cases reserved
    case holding =>
      intro o ordered pending id named
      obtain ⟨i, stored, same, holds⟩ := h.holding o ordered pending id named
      exact ⟨i, (rows i).mpr (Or.inl stored), same, holds⟩
    case bought =>
      intro o ordered paid
      obtain ⟨i, stored, bought⟩ := h.bought o ordered paid
      exact ⟨i, (rows i).mpr (Or.inl stored), bought⟩
    case unsold =>
      intro i member free
      rcases (rows i).mp member with stored | rfl
      · exact h.unsold i stored free
      · rfl
    case named =>
      intro i member sold
      rcases (rows i).mp member with stored | rfl
      · exact h.named i stored sold
      · cases sold
    case keyed => exact h.keyed

private theorem Stocked.insertItems (h : Stocked s) {items : List EncryptedItem}
    (returned : items.foldlM (Store.insertItem productID now) s = .ok s') : Proceeds s s' := by
  induction items generalizing s with
  | nil => exact h.unchanged returned
  | cons item items ih =>
    rw [List.foldlM_cons, bind_eq_ok] at returned
    obtain ⟨t, first, rest⟩ := returned
    have inserted := h.insertItem first
    exact inserted.trans (ih inserted.stocked rest)

theorem Stocked.adminDisableInventory (h : Stocked s) {inventoryID : Int}
    (returned : s.adminDisableInventory inventoryID adminID now = .ok s') : Proceeds s s' := by
  simp only [Store.adminDisableInventory, bind_eq_ok, ensure_eq_ok, require_eq_ok] at returned
  obtain ⟨-, -, i, found, returned⟩ := returned
  split at returned
  next => cases returned
  next => cases returned
  next => exact h.unchanged returned
  next available =>
    obtain rfl := (pure_eq_ok _ s').mp returned
    refine ⟨?_, Kept.updateItem fun _ _ _ _ => Or.inl rfl⟩
    have free : ∀ j ∈ s.inventory, j.status = .reserved ∨ j.status = .sold →
        j ∈ (s.updateItem inventoryID (fun i => i.status = .available) (Inventory.disable now)
          (Inventory.disable_preserves now)).inventory := by
      intro j member status
      apply updateItem_spared member
      rcases status with status | status
      · simp [status]
      · simp [status]
    have old : ∀ j ∈ (s.updateItem inventoryID (fun i => i.status = .available)
        (Inventory.disable now) (Inventory.disable_preserves now)).inventory,
        j.status ≠ .disabled → j ∈ s.inventory := by
      intro j member status
      rcases updateItem_cases member with ⟨i, -, -, -, rfl⟩ | ⟨stored, -⟩
      · exact absurd rfl status
      · exact stored
    constructor
    case held => exact fun j member reserved => h.held j (old j member (by simp [reserved])) reserved
    case holding =>
      intro o ordered pending id named
      obtain ⟨j, stored, same, holds⟩ := h.holding o ordered pending id named
      exact ⟨j, free j stored (Or.inl holds.reserved), same, holds⟩
    case bought =>
      intro o ordered paid
      obtain ⟨j, stored, bought⟩ := h.bought o ordered paid
      exact ⟨j, free j stored (Or.inr bought.sold), bought⟩
    case unsold =>
      intro j member status
      refine h.unsold j (old j member ?_) status
      rcases status with status | status
      · simp [status]
      · simp [status]
    case named => exact fun j member sold => h.named j (old j member (by simp [sold])) sold
    case keyed => exact h.keyed

/-! ## Runs -/

theorem Stocked.perform (h : Stocked s) {r : Request} (returned : s.perform r = .ok s') :
    Proceeds s s' := by
  unfold Store.perform at returned
  split at returned
  case h_1 req _ =>
    simp only [adminSaveProduct, bind_eq_ok, ensure_eq_ok] at returned
    obtain ⟨-, -, returned⟩ := returned
    split at returned
    · simp only [bind_eq_ok, require_eq_ok, pure_eq_ok] at returned
      obtain ⟨products, -, rfl⟩ := returned
      exact .of_same h rfl rfl
    · simp only [bind_eq_ok, ensure_eq_ok, pure_eq_ok] at returned
      obtain ⟨-, -, -, -, rfl⟩ := returned
      exact .of_same h rfl rfl
  case h_2 =>
    simp only [adminSetProductEnabled, bind_eq_ok, ensure_eq_ok, pure_eq_ok] at returned
    obtain ⟨-, -, -, -, rfl⟩ := returned
    exact .of_same h rfl rfl
  case h_3 =>
    simp only [adminDeleteProduct, bind_eq_ok, ensure_eq_ok, pure_eq_ok] at returned
    obtain ⟨-, -, -, -, -, -, rfl⟩ := returned
    exact .of_same h rfl rfl
  case h_4 =>
    simp only [adminAddInventoryBatch, bind_eq_ok, ensure_eq_ok] at returned
    obtain ⟨-, -, -, -, returned⟩ := returned
    exact h.insertItems returned
  case h_5 => exact h.adminDisableInventory returned
  case h_6 =>
    obtain ⟨⟨t, order⟩, created, rfl⟩ := (map_eq_ok _ _ _).mp returned
    exact h.createOrder created
  case h_7 => exact h.setExternalPayment returned
  case h_8 => exact h.markExternalPaid returned
  case h_9 => exact h.cancelOrder returned
  case h_10 =>
    obtain rfl := (pure_eq_ok _ s').mp returned
    exact h.releaseExpiredReservations r.now
  case h_11 => exact h.adminReplaceInventory returned
  case h_12 => exact h.adminMarkOrderRefunded returned
  case h_13 => exact h.adminCancelOrder returned

theorem Stocked.step (h : Stocked s) (r : Request) : Proceeds s (s.step r) :=
  commit_cases s (s.perform r) ⟨h, Kept.refl s⟩ fun _ returned => h.perform returned

theorem stocked_empty : Stocked .empty where
  held _ member := (List.not_mem_nil member).elim
  holding _ member := (List.not_mem_nil member).elim
  bought _ member := (List.not_mem_nil member).elim
  unsold _ member := (List.not_mem_nil member).elim
  named _ member := (List.not_mem_nil member).elim
  keyed _ member := (List.not_mem_nil member).elim

theorem Stocked.run (h : Stocked s) (requests : List Request) :
    Proceeds s (run Store.step s requests) := by
  induction requests generalizing s with
  | nil => exact ⟨h, Kept.refl s⟩
  | cons r rest ih =>
    have first := h.step r
    exact first.trans (ih first.stocked)

theorem Stocked.reserved_iff (h : Stocked s) (member : i ∈ s.inventory) :
    i.status = .reserved ↔
      ∃! o, o ∈ s.orders ∧ o.status = .pending ∧ o.inventoryID = some i.id := by
  constructor
  · intro reserved
    obtain ⟨o, ordered, holds⟩ := h.held i member reserved
    refine ⟨o, ⟨ordered, holds.pending, holds.item⟩, ?_⟩
    rintro o' ⟨ordered', pending, item⟩
    obtain ⟨i', stored, same, holds'⟩ := h.holding o' ordered' pending i.id item
    obtain rfl := s.inventory.eq_of_key stored member same
    exact s.orders.eq_of_key ordered' ordered
      (Option.some.inj (holds'.order.symm.trans holds.order))
  · rintro ⟨o, ⟨ordered, pending, item⟩, -⟩
    obtain ⟨i', stored, same, holds⟩ := h.holding o ordered pending i.id item
    obtain rfl := s.inventory.eq_of_key stored member same
    exact holds.reserved

private theorem Proceeds.still_sold (proceeds : Proceeds s s') {i' : Inventory}
    (member : i ∈ s.inventory) (sold : i.soldOrderID ≠ none) (member' : i' ∈ s'.inventory)
    (same : i'.id = i.id) : i'.soldOrderID = i.soldOrderID := by
  obtain ⟨j, stored, same', buyer⟩ := proceeds.kept i member sold
  rw [s'.inventory.eq_of_key member' stored (same.trans same'.symm)]
  exact buyer

private theorem delivery_spec (delivered : s.delivery userID tradeNo = .ok (o, i)) :
    i ∈ s.inventory ∧ i.soldOrderID = some o.id := by
  simp only [delivery, bind_eq_ok, ensure_eq_ok, require_eq_ok, pure_eq_ok, Prod.mk.injEq]
    at delivered
  obtain ⟨-, -, o, -, -, -, id, -, i, found, rfl, rfl⟩ := delivered
  have named := List.find?_some found
  simp only [Bool.and_eq_true, decide_eq_true_eq] at named
  exact ⟨List.mem_of_find?_eq_some found, named.2⟩

end Store

/-- In every reachable state an item is reserved exactly when one pending order refers to it, a
paid order has an item that was sold to it, and a key has been used once. From then on, an item
that was sold, or replaced after it was sold, is not available again, and it is not delivered to
another order. -/
theorem inventory_sold_once (requests later : List Request) :
    let s := run Store.step .empty requests
    let s' := run Store.step s later
    (∀ i ∈ s.inventory, i.status = .reserved ↔
      ∃! o, o ∈ s.orders ∧ o.status = .pending ∧ o.inventoryID = some i.id) ∧
    (∀ o ∈ s.orders, o.status = .paid → ∃ i ∈ s.inventory,
      o.inventoryID = some i.id ∧ i.status = .sold ∧ i.soldOrderID = some o.id) ∧
    (∀ o ∈ s.orders, ∀ o' ∈ s.orders, o.userID = o'.userID →
      o.idempotencyKey = o'.idempotencyKey → o.idempotencyKey ≠ "" → o = o') ∧
    (∀ i ∈ s.inventory, i.status = .sold ∨ i.status = .disabled ∧ i.soldOrderID ≠ none →
      ∀ i' ∈ s'.inventory, i'.id = i.id → i'.status ≠ .available) ∧
    ∀ userID tradeNo o i userID' tradeNo' o' i', s.delivery userID tradeNo = .ok (o, i) →
      s'.delivery userID' tradeNo' = .ok (o', i') → i'.id = i.id → o'.id = o.id := by
  intro s s'
  have stocked := (Store.stocked_empty.run requests).stocked
  have proceeds := stocked.run later
  refine ⟨fun i member => stocked.reserved_iff member, ?_, stocked.keyed, ?_, ?_⟩
  · intro o ordered paid
    obtain ⟨i, stored, bought⟩ := stocked.bought o ordered paid
    exact ⟨i, stored, bought.item, bought.sold, bought.order⟩
  · intro i member spent i' member' same available
    have sold : i.soldOrderID ≠ none := by
      rcases spent with status | ⟨-, buyer⟩
      · exact stocked.named i member status
      · exact buyer
    have buyer := proceeds.still_sold member sold member' same
    rw [proceeds.stocked.unsold i' member' (Or.inl available)] at buyer
    exact sold buyer.symm
  · intro userID tradeNo o i userID' tradeNo' o' i' delivered delivered' same
    obtain ⟨member, buyer⟩ := Store.delivery_spec delivered
    obtain ⟨member', buyer'⟩ := Store.delivery_spec delivered'
    have kept := proceeds.still_sold member (by simp [buyer]) member' same
    rw [buyer, buyer'] at kept
    exact Option.some.inj kept

/-- In every reachable state an order is delivered to its buyer exactly while it is paid, under its
trade number, and what is delivered is the item that was sold to it. -/
theorem paid_order_delivered (requests : List Request) (userID : Int) (tradeNo : String)
    (o : AppleOrder) :
    let s := run Store.step .empty requests
    ((∃ i, s.delivery userID tradeNo = .ok (o, i)) ↔
      o ∈ s.orders ∧ o.status = .paid ∧ o.userID = userID ∧ 0 < userID ∧
        o.tradeNo = trimSpace tradeNo ∧ Store.ownsExternalTradeNo tradeNo = true) ∧
    ∀ i, s.delivery userID tradeNo = .ok (o, i) → i ∈ s.inventory ∧ o.inventoryID = some i.id ∧
      i.status = .sold ∧ i.soldOrderID = some o.id := by
  intro s
  have stocked := (Store.stocked_empty.run requests).stocked
  simp only [Store.delivery, bind_eq_ok, ensure_eq_ok, require_eq_ok, pure_eq_ok, Prod.mk.injEq]
  refine ⟨⟨?_, ?_⟩, ?_⟩
  · rintro ⟨-, -, ⟨buyer, own⟩, o, found, -, paid, -, -, -, -, rfl, -⟩
    have asked := List.find?_some found
    simp only [Bool.and_eq_true, decide_eq_true_eq] at asked
    exact ⟨List.mem_of_find?_eq_some found, paid, asked.1, buyer, asked.2, own⟩
  · rintro ⟨ordered, paid, user, buyer, named, own⟩
    obtain ⟨i, stored, bought⟩ := stocked.bought o ordered paid
    refine ⟨i, (), ⟨buyer, own⟩, o, ?_, (), paid, i.id, bought.item, i, ?_, rfl, rfl⟩
    · refine s.orders.rows_find? ordered (by simp [user, named]) fun o' ordered' asked => ?_
      simp only [Bool.and_eq_true, decide_eq_true_eq] at asked
      exact s.orders.eq_of_uniq ordered' ordered (asked.2.trans named.symm)
    · refine s.inventory.rows_find? stored (by simp [bought.sold, bought.order])
        fun j stored' asked => ?_
      simp only [Bool.and_eq_true, decide_eq_true_eq] at asked
      exact s.inventory.eq_of_key stored' stored asked.1.1
  · rintro i ⟨-, -, o, -, -, -, id, item, i, found, rfl, rfl⟩
    have asked := List.find?_some found
    simp only [Bool.and_eq_true, decide_eq_true_eq] at asked
    obtain ⟨⟨rfl, sold⟩, order⟩ := asked
    exact ⟨List.mem_of_find?_eq_some found, item, sold, order⟩

end ForestPanel.AppleID
