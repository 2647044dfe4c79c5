import ForestPanel.Store.Rows
import Mathlib.Algebra.Group.Basic

/-!
# The life of orders

What the order code is about, without its tables: an order is saved, cancelled,
opened and refunded; it takes `part` of its price from a balance, gives `credit`
back when it opens, may carry a coupon, and may use up the value of older
orders. The identities, the users, the coupons and the money are of any type.
-/
namespace ForestPanel.Life

open Relational

variable {ι υ κ M : Type}

structure Order (ι υ κ M : Type) where
  id : ι
  user : υ
  status : OrderStatus
  part : M
  credit : M
  coupon : Option κ
  uses : List ι

def Live (status : OrderStatus) : Prop := status = .completed ∨ status = .closed

instance (status : OrderStatus) : Decidable (Live status) := by
  unfold Live
  infer_instance

namespace Order

def withStatus (r : Order ι υ κ M) (status : OrderStatus) : Order ι υ κ M := { r with status }

variable (r : Order ι υ κ M) (status : OrderStatus)

@[simp] theorem id_withStatus : (r.withStatus status).id = r.id := rfl

@[simp] theorem user_withStatus : (r.withStatus status).user = r.user := rfl

@[simp] theorem status_withStatus : (r.withStatus status).status = status := rfl

@[simp] theorem part_withStatus : (r.withStatus status).part = r.part := rfl

@[simp] theorem credit_withStatus : (r.withStatus status).credit = r.credit := rfl

@[simp] theorem coupon_withStatus : (r.withStatus status).coupon = r.coupon := rfl

@[simp] theorem uses_withStatus : (r.withStatus status).uses = r.uses := rfl

@[simp] theorem withStatus_self : r.withStatus r.status = r := rfl

end Order

/-- The orders, the uses each coupon has left, and for every user and order the
net amounts the order took from and credited to the user's balance. -/
structure Book (ι υ κ M : Type) where
  orders : Table (@Order.id ι υ κ M) (@Order.id ι υ κ M)
  left : κ → Option Int
  charged : υ → ι → M
  credited : υ → ι → M

inductive Event (ι υ κ M : Type)
  | idle
  | save (o : Order ι υ κ M)
  | cancel (o : Order ι υ κ M)
  | open (o : Order ι υ κ M)
  | refund (o : Order ι υ κ M)

section

variable [DecidableEq υ] [DecidableEq κ]

/-- The user's orders that carry the coupon and satisfy `p`. -/
def Book.count (b : Book ι υ κ M) (user : υ) (coupon : κ) (p : Order ι υ κ M → Bool) : Int :=
  b.orders.rows.countP fun r => r.coupon = some coupon && r.user = user && p r

end

/-- The coupon's orders, of every user and in every status. -/
def Book.carrying [DecidableEq κ] (b : Book ι υ κ M) (coupon : κ) : Int :=
  b.orders.rows.countP fun r => r.coupon = some coupon

def Order.paid (r : Order ι υ κ M) : Bool := !(r.status = .pending || r.status = .cancelled)

def Order.standing (r : Order ι υ κ M) : Bool := r.status ≠ .cancelled

/-- A new order: unpaid, without traces, the only unfinished one of its buyer;
what it uses are completed orders of the buyer, and its coupon has room. -/
structure Savable [DecidableEq υ] [DecidableEq κ] [Zero M] (perUser : κ → Option Int)
    (b : Book ι υ κ M) (o : Order ι υ κ M) : Prop where
  pending : o.status = .pending
  fresh : ∀ r ∈ b.orders, r.id ≠ o.id
  untouched : b.charged o.user o.id = 0 ∧ b.credited o.user o.id = 0
  alone : ∀ r ∈ b.orders, r.user = o.user → r.status ≠ .pending ∧ r.status ≠ .processing
  uses : ∀ i ∈ o.uses, ∃ r ∈ b.orders, r.id = i ∧ r.user = o.user ∧ r.status = .completed
  room : ∀ k limit, o.coupon = some k → perUser k = some limit →
    b.count o.user k Order.paid < limit
  left : ∀ k l, o.coupon = some k → b.left k = some l → 0 < l

namespace Event

/-- The status of `r` after the event. Opening closes what the order uses, in
whatever status it is; refunding restores only what is closed. -/
def after [DecidableEq ι] (r : Order ι υ κ M) : Event ι υ κ M → OrderStatus
  | .cancel o => if r.id = o.id then .cancelled else r.status
  | .open o =>
    if r.id = o.id then .completed else if r.id ∈ o.uses then .closed else r.status
  | .refund o =>
    if r.id = o.id then .cancelled
    else if r.status = .closed ∧ r.id ∈ o.uses then .completed else r.status
  | .idle | .save _ => r.status

def saved : Event ι υ κ M → List (Order ι υ κ M)
  | .save o => [o]
  | _ => []

def left [DecidableEq κ] (before : κ → Option Int) (coupon : κ) : Event ι υ κ M → Option Int
  | .save o => if o.coupon = some coupon then (before coupon).map (· - 1) else before coupon
  | _ => before coupon

section

variable [DecidableEq ι] [DecidableEq υ]

def amount [Zero M] (o : Order ι υ κ M) (m : M) (user : υ) (id : ι) : M :=
  if user = o.user ∧ id = o.id then m else 0

/-- What the event takes from the balance of a user for an order. -/
def charge [AddGroup M] : Event ι υ κ M → υ → ι → M
  | .save o => amount o o.part
  | .cancel o => amount o (-o.part)
  | .open o => amount o (if o.status = .cancelled then o.part else 0)
  | .idle | .refund _ => fun _ _ => 0

def credit [Zero M] : Event ι υ κ M → υ → ι → M
  | .open o => amount o o.credit
  | _ => fun _ _ => 0

end

section

variable [DecidableEq υ] [DecidableEq κ] [Zero M]

def Enabled (perUser : κ → Option Int) (b : Book ι υ κ M) : Event ι υ κ M → Prop
  | .idle => True
  | .save o => Savable perUser b o
  | .cancel o => o ∈ b.orders ∧ (o.status = .pending ∨ o.status = .processing)
  | .open o => o ∈ b.orders ∧
      (o.status = .pending ∨ o.status = .processing ∨ o.status = .cancelled)
  | .refund o => o ∈ b.orders ∧ o.status = .completed

end

end Event

structure Step [DecidableEq ι] [DecidableEq υ] [DecidableEq κ] [AddGroup M]
    (perUser : κ → Option Int) (b : Book ι υ κ M) (e : Event ι υ κ M) (b' : Book ι υ κ M) :
    Prop where
  enabled : e.Enabled perUser b
  orders : b'.orders.rows = (b.orders.rows.map fun r => r.withStatus (e.after r)) ++ e.saved
  left : ∀ k, b'.left k = e.left b.left k
  charged : ∀ u i, b'.charged u i = b.charged u i + e.charge u i
  credited : ∀ u i, b'.credited u i = b.credited u i + e.credit u i

section

variable [DecidableEq ι] [DecidableEq υ] [DecidableEq κ] [AddGroup M]
  {perUser : κ → Option Int} {b b' : Book ι υ κ M} {e : Event ι υ κ M}

omit [DecidableEq κ] in
theorem amount_self (o : Order ι υ κ M) (m : M) : Event.amount o m o.user o.id = m :=
  if_pos ⟨rfl, rfl⟩

omit [DecidableEq κ] in
theorem amount_other (o : Order ι υ κ M) (m : M) (user : υ) {id : ι} (other : id ≠ o.id) :
    Event.amount o m user id = 0 :=
  if_neg fun same => other same.2

omit [DecidableEq ι] [DecidableEq υ] [DecidableEq κ] [AddGroup M] in
def Event.Spares (r : Order ι υ κ M) : Event ι υ κ M → Prop
  | .cancel o => r.id ≠ o.id
  | .open o => r.id ≠ o.id ∧ r.id ∉ o.uses
  | .refund o => r.id ≠ o.id ∧ ¬(r.status = .closed ∧ r.id ∈ o.uses)
  | .idle | .save _ => True

/-- What an event does to the order `r`: its new status, what is taken from the
balance for it, and what is credited. -/
inductive Change (b : Book ι υ κ M) (r : Order ι υ κ M) :
    Event ι υ κ M → OrderStatus → M → M → Prop
  | unchanged (e : Event ι υ κ M) (spared : e.Spares r) : Change b r e r.status 0 0
  | cancelled (unfinished : r.status = .pending ∨ r.status = .processing) :
      Change b r (.cancel r) .cancelled (-r.part) 0
  | opened (unopened : r.status = .pending ∨ r.status = .processing ∨ r.status = .cancelled) :
      Change b r (.open r) .completed (if r.status = .cancelled then r.part else 0) r.credit
  | closed (o : Order ι υ κ M) (stored : o ∈ b.orders) (other : r.id ≠ o.id)
      (used : r.id ∈ o.uses) : Change b r (.open o) .closed 0 0
  | refunded (completed : r.status = .completed) : Change b r (.refund r) .cancelled 0 0
  | restored (o : Order ι υ κ M) (stored : o ∈ b.orders) (completed : o.status = .completed)
      (other : r.id ≠ o.id) (used : r.id ∈ o.uses) (closed : r.status = .closed) :
      Change b r (.refund o) .completed 0 0

theorem Event.change (enabled : e.Enabled perUser b) {r : Order ι υ κ M} (member : r ∈ b.orders) :
    Change b r e (e.after r) (e.charge r.user r.id) (e.credit r.user r.id) := by
  cases e with
  | idle => exact .unchanged _ trivial
  | save o =>
    rw [Event.charge, amount_other o o.part r.user (enabled.fresh r member)]
    exact .unchanged _ trivial
  | cancel o =>
    obtain ⟨stored, unfinished⟩ := enabled
    by_cases same : r.id = o.id
    · obtain rfl := b.orders.eq_of_key member stored same
      simp only [Event.after, Event.charge, Event.credit, amount_self, if_true]
      exact .cancelled unfinished
    · simp only [Event.after, Event.charge, Event.credit, amount_other o _ r.user same, same,
        if_false]
      exact .unchanged _ same
  | «open» o =>
    obtain ⟨stored, unopened⟩ := enabled
    by_cases same : r.id = o.id
    · obtain rfl := b.orders.eq_of_key member stored same
      simp only [Event.after, Event.charge, Event.credit, amount_self, if_true]
      exact .opened unopened
    · simp only [Event.after, Event.charge, Event.credit, amount_other o _ r.user same, same,
        if_false]
      split
      next used => exact .closed o stored same used
      next unused => exact .unchanged _ ⟨same, unused⟩
  | refund o =>
    obtain ⟨stored, completed⟩ := enabled
    by_cases same : r.id = o.id
    · obtain rfl := b.orders.eq_of_key member stored same
      simp only [Event.after, Event.charge, Event.credit, if_true]
      exact .refunded completed
    · simp only [Event.after, Event.charge, Event.credit, same, if_false]
      split
      next restored => exact .restored o stored completed same restored.2 restored.1
      next kept => exact .unchanged _ ⟨same, kept⟩

theorem Step.mem_cases (h : Step perUser b e b') {r : Order ι υ κ M} (member : r ∈ b'.orders) :
    (∃ o ∈ b.orders, o.withStatus (e.after o) = r) ∨ e = .save r := by
  rw [Table.mem_def, h.orders, List.mem_append, List.mem_map] at member
  rcases member with old | new
  · exact Or.inl old
  · cases e <;> simp_all [Event.saved]

theorem Step.mem_of_mem (h : Step perUser b e b') {r : Order ι υ κ M} (member : r ∈ b.orders) :
    r.withStatus (e.after r) ∈ b'.orders := by
  rw [Table.mem_def, h.orders]
  exact List.mem_append_left _ (List.mem_map_of_mem member)

end

end ForestPanel.Life
