import ForestPanel.Payment.Callbacks
import ForestPanel.Payment.Links

/-!
# Payments of an order that is paid already

A buyer may pay an order twice: through an older link, or through a link that was
open while the order was completed otherwise. The second payment is recorded if it
comes by a method other than the selected one, and only once. A payment by the
selected method is refused: its callback number cannot be the stored one.
-/
namespace ForestPanel

open Relational Outcome Transition

/-- The late payment of the charge is acknowledged, the order, the buyer and the
coupons stay as they are, and the charge's attempt stores the callback number. -/
def RecordsPayment (rt : Runtime) (cfg : Config) (now : Int) (db : Db) (order : OrderRecord)
    (a : OrderPaymentAttempt) (callbackNo : String) : Prop :=
  ∃ db', markOrderPaid rt cfg now order.tradeNo
      (gatewayConfirmation callbackNo a.paymentID a.amount) db = .ok db' ∧
    db'.orders = db.orders ∧ db'.users = db.users ∧ db'.coupons = db.coupons ∧
    ∃ a' ∈ db'.attempts, a'.charge = a.charge ∧ a'.callbackNo = some (trimSpace callbackNo) ∧
      a'.status ≠ .pending

section

variable {db : Db} {order : OrderRecord} {a : OrderPaymentAttempt} {callbackNo : String}
  {now : Int}

private theorem Payable.current (payable : Payable db) (member : order ∈ db.orders)
    (stored : a ∈ db.attempts) (own : a.orderID = order.id) :
    validateOrderPaymentConfirmation order (gatewayConfirmation callbackNo a.paymentID a.amount) =
      .ok () ↔ order.paymentID = some a.paymentID := by
  have gateway : (gatewayConfirmation callbackNo a.paymentID a.amount).paymentID =
    some a.paymentID := rfl
  rw [validateOrderPaymentConfirmation_gateway gateway]
  constructor
  · exact fun valid => valid.2.1
  · intro chosen
    obtain ⟨b, stored', own', method, handling⟩ := payable.selected order member _ chosen
    have same : b = a := db.attempts.eq_of_uniq stored' stored
      (by simp [OrderPaymentAttempt.method, own, own', method])
    rw [same] at handling
    obtain ⟨positive, o, found, equal, -, ⟨priced, fee, bounded, sum⟩, -⟩ := payable.billed a stored
    obtain rfl := db.orders.eq_of_key found member (equal.trans own)
    rw [handling] at fee bounded sum
    exact ⟨⟨⟨priced.le, fee, bounded⟩, rfl⟩, chosen, congrArg some sum.symm, positive, priced⟩

private theorem callback_differs (trimmed : Trimmed db) (member : order ∈ db.orders)
    (chosen : order.paymentID = some a.paymentID)
    (unused : UnusedCallback db a.paymentID (trimSpace callbackNo)) :
    ¬(order.callbackNo.isSome ∧ trimSpace (order.callbackNo.getD "") = trimSpace callbackNo) := by
  rintro ⟨answered, same⟩
  obtain ⟨t, number⟩ := Option.isSome_iff_exists.mp answered
  have whole := trimmed order.id a.paymentID t (Or.inl ⟨order, member, rfl, chosen, number⟩)
  rw [number, Option.getD_some, whole] at same
  exact unused.1 order member chosen (same ▸ number)

private theorem attempt_callback_differs (trimmed : Trimmed db) (stored : a ∈ db.attempts)
    (unused : UnusedCallback db a.paymentID (trimSpace callbackNo)) :
    ¬(a.callbackNo.isSome ∧ trimSpace (a.callbackNo.getD "") = trimSpace callbackNo) := by
  rintro ⟨answered, same⟩
  obtain ⟨t, number⟩ := Option.isSome_iff_exists.mp answered
  have whole := trimmed a.orderID a.paymentID t (Or.inr ⟨a, stored, rfl, rfl, number⟩)
  rw [number, Option.getD_some, whole] at same
  exact unused.2 a stored rfl (same ▸ number)

private theorem markOrderPaid_of_paid (payable : Payable db) (member : order ∈ db.orders)
    (paid : order.status = .completed ∨ order.status = .closed) (stored : a ∈ db.attempts)
    (own : a.orderID = order.id) (nonempty : trimSpace callbackNo ≠ "") (rt : Runtime)
    (cfg : Config) :
    markOrderPaid rt cfg now order.tradeNo (gatewayConfirmation callbackNo a.paymentID a.amount) db =
      confirmCompletedOrder now order (gatewayConfirmation callbackNo a.paymentID a.amount)
        (some a) order.tradeNo (trimSpace callbackNo) db := by
  obtain ⟨locked, ⟨trimmed, named⟩, attempt, checked, -, -⟩ :=
    payable.confirmed member stored own callbackNo
  have answer : (gatewayConfirmation callbackNo a.paymentID a.amount).callbackNo = callbackNo := rfl
  rw [markOrderPaid]
  dsimp only
  rw [answer, trimmed, ensure_of _ ⟨named, nonempty⟩, bind_ok, locked]
  simp only [require, bind_ok]
  rw [attempt, checked, bind_ok]
  rcases paid with completed | closed
  · rw [completed]
  · rw [closed]

private theorem repairLegacyCallback_orders {attempt : Option OrderPaymentAttempt} {db' : Db}
    {number : String} (member : order ∈ db.orders)
    (returned : repairLegacyCallback now order number attempt db = .ok db')
    (same : db'.orders = db.orders) : order.callbackNo = some number := by
  simp only [repairLegacyCallback, bind_eq_ok, pure_eq_ok] at returned
  obtain ⟨db₁, repaired, rfl⟩ := returned
  have kept : db₁.orders = db.orders := by rw [repairLegacyAttempt_frame repaired]
  have row : repairedRow now number order order ∈ db.orders := by
    rw [← same, Table.mem_def]
    simp only [Db.updateOrderPaymentState, Db.updateOrder, Table.rows_updateWhere, kept,
      List.mem_map]
    exact ⟨order, member, by simp [repairedRow]⟩
  have unchanged := db.orders.eq_of_key row member (by simp [repairedRow])
  have number' := congrArg OrderRecord.callbackNo unchanged
  simpa [repairedRow] using number'.symm

theorem Payable.recordsPayment_iff (payable : Payable db) (trimmed : Trimmed db)
    (member : order ∈ db.orders) (paid : order.status = .completed ∨ order.status = .closed)
    (stored : a ∈ db.attempts) (own : a.orderID = order.id) (rt : Runtime) (cfg : Config)
    (nonempty : trimSpace callbackNo ≠ "")
    (unused : UnusedCallback db a.paymentID (trimSpace callbackNo)) :
    RecordsPayment rt cfg now db order a callbackNo ↔
      order.paymentID ≠ some a.paymentID ∧ a.status = .pending := by
  have current := @Payable.current _ _ _ callbackNo payable member stored own
  have unclaimed := unused.unclaimed order.tradeNo
  unfold RecordsPayment
  rw [markOrderPaid_of_paid payable member paid stored own nonempty rt cfg]
  generalize confirmation : gatewayConfirmation callbackNo a.paymentID a.amount = c at *
  have gateway : c.paymentID = some a.paymentID := confirmation ▸ rfl
  unfold confirmCompletedOrder
  rw [gateway, unclaimed]
  constructor
  · rintro ⟨db', returned, orders, -, -, a', stored', charge, number, settled⟩
    split at returned
    next invalid =>
      refine ⟨fun chosen => ?_, ?_⟩
      · rw [current.mpr chosen] at invalid
        cases invalid
      · simp only [require, bind_ok, recordDuplicateAttempt] at returned
        split at returned
        next waiting => exact waiting
        next =>
          simp only [bind_eq_ok, ensure_eq_ok, exists_const] at returned
          exact absurd returned.1 (attempt_callback_differs trimmed stored unused)
        next => cases returned
    next valid =>
      have chosen := current.mp valid
      rw [bind_ok, if_neg (callback_differs trimmed member chosen unused)] at returned
      split at returned
      · exact absurd (repairLegacyCallback_orders member returned orders)
          (unused.1 order member chosen)
      · cases returned
  · rintro ⟨other, waiting⟩
    obtain ⟨db', marked⟩ : ∃ db', markOrderPaymentAttempt db a.id (trimSpace callbackNo) .duplicate
        now = .ok db' := ⟨_, markOrderPaymentAttempt_eq_ok.mpr ⟨⟨a, stored, rfl, waiting⟩, rfl⟩⟩
    have frame := markOrderPaymentAttempt_frame marked
    refine ⟨db', ?_, by rw [frame], by rw [frame], by rw [frame], ?_⟩
    · split
      next =>
        simp only [require, bind_ok, recordDuplicateAttempt, waiting]
        exact marked
      next valid => exact absurd (current.mp valid) other
    · obtain ⟨-, rfl⟩ := markOrderPaymentAttempt_eq_ok.mp marked
      refine ⟨{ a with
        callbackNo := some (trimSpace callbackNo)
        status := .duplicate
        paidAt := some now }, ?_, rfl, rfl, by simp⟩
      rw [Table.mem_updateWhere]
      exact ⟨a, stored, by simp [waiting]⟩

end

/-- In every state, a late payment of a charge is recorded exactly when its
method is not the selected one and no payment by it is recorded yet. -/
theorem late_payment_recorded_iff (rt : Runtime) (s : Sys) (inputs : List Input) (start : s.Start)
    (order : OrderRecord) (member : order ∈ (run (Sys.step rt) s inputs).db.orders)
    (paid : order.status = .completed ∨ order.status = .closed) (a : OrderPaymentAttempt)
    (stored : a ∈ (run (Sys.step rt) s inputs).db.attempts) (own : a.orderID = order.id)
    (cfg : Config) (now : Int) (callbackNo : String) (nonempty : trimSpace callbackNo ≠ "")
    (unused : UnusedCallback (run (Sys.step rt) s inputs).db a.paymentID (trimSpace callbackNo)) :
    RecordsPayment rt cfg now (run (Sys.step rt) s inputs).db order a callbackNo ↔
      order.paymentID ≠ some a.paymentID ∧ a.status = .pending := by
  have covered : Covered (run (Sys.step rt) s inputs) := start.covered.run inputs
  have nothing : Trimmed s.db := fun orderID p t stores =>
    absurd stores (start.1.stores_nothing orderID p t)
  have trimmed : Trimmed (run (Sys.step rt) s inputs).db := nothing.run inputs start.1.payable
  exact covered.payable.recordsPayment_iff trimmed member paid stored own rt cfg nonempty unused

/-- Links by card and by the app are issued, then the order is completed by hand. -/
def completeByHand : List Input :=
  [Small.offer 0, Small.save 1000 1 1 "A", Small.pay 1001 1 2 "A" "c1",
    Small.input 1002 (.gatewayLinked 0), Small.pay 1200 1 1 "A" "c2",
    Small.input 1201 (.gatewayLinked 1), Small.input 1202 (.completeManually "A")]

/-- The payment by the app, which is not selected any more, is recorded. -/
theorem unselected_payment_recorded :
    ∃ order ∈ (run (Sys.step Small.runtime) onePlan completeByHand).db.orders,
      order.paymentID = some 1 ∧
      ∃ a ∈ (run (Sys.step Small.runtime) onePlan completeByHand).db.attempts,
        a.paymentID = 2 ∧ RecordsPayment Small.runtime Small.config 1300
          (run (Sys.step Small.runtime) onePlan completeByHand).db order a "G1" := by
  obtain ⟨order, member, selected, paid, a, stored, own, method, waiting, unused⟩ :
      ∃ order ∈ (run (Sys.step Small.runtime) onePlan completeByHand).db.orders,
        order.paymentID = some 1 ∧ order.status = .completed ∧
        ∃ a ∈ (run (Sys.step Small.runtime) onePlan completeByHand).db.attempts,
          a.orderID = order.id ∧ a.paymentID = 2 ∧ a.status = .pending ∧
          UnusedCallback (run (Sys.step Small.runtime) onePlan completeByHand).db a.paymentID
            (trimSpace "G1") := by decide +kernel
  refine ⟨order, member, selected, a, stored, method, ?_⟩
  refine (late_payment_recorded_iff Small.runtime onePlan completeByHand onePlan_start order member
    (Or.inl paid) a stored own Small.config 1300 "G1" (by decide) unused).mpr ⟨?_, waiting⟩
  rw [selected, method]
  decide

/-- The payment by card, through the link that was issued last, is refused. -/
theorem selected_payment_dropped :
    (⟨"A", 1, 1050⟩ : Link) ∈ (run (Sys.step Small.runtime) onePlan completeByHand).links ∧
    ∃ order ∈ (run (Sys.step Small.runtime) onePlan completeByHand).db.orders,
      order.tradeNo = "A" ∧ order.status = .completed ∧
      ∃ a ∈ (run (Sys.step Small.runtime) onePlan completeByHand).db.attempts,
        a.orderID = order.id ∧ a.paymentID = 1 ∧ a.amount = 1050 ∧
        UnusedCallback (run (Sys.step Small.runtime) onePlan completeByHand).db a.paymentID
          (trimSpace "G1") ∧
        (markOrderPaid Small.runtime Small.config 1300 "A" (gatewayConfirmation "G1" 1 1050)
          (run (Sys.step Small.runtime) onePlan completeByHand).db).isOk = false := by
  decide +kernel

end ForestPanel
