import ForestPanel.Effects

/-!
# Payment attempts

What the payment columns of the orders and the attempt rows promise each other
in every state: an attempt charges the price of its order and the fee of its
method, the selected method of an order has an attempt with the order's fee, and
an order that still waits for payment has everything that opening it needs.
-/
namespace ForestPanel

open Relational Outcome Transition

/-! ## The invariant -/

structure Payable (db : Db) : Prop where
  billed : ∀ a ∈ db.attempts, 0 < a.paymentID ∧ ∃ o ∈ db.orders, o.id = a.orderID ∧
    o.paymentID.isSome ∧ validAttemptAmount o.totalAmount a.handlingAmount a.amount ∧
    (o.status = .pending → a.status = .pending)
  selected : ∀ o ∈ db.orders, ∀ p, o.paymentID = some p → ∃ a ∈ db.attempts,
    a.orderID = o.id ∧ a.paymentID = p ∧ a.handlingAmount = o.handlingAmount.getD 0
  named : ∀ o ∈ db.orders, o.paymentID.isSome → trimSpace o.tradeNo = o.tradeNo ∧ o.tradeNo ≠ ""
  funded : ∀ o ∈ db.orders, o.status = .pending → (db.users.find? o.userID).isSome ∧
    (o.type ≠ .deposit → ∃ p ∈ db.plans, p.id = o.planID)
  unanswered : ∀ o ∈ db.orders, o.status = .pending → o.callbackNo = none
  legacy : ∀ o ∈ db.orders, o.status = .processing → o.paymentID = none ∧ o.callbackNo = none
  solvent : Solvent db

theorem Db.Start.payable {db : Db} (start : db.Start) : Payable db := by
  have processing : ∀ o ∈ db.orders, o.status ≠ .pending := by
    intro o member pending
    simp [(start.orders o member).status] at pending
  have none : ∀ o ∈ db.orders, o.paymentID = none := fun o member =>
    (start.orders o member).unsettled.1
  constructor
  · intro a member
    rw [Table.mem_def, start.attempts] at member
    cases member
  · intro o member p chosen
    rw [none o member] at chosen
    cases chosen
  · intro o member chosen
    simp [none o member] at chosen
  · exact fun o member pending => absurd pending (processing o member)
  · exact fun o member pending => absurd pending (processing o member)
  · exact fun o member _ => (start.orders o member).unsettled
  · exact start.balances

def ChargesKept (db db' : Db) : Prop := ∀ a ∈ db.attempts, ∃ a' ∈ db'.attempts, a'.charge = a.charge

theorem ChargesKept.of_rows {db db' : Db} {g : OrderPaymentAttempt → OrderPaymentAttempt}
    (rows : db'.attempts.rows = db.attempts.rows.map g)
    (same : ∀ a ∈ db.attempts, (g a).charge = a.charge) : ChargesKept db db' := by
  intro a member
  exact ⟨g a, (Table.mem_of_rows_map rows _).mpr ⟨a, member, rfl⟩, same a member⟩

theorem ChargesKept.refl (db : Db) : ChargesKept db db := fun a member => ⟨a, member, rfl⟩

theorem ChargesKept.trans {db db₁ db₂ : Db} (h : ChargesKept db db₁) (k : ChargesKept db₁ db₂) :
    ChargesKept db db₂ := by
  intro a member
  obtain ⟨b, stored, same⟩ := h a member
  obtain ⟨c, stored', same'⟩ := k b stored
  exact ⟨c, stored', same'.trans same⟩

/-! ## Updates in place -/

structure Bill where
  paymentID : Option Int
  handlingAmount : Option Int
  callbackNo : Option String
deriving DecidableEq

def OrderRecord.bill (o : OrderRecord) : Bill := ⟨o.paymentID, o.handlingAmount, o.callbackNo⟩

/-- Every order is updated by `f` and every attempt by `g`: no terms and no
charges change, and an order gets no method that has no attempt. -/
structure Rewritten (db db' : Db) (f : OrderRecord → OrderRecord)
    (g : OrderPaymentAttempt → OrderPaymentAttempt) : Prop where
  orders : db'.orders.rows = db.orders.rows.map f
  attempts : db'.attempts.rows = db.attempts.rows.map g
  terms : ∀ o ∈ db.orders, (f o).terms = o.terms
  charge : ∀ a ∈ db.attempts, (g a).charge = a.charge
  pending : ∀ o ∈ db.orders, (f o).status = .pending →
    o.status = .pending ∧ (f o).callbackNo = o.callbackNo
  processing : ∀ o ∈ db.orders, (f o).status = .processing →
    o.status = .processing ∧ (f o).bill = o.bill
  waiting : ∀ o ∈ db.orders, (f o).status = .pending → ∀ a ∈ db.attempts, a.orderID = o.id →
    (g a).status = a.status
  method : ∀ o ∈ db.orders,
    (f o).paymentID = o.paymentID ∧ (f o).handlingAmount = o.handlingAmount ∨
    (trimSpace o.tradeNo = o.tradeNo ∧ o.tradeNo ≠ "") ∧ ∃ a ∈ db.attempts, a.orderID = o.id ∧
      (f o).paymentID = some a.paymentID ∧ (f o).handlingAmount.getD 0 = a.handlingAmount

theorem Rewritten.of_columns {db db' : Db} {f : OrderRecord → OrderRecord}
    {g : OrderPaymentAttempt → OrderPaymentAttempt}
    (orders : db'.orders.rows = db.orders.rows.map f)
    (attempts : db'.attempts.rows = db.attempts.rows.map g)
    (terms : ∀ o ∈ db.orders, (f o).terms = o.terms)
    (charge : ∀ a ∈ db.attempts, (g a).charge = a.charge)
    (columns : ∀ o ∈ db.orders, (f o).paymentID = o.paymentID ∧
      (f o).handlingAmount = o.handlingAmount)
    (unfinished : ∀ o ∈ db.orders, (f o).status = .pending ∨ (f o).status = .processing →
      (f o).status = o.status ∧ (f o).callbackNo = o.callbackNo)
    (waiting : ∀ o ∈ db.orders, (f o).status = .pending → ∀ a ∈ db.attempts, a.orderID = o.id →
      (g a).status = a.status) : Rewritten db db' f g := by
  refine ⟨orders, attempts, terms, charge, ?_, ?_, waiting, fun o member =>
    Or.inl (columns o member)⟩
  · intro o member pending
    obtain ⟨same, callback⟩ := unfinished o member (Or.inl pending)
    exact ⟨same.symm.trans pending, callback⟩
  · intro o member processing
    obtain ⟨same, callback⟩ := unfinished o member (Or.inr processing)
    obtain ⟨paymentID, handlingAmount⟩ := columns o member
    refine ⟨same.symm.trans processing, ?_⟩
    simp [OrderRecord.bill, paymentID, handlingAmount, callback]

theorem Rewritten.of_orders {db db' : Db} {f : OrderRecord → OrderRecord}
    (orders : db'.orders.rows = db.orders.rows.map f) (attempts : db'.attempts = db.attempts)
    (terms : ∀ o ∈ db.orders, (f o).terms = o.terms)
    (columns : ∀ o ∈ db.orders, (f o).paymentID = o.paymentID ∧
      (f o).handlingAmount = o.handlingAmount)
    (unfinished : ∀ o ∈ db.orders, (f o).status = .pending ∨ (f o).status = .processing →
      (f o).status = o.status ∧ (f o).callbackNo = o.callbackNo) : Rewritten db db' f id :=
  .of_columns orders (by rw [attempts, List.map_id]) terms (fun _ _ => rfl) columns unfinished
    fun _ _ _ _ _ _ => rfl

section

variable {db db' : Db} {f : OrderRecord → OrderRecord}
  {g : OrderPaymentAttempt → OrderPaymentAttempt}

structure Staffed (db db' : Db) : Prop where
  users : ∀ id, (db'.users.find? id).isSome = (db.users.find? id).isSome
  plans : db'.plans = db.plans
  solvent : Solvent db → Solvent db'

omit f g in
theorem Staffed.of_frame (users : db'.users = db.users) (plans : db'.plans = db.plans) :
    Staffed db db' :=
  ⟨fun _ => by rw [users], plans, fun solvent => solvent.congr users⟩

theorem Rewritten.payable (h : Rewritten db db' f g) (staffed : Staffed db db')
    (payable : Payable db) : Payable db' := by
  have charged : ∀ a ∈ db.attempts, (g a).orderID = a.orderID ∧ (g a).paymentID = a.paymentID ∧
      (g a).handlingAmount = a.handlingAmount ∧ (g a).amount = a.amount := by
    intro a member
    simpa only [OrderPaymentAttempt.charge, Charge.mk.injEq] using h.charge a member
  constructor
  · intro b stored
    obtain ⟨a, member, rfl⟩ := (Table.mem_of_rows_map h.attempts b).mp stored
    obtain ⟨orderID, paymentID, handling, amount⟩ := charged a member
    obtain ⟨positive, o, found, own, chosen, valid, waiting⟩ := payable.billed a member
    have terms := h.terms o found
    have id : (f o).id = o.id := congrArg OrderTerms.id terms
    have total : (f o).totalAmount = o.totalAmount := congrArg OrderTerms.totalAmount terms
    refine ⟨paymentID ▸ positive, f o, (Table.mem_of_rows_map h.orders _).mpr ⟨o, found, rfl⟩,
      by rw [id, own, orderID], ?_, by rw [total, handling, amount]; exact valid, ?_⟩
    · -- a method stays selected, whichever it is now
      rcases h.method o found with ⟨same, -⟩ | ⟨-, a', -, -, same, -⟩
      · rw [same]
        exact chosen
      · rw [same]
        rfl
    · intro pending
      rw [h.waiting o found pending a member own.symm]
      exact waiting (h.pending o found pending).1
  · intro r stored p chosen
    obtain ⟨o, member, rfl⟩ := (Table.mem_of_rows_map h.orders r).mp stored
    have id : (f o).id = o.id := congrArg OrderTerms.id (h.terms o member)
    have recorded : ∀ a ∈ db.attempts, a.orderID = o.id → a.paymentID = p →
        a.handlingAmount = (f o).handlingAmount.getD 0 → ∃ b ∈ db'.attempts,
          b.orderID = (f o).id ∧ b.paymentID = p ∧
            b.handlingAmount = (f o).handlingAmount.getD 0 := by
      intro a found own method fee
      obtain ⟨orderID, paymentID, handling, -⟩ := charged a found
      exact ⟨g a, (Table.mem_of_rows_map h.attempts _).mpr ⟨a, found, rfl⟩,
        by rw [orderID, own, id], paymentID.trans method, handling.trans fee⟩
    rcases h.method o member with ⟨same, fee⟩ | ⟨-, a, found, own, same, fee⟩
    · obtain ⟨a, found, own, method, handling⟩ := payable.selected o member p (same ▸ chosen)
      exact recorded a found own method (fee ▸ handling)
    · exact recorded a found own (Option.some.inj (same.symm.trans chosen)) fee.symm
  · intro r stored chosen
    obtain ⟨o, member, rfl⟩ := (Table.mem_of_rows_map h.orders r).mp stored
    have tradeNo : (f o).tradeNo = o.tradeNo := congrArg OrderTerms.tradeNo (h.terms o member)
    rw [tradeNo]
    rcases h.method o member with ⟨same, -⟩ | ⟨named, -⟩
    · exact payable.named o member (same ▸ chosen)
    · exact named
  · intro r stored pending
    obtain ⟨o, member, rfl⟩ := (Table.mem_of_rows_map h.orders r).mp stored
    have terms := h.terms o member
    have user : (f o).userID = o.userID := congrArg OrderTerms.userID terms
    have kind : (f o).type = o.type := congrArg OrderTerms.type terms
    have plan : (f o).planID = o.planID := congrArg OrderTerms.planID terms
    rw [user, kind, plan, staffed.users, staffed.plans]
    exact payable.funded o member (h.pending o member pending).1
  · intro r stored pending
    obtain ⟨o, member, rfl⟩ := (Table.mem_of_rows_map h.orders r).mp stored
    obtain ⟨before, same⟩ := h.pending o member pending
    exact same.trans (payable.unanswered o member before)
  · intro r stored processing
    obtain ⟨o, member, rfl⟩ := (Table.mem_of_rows_map h.orders r).mp stored
    obtain ⟨before, same⟩ := h.processing o member processing
    obtain ⟨none, unanswered⟩ := payable.legacy o member before
    exact ⟨(congrArg Bill.paymentID same).trans none,
      (congrArg Bill.callbackNo same).trans unanswered⟩
  · exact staffed.solvent payable.solvent

end

/-! ## Rows after a step -/

theorem cancelledRow_bill (now : Int) (order r : OrderRecord) :
    (cancelledRow now order r).bill = r.bill := by
  unfold cancelledRow
  split <;> rfl

theorem refundedRow_bill (now : Int) (order r : OrderRecord) :
    (refundedRow now order r).bill = r.bill := by
  unfold refundedRow restoredRow
  split_ifs <;> rfl

theorem commissionPaidRow_bill (now : Int) (order r : OrderRecord) :
    (commissionPaidRow now order r).bill = r.bill := by
  unfold commissionPaidRow
  split <;> rfl

theorem commissionClearedRow_bill (now : Int) (order r : OrderRecord) :
    (commissionClearedRow now order r).bill = r.bill := by
  unfold commissionClearedRow
  split <;> rfl

theorem commissionEditedRow_bill (now : Int) (order : OrderRecord) (target : CommissionStatus)
    (r : OrderRecord) : (commissionEditedRow now order target r).bill = r.bill := by
  unfold commissionEditedRow
  split <;> rfl

theorem openedRow_bill (now : Int) (order r : OrderRecord) :
    (openedRow now order r).bill =
      if r.id = order.id then { r.bill with callbackNo := (openedOrder now order).callbackNo }
      else r.bill := by
  unfold openedRow
  split
  · dsimp only
    split <;> rfl
  · split <;> rfl

variable {callbackNo tradeNo : String} {order o : OrderRecord} {c : OrderPaymentConfirmation}
  {p now fee : Int} {a : OrderPaymentAttempt}

theorem settledRow_bill (now : Int) (confirmed r : OrderRecord)
    (named : trimSpace callbackNo = callbackNo ∧ callbackNo ≠ "") :
    (settledRow now callbackNo confirmed r).bill =
      if r.id = confirmed.id then
        ⟨confirmed.paymentID, confirmed.handlingAmount, some callbackNo⟩
      else r.bill := by
  unfold settledRow
  rw [openedRow_bill]
  by_cases same : r.id = confirmed.id
  · have unblank : blank (some callbackNo) = false := by
      simp [blank, named]
    simp [same, paidOrder, openedOrder, OrderRecord.bill, unblank]
  · have other : (paidOrder now callbackNo confirmed).id = confirmed.id := rfl
    simp [same, other]

theorem repairedRow_bill (now : Int) (callbackNo : String) (order r : OrderRecord) :
    (repairedRow now callbackNo order r).bill =
      if r.id = order.id then { r.bill with callbackNo := some callbackNo } else r.bill := by
  unfold repairedRow
  split <;> rfl

/-! ## Confirmations -/

/-- A gateway's confirmation is accepted for the selected method and the order's
price with the fee, and for nothing else. -/
theorem validateOrderPaymentConfirmation_gateway (payment : c.paymentID = some p) :
    validateOrderPaymentConfirmation order c = .ok () ↔
      (validOrderAmountState order ∧ c.manual = false) ∧ order.paymentID = some p ∧
        c.amount = some (order.totalAmount + order.handlingAmount.getD 0) ∧
        0 < p ∧ 0 < order.totalAmount := by
  unfold validateOrderPaymentConfirmation
  by_cases amounts : validOrderAmountState order
  · by_cases manual : c.manual = true
    · simp [amounts, manual, payment]
    · have nonneg : 0 ≤ order.handlingAmount.getD 0 := amounts.2.1
      simp only [amounts, not_true_eq_false, if_false, manual, payment, bind_eq_ok, require_eq_ok,
        ensure_eq_ok, exists_const, true_and, Bool.false_eq_true]
      constructor
      · rintro ⟨amount, given, ⟨positive, -, priced⟩, selected, chosen, rfl, sum⟩
        exact ⟨chosen, by rw [sum]; exact given, positive, priced⟩
      · rintro ⟨chosen, given, positive, priced⟩
        exact ⟨_, given, ⟨positive, by omega, priced⟩, p, chosen, rfl, rfl⟩
  · simp [amounts]

theorem validate_orderWithPaymentAttempt (payment : c.paymentID = some a.paymentID)
    (amount : c.amount = some a.amount) (gateway : c.manual = false) (positive : 0 < a.paymentID)
    (valid : validAttemptAmount order.totalAmount a.handlingAmount a.amount) :
    validateOrderPaymentConfirmation (orderWithPaymentAttempt order a) c = .ok () := by
  obtain ⟨priced, fee, bounded, sum⟩ := valid
  have handling : (orderWithPaymentAttempt order a).handlingAmount.getD 0 = a.handlingAmount :=
    getD_handlingAmount a.handlingAmount
  have total : (orderWithPaymentAttempt order a).totalAmount = order.totalAmount := rfl
  rw [validateOrderPaymentConfirmation_gateway payment, handling, total]
  refine ⟨⟨⟨priced.le, ?_, ?_⟩, gateway⟩, rfl, by rw [sum]; exact amount, positive, priced⟩
  · rw [handling]
    exact fee
  · rw [handling]
    exact bounded

/-! ## Attempts after a confirmation -/

/-- The attempt `a` got the callback number of the confirmation `c` of `order`. -/
structure Answered (db : Db) (c : OrderPaymentConfirmation) (tradeNo callbackNo : String)
    (order : OrderRecord) (a a' : OrderPaymentAttempt) : Prop where
  found : confirmationAttempt db order c = some a
  charge : a'.charge = a.charge
  stored : a'.callbackNo = some callbackNo
  settled : a'.status ≠ .pending
  before : a.status = .pending ∨ a.status = .winner ∧ legacyCallbackColumn a.callbackNo order.tradeNo
  unclaimed : lockPaymentCallback db tradeNo callbackNo c.paymentID = .ok ()

theorem own_of_confirmationAttempt {db : Db} (found : confirmationAttempt db order c = some a) :
    a ∈ db.attempts ∧ a.orderID = order.id ∧ c.paymentID = some a.paymentID := by
  unfold confirmationAttempt at found
  rw [Option.bind_eq_some_iff] at found
  obtain ⟨p, payment, locked⟩ := found
  obtain ⟨member, method⟩ := (Table.findUniq?_eq_some ..).mp locked
  simp only [OrderPaymentAttempt.method, Prod.mk.injEq] at method
  exact ⟨member, method.1, method.2 ▸ payment⟩

private theorem marked_attempts {db db' : Db} {status : AttemptStatus}
    (found : confirmationAttempt db order c = some a) (waiting : a.status = .pending)
    (settled : status ≠ .pending)
    (unclaimed : lockPaymentCallback db tradeNo callbackNo c.paymentID = .ok ())
    (written : markOrderPaymentAttempt db a.id callbackNo status now = .ok db') :
    ∃ g, db'.attempts.rows = db.attempts.rows.map g ∧ ∀ b ∈ db.attempts,
      g b = b ∨ Answered db c tradeNo callbackNo order b (g b) := by
  obtain ⟨-, rfl⟩ := markOrderPaymentAttempt_eq_ok.mp written
  refine ⟨_, rfl, fun b member => ?_⟩
  by_cases hit : (b.id = a.id && b.status = .pending) = true
  · have stored := (own_of_confirmationAttempt found).1
    simp only [Bool.and_eq_true, decide_eq_true_eq] at hit
    obtain rfl := db.attempts.eq_of_key member stored hit.1
    right
    simp only [waiting, decide_true, Bool.and_self, if_true]
    exact ⟨found, rfl, rfl, settled, Or.inl waiting, unclaimed⟩
  · left
    simp [hit]

theorem Acknowledged.attempts {db db' : Db} (h : Acknowledged now c tradeNo callbackNo order db db')
    :
    ∃ g, db'.attempts.rows = db.attempts.rows.map g ∧ ∀ b ∈ db.attempts,
      g b = b ∨ Answered db c tradeNo callbackNo order b (g b) := by
  cases h with
  | unchanged => exact ⟨id, (List.map_id _).symm, fun _ _ => Or.inl rfl⟩
  | marked a status db' found waiting settled unclaimed written =>
    exact marked_attempts found waiting settled unclaimed written
  | repaired db₁ gateway current legacy unclaimed written =>
    have kept : ∀ db₂ : Db, (db₂.updateOrderPaymentState { order with
        callbackNo := some callbackNo
        updatedAt := now }).attempts = db₂.attempts := fun _ => rfl
    rw [kept]
    unfold repairLegacyAttempt at written
    split at written
    next =>
      obtain rfl := Except.ok.inj written
      exact ⟨id, (List.map_id _).symm, fun _ _ => Or.inl rfl⟩
    next a found =>
      split at written
      next waiting => exact marked_attempts found waiting (by decide) unclaimed written
      next won =>
        split at written
        next =>
          simp only [repairWinningPaymentAttemptCallback, bind_eq_ok, ensure_eq_ok, exists_const,
            pure_eq_ok] at written
          obtain ⟨-, rfl⟩ := written
          refine ⟨_, rfl, fun b member => ?_⟩
          by_cases hit : (b.id = a.id && b.status = .winner &&
              legacyCallbackColumn b.callbackNo order.tradeNo) = true
          · have stored := (own_of_confirmationAttempt found).1
            simp only [Bool.and_eq_true, decide_eq_true_eq] at hit
            obtain rfl := db.attempts.eq_of_key member stored hit.1.1
            right
            simp only [won, hit.2, decide_true, Bool.and_self, if_true]
            exact ⟨found, rfl, rfl, by simp, Or.inr ⟨won, hit.2⟩, unclaimed⟩
          · left
            simp [hit]
        next =>
          simp only [bind_eq_ok, ensure_eq_ok, exists_const, pure_eq_ok] at written
          obtain ⟨-, rfl⟩ := written
          exact ⟨id, (List.map_id _).symm, fun _ _ => Or.inl rfl⟩
      next => cases written

theorem wonRow_cases (now : Int) (callbackNo : String) {db : Db} (order : OrderRecord)
    (c : OrderPaymentConfirmation) {b : OrderPaymentAttempt} (member : b ∈ db.attempts) :
    wonRow now callbackNo (confirmationAttempt db order c) b = b ∨
      confirmationAttempt db order c = some b ∧
        wonRow now callbackNo (confirmationAttempt db order c) b =
          { b with callbackNo := some callbackNo, status := .winner, paidAt := some now } := by
  unfold wonRow
  split
  next hit =>
    cases found : confirmationAttempt db order c with
    | none => simp [found] at hit
    | some a =>
      have stored := (own_of_confirmationAttempt found).1
      have same : a.id = b.id := by simpa [found] using hit.1
      exact Or.inr ⟨by rw [db.attempts.eq_of_key stored member same], rfl⟩
  next => exact Or.inl rfl

/-! ## Every step keeps the promise -/

theorem named_of_attempt {db : Db} (payable : Payable db) (member : o ∈ db.orders)
    (stored : a ∈ db.attempts) (own : a.orderID = o.id) :
    trimSpace o.tradeNo = o.tradeNo ∧ o.tradeNo ≠ "" := by
  obtain ⟨-, o', found, same, chosen, -⟩ := payable.billed a stored
  obtain rfl := db.orders.eq_of_key found member (same.trans own)
  exact payable.named o' found chosen

private theorem Settled.rewritten {confirmed : OrderRecord} {db db' : Db} (payable : Payable db)
    (member : order ∈ db.orders)
    (h : Settled now c tradeNo (trimSpace c.callbackNo) order confirmed db db') :
    Rewritten db db' (settledRow now (trimSpace c.callbackNo) confirmed)
      (wonRow now (trimSpace c.callbackNo) (confirmationAttempt db order c)) := by
  have id : confirmed.id = order.id :=
    congrArg OrderTerms.id (confirmedOrder_terms h.confirmation).1
  have bill := fun r => settledRow_bill now confirmed r
    ⟨trimSpace_trimSpace c.callbackNo, h.answered.2⟩
  -- only rows that are neither opened nor used up stay unfinished
  have unfinished : ∀ o ∈ db.orders,
      (settledRow now (trimSpace c.callbackNo) confirmed o).status = .pending ∨
        (settledRow now (trimSpace c.callbackNo) confirmed o).status = .processing →
      o.id ≠ order.id ∧ (settledRow now (trimSpace c.callbackNo) confirmed o).status = o.status ∧
        (settledRow now (trimSpace c.callbackNo) confirmed o).bill = o.bill := by
    intro o _ open'
    rw [settledRow_status, id] at open' ⊢
    rw [bill, id]
    split at open'
    next => simp at open'
    next other =>
      split at open'
      next => simp at open'
      next spared =>
        rw [if_neg other, if_neg other]
        exact ⟨other, if_neg spared, rfl⟩
  have won : ∀ a ∈ db.attempts,
      (wonRow now (trimSpace c.callbackNo) (confirmationAttempt db order c) a).charge = a.charge ∧
      (a.orderID ≠ order.id →
        wonRow now (trimSpace c.callbackNo) (confirmationAttempt db order c) a = a) := by
    intro a stored
    rcases wonRow_cases now (trimSpace c.callbackNo) order c stored with same | ⟨found, same⟩
    · rw [same]
      exact ⟨rfl, fun _ => rfl⟩
    · rw [same]
      exact ⟨rfl, fun other => absurd (own_of_confirmationAttempt found).2.1 other⟩
  constructor
  · exact h.orders
  · exact h.attempts
  · exact fun o _ => settledRow_terms now _ confirmed o
  · exact fun a stored => (won a stored).1
  · intro o stored pending
    obtain ⟨-, same, kept⟩ := unfinished o stored (Or.inl pending)
    exact ⟨same.symm.trans pending, congrArg Bill.callbackNo kept⟩
  · intro o stored processing
    obtain ⟨-, same, kept⟩ := unfinished o stored (Or.inr processing)
    exact ⟨same.symm.trans processing, kept⟩
  · intro o stored pending a recorded own
    obtain ⟨other, -, -⟩ := unfinished o stored (Or.inl pending)
    rw [(won a recorded).2 (own ▸ other)]
  · intro o stored
    by_cases same : o.id = order.id
    · obtain rfl := db.orders.eq_of_key stored member same
      have chosen := bill o
      rw [if_pos id.symm] at chosen
      have paymentID := congrArg Bill.paymentID chosen
      have handlingAmount := congrArg Bill.handlingAmount chosen
      simp only [OrderRecord.bill] at paymentID handlingAmount
      rw [paymentID, handlingAmount]
      -- the order keeps its method, or is rebound to the attempt that was paid
      rcases (confirmedOrder_cases h.confirmation).2 with ⟨rfl, -⟩ | ⟨a, found, -, rfl, -⟩
      · exact Or.inl ⟨rfl, rfl⟩
      · obtain ⟨recorded, own, -⟩ := own_of_confirmationAttempt found
        exact Or.inr ⟨named_of_attempt payable member recorded own, a, recorded, own, rfl,
          getD_handlingAmount a.handlingAmount⟩
    · have kept := bill o
      rw [id, if_neg same] at kept
      exact Or.inl ⟨congrArg Bill.paymentID kept, congrArg Bill.handlingAmount kept⟩

/-- An acknowledgement repairs the callback number of the order at most, and
only for a payment by the selected method. -/
theorem Acknowledged.repairs {db db' : Db} (h : Acknowledged now c tradeNo callbackNo order db db')
    :
    ∃ f, db'.orders.rows = db.orders.rows.map f ∧
      (f = id ∨ f = repairedRow now callbackNo order ∧ legacyCallback order = true ∧
        lockPaymentCallback db tradeNo callbackNo c.paymentID = .ok () ∧
        ∃ p, c.paymentID = some p ∧ order.paymentID = some p ∧ 0 < order.totalAmount) := by
  cases h with
  | unchanged => exact ⟨id, (List.map_id _).symm, Or.inl rfl⟩
  | marked a status db' found waiting settled unclaimed written =>
    rw [markOrderPaymentAttempt_frame written]
    exact ⟨id, (List.map_id _).symm, Or.inl rfl⟩
  | repaired db₁ gateway current legacy unclaimed written =>
    obtain ⟨p, payment⟩ := Option.isSome_iff_exists.mp gateway
    obtain ⟨-, chosen, -, -, priced⟩ :=
      (validateOrderPaymentConfirmation_gateway payment).mp current
    refine ⟨repairedRow now callbackNo order, ?_, Or.inr ⟨rfl, legacy, unclaimed, p, payment,
      chosen, priced⟩⟩
    rw [repairLegacyAttempt_frame written]
    simp [Db.updateOrderPaymentState, Db.updateOrder, repairedRow]

private theorem Acknowledged.rewritten {db db' : Db} (payable : Payable db)
    (member : order ∈ db.orders) (paid : order.status ≠ .pending)
    (h : Acknowledged now c tradeNo callbackNo order db db') : ∃ f g, Rewritten db db' f g := by
  obtain ⟨g, attempts, answered⟩ := h.attempts
  obtain ⟨f, orders, repairs⟩ := h.repairs
  have standing : ∀ o ∈ db.orders, (f o).terms = o.terms ∧ (f o).status = o.status ∧
      (f o).paymentID = o.paymentID ∧ (f o).handlingAmount = o.handlingAmount ∧
      (o.id ≠ order.id ∨ order.status = .processing → (f o).callbackNo = o.callbackNo) := by
    intro o stored
    rcases repairs with rfl | ⟨rfl, -, -, p, -, chosen, -⟩
    · exact ⟨rfl, rfl, rfl, rfl, fun _ => rfl⟩
    · unfold repairedRow
      split
      next same =>
        obtain rfl := db.orders.eq_of_key stored member same
        refine ⟨rfl, rfl, rfl, rfl, ?_⟩
        rintro (other | processing)
        · exact absurd rfl other
        · simp [(payable.legacy o member processing).1] at chosen
      next => exact ⟨rfl, rfl, rfl, rfl, fun _ => rfl⟩
  have kept : ∀ a ∈ db.attempts, (g a).charge = a.charge ∧ (a.orderID ≠ order.id → g a = a) := by
    intro a stored
    rcases answered a stored with same | now'
    · rw [same]
      exact ⟨rfl, fun _ => rfl⟩
    · exact ⟨now'.charge, fun other => absurd (own_of_confirmationAttempt now'.found).2.1 other⟩
  refine ⟨f, g, .of_columns orders attempts (fun o stored => (standing o stored).1)
    (fun a stored => (kept a stored).1) (fun o stored => ⟨(standing o stored).2.2.1,
      (standing o stored).2.2.2.1⟩) ?_ ?_⟩
  · intro o stored unfinished
    obtain ⟨-, status, -, -, callback⟩ := standing o stored
    refine ⟨status, callback ?_⟩
    by_cases same : o.id = order.id
    · obtain rfl := db.orders.eq_of_key stored member same
      rw [status] at unfinished
      exact Or.inr (unfinished.resolve_left paid)
    · exact Or.inl same
  · intro o stored pending a recorded own
    rw [(kept a recorded).2]
    intro same
    obtain rfl := db.orders.eq_of_key stored member (own.symm.trans same)
    exact paid ((standing o stored).2.1.symm.trans pending)

/-! ## Checkouts -/

private theorem FeeSource.cases {db : Db} (payable : Payable db) (member : o ∈ db.orders)
    (source : FeeSource db o p fee) :
    (∃ a ∈ db.attempts, a.orderID = o.id ∧ a.paymentID = p ∧ a.handlingAmount = fee) ∨
      (∀ a ∈ db.attempts, a.method ≠ (o.id, p)) ∧ 0 < p ∧
        validAttemptAmount o.totalAmount fee (o.totalAmount + fee) := by
  cases source with
  | selected chosen same =>
    obtain ⟨a, stored, own, method, handling⟩ := payable.selected o member p chosen
    exact Or.inl ⟨a, stored, own, method, handling.trans same.symm⟩
  | recorded a stored method same =>
    simp only [OrderPaymentAttempt.method, Prod.mk.injEq] at method
    exact Or.inl ⟨a, stored, method.1, method.2, same⟩
  | first unused positive valid =>
    refine Or.inr ⟨?_, positive, valid⟩
    rcases unused with none | unused
    · -- an attempt would need a selected method
      intro a stored method
      obtain ⟨-, o', found, own, chosen, -⟩ := payable.billed a stored
      obtain rfl := db.orders.eq_of_key found member (own.trans (congrArg Prod.fst method))
      simp [none] at chosen
    · exact unused

private theorem Charged.same {db db' : Db} (payable : Payable db) (member : o ∈ db.orders)
    (stored : a ∈ db.attempts) (own : a.orderID = o.id) (method : a.paymentID = p)
    (handling : a.handlingAmount = fee)
    (charged : Charged db ⟨o.id, p, fee, o.totalAmount + fee⟩ db') :
    ∃ g, db'.attempts.rows = db.attempts.rows.map g ∧ ∀ b ∈ db.attempts,
      (g b).charge = b.charge ∧ (g b).status = b.status ∧ (g b).callbackNo = b.callbackNo := by
  have whole : a.charge = ⟨o.id, p, fee, o.totalAmount + fee⟩ := by
    obtain ⟨-, o', found, same, -, valid, -⟩ := payable.billed a stored
    obtain rfl := db.orders.eq_of_key found member (same.trans own)
    have sum : a.amount = o'.totalAmount + fee := by rw [← handling, valid.2.2.2]
    simp [OrderPaymentAttempt.charge, own, method, handling, sum]
  cases charged with
  | inserted row unused rows charged waiting =>
    exact absurd (by rw [OrderPaymentAttempt.method, own, method]) (unused a stored)
  | updated g rows same charged =>
    refine ⟨g, rows, fun b recorded => ⟨?_, same b⟩⟩
    rcases charged b with kept | ⟨hit, new⟩
    · exact kept
    · have equal : b = a := db.attempts.eq_of_uniq recorded stored
        (by rw [hit, OrderPaymentAttempt.method, own, method])
      rw [new, equal, whole]

private theorem Rewritten.of_selection {db db' : Db} {f : OrderRecord → OrderRecord}
    {g : OrderPaymentAttempt → OrderPaymentAttempt}
    (named : trimSpace o.tradeNo = o.tradeNo ∧ o.tradeNo ≠ "") (member : o ∈ db.orders)
    (stored : a ∈ db.attempts) (own : a.orderID = o.id)
    (orders : db'.orders.rows = db.orders.rows.map f)
    (attempts : db'.attempts.rows = db.attempts.rows.map g)
    (same : ∀ b ∈ db.attempts, (g b).charge = b.charge ∧ (g b).status = b.status)
    (pending : o.status = .pending) (standing : ∀ r, SameStanding r (f r))
    (selects : ∀ r ∈ db.orders, SelectedIn o.id a.paymentID a.handlingAmount r (f r)) :
    Rewritten db db' f g := by
  have others : ∀ r ∈ db.orders, r.id ≠ o.id → (f r).bill = r.bill := by
    intro r found other
    obtain ⟨paymentID, handlingAmount⟩ := (selects r found).others other
    simp [OrderRecord.bill, paymentID, handlingAmount, (standing r).callbackNo]
  constructor
  · exact orders
  · exact attempts
  · exact fun r _ => (standing r).terms
  · exact fun b recorded => (same b recorded).1
  · exact fun r _ pending => ⟨(standing r).status.symm.trans pending, (standing r).callbackNo⟩
  · intro r found processing
    have before := (standing r).status.symm.trans processing
    refine ⟨before, others r found ?_⟩
    intro equal
    obtain rfl := db.orders.eq_of_key found member equal
    rw [pending] at before
    cases before
  · exact fun _ _ _ b recorded _ => (same b recorded).2
  · intro r found
    by_cases equal : r.id = o.id
    · obtain rfl := db.orders.eq_of_key found member equal
      obtain ⟨paymentID, handlingAmount⟩ := (selects r found).chosen rfl
      exact Or.inr ⟨named, a, stored, own, paymentID, handlingAmount⟩
    · exact Or.inl ((selects r found).others equal)

private theorem Payable.select_first {db db' : Db} {row : OrderPaymentAttempt}
    {f : OrderRecord → OrderRecord} (payable : Payable db)
    (named : trimSpace o.tradeNo = o.tradeNo ∧ o.tradeNo ≠ "") (member : o ∈ db.orders)
    (pending : o.status = .pending) (positive : 0 < p)
    (valid : validAttemptAmount o.totalAmount fee (o.totalAmount + fee))
    (charged : row.charge = ⟨o.id, p, fee, o.totalAmount + fee⟩) (waiting : row.status = .pending)
    (orders : db'.orders.rows = db.orders.rows.map f)
    (attempts : db'.attempts.rows = db.attempts.rows ++ [row])
    (standing : ∀ r, SameStanding r (f r))
    (selects : ∀ r ∈ db.orders, SelectedIn o.id p fee r (f r)) (staffed : Staffed db db') :
    Payable db' := by
  simp only [OrderPaymentAttempt.charge, Charge.mk.injEq] at charged
  obtain ⟨own, method, handling, amount⟩ := charged
  have here : ∀ r ∈ db.orders, f r ∈ db'.orders := fun r found =>
    (Table.mem_of_rows_map orders _).mpr ⟨r, found, rfl⟩
  have back : ∀ r ∈ db'.orders, ∃ r' ∈ db.orders, f r' = r := fun r found =>
    (Table.mem_of_rows_map orders r).mp found
  have id : ∀ r, (f r).id = r.id := fun r => congrArg OrderTerms.id (standing r).terms
  have chosen := (selects o member).chosen rfl
  constructor
  · intro a recorded
    rw [Table.mem_def, attempts, List.mem_append, List.mem_singleton] at recorded
    rcases recorded with old | rfl
    · obtain ⟨positive', r, found, same, some', valid', waiting'⟩ := payable.billed a old
      have total : (f r).totalAmount = r.totalAmount :=
        congrArg OrderTerms.totalAmount (standing r).terms
      refine ⟨positive', f r, here r found, (id r).trans same, ?_, by rw [total]; exact valid', ?_⟩
      · by_cases equal : r.id = o.id
        · rw [((selects r found).chosen equal).1]
          rfl
        · rw [((selects r found).others equal).1]
          exact some'
      · exact fun unpaid => waiting' ((standing r).status.symm.trans unpaid)
    · have total : (f o).totalAmount = o.totalAmount :=
        congrArg OrderTerms.totalAmount (standing o).terms
      refine ⟨method ▸ positive, f o, here o member, (id o).trans own.symm, by rw [chosen.1]; rfl,
        ?_, fun _ => waiting⟩
      rw [total, handling, amount]
      exact valid
  · intro r found q selected
    obtain ⟨r, stored, rfl⟩ := back r found
    by_cases equal : r.id = o.id
    · obtain ⟨now', fee'⟩ := (selects r stored).chosen equal
      refine ⟨row, ?_, own.trans (equal.symm.trans (id r).symm), ?_, handling.trans fee'.symm⟩
      · rw [Table.mem_def, attempts]
        exact List.mem_append_right _ (List.mem_singleton_self row)
      · exact method.trans (Option.some.inj (now'.symm.trans selected))
    · obtain ⟨paymentID, handlingAmount⟩ := (selects r stored).others equal
      obtain ⟨a, recorded, owner, method', fee'⟩ :=
        payable.selected r stored q (paymentID.symm.trans selected)
      refine ⟨a, ?_, owner.trans (id r).symm, method', by rw [handlingAmount]; exact fee'⟩
      rw [Table.mem_def, attempts]
      exact List.mem_append_left _ recorded
  · intro r found selected
    obtain ⟨r, stored, rfl⟩ := back r found
    have tradeNo : (f r).tradeNo = r.tradeNo := congrArg OrderTerms.tradeNo (standing r).terms
    rw [tradeNo]
    by_cases equal : r.id = o.id
    · rw [db.orders.eq_of_key stored member equal]
      exact named
    · rw [((selects r stored).others equal).1] at selected
      exact payable.named r stored selected
  · intro r found unpaid
    obtain ⟨r, stored, rfl⟩ := back r found
    have terms := (standing r).terms
    have user : (f r).userID = r.userID := congrArg OrderTerms.userID terms
    have kind : (f r).type = r.type := congrArg OrderTerms.type terms
    have plan : (f r).planID = r.planID := congrArg OrderTerms.planID terms
    rw [user, kind, plan, staffed.users, staffed.plans]
    exact payable.funded r stored ((standing r).status.symm.trans unpaid)
  · intro r found unpaid
    obtain ⟨r, stored, rfl⟩ := back r found
    rw [(standing r).callbackNo]
    exact payable.unanswered r stored ((standing r).status.symm.trans unpaid)
  · intro r found processing
    obtain ⟨r, stored, rfl⟩ := back r found
    have before := (standing r).status.symm.trans processing
    have other : r.id ≠ o.id := by
      intro equal
      rw [db.orders.eq_of_key stored member equal, pending] at before
      cases before
    rw [((selects r stored).others other).1, (standing r).callbackNo]
    exact payable.legacy r stored before
  · exact staffed.solvent payable.solvent

theorem CheckoutWrite.payable {db db' : Db} (h : CheckoutWrite db db') (payable : Payable db) :
    Payable db' ∧ ChargesKept db db' := by
  have staffed : Staffed db db' := by
    have frame := h.only.frame
    exact .of_frame (by rw [frame]) (by rw [frame])
  have of_rewritten : ∀ f g, Rewritten db db' f g → Payable db' ∧ ChargesKept db db' :=
    fun f g rewritten => ⟨rewritten.payable staffed payable,
      .of_rows rewritten.attempts rewritten.charge⟩
  cases h with
  | attempts g rows same frame =>
    refine of_rewritten id g (.of_columns ?_ rows (fun _ _ => rfl) (fun a _ => (same a).charge)
      (fun _ _ => ⟨rfl, rfl⟩) (fun _ _ _ => ⟨rfl, rfl⟩) fun _ _ _ a _ _ => (same a).status)
    rw [frame, List.map_id]
  | orders f rows same frame =>
    refine of_rewritten f id (.of_orders rows (by rw [frame]) (fun r _ => (same r).standing.terms)
      (fun r _ => ⟨(same r).paymentID, (same r).handlingAmount⟩) fun r _ _ => ?_)
    exact ⟨(same r).standing.status, (same r).standing.callbackNo⟩
  | charged o p member pending chosen rows frame =>
    obtain ⟨a, stored, own, method, handling⟩ := payable.selected o member p chosen
    obtain ⟨g, attempts, same⟩ := rows.same payable member stored own method handling
    refine of_rewritten id g (.of_columns ?_ attempts (fun _ _ => rfl) (fun b t => (same b t).1)
      (fun _ _ => ⟨rfl, rfl⟩) (fun _ _ _ => ⟨rfl, rfl⟩) fun _ _ _ b t _ => (same b t).2.1)
    rw [frame, List.map_id]
  | claimed o p fee member pending named source charged recorded f orders standing selects frame =>
    rcases source.cases payable member with ⟨a, stored, own, rfl, rfl⟩ | ⟨unused, positive, valid⟩
    · obtain ⟨g, attempts, same⟩ := charged.same payable member stored own rfl rfl
      exact of_rewritten f g (.of_selection named member stored own orders attempts
        (fun b t => ⟨(same b t).1, (same b t).2.1⟩) pending standing selects)
    · cases charged with
      | inserted row _ attempts charge waiting =>
        refine ⟨payable.select_first named member pending positive valid charge waiting.1 orders
          attempts standing selects staffed, fun b stored => ⟨b, ?_, rfl⟩⟩
        rw [Table.mem_def, attempts]
        exact List.mem_append_left _ stored
      | updated g attempts same charge =>
        -- the recorded attempt would be an old one
        obtain ⟨b, stored, whole⟩ := recorded
        obtain ⟨a, old, rfl⟩ := (Table.mem_of_rows_map attempts b).mp stored
        rcases charge a with kept | ⟨method, -⟩
        · have equal : a.charge = ⟨o.id, p, fee, o.totalAmount + fee⟩ := kept.symm.trans whole
          simp only [OrderPaymentAttempt.charge, Charge.mk.injEq] at equal
          exact absurd (by simp [OrderPaymentAttempt.method, equal]) (unused a old)
        · exact absurd method (unused a old)
  | selected o a member pending named stored own f orders standing selects frame =>
    refine of_rewritten f id (.of_selection named member stored own orders ?_
      (fun _ _ => ⟨rfl, rfl⟩) pending standing selects)
    rw [frame, List.map_id]

theorem CheckoutWrites.payable {db db' : Db} (h : CheckoutWrites db db') (payable : Payable db) :
    Payable db' ∧ ChargesKept db db' := by
  induction h with
  | refl => exact ⟨payable, .refl db⟩
  | tail _ last ih =>
    obtain ⟨before, kept⟩ := ih
    obtain ⟨after, kept'⟩ := last.payable before
    exact ⟨after, kept.trans kept'⟩

private theorem Saved.payable {row : OrderRecord} {db db' : Db} (h : Saved row db db')
    (staffed : Staffed db db') (payable : Payable db) : Payable db' := by
  have attempts : db'.attempts = db.attempts := by rw [h.frame]
  have cases_row : ∀ o ∈ db'.orders, o ∈ db.orders ∨ o = row := by
    intro o found
    rw [Table.mem_def, h.orders, List.mem_append, List.mem_singleton] at found
    exact found
  have here : ∀ o ∈ db.orders, o ∈ db'.orders := by
    intro o found
    rw [Table.mem_def, h.orders]
    exact List.mem_append_left _ found
  obtain ⟨unpaid, none, -, unanswered⟩ := h.unpaid
  constructor
  · intro a stored
    obtain ⟨positive, o, found, own, chosen, valid, waiting⟩ := payable.billed a (attempts ▸ stored)
    exact ⟨positive, o, here o found, own, chosen, valid, waiting⟩
  · intro o found p chosen
    rw [attempts]
    rcases cases_row o found with old | rfl
    · exact payable.selected o old p chosen
    · rw [none] at chosen
      cases chosen
  · intro o found chosen
    rcases cases_row o found with old | rfl
    · exact payable.named o old chosen
    · simp [none] at chosen
  · intro o found pending
    rw [staffed.users, staffed.plans]
    rcases cases_row o found with old | rfl
    · exact payable.funded o old pending
    · obtain ⟨u, member, same⟩ := h.user
      refine ⟨?_, h.plan⟩
      rw [← same, db.users.find?_key member]
      rfl
  · intro o found pending
    rcases cases_row o found with old | rfl
    · exact payable.unanswered o old pending
    · exact unanswered
  · intro o found processing
    rcases cases_row o found with old | rfl
    · exact payable.legacy o old processing
    · rw [unpaid] at processing
      cases processing
  · exact staffed.solvent payable.solvent

/-! ## Steps and runs -/

theorem Effect.staffed {s : Sys} {i : Input} {db' : Db} (effect : Effect s i db') :
    Staffed s.db db' := by
  refine ⟨effect.explained.isSome_find?, ?_, effect.solvent⟩
  rcases effect.saved_or_updated with ⟨row, saved⟩ | updated
  · rw [saved.frame]
  · exact updated.same.2.1

/-- No step but a checkout changes the method or the fee of an order, and only
one that is paid gets another status. -/
theorem Effect.payable {s : Sys} {i : Input} {db' : Db} (effect : Effect s i db')
    (payable : Payable s.db) : Payable db' ∧ ChargesKept s.db db' := by
  have staffed := effect.staffed
  have of_rewritten : ∀ f g, Rewritten s.db db' f g → Payable db' ∧ ChargesKept s.db db' :=
    fun f g rewritten => ⟨rewritten.payable staffed payable,
      .of_rows rewritten.attempts rewritten.charge⟩
  have of_bill : ∀ f, db'.orders.rows = s.db.orders.rows.map f → db'.attempts = s.db.attempts →
      (∀ r ∈ s.db.orders, (f r).terms = r.terms) → (∀ r ∈ s.db.orders, (f r).bill = r.bill) →
      (∀ r ∈ s.db.orders, (f r).status = .pending ∨ (f r).status = .processing →
        (f r).status = r.status) → Payable db' ∧ ChargesKept s.db db' := by
    intro f orders attempts terms bill unfinished
    refine of_rewritten f id (.of_orders orders attempts terms ?_ ?_)
    · exact fun r member => ⟨congrArg Bill.paymentID (bill r member),
        congrArg Bill.handlingAmount (bill r member)⟩
    · exact fun r member early => ⟨unfinished r member early,
        congrArg Bill.callbackNo (bill r member)⟩
  cases effect with
  | unchanged => exact ⟨payable, .refl _⟩
  | saved row db' h =>
    refine ⟨h.payable staffed payable, fun a stored => ⟨a, ?_, rfl⟩⟩
    rw [h.frame]
    exact stored
  | cancelled order db' member unfinished h =>
    refine of_bill _ h.orders (by rw [h.frame]) (fun r _ => cancelledRow_terms i.now order r)
      (fun r _ => cancelledRow_bill i.now order r) ?_
    intro r _ early
    rw [cancelledRow_status] at early ⊢
    split at early
    · simp at early
    next other => exact if_neg other
  | opened order tradeNo db' member op named paid h =>
    refine of_rewritten _ id (.of_orders h.orders (by rw [h.frame])
      (fun r _ => openedRow_terms i.now order r) ?_ ?_)
    · intro r _
      have bill := openedRow_bill i.now order r
      split at bill <;>
        exact ⟨congrArg Bill.paymentID bill, congrArg Bill.handlingAmount bill⟩
    · intro r _ early
      have bill := openedRow_bill i.now order r
      rw [openedRow_status] at early ⊢
      split at early
      · simp at early
      next other =>
        rw [if_neg other] at bill ⊢
        split at early
        · simp at early
        next spared => exact ⟨if_neg spared, congrArg Bill.callbackNo bill⟩
  | acknowledged order tradeNo c db' member confirmed named paid h =>
    obtain ⟨f, g, rewritten⟩ := h.rewritten payable member paid.1
    exact of_rewritten f g rewritten
  | settled order confirmed tradeNo c db' member confirmation named h =>
    exact of_rewritten _ _ (h.rewritten payable member)
  | refunded order tradeNo db' member op named h =>
    refine of_bill _ h.orders (by rw [h.frame]) (fun r _ => refundedRow_terms i.now order r)
      (fun r _ => refundedRow_bill i.now order r) ?_
    intro r _ early
    rw [refundedRow_status] at early ⊢
    split_ifs at early ⊢ <;> simp_all
  | commissionCleared order member deposit =>
    exact of_bill _ (disableDepositCommission_rows s.db order i.now) rfl
      (fun r _ => (commissionClearedRow_standing i.now order r).1)
      (fun r _ => commissionClearedRow_bill i.now order r)
      fun r _ _ => (commissionClearedRow_standing i.now order r).2
  | commissionSettled order inviter tradeNo db' member op h =>
    exact of_bill _ h.orders (by rw [h.frame])
      (fun r _ => (commissionPaidRow_standing i.now order r).1)
      (fun r _ => commissionPaidRow_bill i.now order r)
      fun r _ _ => (commissionPaidRow_standing i.now order r).2
  | commissionEdited order target db' member unpaid orders frame =>
    exact of_bill _ orders (by rw [frame])
      (fun r _ => (commissionEditedRow_standing i.now order target r).1)
      (fun r _ => commissionEditedRow_bill i.now order target r)
      fun r _ _ => (commissionEditedRow_standing i.now order target r).2
  | checkedOut db' h => exact h.payable payable
  | paymentsEdited payments =>
    exact of_bill id (List.map_id _).symm rfl (fun _ _ => rfl) (fun _ _ => rfl) fun _ _ _ => rfl

section

variable {rt : Runtime} {s : Sys}

theorem Payable.step (i : Input) (payable : Payable s.db) : Payable (s.step rt i).db :=
  ((Sys.step_effect rt s i).payable payable).1

theorem ChargesKept.run (inputs : List Input) (payable : Payable s.db) :
    ChargesKept s.db (run (Sys.step rt) s inputs).db := by
  induction inputs generalizing s with
  | nil => exact .refl s.db
  | cons i rest ih =>
    have kept := ((Sys.step_effect rt s i).payable payable).2
    exact kept.trans (ih (payable.step i))

end

end ForestPanel
