import ForestPanel.Payment.Callbacks
import ForestPanel.Payment.Links

/-!
# Safety of settlements

What opens an order, how often, and what a repeated confirmation does. A paid
order stays paid until it is refunded, with the callback number it was paid with,
as long as no gateway uses a number of the panel's own completions.
-/
namespace ForestPanel

open Relational Outcome Transition

theorem validateOrderPaymentConfirmation_free {order : OrderRecord}
    {c : OrderPaymentConfirmation} (internal : c.paymentID = none) (automatic : ¬c.manual = true)
    (valid : validateOrderPaymentConfirmation order c = .ok ()) : order.totalAmount = 0 := by
  simp only [validateOrderPaymentConfirmation, automatic, internal] at valid
  split at valid
  · cases valid
  · exact ((ensure_eq_ok ..).mp valid).2.1

/-- Completed, or used up by a later order. -/
def OrderRecord.Paid (o : OrderRecord) : Prop := o.status = .completed ∨ o.status = .closed

def Sys.Opens (rt : Runtime) (s : Sys) (i : Input) (o : OrderRecord) : Prop :=
  o ∈ s.db.orders ∧ ¬o.Paid ∧ ∃ o' ∈ (s.step rt i).db.orders, o'.id = o.id ∧ o'.status = .completed

def Sys.Refunds (rt : Runtime) (s : Sys) (i : Input) (id : Int) : Prop :=
  (∃ o ∈ s.db.orders, o.id = id ∧ o.status = .completed ∧
    ∃ tradeNo, i.op = .refundManagedOrder tradeNo ∧ o.tradeNo = trimSpace tradeNo) ∧
  ∃ o ∈ (s.step rt i).db.orders, o.id = id ∧ o.status = .cancelled

inductive Justified (s : Sys) (i : Input) (o : OrderRecord) : Prop
  /-- A confirmation of the selected method's price, or of a recorded attempt. -/
  | gateway (tradeNo : String) (c : OrderPaymentConfirmation) (paymentID amount : Int)
      (confirmation : s.confirmation i.op = some (tradeNo, c))
      (named : o.tradeNo = trimSpace tradeNo) (method : c.paymentID = some paymentID)
      (paid : c.amount = some amount)
      (charged : o.paymentID = some paymentID ∧ o.totalAmount + o.handlingAmount.getD 0 = amount ∨
        ∃ a ∈ s.db.attempts, a.orderID = o.id ∧ a.paymentID = paymentID ∧ a.amount = amount)
  | manual (tradeNo : String) (c : OrderPaymentConfirmation)
      (confirmation : s.confirmation i.op = some (tradeNo, c))
      (named : o.tradeNo = trimSpace tradeNo) (explicit : c.manual = true)
  | free (tradeNo : String) (c : OrderPaymentConfirmation)
      (confirmation : s.confirmation i.op = some (tradeNo, c))
      (named : o.tradeNo = trimSpace tradeNo) (free : o.totalAmount = 0)
  /-- The queue opens a row that an older runtime had marked as paid. -/
  | legacy (tradeNo : String) (op : i.op = .handleQueuedOrder tradeNo)
      (paid : o.status = .processing)

/-- What a step makes of an order that is paid: it stays paid unless it is
refunded, and its callback number is repaired at most. -/
structure StaysPaid (i : Input) (o o' : OrderRecord) : Prop where
  terms : o'.terms = o.terms
  paymentID : o'.paymentID = o.paymentID
  handlingAmount : o'.handlingAmount = o.handlingAmount
  paid : o'.Paid ∨ (o.status = .completed ∧ o'.status = .cancelled) ∧
    ∃ tradeNo, i.op = .refundManagedOrder tradeNo ∧ o.tradeNo = trimSpace tradeNo
  callbackNo : o'.callbackNo = o.callbackNo ∨ legacyCallback o = true ∧ 0 < o.totalAmount

variable {i : Input} {o : OrderRecord} {db' : Db} {s : Sys}

private theorem StaysPaid.of_bill {o' : OrderRecord} (terms : o'.terms = o.terms)
    (bill : o'.bill = o.bill) (paid : o'.Paid) : StaysPaid i o o' :=
  ⟨terms, congrArg Bill.paymentID bill, congrArg Bill.handlingAmount bill, Or.inl paid,
    Or.inl (congrArg Bill.callbackNo bill)⟩

private theorem CheckoutWrites.keeps {db : Db} (h : CheckoutWrites db db') (member : o ∈ db.orders)
    (settled : o.status ≠ .pending) :
    ∃ o' ∈ db'.orders, o'.terms = o.terms ∧ o'.status = o.status ∧ o'.bill = o.bill := by
  induction h with
  | refl => exact ⟨o, member, rfl, rfl, rfl⟩
  | @tail db₁ db₂ _ last ih =>
    obtain ⟨r, found, terms, status, bill⟩ := ih
    have settled : r.status ≠ .pending := status ▸ settled
    -- the row is left alone, or mapped by a write that keeps its columns
    have mapped : ∀ f : OrderRecord → OrderRecord,
        db₂.orders.rows = db₁.orders.rows.map f → SameStanding r (f r) →
        (f r).paymentID = r.paymentID → (f r).handlingAmount = r.handlingAmount →
        ∃ o' ∈ db₂.orders, o'.terms = o.terms ∧ o'.status = o.status ∧ o'.bill = o.bill := by
      intro f rows standing method fee
      refine ⟨f r, (Table.mem_of_rows_map rows _).mpr ⟨r, found, rfl⟩,
        standing.terms.trans terms, standing.status.trans status, Eq.trans ?_ bill⟩
      simp [OrderRecord.bill, method, fee, standing.callbackNo]
    have others : ∀ q ∈ db₁.orders, q.status = .pending → r.id ≠ q.id := by
      intro q waits pending same
      rw [db₁.orders.eq_of_key found waits same] at settled
      exact settled pending
    cases last with
    | attempts g rows same frame =>
      rw [frame]
      exact ⟨r, found, terms, status, bill⟩
    | orders f rows same frame =>
      exact mapped f rows (same r).standing (same r).paymentID (same r).handlingAmount
    | charged q p waits pending chosen rows frame =>
      rw [frame]
      exact ⟨r, found, terms, status, bill⟩
    | claimed q p fee waits pending named source charged recorded f rows standing selects frame =>
      obtain ⟨method, fee⟩ := (selects r found).others (others q waits pending)
      exact mapped f rows (standing r) method fee
    | selected q a waits pending named stored own f rows standing selects frame =>
      obtain ⟨method, fee⟩ := (selects r found).others (others q waits pending)
      exact mapped f rows (standing r) method fee

theorem Effect.staysPaid (effect : Effect s i db') (member : o ∈ s.db.orders) (paid : o.Paid) :
    ∃ o' ∈ db'.orders, StaysPaid i o o' := by
  have mapped : ∀ f, db'.orders.rows = s.db.orders.rows.map f → f o ∈ db'.orders :=
    fun f rows => (Table.mem_of_rows_map rows _).mpr ⟨o, member, rfl⟩
  have unfinished : o.status ≠ .pending ∧ o.status ≠ .processing ∧ o.status ≠ .cancelled := by
    rcases paid with completed | closed
    · simp [completed]
    · simp [closed]
  -- an order that is opened or cancelled was not paid
  have different : ∀ order ∈ s.db.orders, order.status ≠ o.status → o.id ≠ order.id := by
    intro order stored differs same
    rw [s.db.orders.eq_of_key member stored same] at differs
    exact differs rfl
  cases effect with
  | unchanged => exact ⟨o, member, .of_bill rfl rfl paid⟩
  | saved row db' h =>
    refine ⟨o, ?_, .of_bill rfl rfl paid⟩
    rw [Table.mem_def, h.orders]
    exact List.mem_append_left _ member
  | cancelled order db' stored early h =>
    have other : o.id ≠ order.id := by
      apply different order stored
      rintro same
      rw [same] at early
      rcases early with pending | processing
      · exact unfinished.1 pending
      · exact unfinished.2.1 processing
    refine ⟨_, mapped _ h.orders, .of_bill (cancelledRow_terms i.now order o)
      (cancelledRow_bill i.now order o) ?_⟩
    rw [OrderRecord.Paid, cancelledRow_status, if_neg other]
    exact paid
  | opened order tradeNo db' stored op named early h =>
    have other : o.id ≠ order.id :=
      different order stored fun same => unfinished.2.1 (same.symm.trans early)
    have bill := openedRow_bill i.now order o
    rw [if_neg other] at bill
    refine ⟨_, mapped _ h.orders, .of_bill (openedRow_terms i.now order o) bill ?_⟩
    rw [OrderRecord.Paid, openedRow_status, if_neg other]
    split
    · exact Or.inr rfl
    · exact paid
  | acknowledged order tradeNo c db' stored confirmed named early h =>
    obtain ⟨f, rows, repairs⟩ := h.repairs
    refine ⟨_, mapped f rows, ?_⟩
    rcases repairs with rfl | ⟨rfl, legacy, -, p, -, -, priced⟩
    · exact .of_bill rfl rfl paid
    · unfold repairedRow
      split
      next same =>
        obtain rfl := s.db.orders.eq_of_key member stored same
        exact ⟨rfl, rfl, rfl, Or.inl paid, Or.inr ⟨legacy, priced⟩⟩
      next => exact .of_bill rfl rfl paid
  | settled order confirmed tradeNo c db' stored confirmation named h =>
    have id : confirmed.id = order.id :=
      congrArg OrderTerms.id (confirmedOrder_terms h.confirmation).1
    have other : o.id ≠ order.id := by
      apply different order stored
      intro same
      have early := h.unopened
      rw [same] at early
      rcases early with pending | cancelled
      · exact unfinished.1 pending
      · exact unfinished.2.2 cancelled
    have bill := settledRow_bill i.now confirmed o
      ⟨trimSpace_trimSpace c.callbackNo, h.answered.2⟩
    rw [id, if_neg other] at bill
    refine ⟨_, mapped _ h.orders, .of_bill (settledRow_terms i.now _ confirmed o) bill ?_⟩
    rw [OrderRecord.Paid, settledRow_status, id, if_neg other]
    split
    · exact Or.inr rfl
    · exact paid
  | refunded order tradeNo db' stored op named h =>
    have bill := refundedRow_bill i.now order o
    have terms := refundedRow_terms i.now order o
    refine ⟨_, mapped _ h.orders, terms, congrArg Bill.paymentID bill,
      congrArg Bill.handlingAmount bill, ?_, Or.inl (congrArg Bill.callbackNo bill)⟩
    rw [OrderRecord.Paid, refundedRow_status]
    split
    next same =>
      obtain rfl := s.db.orders.eq_of_key member stored same
      exact Or.inr ⟨⟨h.completed, rfl⟩, tradeNo, op, named⟩
    next =>
      left
      split
      · exact Or.inl rfl
      · exact paid
  | commissionCleared order stored deposit =>
    obtain ⟨terms, status⟩ := commissionClearedRow_standing i.now order o
    refine ⟨_, mapped _ (disableDepositCommission_rows s.db order i.now),
      .of_bill terms (commissionClearedRow_bill i.now order o) ?_⟩
    rw [OrderRecord.Paid, status]
    exact paid
  | commissionSettled order inviter tradeNo db' stored op h =>
    obtain ⟨terms, status⟩ := commissionPaidRow_standing i.now order o
    refine ⟨_, mapped _ h.orders, .of_bill terms (commissionPaidRow_bill i.now order o) ?_⟩
    rw [OrderRecord.Paid, status]
    exact paid
  | commissionEdited order target db' stored unpaid orders frame =>
    obtain ⟨terms, status⟩ := commissionEditedRow_standing i.now order target o
    refine ⟨_, mapped _ orders, .of_bill terms (commissionEditedRow_bill i.now order target o) ?_⟩
    rw [OrderRecord.Paid, status]
    exact paid
  | checkedOut db' h =>
    obtain ⟨o', found, terms, status, bill⟩ := CheckoutWrites.keeps h member unfinished.1
    refine ⟨o', found, .of_bill terms bill ?_⟩
    rw [OrderRecord.Paid, status]
    exact paid
  | paymentsEdited payments => exact ⟨o, member, .of_bill rfl rfl paid⟩

private theorem Settled.justified {order confirmed : OrderRecord} {tradeNo : String}
    {c : OrderPaymentConfirmation}
    (h : Settled i.now c (trimSpace tradeNo) (trimSpace c.callbackNo) order confirmed s.db db')
    (confirmation : s.confirmation i.op = some (tradeNo, c))
    (named : order.tradeNo = trimSpace tradeNo) : Justified s i order := by
  obtain ⟨valid, source⟩ := confirmedOrder_cases h.confirmation
  by_cases explicit : c.manual = true
  · exact .manual tradeNo c confirmation named explicit
  cases gateway : c.paymentID with
  | none =>
    have total : confirmed.totalAmount = order.totalAmount :=
      congrArg OrderTerms.totalAmount (confirmedOrder_terms h.confirmation).1
    have free := validateOrderPaymentConfirmation_free gateway explicit valid
    exact .free tradeNo c confirmation named (total.symm.trans free)
  | some p =>
    have accepted := (validateOrderPaymentConfirmation_gateway gateway).mp valid
    rcases source with ⟨rfl, -⟩ | ⟨a, found, -, rfl, -⟩
    · exact .gateway tradeNo c p _ confirmation named gateway accepted.2.2.1
        (Or.inl ⟨accepted.2.1, rfl⟩)
    · obtain ⟨stored, own, method⟩ := own_of_confirmationAttempt found
      have checked := h.attempt
      rw [found, checkAttempt, validateOrderPaymentAttemptConfirmation] at checked
      simp only [bind_eq_ok, ensure_eq_ok, exists_const] at checked
      exact .gateway tradeNo c p a.amount confirmation named gateway checked.1.2.2.1
        (Or.inr ⟨a, stored, own, Option.some.inj (method.symm.trans gateway), rfl⟩)

/-- An order that was not paid is completed by an accepted confirmation, or by the
queue if an older runtime had marked it. -/
theorem Effect.justified (effect : Effect s i db') {o' : OrderRecord} (member : o ∈ s.db.orders)
    (unpaid : ¬o.Paid) (found : o' ∈ db'.orders) (same : o'.id = o.id)
    (completed : o'.status = .completed) : Justified s i o := by
  have still : o.status ≠ .completed := fun now => unpaid (Or.inl now)
  -- the row of the order after an update of the rows
  have mapped : ∀ f : OrderRecord → OrderRecord, db'.orders.rows = s.db.orders.rows.map f →
      (∀ r ∈ s.db.orders, (f r).id = r.id) → (f o).status = .completed := by
    intro f rows ids
    obtain ⟨r, stored, rfl⟩ := (Table.mem_of_rows_map rows o').mp found
    obtain rfl := s.db.orders.eq_of_key stored member ((ids r stored).symm.trans same)
    exact completed
  have kept : db'.orders = s.db.orders → Justified s i o := by
    intro orders
    rw [orders] at found
    obtain rfl := s.db.orders.eq_of_key found member same
    exact absurd completed still
  have standing : ∀ f : OrderRecord → OrderRecord, db'.orders.rows = s.db.orders.rows.map f →
      (∀ r ∈ s.db.orders, (f r).terms = r.terms ∧ (f r).status = r.status) → Justified s i o := by
    intro f rows alike
    have status := mapped f rows fun r stored => congrArg OrderTerms.id (alike r stored).1
    rw [(alike o member).2] at status
    exact absurd status still
  cases effect with
  | unchanged => exact kept rfl
  | saved row db' h =>
    rw [Table.mem_def, h.orders, List.mem_append, List.mem_singleton] at found
    rcases found with old | rfl
    · obtain rfl := s.db.orders.eq_of_key old member same
      exact absurd completed still
    · rw [h.unpaid.1] at completed
      cases completed
  | cancelled order db' stored early h =>
    have status := mapped _ h.orders fun r _ => congrArg OrderTerms.id (cancelledRow_terms ..)
    rw [cancelledRow_status] at status
    split at status
    · cases status
    · exact absurd status still
  | opened order tradeNo db' stored op named early h =>
    have status := mapped _ h.orders fun r _ => congrArg OrderTerms.id (openedRow_terms ..)
    rw [openedRow_status] at status
    split at status
    next own =>
      obtain rfl := s.db.orders.eq_of_key member stored own
      exact .legacy tradeNo op early
    next =>
      split at status
      · cases status
      · exact absurd status still
  | acknowledged order tradeNo c db' stored confirmed named early h =>
    obtain ⟨f, rows, alike⟩ := h.orders stored
    exact standing f rows fun r known => ⟨(alike r known).1, (alike r known).2.1⟩
  | settled order confirmed tradeNo c db' stored confirmation named h =>
    have id : confirmed.id = order.id :=
      congrArg OrderTerms.id (confirmedOrder_terms h.confirmation).1
    have status := mapped _ h.orders fun r _ => congrArg OrderTerms.id (settledRow_terms ..)
    rw [settledRow_status, id] at status
    split at status
    next own =>
      obtain rfl := s.db.orders.eq_of_key member stored own
      exact h.justified confirmation named
    next =>
      split at status
      · cases status
      · exact absurd status still
  | refunded order tradeNo db' stored op named h =>
    have status := mapped _ h.orders fun r _ => congrArg OrderTerms.id (refundedRow_terms ..)
    rw [refundedRow_status] at status
    split at status
    · cases status
    · split at status
      next closed => exact absurd (Or.inr closed.1) unpaid
      next => exact absurd status still
  | commissionCleared order stored deposit =>
    exact standing _ (disableDepositCommission_rows s.db order i.now)
      fun r _ => commissionClearedRow_standing i.now order r
  | commissionSettled order inviter tradeNo db' stored op h =>
    exact standing _ h.orders fun r _ => commissionPaidRow_standing i.now order r
  | commissionEdited order target db' stored unpaid orders frame =>
    exact standing _ orders fun r _ => commissionEditedRow_standing i.now order target r
  | checkedOut db' h =>
    obtain ⟨f, rows, alike⟩ := (CheckoutWrites.only h).orders
    exact standing f rows fun r _ => ⟨(alike r).terms, (alike r).status⟩
  | paymentsEdited payments => exact kept rfl

end ForestPanel
