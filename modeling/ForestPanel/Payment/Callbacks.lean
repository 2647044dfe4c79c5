import ForestPanel.Payment.Attempts

/-!
# Callback numbers

Where callback numbers are stored, and where a new one comes from: a step stores
a number only for the order a confirmation names, and then the number of that
confirmation.
-/
namespace ForestPanel

open Relational Outcome Transition

/-- The order `id` stores the callback number for the method, in its own row or
in the row of an attempt. -/
def Db.Stores (db : Db) (id paymentID : Int) (callbackNo : String) : Prop :=
  (∃ o ∈ db.orders, o.id = id ∧ o.paymentID = some paymentID ∧ o.callbackNo = some callbackNo) ∨
    ∃ a ∈ db.attempts, a.orderID = id ∧ a.paymentID = paymentID ∧ a.callbackNo = some callbackNo

/-- A confirmation of the order `id` brings the number: a gateway's one, of the
method, that no other order stores, or a manual one. -/
structure Brings (s : Sys) (i : Input) (id paymentID : Int) (callbackNo : String) : Prop where
  named : ∃ tradeNo c, s.confirmation i.op = some (tradeNo, c) ∧
    callbackNo = trimSpace c.callbackNo ∧ (∃ o ∈ s.db.orders, o.id = id ∧ o.tradeNo = trimSpace tradeNo) ∧
    (c.paymentID = some paymentID ∧
        lockPaymentCallback s.db (trimSpace tradeNo) callbackNo c.paymentID = .ok () ∨
      c.manual = true ∧ c.paymentID = none)

variable {f : OrderRecord → OrderRecord} {order : OrderRecord} {c : OrderPaymentConfirmation}
  {s : Sys} {i : Input}

section

variable {db db' : Db} {orderID p : Int} {t : String}

private theorem stores_of_rows (Brought : Int → Prop)
    {g : OrderPaymentAttempt → OrderPaymentAttempt}
    (orders : db'.orders.rows = db.orders.rows.map f)
    (attempts : db'.attempts.rows = db.attempts.rows.map g) (ids : ∀ o ∈ db.orders, (f o).id = o.id)
    (numbers : ∀ o ∈ db.orders, (f o).paymentID = some p → (f o).callbackNo = some t →
      o.paymentID = some p ∧ o.callbackNo = some t ∨ Brought o.id)
    (charges : ∀ a ∈ db.attempts, (g a).charge = a.charge)
    (answers : ∀ a ∈ db.attempts, a.paymentID = p → (g a).callbackNo = some t →
      a.callbackNo = some t ∨ Brought a.orderID) (stores : db'.Stores orderID p t) :
    db.Stores orderID p t ∨ Brought orderID := by
  rcases stores with ⟨o', found, own, chosen, number⟩ | ⟨a', found, own, method, number⟩
  · obtain ⟨o, member, rfl⟩ := (Table.mem_of_rows_map orders o').mp found
    have own := (ids o member).symm.trans own
    rcases numbers o member chosen number with old | new
    · exact Or.inl (Or.inl ⟨o, member, own, old⟩)
    · exact Or.inr (own ▸ new)
  · obtain ⟨a, member, rfl⟩ := (Table.mem_of_rows_map attempts a').mp found
    have charge := charges a member
    simp only [OrderPaymentAttempt.charge, Charge.mk.injEq] at charge
    have own := charge.1.symm.trans own
    have method := charge.2.1.symm.trans method
    rcases answers a member method number with old | new
    · exact Or.inl (Or.inr ⟨a, member, own, method, old⟩)
    · exact Or.inr (own ▸ new)

private theorem stores_kept {g : OrderPaymentAttempt → OrderPaymentAttempt}
    (orders : db'.orders.rows = db.orders.rows.map f)
    (attempts : db'.attempts.rows = db.attempts.rows.map g) (ids : ∀ o ∈ db.orders, (f o).id = o.id)
    (numbers : ∀ o ∈ db.orders, (f o).paymentID = some p → (f o).callbackNo = some t →
      o.paymentID = some p ∧ o.callbackNo = some t)
    (charges : ∀ a ∈ db.attempts, (g a).charge = a.charge)
    (answers : ∀ a ∈ db.attempts, (g a).callbackNo = a.callbackNo) (stores : db'.Stores orderID p t)
    :
    db.Stores orderID p t := by
  have before := stores_of_rows (fun _ => False) orders attempts ids
    (fun o member chosen number => Or.inl (numbers o member chosen number)) charges
    (fun a member _ number => Or.inl ((answers a member).symm.trans number)) stores
  exact before.resolve_right id

private theorem stores_of_bill (orders : db'.orders.rows = db.orders.rows.map f)
    (attempts : db'.attempts = db.attempts) (terms : ∀ o ∈ db.orders, (f o).terms = o.terms)
    (bill : ∀ o ∈ db.orders, (f o).bill = o.bill) (stores : db'.Stores orderID p t) :
    db.Stores orderID p t := by
  refine stores_kept (g := id) orders (by rw [attempts, List.map_id])
    (fun o member => congrArg OrderTerms.id (terms o member)) ?_ (fun _ _ => rfl)
    (fun _ _ => rfl) stores
  intro o member chosen number
  exact ⟨(congrArg Bill.paymentID (bill o member)).symm.trans chosen,
    (congrArg Bill.callbackNo (bill o member)).symm.trans number⟩

private theorem Charged.answers {charge : Charge} {a' : OrderPaymentAttempt}
    (h : Charged db charge db') (found : a' ∈ db'.attempts) (number : a'.callbackNo = some t) :
    ∃ a ∈ db.attempts, a.method = a'.method ∧ a.callbackNo = some t := by
  cases h with
  | inserted row unused rows charged waiting =>
    rw [Table.mem_def, rows, List.mem_append, List.mem_singleton] at found
    rcases found with old | rfl
    · exact ⟨a', old, rfl, number⟩
    · rw [waiting.2] at number
      cases number
  | updated g rows same charged =>
    obtain ⟨a, member, rfl⟩ := (Table.mem_of_rows_map rows a').mp found
    refine ⟨a, member, ?_, (same a).2.symm.trans number⟩
    rcases charged a with kept | ⟨method, new⟩
    · exact (method_of_charge kept).symm
    · rw [method]
      simp only [OrderPaymentAttempt.charge] at new
      simp [OrderPaymentAttempt.method, ← new]

private theorem SelectedIn.unanswered {o r : OrderRecord} {q fee : Int} (payable : Payable db)
    (member : o ∈ db.orders) (pending : o.status = .pending) (standing : ∀ r, SameStanding r (f r))
    (selects : ∀ r ∈ db.orders, SelectedIn o.id q fee r (f r)) (stored : r ∈ db.orders)
    (chosen : (f r).paymentID = some p) (number : (f r).callbackNo = some t) :
    r.paymentID = some p ∧ r.callbackNo = some t := by
  rw [(standing r).callbackNo] at number
  have other : r.id ≠ o.id := by
    intro same
    obtain rfl := db.orders.eq_of_key stored member same
    rw [payable.unanswered r member pending] at number
    cases number
  exact ⟨((selects r stored).others other).1.symm.trans chosen, number⟩

private theorem CheckoutWrite.stores (h : CheckoutWrite db db') (payable : Payable db)
    (stores : db'.Stores orderID p t) : db.Stores orderID p t := by
  cases h with
  | attempts g rows same frame =>
    exact stores_kept (f := id) (by rw [frame, List.map_id]) rows (fun _ _ => rfl)
      (fun _ _ chosen number => ⟨chosen, number⟩) (fun a _ => (same a).charge)
      (fun a _ => (same a).callbackNo) stores
  | orders f rows same frame =>
    refine stores_of_bill rows (by rw [frame]) (fun r _ => (same r).standing.terms) ?_ stores
    intro r _
    simp [OrderRecord.bill, (same r).paymentID, (same r).handlingAmount,
      (same r).standing.callbackNo]
  | charged o q member pending chosen rows frame =>
    rcases stores with ⟨r, found, rest⟩ | ⟨a', found, own, method, number⟩
    · rw [frame] at found
      exact Or.inl ⟨r, found, rest⟩
    · obtain ⟨a, stored, same, old⟩ := rows.answers found number
      simp only [OrderPaymentAttempt.method, Prod.mk.injEq] at same
      exact Or.inr ⟨a, stored, same.1.trans own, same.2.trans method, old⟩
  | claimed o q fee member pending named source charged recorded f rows standing selects frame =>
    rcases stores with ⟨r', found, own, chosen, number⟩ | ⟨a', found, own, method, number⟩
    · obtain ⟨r, stored, rfl⟩ := (Table.mem_of_rows_map rows r').mp found
      have id : (f r).id = r.id := congrArg OrderTerms.id (standing r).terms
      exact Or.inl ⟨r, stored, id.symm.trans own, SelectedIn.unanswered payable member pending
        standing selects stored chosen number⟩
    · obtain ⟨a, stored, same, old⟩ := charged.answers found number
      simp only [OrderPaymentAttempt.method, Prod.mk.injEq] at same
      exact Or.inr ⟨a, stored, same.1.trans own, same.2.trans method, old⟩
  | selected o a member pending named stored own f rows standing selects frame =>
    refine stores_kept (g := id) rows (by rw [frame, List.map_id])
      (fun r _ => congrArg OrderTerms.id (standing r).terms) ?_ (fun _ _ => rfl)
      (fun _ _ => rfl) stores
    exact fun r found chosen number => SelectedIn.unanswered payable member pending standing
      selects found chosen number

private theorem CheckoutWrites.stores (h : CheckoutWrites db db') (payable : Payable db)
    (stores : db'.Stores orderID p t) : db.Stores orderID p t := by
  induction h with
  | refl => exact stores
  | tail before last ih => exact ih (last.stores (CheckoutWrites.payable before payable).1 stores)

end

private theorem Payable.priced {db : Db} (payable : Payable db) {o : OrderRecord}
    (member : o ∈ db.orders) (chosen : o.paymentID.isSome) : 0 < o.totalAmount := by
  obtain ⟨p, chosen⟩ := Option.isSome_iff_exists.mp chosen
  obtain ⟨a, stored, own, -⟩ := payable.selected o member p chosen
  obtain ⟨-, o', found, same, -, valid, -⟩ := payable.billed a stored
  obtain rfl := db.orders.eq_of_key found member (same.trans own)
  exact valid.1

/-- Without a gateway's evidence, only a manual confirmation or one of an order
that costs nothing is accepted. -/
theorem manual_or_free (internal : c.paymentID = none)
    (valid : validateOrderPaymentConfirmation order c = .ok ()) :
    c.manual = true ∨ order.totalAmount = 0 := by
  unfold validateOrderPaymentConfirmation at valid
  dsimp only at valid
  rw [internal] at valid
  split at valid
  · cases valid
  · split at valid
    next manual => exact Or.inl manual
    next =>
      simp only [ensure_eq_ok] at valid
      exact Or.inr valid.2.1

private theorem Settled.stores {tradeNo : String} {confirmed : OrderRecord} {db' : Db}
    {orderID p : Int} {t : String} (payable : Payable s.db) (member : order ∈ s.db.orders)
    (confirmation : s.confirmation i.op = some (tradeNo, c))
    (named : order.tradeNo = trimSpace tradeNo)
    (h : Settled i.now c (trimSpace tradeNo) (trimSpace c.callbackNo) order confirmed s.db db')
    (stores : db'.Stores orderID p t) : s.db.Stores orderID p t ∨ Brings s i orderID p t := by
  have terms := (confirmedOrder_terms h.confirmation).1
  have id : confirmed.id = order.id := congrArg OrderTerms.id terms
  have bill := fun r => settledRow_bill i.now confirmed r
    ⟨trimSpace_trimSpace c.callbackNo, h.answered.2⟩
  refine stores_of_rows (fun orderID => Brings s i orderID p t) h.orders h.attempts
    (fun o _ => congrArg OrderTerms.id (settledRow_terms i.now _ confirmed o)) ?_ ?_ ?_ stores
  · intro o stored chosen number
    have columns := bill o
    by_cases same : o.id = order.id
    · right
      rw [if_pos (same.trans id.symm)] at columns
      have paymentID := (congrArg Bill.paymentID columns).symm.trans chosen
      have callbackNo := (congrArg Bill.callbackNo columns).symm.trans number
      dsimp only at paymentID callbackNo
      refine ⟨tradeNo, c, confirmation, (Option.some.inj callbackNo).symm,
        ⟨order, member, same.symm, named⟩, ?_⟩
      rcases h.rebound with internal | ⟨gateway, -⟩
      · rcases manual_or_free internal (confirmedOrder_cases h.confirmation).1 with manual | free
        · exact Or.inr ⟨manual, internal⟩
        · -- the order itself was confirmed, and it has no method
          have whole : confirmed = order := by
            rcases (confirmedOrder_cases h.confirmation).2 with ⟨same, -⟩ | ⟨a, found, -⟩
            · exact same
            · simp [confirmationAttempt, internal] at found
          rw [whole] at paymentID free
          have priced := payable.priced member (by rw [paymentID]; rfl)
          omega
      · refine Or.inl ⟨gateway.symm.trans paymentID, ?_⟩
        rw [← Option.some.inj callbackNo]
        exact h.unclaimed
    · left
      rw [if_neg (id ▸ same)] at columns
      exact ⟨(congrArg Bill.paymentID columns).symm.trans chosen,
        (congrArg Bill.callbackNo columns).symm.trans number⟩
  · intro a stored
    rcases wonRow_cases i.now (trimSpace c.callbackNo) order c stored with same | ⟨-, same⟩
    · rw [same]
    · rw [same]
      rfl
  · intro a stored method number
    rcases wonRow_cases i.now (trimSpace c.callbackNo) order c stored with same | ⟨found, same⟩
    · rw [same] at number
      exact Or.inl number
    · right
      rw [same] at number
      have callbackNo := Option.some.inj number
      obtain ⟨-, own, gateway⟩ := own_of_confirmationAttempt found
      refine ⟨tradeNo, c, confirmation, callbackNo.symm, ⟨order, member, own.symm, named⟩,
        Or.inl ⟨method ▸ gateway, ?_⟩⟩
      rw [← callbackNo]
      exact h.unclaimed

private theorem Acknowledged.stores {tradeNo : String} {db' : Db} {orderID p : Int} {t : String}
    (member : order ∈ s.db.orders) (confirmation : s.confirmation i.op = some (tradeNo, c))
    (named : order.tradeNo = trimSpace tradeNo)
    (h : Acknowledged i.now c (trimSpace tradeNo) (trimSpace c.callbackNo) order s.db db')
    (stores : db'.Stores orderID p t) : s.db.Stores orderID p t ∨ Brings s i orderID p t := by
  obtain ⟨g, attempts, answered⟩ := h.attempts
  obtain ⟨f, orders, repairs⟩ := h.repairs
  have bill : ∀ o ∈ s.db.orders, (f o).id = o.id ∧ ((f o).bill = o.bill ∨ o = order ∧
      (f o).bill = { o.bill with callbackNo := some (trimSpace c.callbackNo) } ∧
      c.paymentID = o.paymentID ∧
      lockPaymentCallback s.db (trimSpace tradeNo) (trimSpace c.callbackNo) c.paymentID = .ok ()) := by
    intro o stored
    rcases repairs with rfl | ⟨rfl, -, unclaimed, q, gateway, chosen, -⟩
    · exact ⟨rfl, Or.inl rfl⟩
    · have columns := repairedRow_bill i.now (trimSpace c.callbackNo) order o
      split at columns
      next same =>
        obtain rfl := s.db.orders.eq_of_key stored member same
        exact ⟨by simp [repairedRow], Or.inr ⟨rfl, columns, gateway.trans chosen.symm, unclaimed⟩⟩
      next other => exact ⟨by simp [repairedRow, other], Or.inl columns⟩
  refine stores_of_rows (fun orderID => Brings s i orderID p t) orders attempts
    (fun o stored => (bill o stored).1) ?_ ?_ ?_ stores
  · intro o stored chosen number
    rcases (bill o stored).2 with kept | ⟨rfl, columns, gateway, unclaimed⟩
    · exact Or.inl ⟨(congrArg Bill.paymentID kept).symm.trans chosen,
        (congrArg Bill.callbackNo kept).symm.trans number⟩
    · right
      have paymentID := (congrArg Bill.paymentID columns).symm.trans chosen
      have callbackNo := Option.some.inj ((congrArg Bill.callbackNo columns).symm.trans number)
      exact ⟨tradeNo, c, confirmation, callbackNo.symm, ⟨o, stored, rfl, named⟩,
        Or.inl ⟨gateway.trans paymentID, callbackNo ▸ unclaimed⟩⟩
  · intro a stored
    rcases answered a stored with same | new
    · rw [same]
    · exact new.charge
  · intro a stored method number
    rcases answered a stored with same | new
    · rw [same] at number
      exact Or.inl number
    · right
      have callbackNo := Option.some.inj (new.stored.symm.trans number)
      obtain ⟨-, own, gateway⟩ := own_of_confirmationAttempt new.found
      exact ⟨tradeNo, c, confirmation, callbackNo.symm, ⟨order, member, own.symm, named⟩,
        Or.inl ⟨method ▸ gateway, callbackNo ▸ new.unclaimed⟩⟩

theorem Effect.stores {db' : Db} (effect : Effect s i db') (payable : Payable s.db)
    {orderID p : Int} {t : String} (stores : db'.Stores orderID p t) :
    s.db.Stores orderID p t ∨ Brings s i orderID p t := by
  cases effect with
  | unchanged => exact Or.inl stores
  | saved row db' h =>
    left
    rcases stores with ⟨o, found, rest⟩ | ⟨a, found, rest⟩
    · rw [Table.mem_def, h.orders, List.mem_append, List.mem_singleton] at found
      rcases found with old | rfl
      · exact Or.inl ⟨o, old, rest⟩
      · rw [h.unpaid.2.1] at rest
        cases rest.2.1
    · rw [h.frame] at found
      exact Or.inr ⟨a, found, rest⟩
  | cancelled order db' member unfinished h =>
    exact Or.inl (stores_of_bill h.orders (by rw [h.frame])
      (fun r _ => cancelledRow_terms i.now order r) (fun r _ => cancelledRow_bill i.now order r)
      stores)
  | opened order tradeNo db' member op named paid h =>
    left
    refine stores_kept (g := id) h.orders (by rw [h.frame, List.map_id])
      (fun r _ => congrArg OrderTerms.id (openedRow_terms i.now order r)) ?_ (fun _ _ => rfl)
      (fun _ _ => rfl) stores
    intro r stored chosen number
    have columns := openedRow_bill i.now order r
    split at columns
    next same =>
      -- a legacy row has no method
      have paymentID : r.paymentID = some p := (congrArg Bill.paymentID columns).symm.trans chosen
      obtain rfl := s.db.orders.eq_of_key stored member same
      rw [(payable.legacy r member paid).1] at paymentID
      cases paymentID
    next =>
      exact ⟨(congrArg Bill.paymentID columns).symm.trans chosen,
        (congrArg Bill.callbackNo columns).symm.trans number⟩
  | acknowledged order tradeNo c db' member confirmed named paid h =>
    exact h.stores member confirmed named stores
  | settled order confirmed tradeNo c db' member confirmation named h =>
    exact h.stores payable member confirmation named stores
  | refunded order tradeNo db' member op named h =>
    exact Or.inl (stores_of_bill h.orders (by rw [h.frame])
      (fun r _ => refundedRow_terms i.now order r) (fun r _ => refundedRow_bill i.now order r)
      stores)
  | commissionCleared order member deposit =>
    exact Or.inl (stores_of_bill (disableDepositCommission_rows s.db order i.now) rfl
      (fun r _ => (commissionClearedRow_standing i.now order r).1)
      (fun r _ => commissionClearedRow_bill i.now order r) stores)
  | commissionSettled order inviter tradeNo db' member op h =>
    exact Or.inl (stores_of_bill h.orders (by rw [h.frame])
      (fun r _ => (commissionPaidRow_standing i.now order r).1)
      (fun r _ => commissionPaidRow_bill i.now order r) stores)
  | commissionEdited order target db' member unpaid orders frame =>
    exact Or.inl (stores_of_bill orders (by rw [frame])
      (fun r _ => (commissionEditedRow_standing i.now order target r).1)
      (fun r _ => commissionEditedRow_bill i.now order target r) stores)
  | checkedOut db' h => exact Or.inl (CheckoutWrites.stores h payable stores)
  | paymentsEdited payments => exact Or.inl stores

/-- Every number is stored as it was brought, without white space around it. -/
def Trimmed (db : Db) : Prop := ∀ orderID p t, db.Stores orderID p t → trimSpace t = t

theorem Trimmed.step {rt : Runtime} (i : Input) (payable : Payable s.db) (trimmed : Trimmed s.db) :
    Trimmed (s.step rt i).db := by
  intro orderID p t stores
  rcases (Sys.step_effect rt s i).stores payable stores with old | ⟨-, c, -, rfl, -⟩
  · exact trimmed orderID p t old
  · exact trimSpace_trimSpace c.callbackNo

theorem Db.Start.stores_nothing {db : Db} (start : db.Start) (orderID p : Int) (t : String) :
    ¬db.Stores orderID p t := by
  rintro (⟨o, member, -, chosen, -⟩ | ⟨a, member, -⟩)
  · rw [(start.orders o member).unsettled.1] at chosen
    cases chosen
  · rw [Table.mem_def, start.attempts] at member
    cases member

theorem Trimmed.run {rt : Runtime} (inputs : List Input) (payable : Payable s.db)
    (trimmed : Trimmed s.db) : Trimmed (run (Sys.step rt) s inputs).db := by
  induction inputs generalizing s with
  | nil => exact trimmed
  | cons i rest ih => exact ih (payable.step i) (trimmed.step i payable)

end ForestPanel
