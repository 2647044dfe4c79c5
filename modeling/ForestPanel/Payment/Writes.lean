import ForestPanel.Payment.Checkout
import Mathlib.Logic.Relation

/-!
# What a checkout writes

Each transaction of a checkout is a sequence of five kinds of writes: to the
checkout columns of attempts, to those of orders, of what the attempt of the
selected method charges, of a new selection with its attempt, and of a selection
alone. `CheckoutWrite` says of each what it may change and what the code checked
before; the results about payments only look at these.
-/
namespace ForestPanel

open Relational Outcome

/-- The columns of an attempt a gateway's notification is checked against. -/
structure Charge where
  orderID : Int
  paymentID : Int
  handlingAmount : Int
  amount : Int
deriving Repr, DecidableEq

def OrderPaymentAttempt.charge (a : OrderPaymentAttempt) : Charge where
  orderID := a.orderID
  paymentID := a.paymentID
  handlingAmount := a.handlingAmount
  amount := a.amount

theorem method_of_charge {a b : OrderPaymentAttempt} (same : a.charge = b.charge) :
    a.method = b.method := by
  simp only [OrderPaymentAttempt.charge, Charge.mk.injEq] at same
  simp [OrderPaymentAttempt.method, same]

/-- All of an order but its payment method, its fee and its checkout columns. -/
structure SameStanding (a b : OrderRecord) : Prop where
  terms : b.terms = a.terms
  status : b.status = a.status
  callbackNo : b.callbackNo = a.callbackNo
  commission : b.commissionStatus = a.commissionStatus ∧
    b.commissionBalance = a.commissionBalance ∧
    b.actualCommissionBalance = a.actualCommissionBalance

theorem SameStanding.refl (a : OrderRecord) : SameStanding a a := ⟨rfl, rfl, rfl, rfl, rfl, rfl⟩

variable {a b order : OrderRecord} {db db' : Db} {rt : Runtime} {cfg : Config} {now userID : Int}
  {req : CheckoutRequest} {claim : String} {outcome : CheckoutOutcome}

theorem SameStanding.trans {c : OrderRecord} (h : SameStanding a b) (k : SameStanding b c) :
    SameStanding a c :=
  ⟨k.terms.trans h.terms, k.status.trans h.status, k.callbackNo.trans h.callbackNo,
    k.commission.1.trans h.commission.1, k.commission.2.1.trans h.commission.2.1,
    k.commission.2.2.trans h.commission.2.2⟩

theorem SameStanding.updated {c : Prop} [Decidable c] (h : SameStanding a b) :
    SameStanding a (if c then b else a) := by
  split
  · exact h
  · exact .refl a

structure SameBill (a b : OrderRecord) : Prop where
  standing : SameStanding a b
  paymentID : b.paymentID = a.paymentID
  handlingAmount : b.handlingAmount = a.handlingAmount

theorem SameBill.updated {c : Prop} [Decidable c] (h : SameBill a b) :
    SameBill a (if c then b else a) := by
  split
  · exact h
  · exact ⟨.refl a, rfl, rfl⟩

structure SameAttempt (a b : OrderPaymentAttempt) : Prop where
  charge : b.charge = a.charge
  status : b.status = a.status
  callbackNo : b.callbackNo = a.callbackNo

theorem SameAttempt.updated {a b : OrderPaymentAttempt} {c : Prop} [Decidable c]
    (h : SameAttempt a b) : SameAttempt a (if c then b else a) := by
  split
  · exact h
  · exact ⟨rfl, rfl, rfl⟩

/-- Only payment columns of orders, and attempts, differ. -/
structure CheckoutOnly (db db' : Db) : Prop where
  orders : ∃ f, db'.orders.rows = db.orders.rows.map f ∧ ∀ r, SameStanding r (f r)
  frame : db' = { db with
    orders := db'.orders
    attempts := db'.attempts
    attemptSeq := db'.attemptSeq }

namespace CheckoutOnly

theorem attempts_only {db db' : Db}
    (frame : db' = { db with attempts := db'.attempts, attemptSeq := db'.attemptSeq }) :
    CheckoutOnly db db' := by
  refine ⟨⟨id, ?_, SameStanding.refl⟩, ?_⟩
  · rw [frame, List.map_id]
  · rw [frame]

theorem refl (db : Db) : CheckoutOnly db db := attempts_only rfl

theorem trans {db db₁ db₂ : Db} (h : CheckoutOnly db db₁) (k : CheckoutOnly db₁ db₂) :
    CheckoutOnly db db₂ := by
  obtain ⟨f, rows₁, same₁⟩ := h.orders
  obtain ⟨g, rows₂, same₂⟩ := k.orders
  refine ⟨⟨g ∘ f, by rw [rows₂, rows₁, List.map_map], ?_⟩, ?_⟩
  · exact fun r => (same₁ r).trans (same₂ (f r))
  · rw [k.frame, h.frame]

end CheckoutOnly

/-- Where the fee `fee` of the method `paymentID` comes from: the order has the
method selected, the method has an attempt, or it is chosen for the first time. -/
inductive FeeSource (db : Db) (o : OrderRecord) (paymentID fee : Int) : Prop
  | selected (chosen : o.paymentID = some paymentID) (same : fee = o.handlingAmount.getD 0)
  | recorded (a : OrderPaymentAttempt) (member : a ∈ db.attempts)
      (method : a.method = (o.id, paymentID)) (same : a.handlingAmount = fee)
  | first (unused : o.paymentID = none ∨ ∀ a ∈ db.attempts, a.method ≠ (o.id, paymentID))
      (positive : 0 < paymentID)
      (valid : validAttemptAmount o.totalAmount fee (o.totalAmount + fee))

/-- The charge is inserted as a new attempt, or written over the stored one. -/
inductive Charged (db : Db) (charge : Charge) (db' : Db) : Prop
  | inserted (row : OrderPaymentAttempt)
      (unused : ∀ a ∈ db.attempts, a.method ≠ (charge.orderID, charge.paymentID))
      (rows : db'.attempts.rows = db.attempts.rows ++ [row]) (charged : row.charge = charge)
      (waiting : row.status = .pending ∧ row.callbackNo = none)
  | updated (g : OrderPaymentAttempt → OrderPaymentAttempt)
      (rows : db'.attempts.rows = db.attempts.rows.map g)
      (same : ∀ a, (g a).status = a.status ∧ (g a).callbackNo = a.callbackNo)
      (charged : ∀ a, (g a).charge = a.charge ∨
        a.method = (charge.orderID, charge.paymentID) ∧ (g a).charge = charge)

theorem Charged.congr {db₁ db₂ : Db} {charge : Charge} (h : Charged db charge db₁)
    (attempts : db₂.attempts = db₁.attempts) : Charged db charge db₂ := by
  cases h with
  | inserted row unused rows charged waiting =>
    exact .inserted row unused (by rw [attempts, rows]) charged waiting
  | updated g rows same charged => exact .updated g (by rw [attempts, rows]) same charged

/-- The order with id `id` has selected the method `paymentID` for the fee `fee`. -/
structure SelectedIn (id paymentID fee : Int) (r r' : OrderRecord) : Prop where
  chosen : r.id = id → r'.paymentID = some paymentID ∧ r'.handlingAmount.getD 0 = fee
  others : r.id ≠ id → r'.paymentID = r.paymentID ∧ r'.handlingAmount = r.handlingAmount

inductive CheckoutWrite (db : Db) : Db → Prop
  | attempts (db' : Db) (g : OrderPaymentAttempt → OrderPaymentAttempt)
      (rows : db'.attempts.rows = db.attempts.rows.map g) (same : ∀ a, SameAttempt a (g a))
      (frame : db' = { db with attempts := db'.attempts }) : CheckoutWrite db db'
  | orders (db' : Db) (f : OrderRecord → OrderRecord)
      (rows : db'.orders.rows = db.orders.rows.map f) (same : ∀ r, SameBill r (f r))
      (frame : db' = { db with orders := db'.orders }) : CheckoutWrite db db'
  /-- The price and the fee of the order are noted for its selected method. -/
  | charged (db' : Db) (o : OrderRecord) (paymentID : Int) (member : o ∈ db.orders)
      (pending : o.status = .pending) (chosen : o.paymentID = some paymentID)
      (rows : Charged db ⟨o.id, paymentID, o.handlingAmount.getD 0,
        o.totalAmount + o.handlingAmount.getD 0⟩ db')
      (frame : db' = { db with attempts := db'.attempts, attemptSeq := db'.attemptSeq }) :
      CheckoutWrite db db'
  /-- A method is charged and selected for an order found by its trade number. -/
  | claimed (db' : Db) (o : OrderRecord) (paymentID fee : Int) (member : o ∈ db.orders)
      (pending : o.status = .pending) (named : trimSpace o.tradeNo = o.tradeNo ∧ o.tradeNo ≠ "")
      (source : FeeSource db o paymentID fee)
      (charged : Charged db ⟨o.id, paymentID, fee, o.totalAmount + fee⟩ db')
      (recorded : ∃ a ∈ db'.attempts, a.charge = ⟨o.id, paymentID, fee, o.totalAmount + fee⟩)
      (f : OrderRecord → OrderRecord) (rows : db'.orders.rows = db.orders.rows.map f)
      (standing : ∀ r, SameStanding r (f r))
      (selects : ∀ r ∈ db.orders, SelectedIn o.id paymentID fee r (f r))
      (frame : db' = { db with
        orders := db'.orders
        attempts := db'.attempts
        attemptSeq := db'.attemptSeq }) : CheckoutWrite db db'
  /-- A method with an attempt is selected for an order found by its trade number. -/
  | selected (db' : Db) (o : OrderRecord) (a : OrderPaymentAttempt) (member : o ∈ db.orders)
      (pending : o.status = .pending) (named : trimSpace o.tradeNo = o.tradeNo ∧ o.tradeNo ≠ "")
      (recorded : a ∈ db.attempts) (own : a.orderID = o.id) (f : OrderRecord → OrderRecord)
      (rows : db'.orders.rows = db.orders.rows.map f) (standing : ∀ r, SameStanding r (f r))
      (selects : ∀ r ∈ db.orders, SelectedIn o.id a.paymentID a.handlingAmount r (f r))
      (frame : db' = { db with orders := db'.orders }) : CheckoutWrite db db'

abbrev CheckoutWrites : Db → Db → Prop := Relation.ReflTransGen CheckoutWrite

theorem CheckoutWrite.only (h : CheckoutWrite db db') : CheckoutOnly db db' := by
  cases h with
  | attempts g rows same frame => exact .attempts_only (by rw [frame])
  | orders f rows same frame => exact ⟨⟨f, rows, fun r => (same r).standing⟩, by rw [frame]⟩
  | charged o paymentID member pending chosen rows frame => exact .attempts_only frame
  | claimed o paymentID fee member pending named source charged recorded f rows standing selects
      frame => exact ⟨⟨f, rows, standing⟩, frame⟩
  | selected o a member pending named recorded own f rows standing selects frame =>
    exact ⟨⟨f, rows, standing⟩, by rw [frame]⟩

theorem CheckoutWrites.only (h : CheckoutWrites db db') : CheckoutOnly db db' := by
  induction h with
  | refl => exact .refl db
  | tail _ last ih => exact ih.trans last.only

theorem upsertAttempt_cases {row : OrderPaymentAttempt} {p : OrderPaymentAttempt → Bool}
    {f : OrderPaymentAttempt → OrderPaymentAttempt}
    {hf : Preserves OrderPaymentAttempt.id OrderPaymentAttempt.method f} {written : Bool}
    (returned : upsertAttempt db row p f hf = .ok (db', written)) :
    db' = { db with attempts := db'.attempts, attemptSeq := db'.attemptSeq } ∧
    ((db.attempts.findUniq? row.method = none ∧ written = true ∧
        db'.attempts.rows = db.attempts.rows ++ [{ row with id := db.attemptSeq + 1 }]) ∨
      ∃ stored, db.attempts.findUniq? row.method = some stored ∧ written = p stored ∧
        db'.attempts.rows = db.attempts.rows.map fun a =>
          if a.method = row.method ∧ p a = true then f a else a) := by
  unfold upsertAttempt at returned
  split at returned
  next missing =>
    simp only [bind_eq_ok, require_eq_ok, pure_eq_ok, Prod.mk.injEq] at returned
    obtain ⟨attempts, inserted, rfl, rfl⟩ := returned
    exact ⟨rfl, Or.inl ⟨missing, rfl, ((Table.insert?_eq_some ..).mp inserted).1⟩⟩
  next stored found =>
    obtain ⟨rfl, rfl⟩ := Prod.mk.inj (Except.ok.inj returned)
    refine ⟨rfl, Or.inr ⟨stored, found, rfl, ?_⟩⟩
    simp [Table.rows_updateWhere]

/-- The row of an upsert that records the charge of a pending order. -/
structure ChargeRow (o : OrderRecord) (row : OrderPaymentAttempt)
    (f : OrderPaymentAttempt → OrderPaymentAttempt) : Prop where
  order : row.orderID = o.id
  amount : row.amount = o.totalAmount + row.handlingAmount
  waiting : row.status = .pending ∧ row.callbackNo = none
  kept : ∀ a, (f a).status = a.status ∧ (f a).callbackNo = a.callbackNo
  charged : ∀ a, (f a).handlingAmount = row.handlingAmount ∧ (f a).amount = row.amount

private theorem upsertAttempt_charged {o : OrderRecord} {row : OrderPaymentAttempt}
    {p : OrderPaymentAttempt → Bool} {f : OrderPaymentAttempt → OrderPaymentAttempt}
    {hf : Preserves OrderPaymentAttempt.id OrderPaymentAttempt.method f} {written : Bool}
    (returned : upsertAttempt db row p f hf = .ok (db', written)) (charges : ChargeRow o row f) :
    Charged db ⟨o.id, row.paymentID, row.handlingAmount, o.totalAmount + row.handlingAmount⟩ db' ∧
      db' = { db with attempts := db'.attempts, attemptSeq := db'.attemptSeq } ∧
      (written = true → ∃ a ∈ db'.attempts, a.charge = row.charge) := by
  have whole : row.charge =
      ⟨o.id, row.paymentID, row.handlingAmount, o.totalAmount + row.handlingAmount⟩ := by
    simp [OrderPaymentAttempt.charge, charges.order, charges.amount]
  have method : row.method = (o.id, row.paymentID) := by
    simp [OrderPaymentAttempt.method, charges.order]
  have written_over : ∀ a, a.method = row.method → (f a).charge = row.charge := by
    intro a same
    have kept := (hf a).2.trans same
    simp only [OrderPaymentAttempt.method, Prod.mk.injEq] at kept
    simp [OrderPaymentAttempt.charge, kept, charges.charged a]
  obtain ⟨frame, ⟨missing, -, rows⟩ | ⟨stored, found, written', rows⟩⟩ :=
    upsertAttempt_cases returned
  · rw [method] at missing
    refine ⟨.inserted _ ((Table.findUniq?_eq_none ..).mp missing) rows whole charges.waiting,
      frame, fun _ => ⟨{ row with id := db.attemptSeq + 1 }, ?_, rfl⟩⟩
    rw [Table.mem_def, rows]
    exact List.mem_append_right _ (List.mem_singleton_self _)
  · refine ⟨.updated _ rows ?_ ?_, frame, ?_⟩
    · intro a
      split
      · exact charges.kept a
      · exact ⟨rfl, rfl⟩
    · intro a
      split
      next hit => exact Or.inr ⟨hit.1.trans method, (written_over a hit.1).trans whole⟩
      next => exact Or.inl rfl
    · intro wrote
      obtain ⟨member, same⟩ := (Table.findUniq?_eq_some ..).mp found
      refine ⟨f stored, ?_, written_over stored same⟩
      rw [Table.mem_of_rows_map rows]
      exact ⟨stored, member, if_pos ⟨same, written' ▸ wrote⟩⟩

private theorem archiveCurrentPaymentAttempt_writes (member : order ∈ db.orders)
    (pending : order.status = .pending) (returned : archiveCurrentPaymentAttempt order db = .ok db')
    :
    CheckoutWrites db db' ∧ db'.orders = db.orders := by
  unfold archiveCurrentPaymentAttempt at returned
  split at returned
  next =>
    obtain rfl := Except.ok.inj returned
    exact ⟨.refl, rfl⟩
  next paymentID chosen =>
    split at returned
    next =>
      obtain rfl := Except.ok.inj returned
      exact ⟨.refl, rfl⟩
    next =>
      simp only [bind_eq_ok, ensure_eq_ok, exists_const, pure_eq_ok] at returned
      obtain ⟨-, ⟨db₁, written⟩, upserted, rfl⟩ := returned
      obtain ⟨charged, frame, -⟩ := upsertAttempt_charged (o := order) upserted
        ⟨rfl, rfl, ⟨rfl, rfl⟩, fun _ => ⟨rfl, rfl⟩, fun _ => ⟨rfl, rfl⟩⟩
      exact ⟨.single (.charged _ order paymentID member pending chosen charged frame),
        by rw [frame]⟩

theorem getD_handlingAmount (fee : Int) : (if fee = 0 then none else some fee).getD 0 = fee := by
  split
  next none => exact none.symm
  next => rfl

private theorem claimCheckout_writes {known : KnownAttempt} (member : order ∈ db.orders)
    (pending : order.status = .pending) (priced : 0 < order.totalAmount)
    (named : order.tradeNo = trimSpace req.tradeNo) (nonempty : trimSpace req.tradeNo ≠ "")
    (source : ∀ fee, 0 < req.methodID →
      validAttemptAmount order.totalAmount fee (order.totalAmount + fee) →
      (∀ handlingAmount, known.handlingAmount = some handlingAmount → handlingAmount = fee) →
      FeeSource db order req.methodID fee)
    (returned : claimCheckout rt cfg now userID req claim order known db = .ok (db', outcome)) :
    CheckoutWrites db db' ∧ ∃ call, outcome = .creating call ∧ call.tradeNo = order.tradeNo ∧
      ∃ a ∈ db'.attempts, a.orderID = order.id ∧ a.paymentID = call.paymentID ∧
        a.amount = call.total := by
  simp only [claimCheckout, claimPaymentAttempt, bind_eq_ok, ensure_eq_ok, exists_const,
    require_eq_ok, pure_eq_ok, Prod.mk.injEq] at returned
  obtain ⟨method, found, -, fee, attemptFee, bounds, -, -, db₁,
    ⟨⟨db₂, written⟩, upserted, wrote, rfl⟩, rfl, rfl⟩ := returned
  have key : method.id = req.methodID := ((Table.find?_eq_some ..).mp found).2
  have positive : 0 < req.methodID := key ▸ method.positive
  obtain ⟨charged, frame, recorded⟩ := upsertAttempt_charged (o := order) upserted
    ⟨rfl, rfl, ⟨rfl, rfl⟩, fun _ => ⟨rfl, rfl⟩, fun _ => ⟨rfl, rfl⟩⟩
  obtain ⟨a, stored, whole⟩ := recorded wrote
  have charge := whole
  simp only [OrderPaymentAttempt.charge, Charge.mk.injEq, newAttempt] at charge
  obtain ⟨own, payment, -, amount⟩ := charge
  have feeSource : FeeSource db order method.id fee := by
    rw [key]
    refine source fee positive ⟨priced, bounds.1, bounds.2, rfl⟩ ?_
    intro handlingAmount fixed
    simp only [attemptHandlingAmount, fixed] at attemptFee
    exact Except.ok.inj attemptFee
  have trimmed : trimSpace order.tradeNo = order.tradeNo ∧ order.tradeNo ≠ "" := by
    rw [named, trimSpace_trimSpace]
    exact ⟨rfl, nonempty⟩
  have kept : db₂.orders = db.orders := by rw [frame]
  refine ⟨.single (.claimed _ order method.id fee member pending trimmed feeSource
    (charged.congr rfl) ⟨a, stored, whole⟩ ?f ?rows ?standing ?selects ?frame), _, rfl,
    named.symm, a, stored, own, payment, amount⟩
  case rows =>
    rw [← kept]
    rfl
  case standing => exact fun _ => .updated ⟨rfl, rfl, rfl, rfl, rfl, rfl⟩
  case selects =>
    intro r _
    constructor
    · intro same
      simp only [same, decide_true, if_true, true_and]
      exact getD_handlingAmount fee
    · intro other
      simp [other]
  case frame =>
    rw [frame]
    rfl

private theorem selectCachedPaymentAttempt_write {attempt : OrderPaymentAttempt}
    (member : order ∈ db.orders) (pending : order.status = .pending)
    (named : trimSpace order.tradeNo = order.tradeNo ∧ order.tradeNo ≠ "")
    (recorded : attempt ∈ db.attempts) (own : attempt.orderID = order.id) :
    CheckoutWrite db (selectCachedPaymentAttempt now order.id attempt db) := by
  refine .selected _ order attempt member pending named recorded own _ rfl
    (fun _ => .updated ⟨rfl, rfl, rfl, rfl, rfl, rfl⟩) ?_ rfl
  intro r stored
  refine ⟨?_, ?_⟩
  · intro same
    obtain rfl := db.orders.eq_of_key stored member same
    simp only [pending, decide_true, Bool.and_self, if_true, true_and]
    exact getD_handlingAmount attempt.handlingAmount
  · intro other
    simp [other]

/-- What a checkout's first transaction wrote, and the charge its gateway call is for. -/
structure CheckedOut (db db' : Db) (outcome : CheckoutOutcome) : Prop where
  writes : CheckoutWrites db db'
  call : ∀ call, outcome = .creating call → ∃ o ∈ db.orders, o.tradeNo = call.tradeNo ∧
    ∃ a ∈ db'.attempts, a.orderID = o.id ∧ a.paymentID = call.paymentID ∧ a.amount = call.total

private theorem CheckedOut.of_answered {result : CheckoutResult} (writes : CheckoutWrites db db') :
    CheckedOut db db' (.answered result) :=
  ⟨writes, fun _ same => by cases same⟩

private theorem checkoutSwitched_writes (member : order ∈ db.orders)
    (pending : order.status = .pending) (priced : 0 < order.totalAmount)
    (named : order.tradeNo = trimSpace req.tradeNo) (nonempty : trimSpace req.tradeNo ≠ "")
    (returned : checkoutSwitched rt cfg now userID req claim order db = .ok (db', outcome)) :
    CheckedOut db db' outcome := by
  simp only [checkoutSwitched, bind_eq_ok, ensure_eq_ok, exists_const] at returned
  obtain ⟨-, db₁, archived, returned⟩ := returned
  obtain ⟨archived, kept⟩ := archiveCurrentPaymentAttempt_writes member pending archived
  have member₁ : order ∈ db₁.orders := kept ▸ member
  split at returned
  next missing =>
    have unused := (Table.findUniq?_eq_none ..).mp missing
    obtain ⟨claimed, call, rfl, same, a, stored, own, charge⟩ := claimCheckout_writes member₁
      pending priced named nonempty (fun _ positive valid _ => .first (Or.inr unused) positive valid)
      returned
    refine ⟨archived.trans claimed, ?_⟩
    rintro _ ⟨⟩
    exact ⟨order, member, same.symm, a, stored, own, charge⟩
  next selected found =>
    obtain ⟨recorded, method⟩ := (Table.findUniq?_eq_some ..).mp found
    simp only [bind_eq_ok, ensure_eq_ok, exists_const] at returned
    obtain ⟨-, -, -, returned⟩ := returned
    split at returned
    next =>
      simp only [bind_eq_ok, pure_eq_ok, Prod.mk.injEq] at returned
      obtain ⟨result, -, rfl, rfl⟩ := returned
      refine .of_answered (archived.tail (selectCachedPaymentAttempt_write member₁ pending
        ⟨?_, ?_⟩ recorded (congrArg Prod.fst method)))
      · rw [named, trimSpace_trimSpace]
      · rw [named]
        exact nonempty
    next =>
      obtain ⟨claimed, call, rfl, same, a, stored, own, charge⟩ := claimCheckout_writes member₁
        pending priced named nonempty
        (fun _ _ _ fixed => .recorded selected recorded method (fixed _ rfl)) returned
      refine ⟨archived.trans claimed, ?_⟩
      rintro _ ⟨⟩
      exact ⟨order, member, same.symm, a, stored, own, charge⟩

private theorem checkoutSelected_writes (member : order ∈ db.orders)
    (pending : order.status = .pending) (priced : 0 < order.totalAmount)
    (named : order.tradeNo = trimSpace req.tradeNo) (nonempty : trimSpace req.tradeNo ≠ "")
    (unswitched : order.paymentID = none ∨ order.paymentID = some req.methodID)
    (returned : checkoutSelected rt cfg now userID req claim order db = .ok (db', outcome)) :
    CheckedOut db db' outcome := by
  simp only [checkoutSelected, bind_eq_ok, ensure_eq_ok, exists_const] at returned
  obtain ⟨-, -, returned⟩ := returned
  split at returned
  next =>
    simp only [bind_eq_ok, pure_eq_ok, Prod.mk.injEq] at returned
    obtain ⟨_, -, rfl, rfl⟩ := returned
    exact .of_answered .refl
  next =>
    simp only [bind_eq_ok, ensure_eq_ok, exists_const] at returned
    obtain ⟨claimed, call, rfl, same, a, stored, own, charge⟩ := claimCheckout_writes member
      pending priced named nonempty (by
        intro fee positive valid fixed
        rcases unswitched with none | chosen
        · exact .first (Or.inl none) positive valid
        · exact .selected chosen (fixed _ (by rw [chosen]; rfl)).symm) returned.2
    refine ⟨claimed, ?_⟩
    rintro _ ⟨⟩
    exact ⟨order, member, same.symm, a, stored, own, charge⟩

theorem checkout_checkedOut
    (returned : checkout rt cfg now userID req claim db = .ok (db', outcome)) :
    CheckedOut db db' outcome := by
  simp only [checkout, bind_eq_ok, ensure_eq_ok, exists_const, require_eq_ok] at returned
  obtain ⟨nonempty, order, locked, pending, amount, returned⟩ := returned
  simp only [Db.lockOrder, Option.filter_eq_some_iff, Table.findUniq?_eq_some] at locked
  obtain ⟨⟨member, named⟩, -⟩ := locked
  split at returned
  next =>
    obtain ⟨rfl, rfl⟩ := Prod.mk.inj (Except.ok.inj returned)
    exact ⟨.refl, fun _ same => by cases same⟩
  next positive =>
    have priced : 0 < order.totalAmount := lt_of_le_of_ne amount (Ne.symm positive)
    split at returned
    next => exact checkoutSwitched_writes member pending priced named nonempty returned
    next unswitched =>
      refine checkoutSelected_writes member pending priced named nonempty ?_ returned
      cases chosen : order.paymentID with
      | none => exact Or.inl rfl
      | some selected =>
        rw [chosen] at unswitched
        exact Or.inr (by simpa using unswitched)

theorem releaseAttemptClaim_writes (call : CheckoutCall) (db : Db) :
    CheckoutWrites db (releaseAttemptClaim call db) :=
  .single (.attempts _ _ rfl (fun _ => .updated ⟨rfl, rfl, rfl⟩) rfl)

theorem releaseOrderClaim_writes (now : Int) (call : CheckoutCall) (db : Db) :
    CheckoutWrites db (releaseOrderClaim now call db) :=
  .single (.orders _ _ rfl (fun _ => .updated ⟨⟨rfl, rfl, rfl, rfl, rfl, rfl⟩, rfl, rfl⟩) rfl)

private theorem persistAttemptResult_write (call : CheckoutCall) (orderID : Int)
    (encoded : CheckoutSnapshot) (db : Db) :
    CheckoutWrite db (persistAttemptResult call orderID encoded db) :=
  .attempts _ _ rfl (fun _ => .updated ⟨rfl, rfl, rfl⟩) rfl

private theorem persistOrderResult_writes {call : CheckoutCall} {current : OrderRecord}
    {encoded : CheckoutSnapshot} (member : current ∈ db.orders)
    (upToDate : ¬callOutdated call current)
    (returned : persistOrderResult now call current encoded db = .ok db') :
    CheckoutWrites db db' := by
  have stored : ∀ db₁ : Db, CheckoutWrite db₁ (db₁.updateOrder current.id (fun r => { r with
      checkoutResult := some encoded
      checkoutClaim := none
      checkoutClaimExpiresAt := none
      updatedAt := now }) fun _ => ⟨rfl, rfl⟩) :=
    fun _ => .orders _ _ rfl (fun _ => .updated ⟨⟨rfl, rfl, rfl, rfl, rfl, rfl⟩, rfl, rfl⟩) rfl
  simp only [callOutdated, not_or, not_not] at upToDate
  obtain ⟨pending, chosen, total, fee, -⟩ := upToDate
  unfold persistOrderResult at returned
  split at returned
  next =>
    simp only [pure_bind, pure_eq_ok] at returned
    exact returned ▸ .tail (.single (persistAttemptResult_write call current.id encoded db))
      (stored _)
  next =>
    simp only [createLegacyAttempt, bind_eq_ok, pure_eq_ok] at returned
    obtain ⟨_, ⟨⟨db₁, written⟩, upserted, rfl⟩, rfl⟩ := returned
    have sum : call.total = current.totalAmount + call.handlingAmount := by omega
    obtain ⟨charged, frame, -⟩ := upsertAttempt_charged (o := current) upserted
      ⟨rfl, sum, ⟨rfl, rfl⟩, fun _ => ⟨rfl, rfl⟩, fun _ => ⟨rfl, rfl⟩⟩
    have charged : Charged db ⟨current.id, call.paymentID, call.handlingAmount,
        current.totalAmount + call.handlingAmount⟩ db₁ := charged
    rw [← fee] at charged
    exact .tail (.single (.charged _ current call.paymentID member pending chosen charged frame))
      (stored _)

theorem persistCheckoutResult_writes (now : Int) (call : CheckoutCall)
    (encoded : CheckoutSnapshot) (result : CheckoutResult) (db : Db) :
    CheckoutWrites db (persistCheckoutResult now call encoded result db).1 := by
  have persisted : ∀ id, CheckoutWrites db (persistAttemptResult call id encoded db) :=
    fun id => .single (persistAttemptResult_write call id encoded db)
  unfold persistCheckoutResult
  split
  next => exact .refl
  next current locked =>
    simp only [Db.lockOrder, Option.filter_eq_some_iff, Table.findUniq?_eq_some] at locked
    obtain ⟨⟨member, -⟩, -⟩ := locked
    dsimp only
    split
    next =>
      split
      next =>
        exact (persisted _).tail (.orders _ _ rfl
          (fun _ => .updated ⟨⟨rfl, rfl, rfl, rfl, rfl, rfl⟩, rfl, rfl⟩) rfl)
      next => exact persisted _
    next =>
      split
      next => exact .refl
      next =>
        split
        next => exact persisted _
        next upToDate =>
          split
          next => exact persisted _
          next =>
            split
            next db' stored => exact persistOrderResult_writes member upToDate stored
            next => exact .refl

end ForestPanel
