import ForestPanel.Order.Open

/-!
# Settling a payment confirmation

`MarkOrderPaid` and the checks it makes: of a confirmation against the order's
selected method, of a confirmation against a recorded payment attempt, and of
its callback number against every other order.
-/
namespace ForestPanel

open Relational Outcome

structure OrderPaymentConfirmation where
  callbackNo : String
  allowCancelled : Bool
  manual : Bool
  paymentID : Option Int
  amount : Option Int
deriving Repr, DecidableEq

private def mismatch (detail : String) : ServiceError := .paymentConfirmationMismatch detail

/-! ## Checks -/

def validateOrderPaymentConfirmation (order : OrderRecord) (c : OrderPaymentConfirmation) :
    Except ServiceError Unit :=
  let handlingAmount := order.handlingAmount.getD 0
  if ¬validOrderAmountState order then .error (mismatch "stored order amount state is invalid")
  else if c.manual then
    ensure (c.paymentID = none ∧ c.amount = none)
      (mismatch "manual confirmation contains gateway evidence")
  else
    match c.paymentID with
    | none =>
      -- without a provider only a free order may be opened
      ensure (c.amount = none ∧ order.totalAmount = 0 ∧ handlingAmount = 0)
        (mismatch "positive order is missing gateway evidence")
    | some paymentID => do
      let amount ← require c.amount
        (mismatch "gateway confirmation amount or payment ID is invalid")
      ensure (0 < paymentID ∧ 0 < amount ∧ 0 < order.totalAmount)
        (mismatch "gateway confirmation amount or payment ID is invalid")
      let selected ← require order.paymentID (mismatch "order has no selected payment method")
      ensure (selected = paymentID)
        (mismatch ("payment method differs (order=" ++ toString selected ++ " callback=" ++
          toString paymentID ++ ")"))
      ensure (order.totalAmount + handlingAmount = amount)
        (mismatch ("amount differs (order=" ++ toString (order.totalAmount + handlingAmount) ++
          " callback=" ++ toString amount ++ ")"))

def orderWithPaymentAttempt (order : OrderRecord) (attempt : OrderPaymentAttempt) : OrderRecord :=
  { order with
    paymentID := some attempt.paymentID
    handlingAmount := if attempt.handlingAmount = 0 then none else some attempt.handlingAmount }

def validateOrderPaymentAttemptConfirmation (order : OrderRecord) (attempt : OrderPaymentAttempt)
    (c : OrderPaymentConfirmation) : Except ServiceError Unit := do
  ensure (attempt.orderID = order.id ∧ c.paymentID = some attempt.paymentID ∧
      c.amount = some attempt.amount ∧ 0 ≤ attempt.handlingAmount)
    (mismatch "payment attempt differs from callback")
  validateOrderPaymentConfirmation (orderWithPaymentAttempt order attempt) c

/-- Whether an order, or an attempt of an order, with another trade number
stores this callback number for this payment method. -/
def callbackConflict (db : Db) (tradeNo callbackNo : String) (paymentID : Int) : Bool :=
  (db.orders.rows.any fun o =>
    o.paymentID = some paymentID && o.callbackNo = some callbackNo && o.tradeNo ≠ tradeNo) ||
  (db.attempts.rows.any fun a =>
    a.paymentID = paymentID && a.callbackNo = some callbackNo &&
      db.orders.rows.any fun o => o.id = a.orderID && o.tradeNo ≠ tradeNo)

/-- Internal confirmations carry no payment method and are not checked: their
callback number derives from the order's own trade number. -/
def lockPaymentCallback (db : Db) (tradeNo callbackNo : String) (paymentID : Option Int) :
    Except ServiceError Unit :=
  match paymentID with
  | none => .ok ()
  | some p => ensure (callbackConflict db tradeNo callbackNo p = false) .paymentCallbackConflict

/-! ## Attempt updates -/

/-- `UPDATE … WHERE id = $1 AND status = 0`, which must affect one row. -/
def markOrderPaymentAttempt (db : Db) (attemptID : Int) (callbackNo : String)
    (status : AttemptStatus) (now : Int) : Except ServiceError Db := do
  ensure (db.attempts.rows.any fun a => a.id = attemptID && a.status = .pending)
    (mismatch "payment attempt changed concurrently")
  pure { db with
    attempts := db.attempts.updateWhere (fun a => a.id = attemptID && a.status = .pending)
      (fun a => { a with callbackNo := some callbackNo, status, paidAt := some now })
      fun _ => ⟨rfl, rfl⟩ }

/-- `callback_no IS NULL OR BTRIM(callback_no) = '' OR callback_no = $4`. -/
def legacyCallbackColumn (callbackNo : Option String) (tradeNo : String) : Bool :=
  match callbackNo with
  | none => true
  | some text => text.toList.all (fun ch => ch = ' ') || text = tradeNo

def repairWinningPaymentAttemptCallback (db : Db) (attemptID : Int) (tradeNo callbackNo : String) :
    Except ServiceError Db := do
  ensure (db.attempts.rows.any fun a =>
      a.id = attemptID && a.status = .winner && legacyCallbackColumn a.callbackNo tradeNo)
    (mismatch "winning payment attempt callback changed concurrently")
  pure { db with
    attempts := db.attempts.updateWhere
      (fun a => a.id = attemptID && a.status = .winner && legacyCallbackColumn a.callbackNo tradeNo)
      (fun a => { a with callbackNo := some callbackNo }) fun _ => ⟨rfl, rfl⟩ }

/-! ## Confirmations of an order that is already completed -/

/-- A payment by a method other than the selected one: recorded for manual
refund. -/
def recordDuplicateAttempt (now : Int) (callbackNo : String) (attempt : OrderPaymentAttempt)
    (db : Db) : Except ServiceError Db :=
  match attempt.status with
  | .pending => markOrderPaymentAttempt db attempt.id callbackNo .duplicate now
  | .duplicate => do
    ensure (attempt.callbackNo.isSome ∧ trimSpace (attempt.callbackNo.getD "") = callbackNo)
      (mismatch "duplicate payment attempt callback differs")
    pure db
  | .winner => .error (mismatch "completed order references an inconsistent payment attempt")

/-- The stored callback number is repeated: at most the attempt is repaired. -/
def replayConfirmation (now : Int) (callbackNo : String) (attempt : Option OrderPaymentAttempt)
    (db : Db) : Except ServiceError Db :=
  match attempt with
  | none => .ok db
  | some a =>
    match a.status with
    | .pending => markOrderPaymentAttempt db a.id callbackNo .winner now
    | .winner => do
      ensure (a.callbackNo.isSome ∧ trimSpace (a.callbackNo.getD "") = callbackNo)
        (mismatch "winning payment attempt callback differs")
      pure db
    | .duplicate => .error (mismatch "winning payment attempt has invalid status")

/-- Older runtimes stored the trade number, or nothing, as callback number. -/
def legacyCallback (order : OrderRecord) : Bool :=
  order.callbackNo.isNone || blank order.callbackNo ||
    trimSpace (order.callbackNo.getD "") = order.tradeNo

def repairLegacyAttempt (now : Int) (order : OrderRecord) (callbackNo : String)
    (attempt : Option OrderPaymentAttempt) (db : Db) : Except ServiceError Db :=
  match attempt with
  | none => .ok db
  | some a =>
    match a.status with
    | .pending => markOrderPaymentAttempt db a.id callbackNo .winner now
    | .winner =>
      if a.callbackNo.isNone || blank a.callbackNo ||
          trimSpace (a.callbackNo.getD "") = order.tradeNo then
        repairWinningPaymentAttemptCallback db a.id order.tradeNo callbackNo
      else do
        ensure (trimSpace (a.callbackNo.getD "") = callbackNo)
          (mismatch "winning payment attempt callback differs")
        pure db
    | .duplicate => .error (mismatch "winning payment attempt has invalid status")

def repairLegacyCallback (now : Int) (order : OrderRecord) (callbackNo : String)
    (attempt : Option OrderPaymentAttempt) (db : Db) : Except ServiceError Db := do
  let db ← repairLegacyAttempt now order callbackNo attempt db
  pure (db.updateOrderPaymentState { order with callbackNo := some callbackNo, updatedAt := now })

/-- `case 1, 3, 4`: nothing here opens the order or moves money. -/
def confirmCompletedOrder (now : Int) (order : OrderRecord) (c : OrderPaymentConfirmation)
    (attempt : Option OrderPaymentAttempt) (tradeNo callbackNo : String) (db : Db) :
    Except ServiceError Db :=
  match validateOrderPaymentConfirmation order c with
  | .error currentConfirmationErr => do
    let a ← require attempt currentConfirmationErr
    lockPaymentCallback db tradeNo callbackNo c.paymentID
    recordDuplicateAttempt now callbackNo a db
  | .ok () => do
    lockPaymentCallback db tradeNo callbackNo c.paymentID
    if order.callbackNo.isSome ∧ trimSpace (order.callbackNo.getD "") = callbackNo then
      replayConfirmation now callbackNo attempt db
    else if c.paymentID.isSome ∧ legacyCallback order then
      repairLegacyCallback now order callbackNo attempt db
    else
      .error (mismatch "completed order callback differs")

/-! ## Confirmations that open the order -/

/-- The order the confirmation is for: as selected, or rebound to the pending
attempt it matches. -/
def confirmedOrder (order : OrderRecord) (c : OrderPaymentConfirmation)
    (attempt : Option OrderPaymentAttempt) : Except ServiceError OrderRecord :=
  match validateOrderPaymentConfirmation order c with
  | .ok () => .ok order
  | .error currentConfirmationErr => do
    let a ← require attempt currentConfirmationErr
    ensure (a.status = .pending) currentConfirmationErr
    let rebound := orderWithPaymentAttempt order a
    validateOrderPaymentConfirmation rebound c
    pure rebound

/-- The balance part, returned when the order was cancelled, is taken again. -/
def takeBalancePart (order : OrderRecord) (db : Db) : Except ServiceError Db := do
  let db ←
    if 0 < order.balanceAmount.getD 0 then
      db.addToBalance order.userID (-order.balanceAmount.getD 0)
    else pure db
  pure (db.record order.userID order.id .balancePart (-balancePart order) 0)

/-- `case 2` after the confirmation is accepted. -/
def recoverCancelledOrder (now : Int) (c : OrderPaymentConfirmation) (tradeNo : String)
    (order : OrderRecord) (db : Db) : Except ServiceError Db := do
  ensure (c.allowCancelled = true ∨ db.canRecoverCancelledOrder tradeNo now = true)
    .recoveryExpired
  takeBalancePart order db

def markWinningAttempt (now : Int) (callbackNo : String) (attempt : Option OrderPaymentAttempt)
    (db : Db) : Except ServiceError Db :=
  match attempt with
  | none => .ok db
  | some a => do
    ensure (a.status = .pending) (mismatch "payment attempt is not pending")
    markOrderPaymentAttempt db a.id callbackNo .winner now

def paidOrder (now : Int) (callbackNo : String) (confirmed : OrderRecord) : OrderRecord :=
  { confirmed with callbackNo := some callbackNo, paidAt := some now }

/-- What follows the `switch`: the attempt wins, the order is rebound if needed
and opened. -/
def settleOrder (rt : Runtime) (cfg : Config) (now : Int) (c : OrderPaymentConfirmation)
    (attempt : Option OrderPaymentAttempt) (tradeNo callbackNo : String) (rebound : Bool)
    (order : OrderRecord) (db : Db) : Except ServiceError Db := do
  let db ← markWinningAttempt now callbackNo attempt db
  ensure (c.paymentID = none ∨ (order.paymentID = c.paymentID ∧
      order.handlingAmount.getD 0 = c.amount.getD 0 - order.totalAmount))
    (mismatch "rebound payment state is inconsistent")
  let db := if attempt.isSome && rebound then db.updateOrderPayment order now else db
  let db ← openOrder rt cfg now (paidOrder now callbackNo order) db
  pure (db.deleteCancelRecovery tradeNo)

/-- Whether the confirmation fails against the selected method. -/
def currentConfirmationFails (order : OrderRecord) (c : OrderPaymentConfirmation) : Bool :=
  match validateOrderPaymentConfirmation order c with
  | .ok () => false
  | .error _ => true

def confirmationAttempt (db : Db) (order : OrderRecord) (c : OrderPaymentConfirmation) :
    Option OrderPaymentAttempt :=
  c.paymentID.bind fun p => db.lockOrderPaymentAttempt order.id p

def checkAttempt (order : OrderRecord) (c : OrderPaymentConfirmation)
    (attempt : Option OrderPaymentAttempt) : Except ServiceError Unit :=
  match attempt with
  | none => .ok ()
  | some a => validateOrderPaymentAttemptConfirmation order a c

def markOrderPaid (rt : Runtime) (cfg : Config) (now : Int) (tradeNo : String)
    (c : OrderPaymentConfirmation) (db : Db) : Except ServiceError Db := do
  let tradeNo := trimSpace tradeNo
  let callbackNo := trimSpace c.callbackNo
  ensure (tradeNo ≠ "" ∧ callbackNo ≠ "") .invalidParameter
  let order ← require (db.lockOrderByTradeNo tradeNo) .orderNotFound
  let attempt := confirmationAttempt db order c
  checkAttempt order c attempt
  match order.status with
  | .processing | .completed | .closed =>
    confirmCompletedOrder now order c attempt tradeNo callbackNo db
  | .cancelled => do
    let confirmed ← confirmedOrder order c attempt
    lockPaymentCallback db tradeNo callbackNo c.paymentID
    let db ← recoverCancelledOrder now c tradeNo confirmed db
    settleOrder rt cfg now c attempt tradeNo callbackNo (currentConfirmationFails order c)
      confirmed db
  | .pending => do
    let confirmed ← confirmedOrder order c attempt
    lockPaymentCallback db tradeNo callbackNo c.paymentID
    settleOrder rt cfg now c attempt tradeNo callbackNo (currentConfirmationFails order c)
      confirmed db

def manualConfirmation (tradeNo : String) : OrderPaymentConfirmation where
  callbackNo := "manual_operation:" ++ tradeNo
  allowCancelled := true
  manual := true
  paymentID := none
  amount := none

/-- The confirmation `Checkout` sends for an order without anything to pay. -/
def freeConfirmation (tradeNo : String) : OrderPaymentConfirmation where
  callbackNo := tradeNo
  allowCancelled := false
  manual := false
  paymentID := none
  amount := none

/-! ## What a confirmation writes -/

variable {db db' : Db} {callbackNo tradeNo : String} {now : Int}
  {attempt : Option OrderPaymentAttempt} {order confirmed : OrderRecord}
  {c : OrderPaymentConfirmation}

theorem markOrderPaymentAttempt_eq_ok {id : Int} {status : AttemptStatus} :
    markOrderPaymentAttempt db id callbackNo status now = .ok db' ↔
      (∃ a ∈ db.attempts, a.id = id ∧ a.status = .pending) ∧
      { db with
        attempts := db.attempts.updateWhere (fun a => a.id = id && a.status = .pending)
          (fun a => { a with callbackNo := some callbackNo, status, paidAt := some now })
          fun _ => ⟨rfl, rfl⟩ } = db' := by
  simp only [markOrderPaymentAttempt, bind_eq_ok, ensure_eq_ok, exists_const, pure_eq_ok,
    List.any_eq_true, Bool.and_eq_true, decide_eq_true_eq, Table.mem_def]

def wonRow (now : Int) (callbackNo : String) (attempt : Option OrderPaymentAttempt)
    (a : OrderPaymentAttempt) : OrderPaymentAttempt :=
  if attempt.any (fun won => won.id = a.id) = true ∧ a.status = .pending then
    { a with callbackNo := some callbackNo, status := .winner, paidAt := some now }
  else a

private theorem markWinningAttempt_eq_ok
    (returned : markWinningAttempt now callbackNo attempt db = .ok db') :
    (∀ a, attempt = some a → a.status = .pending) ∧
      db'.attempts.rows = db.attempts.rows.map (wonRow now callbackNo attempt) ∧
      db' = { db with attempts := db'.attempts } := by
  unfold markWinningAttempt at returned
  split at returned
  next =>
    cases returned
    refine ⟨fun a found => (by cases found), ?_, rfl⟩
    have same : wonRow now callbackNo none = id := by
      funext a
      simp [wonRow]
    rw [same, List.map_id]
  next a =>
    simp only [bind_eq_ok, ensure_eq_ok, exists_const, markOrderPaymentAttempt_eq_ok] at returned
    obtain ⟨pending, -, rfl⟩ := returned
    refine ⟨fun b found => Option.some.inj found ▸ pending, ?_, rfl⟩
    simp only [Table.rows_updateWhere]
    apply List.map_congr_left
    intro b _
    by_cases same : b.id = a.id <;> simp [wonRow, same, eq_comm]

theorem confirmedOrder_cases (returned : confirmedOrder order c attempt = .ok confirmed) :
    validateOrderPaymentConfirmation confirmed c = .ok () ∧
      (confirmed = order ∧ currentConfirmationFails order c = false ∨
        ∃ a, attempt = some a ∧ a.status = .pending ∧ confirmed = orderWithPaymentAttempt order a ∧
          currentConfirmationFails order c = true) := by
  unfold confirmedOrder at returned
  unfold currentConfirmationFails
  split at returned
  next valid =>
    cases returned
    exact ⟨valid, Or.inl ⟨rfl, rfl⟩⟩
  next e invalid =>
    simp only [bind_eq_ok, require_eq_ok, ensure_eq_ok, exists_const, pure_eq_ok] at returned
    obtain ⟨a, found, pending, _, valid, rfl⟩ := returned
    exact ⟨valid, Or.inr ⟨a, found, pending, rfl, rfl⟩⟩

theorem confirmedOrder_terms (returned : confirmedOrder order c attempt = .ok confirmed) :
    confirmed.terms = order.terms ∧ confirmed.status = order.status := by
  obtain ⟨-, ⟨rfl, -⟩ | ⟨a, -, -, rfl, -⟩⟩ := confirmedOrder_cases returned <;> exact ⟨rfl, rfl⟩

def settledRow (now : Int) (callbackNo : String) (confirmed r : OrderRecord) : OrderRecord :=
  openedRow now (paidOrder now callbackNo confirmed)
    (if r.id = confirmed.id then
      { r with paymentID := confirmed.paymentID, handlingAmount := confirmed.handlingAmount }
    else r)

theorem settledRow_terms (now : Int) (callbackNo : String) (confirmed r : OrderRecord) :
    (settledRow now callbackNo confirmed r).terms = r.terms := by
  unfold settledRow
  rw [openedRow_terms]
  split <;> rfl

theorem settledRow_status (now : Int) (callbackNo : String) (confirmed r : OrderRecord) :
    (settledRow now callbackNo confirmed r).status =
      if r.id = confirmed.id then .completed
      else if confirmed.type ≠ .deposit ∧ r.id ∈ surplusIDs confirmed then .closed
      else r.status := by
  unfold settledRow
  rw [openedRow_status]
  by_cases same : r.id = confirmed.id
  · simp [same, paidOrder]
  · rw [if_neg same]
    rfl

/-- The entries of the ledger: a recovered order's balance part is taken again. -/
def settledMoves (order : OrderRecord) : List Movement :=
  (if order.status = .cancelled then
    [⟨order.userID, order.id, .balancePart, -balancePart order, 0⟩] else []) ++
    [⟨order.userID, order.id, .completion, completionCredit order, 0⟩]

structure Settled (now : Int) (c : OrderPaymentConfirmation) (tradeNo callbackNo : String)
    (order confirmed : OrderRecord) (db db' : Db) : Prop where
  unopened : order.status = .pending ∨ order.status = .cancelled
  answered : tradeNo ≠ "" ∧ callbackNo ≠ ""
  confirmation : confirmedOrder order c (confirmationAttempt db order c) = .ok confirmed
  attempt : checkAttempt order c (confirmationAttempt db order c) = .ok ()
  unclaimed : lockPaymentCallback db tradeNo callbackNo c.paymentID = .ok ()
  recoverable : order.status = .cancelled →
    c.allowCancelled = true ∨ db.canRecoverCancelledOrder tradeNo now = true
  waiting : ∀ a, confirmationAttempt db order c = some a → a.status = .pending
  rebound : c.paymentID = none ∨ confirmed.paymentID = c.paymentID ∧
    confirmed.handlingAmount.getD 0 = c.amount.getD 0 - confirmed.totalAmount
  orders : db'.orders.rows = db.orders.rows.map (settledRow now callbackNo confirmed)
  attempts : db'.attempts.rows =
    db.attempts.rows.map (wonRow now callbackNo (confirmationAttempt db order c))
  kv : db'.kv = (db.deleteCancelRecovery tradeNo).kv
  moves : Moves db db' (settledMoves order)
  solvent : Solvent db → Solvent db'
  campaigns : db'.campaigns = spentCampaigns order db
  frame : db' = { db with
    users := db'.users
    orders := db'.orders
    attempts := db'.attempts
    campaigns := db'.campaigns
    kv := db'.kv
    ledger := db'.ledger }

/-- The confirmation `c` came for an order that is paid already. -/
inductive Acknowledged (now : Int) (c : OrderPaymentConfirmation) (tradeNo callbackNo : String)
    (order : OrderRecord) (db : Db) : Db → Prop
  | unchanged : Acknowledged now c tradeNo callbackNo order db db
  | marked (a : OrderPaymentAttempt) (status : AttemptStatus) (db' : Db)
      (found : confirmationAttempt db order c = some a) (waiting : a.status = .pending)
      (settled : status ≠ .pending)
      (unclaimed : lockPaymentCallback db tradeNo callbackNo c.paymentID = .ok ())
      (written : markOrderPaymentAttempt db a.id callbackNo status now = .ok db') :
      Acknowledged now c tradeNo callbackNo order db db'
  | repaired (db₁ : Db) (gateway : c.paymentID.isSome)
      (current : validateOrderPaymentConfirmation order c = .ok ())
      (legacy : legacyCallback order = true)
      (unclaimed : lockPaymentCallback db tradeNo callbackNo c.paymentID = .ok ())
      (written : repairLegacyAttempt now order callbackNo (confirmationAttempt db order c) db =
        .ok db₁) :
      Acknowledged now c tradeNo callbackNo order db
        (db₁.updateOrderPaymentState { order with
          callbackNo := some callbackNo
          updatedAt := now })

theorem markOrderPaymentAttempt_frame {id : Int} {status : AttemptStatus}
    (returned : markOrderPaymentAttempt db id callbackNo status now = .ok db') :
    db' = { db with attempts := db'.attempts } := by
  obtain ⟨-, rfl⟩ := markOrderPaymentAttempt_eq_ok.mp returned
  rfl

theorem repairLegacyAttempt_frame
    (returned : repairLegacyAttempt now order callbackNo attempt db = .ok db') :
    db' = { db with attempts := db'.attempts } := by
  unfold repairLegacyAttempt at returned
  split at returned
  next => exact Except.ok.inj returned ▸ rfl
  next =>
    split at returned
    next => exact markOrderPaymentAttempt_frame returned
    next =>
      split at returned
      next =>
        simp only [repairWinningPaymentAttemptCallback, bind_eq_ok, ensure_eq_ok, exists_const,
          pure_eq_ok] at returned
        obtain ⟨-, rfl⟩ := returned
        rfl
      next =>
        simp only [bind_eq_ok, ensure_eq_ok, exists_const, pure_eq_ok] at returned
        exact returned.2 ▸ rfl
    next => cases returned

/-- What an acknowledgement makes of a stored order row, if it changes one. -/
def repairedRow (now : Int) (callbackNo : String) (order r : OrderRecord) : OrderRecord :=
  if r.id = order.id then
    { r with
      status := order.status
      callbackNo := some callbackNo
      paidAt := order.paidAt
      updatedAt := now }
  else r

theorem Acknowledged.writes (h : Acknowledged now c tradeNo callbackNo order db db') :
    (∃ f, (f = id ∨ f = repairedRow now callbackNo order) ∧
      db'.orders.rows = db.orders.rows.map f) ∧
    db' = { db with orders := db'.orders, attempts := db'.attempts } := by
  cases h with
  | unchanged => exact ⟨⟨id, Or.inl rfl, (List.map_id _).symm⟩, rfl⟩
  | marked a status db' found waiting settled unclaimed written =>
    rw [markOrderPaymentAttempt_frame written]
    exact ⟨⟨id, Or.inl rfl, (List.map_id _).symm⟩, rfl⟩
  | repaired db₁ gateway current legacy unclaimed written =>
    rw [repairLegacyAttempt_frame written]
    refine ⟨⟨_, Or.inr rfl, ?_⟩, rfl⟩
    simp [Db.updateOrderPaymentState, Db.updateOrder, repairedRow]

theorem Acknowledged.orders (h : Acknowledged now c tradeNo callbackNo order db db')
    (member : order ∈ db.orders) :
    ∃ f, db'.orders.rows = db.orders.rows.map f ∧ ∀ r ∈ db.orders,
      (f r).terms = r.terms ∧ (f r).status = r.status ∧ (f r).paymentID = r.paymentID ∧
        (f r).handlingAmount = r.handlingAmount ∧ (f r).commissionStatus = r.commissionStatus ∧
        (f r).commissionBalance = r.commissionBalance ∧
        (f r).actualCommissionBalance = r.actualCommissionBalance := by
  obtain ⟨⟨f, rfl | rfl, rows⟩, -⟩ := h.writes
  · exact ⟨id, rows, fun r _ => ⟨rfl, rfl, rfl, rfl, rfl, rfl, rfl⟩⟩
  · refine ⟨_, rows, fun r stored => ?_⟩
    unfold repairedRow
    split
    next same =>
      obtain rfl := db.orders.eq_of_key stored member same
      exact ⟨rfl, rfl, rfl, rfl, rfl, rfl, rfl⟩
    next => exact ⟨rfl, rfl, rfl, rfl, rfl, rfl, rfl⟩

private theorem confirmCompletedOrder_acknowledged
    (returned : confirmCompletedOrder now order c (confirmationAttempt db order c) tradeNo
      callbackNo db = .ok db') : Acknowledged now c tradeNo callbackNo order db db' := by
  unfold confirmCompletedOrder at returned
  split at returned
  next e invalid =>
    simp only [bind_eq_ok, require_eq_ok] at returned
    obtain ⟨a, found, _, unclaimed, returned⟩ := returned
    unfold recordDuplicateAttempt at returned
    split at returned
    next waiting => exact .marked a .duplicate db' found waiting (by decide) unclaimed returned
    next =>
      simp only [bind_eq_ok, ensure_eq_ok, exists_const, pure_eq_ok] at returned
      exact returned.2 ▸ .unchanged
    next => cases returned
  next current =>
    simp only [bind_eq_ok] at returned
    obtain ⟨_, unclaimed, returned⟩ := returned
    split at returned
    next =>
      unfold replayConfirmation at returned
      split at returned
      next => exact Except.ok.inj returned ▸ .unchanged
      next a found =>
        split at returned
        next waiting => exact .marked a .winner db' found waiting (by decide) unclaimed returned
        next =>
          simp only [bind_eq_ok, ensure_eq_ok, exists_const, pure_eq_ok] at returned
          exact returned.2 ▸ .unchanged
        next => cases returned
    next =>
      split at returned
      next gateway =>
        simp only [repairLegacyCallback, bind_eq_ok, pure_eq_ok] at returned
        obtain ⟨db₁, written, rfl⟩ := returned
        exact .repaired db₁ gateway.1 current gateway.2 unclaimed written
      next => cases returned

private theorem takeBalancePart_moves (returned : takeBalancePart order db = .ok db') :
    Moves db db' [⟨order.userID, order.id, .balancePart, -balancePart order, 0⟩] ∧
      (Solvent db → Solvent db') ∧ db' = { db with users := db'.users, ledger := db'.ledger } := by
  unfold takeBalancePart at returned
  split at returned
  next positive =>
    simp only [bind_eq_ok, pure_eq_ok] at returned
    obtain ⟨db₁, taken, rfl⟩ := returned
    have part : balancePart order = order.balanceAmount.getD 0 := max_eq_left positive.le
    obtain ⟨moves, solvent, frame⟩ := moves_addToBalance taken order.id .balancePart
    rw [part]
    refine ⟨moves, fun h => solvent h, ?_⟩
    rw [frame]
    rfl
  next none =>
    have part : balancePart order = 0 := max_eq_right (not_lt.mp none)
    simp only [pure_bind, pure_eq_ok] at returned
    subst returned
    rw [part, neg_zero]
    exact ⟨moves_record_zero db _ _ _, id, rfl⟩

/-- `settleOrder` from a database in which at most the buyer's balance and the
ledger differ from the one the confirmation was checked against. -/
private theorem settleOrder_writes {rt : Runtime} {cfg : Config} (member : order ∈ db.orders)
    (confirmation : confirmedOrder order c attempt = .ok confirmed)
    (returned : settleOrder rt cfg now c attempt tradeNo callbackNo
      (currentConfirmationFails order c) confirmed db = .ok db') :
    (∀ a, attempt = some a → a.status = .pending) ∧
      (c.paymentID = none ∨ confirmed.paymentID = c.paymentID ∧
        confirmed.handlingAmount.getD 0 = c.amount.getD 0 - confirmed.totalAmount) ∧
      db'.orders.rows = db.orders.rows.map (settledRow now callbackNo confirmed) ∧
      db'.attempts.rows = db.attempts.rows.map (wonRow now callbackNo attempt) ∧
      Moves db db' [⟨order.userID, order.id, .completion, completionCredit order, 0⟩] ∧
      (Solvent db → Solvent db') ∧ db'.campaigns = spentCampaigns order db ∧
      db' = { db with
        users := db'.users
        orders := db'.orders
        attempts := db'.attempts
        campaigns := db'.campaigns
        kv := (db.deleteCancelRecovery tradeNo).kv
        ledger := db'.ledger } := by
  simp only [settleOrder, bind_eq_ok, ensure_eq_ok, exists_const, pure_eq_ok] at returned
  obtain ⟨db₁, won, rebound, db₂, opened, rfl⟩ := returned
  obtain ⟨waiting, attempts, frame₁⟩ := markWinningAttempt_eq_ok won
  have opened := openOrder_opened opened
  have columns : ∀ r ∈ db.orders.rows, r.id = confirmed.id → r = order := by
    intro r stored same
    refine db.orders.eq_of_key stored member (same.trans ?_)
    exact congrArg OrderTerms.id (confirmedOrder_terms confirmation).1
  have terms := (confirmedOrder_terms confirmation).1
  have credit : completionCredit (paidOrder now callbackNo confirmed) = completionCredit order := by
    have total := congrArg OrderTerms.totalAmount terms
    have kind := congrArg OrderTerms.type terms
    have refund := congrArg OrderTerms.refundAmount terms
    simp only [OrderRecord.terms] at total kind refund
    simp only [completionCredit, paidOrder, total, kind, refund]
  have chosen : ∃ db₃,
      (if (attempt.isSome && currentConfirmationFails order c) = true then
        db₁.updateOrderPayment confirmed now else db₁) = db₃ ∧
      db₃.orders.rows.map (openedRow now (paidOrder now callbackNo confirmed)) =
        db.orders.rows.map (settledRow now callbackNo confirmed) ∧
      db₃ = { db₁ with orders := db₃.orders } := by
    refine ⟨_, rfl, ?_, ?_⟩
    · rw [frame₁]
      split
      next =>
        simp only [Db.updateOrderPayment, Db.updateOrder, Table.rows_updateWhere, List.map_map]
        apply List.map_congr_left
        intro r _
        by_cases same : r.id = confirmed.id <;> simp [settledRow, openedRow, paidOrder, same]
      next kept =>
        have unchanged : confirmed = order := by
          rcases confirmedOrder_cases confirmation with ⟨-, ⟨same, -⟩ | ⟨a, found, -, -, fails⟩⟩
          · exact same
          · exact absurd (by simp [found, fails]) kept
        apply List.map_congr_left
        intro r stored
        unfold settledRow
        split
        next same => rw [columns r stored same, unchanged]
        next => rfl
    · split <;> rfl
  obtain ⟨db₃, selected, reboundRows, frame₃⟩ := chosen
  rw [selected] at opened
  have frame₂ := opened.frame
  have moves₁ : Moves db db₁ [] := by
    rw [frame₁]
    exact .none rfl rfl
  have moves₃ : Moves db₁ db₃ [] := by
    rw [frame₃]
    exact .none rfl rfl
  have moves₂ := opened.moves
  rw [credit] at moves₂
  have id : (paidOrder now callbackNo confirmed).id = order.id := congrArg OrderTerms.id terms
  have user : (paidOrder now callbackNo confirmed).userID = order.userID :=
    congrArg OrderTerms.userID terms
  rw [id, user] at moves₂
  refine ⟨waiting, rebound, ?_, ?_, ?_, ?_, ?_, ?_⟩
  · exact opened.orders.trans reboundRows
  · rw [frame₂, frame₃]
    exact attempts
  · exact ((moves₁.trans moves₃).trans moves₂).congr rfl rfl
  · intro solvent
    have solvent₁ : Solvent db₁ := Solvent.congr (by rw [frame₁]) solvent
    have solvent₃ : Solvent db₃ := Solvent.congr (by rw [frame₃]) solvent₁
    exact opened.solvent solvent₃
  · have paid : (paidOrder now callbackNo confirmed).terms = confirmed.terms := rfl
    exact opened.campaigns.trans
      (spentCampaigns_congr (paid.trans terms) (by rw [frame₃, frame₁]))
  · rw [frame₂, frame₃, frame₁]
    rfl

theorem markOrderPaid_cases {rt : Runtime} {cfg : Config}
    (returned : markOrderPaid rt cfg now tradeNo c db = .ok db') :
    ∃ order ∈ db.orders, order.tradeNo = trimSpace tradeNo ∧
      ((order.status ≠ .pending ∧ order.status ≠ .cancelled ∧
          Acknowledged now c (trimSpace tradeNo) (trimSpace c.callbackNo) order db db') ∨
        ∃ confirmed, Settled now c (trimSpace tradeNo) (trimSpace c.callbackNo) order confirmed
          db db') := by
  simp only [markOrderPaid, bind_eq_ok, ensure_eq_ok, exists_const, require_eq_ok] at returned
  obtain ⟨answered, order, locked, _, checked, returned⟩ := returned
  obtain ⟨member, tradeNo'⟩ := (Table.findUniq?_eq_some ..).mp locked
  refine ⟨order, member, tradeNo', ?_⟩
  split at returned
  next paid =>
    exact Or.inl ⟨by simp [paid], by simp [paid], confirmCompletedOrder_acknowledged returned⟩
  next paid =>
    exact Or.inl ⟨by simp [paid], by simp [paid], confirmCompletedOrder_acknowledged returned⟩
  next paid =>
    exact Or.inl ⟨by simp [paid], by simp [paid], confirmCompletedOrder_acknowledged returned⟩
  next cancelled =>
    simp only [bind_eq_ok] at returned
    obtain ⟨confirmed, confirmation, _, unclaimed, db₁, recovered, returned⟩ := returned
    simp only [recoverCancelledOrder, bind_eq_ok, ensure_eq_ok, exists_const] at recovered
    obtain ⟨recoverable, taken⟩ := recovered
    obtain ⟨taken, solvent₁, frame₁⟩ := takeBalancePart_moves taken
    have member₁ : order ∈ db₁.orders := by
      rw [frame₁]
      exact member
    obtain ⟨waiting, rebound, orders, attempts, opened, solvent, campaigns, frame⟩ :=
      settleOrder_writes member₁ confirmation returned
    have terms := (confirmedOrder_terms confirmation).1
    have user : confirmed.userID = order.userID := congrArg OrderTerms.userID terms
    have id : confirmed.id = order.id := congrArg OrderTerms.id terms
    have part : balancePart confirmed = balancePart order := by
      have same : confirmed.balanceAmount = order.balanceAmount :=
        congrArg OrderTerms.balanceAmount terms
      rw [balancePart, balancePart, same]
    rw [user, id, part] at taken
    refine Or.inr ⟨confirmed, Or.inr cancelled, answered, confirmation, checked, unclaimed,
      fun _ => recoverable, waiting, rebound, ?_, ?_, ?_, ?_, fun h => solvent (solvent₁ h), ?_, ?_⟩
    · rw [orders, frame₁]
    · rw [attempts, frame₁]
    · rw [frame, frame₁]
      rfl
    · simpa [settledMoves, cancelled] using taken.trans opened
    · exact campaigns.trans (spentCampaigns_congr rfl (by rw [frame₁]))
    · rw [frame, frame₁]
  next pending =>
    simp only [bind_eq_ok] at returned
    obtain ⟨confirmed, confirmation, _, unclaimed, returned⟩ := returned
    obtain ⟨waiting, rebound, orders, attempts, moves, solvent, campaigns, frame⟩ :=
      settleOrder_writes member confirmation returned
    refine Or.inr ⟨confirmed, Or.inl pending, answered, confirmation, checked, unclaimed, ?_, waiting,
      rebound, orders, attempts, ?_, ?_, solvent, campaigns, ?_⟩
    · intro cancelled
      rw [pending] at cancelled
      cases cancelled
    · rw [frame]
    · simpa [settledMoves, pending] using moves
    · rw [frame]

end ForestPanel
