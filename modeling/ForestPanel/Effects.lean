import ForestPanel.Payment.Writes
import ForestPanel.System

/-!
# What a step of the system does to the database

`Effect` lists the writes a step can make, one constructor for each kind of
transaction; `step_effect` is the one inversion of `Sys.step` that every
invariant is proved from.
-/
namespace ForestPanel

open Relational Outcome Transition

inductive Effect (s : Sys) (i : Input) : Db → Prop
  | unchanged : Effect s i s.db
  | saved (row : OrderRecord) (db' : Db) (h : Saved row s.db db') {userID : Int}
      {req : OrderSaveRequest} {tradeNo : String} (op : i.op = .saveOrder userID req tradeNo)
      (campaigns : db'.campaigns =
        if req.planID = 0 then s.db.campaigns else refreshedCampaigns i.now userID s.db) :
      Effect s i db'
  | cancelled (order : OrderRecord) (db' : Db) (member : order ∈ s.db.orders)
      (unfinished : order.status = .pending ∨ order.status = .processing)
      (h : Cancelled i.now order s.db db') : Effect s i db'
  /-- The queue opened a row that an older runtime had marked as paid. -/
  | opened (order : OrderRecord) (tradeNo : String) (db' : Db) (member : order ∈ s.db.orders)
      (op : i.op = .handleQueuedOrder tradeNo) (named : order.tradeNo = trimSpace tradeNo)
      (paid : order.status = .processing) (h : Opened i.now order s.db db') : Effect s i db'
  | acknowledged (order : OrderRecord) (tradeNo : String) (c : OrderPaymentConfirmation) (db' : Db)
      (member : order ∈ s.db.orders) (confirmed : s.confirmation i.op = some (tradeNo, c))
      (named : order.tradeNo = trimSpace tradeNo)
      (paid : order.status ≠ .pending ∧ order.status ≠ .cancelled)
      (h : Acknowledged i.now c (trimSpace tradeNo) (trimSpace c.callbackNo) order s.db db') :
      Effect s i db'
  | settled (order confirmed : OrderRecord) (tradeNo : String) (c : OrderPaymentConfirmation)
      (db' : Db) (member : order ∈ s.db.orders)
      (confirmation : s.confirmation i.op = some (tradeNo, c))
      (named : order.tradeNo = trimSpace tradeNo)
      (h : Settled i.now c (trimSpace tradeNo) (trimSpace c.callbackNo) order confirmed s.db db') :
      Effect s i db'
  | refunded (order : OrderRecord) (tradeNo : String) (db' : Db) (member : order ∈ s.db.orders)
      (op : i.op = .refundManagedOrder tradeNo) (named : order.tradeNo = trimSpace tradeNo)
      (h : Refunded i.now order s.db db') : Effect s i db'
  | commissionCleared (order : OrderRecord) (member : order ∈ s.db.orders)
      (deposit : order.type = .deposit ∨ order.period = .deposit) :
      Effect s i (s.db.disableDepositCommission order i.now)
  | commissionSettled (order : OrderRecord) (inviter : UserRecord) (tradeNo : String) (db' : Db)
      (member : order ∈ s.db.orders) (op : i.op = .handleQueuedCommission tradeNo)
      (h : CommissionSettled i.cfg i.now order inviter s.db db') : Effect s i db'
  | commissionEdited (order : OrderRecord) (target : CommissionStatus) (db' : Db)
      (member : order ∈ s.db.orders) (unpaid : target ≠ .paid ∧ order.commissionStatus ≠ .paid)
      (orders : db'.orders.rows = s.db.orders.rows.map (commissionEditedRow i.now order target))
      (frame : db' = { s.db with orders := db'.orders }) : Effect s i db'
  | checkedOut (db' : Db) (h : CheckoutWrites s.db db') : Effect s i db'
  | paymentsEdited (payments : Table PaymentRecord.id PaymentRecord.id) :
      Effect s i { s.db with payments }

namespace Sys

private theorem transaction_effect {s : Sys} {i : Input} {result : Except ServiceError Db}
    (committed : ∀ db', result = .ok db' → Effect s i db') : Effect s i (s.withDb result).db :=
  commit_cases s.db result .unchanged committed

private theorem confirmation_effect {rt : Runtime} {s : Sys} {i : Input} (tradeNo : String)
    (c : OrderPaymentConfirmation) (confirmed : s.confirmation i.op = some (tradeNo, c)) :
    Effect s i (s.withDb (markOrderPaid rt i.cfg i.now tradeNo c s.db)).db := by
  apply transaction_effect
  intro db' returned
  obtain ⟨order, member, named, ⟨pending, cancelled, h⟩ | ⟨paid, h⟩⟩ :=
    markOrderPaid_cases returned
  · exact .acknowledged order tradeNo c db' member confirmed named ⟨pending, cancelled⟩ h
  · exact .settled order paid tradeNo c db' member confirmed named h

private theorem continueCheckout_effect (rt : Runtime) (s : Sys) (i : Input) (n : Nat)
    (flight : InFlight) (found : s.inFlight[n]? = some flight)
    (named : ∀ m, i.op = .completeFree m → m = n) :
    Effect s i (s.continueCheckout rt i n flight).db := by
  unfold continueCheckout
  split
  next tradeNo =>
    split
    next m op =>
      have same := named m op
      subst same
      have confirmed : s.confirmation i.op = some (tradeNo, freeConfirmation tradeNo) := by
        rw [op]
        simp [confirmation, found]
      rw [setInFlight_db]
      exact confirmation_effect tradeNo (freeConfirmation tradeNo) confirmed
    next => exact .unchanged
  next call =>
    split
    next => exact .unchanged
    next => exact .unchanged
    next =>
      unfold gatewayAnswered
      dsimp only
      split <;> exact .unchanged
    next => exact .unchanged
  next call =>
    split
    next => exact .checkedOut _ (releaseAttemptClaim_writes call s.db)
    next => exact .checkedOut _ (releaseOrderClaim_writes i.now call s.db)
    next => exact .unchanged
  next call encoded result =>
    split
    next => exact .checkedOut _ (persistCheckoutResult_writes i.now call encoded result s.db)
    next => exact .unchanged
  next => exact .unchanged

theorem step_effect (rt : Runtime) (s : Sys) (i : Input) : Effect s i (s.step rt i).db := by
  unfold step
  split
  next userID req tradeNo op =>
    refine transaction_effect fun db' returned => ?_
    obtain ⟨row, h, -⟩ := saveOrder_saved returned
    exact .saved row db' h op (saveOrder_campaigns returned)
  next userID tradeNo op =>
    refine transaction_effect fun db' returned => ?_
    obtain ⟨order, member, pending, h⟩ := cancelOrder_cancelled returned
    exact .cancelled order db' member (Or.inl pending) h
  next tradeNo op =>
    refine transaction_effect fun db' returned => ?_
    obtain rfl | ⟨order, member, named, ⟨unfinished, h⟩ | ⟨paid, h⟩⟩ :=
      handleQueuedOrder_cases returned
    · exact .unchanged
    · exact .cancelled order db' member unfinished h
    · exact .opened order tradeNo db' member op named paid h
  next tradeNo callbackNo paymentID amount op =>
    have confirmed : s.confirmation i.op =
        some (tradeNo, gatewayConfirmation callbackNo paymentID amount) := by rw [op]; rfl
    exact confirmation_effect tradeNo _ confirmed
  next tradeNo op =>
    have confirmed : s.confirmation i.op =
        some (tradeNo, manualConfirmation (trimSpace tradeNo)) := by rw [op]; rfl
    exact confirmation_effect tradeNo _ confirmed
  next tradeNo op =>
    refine transaction_effect fun db' returned => ?_
    obtain ⟨order, member, named, h⟩ := refundManagedOrder_refunded returned
    exact .refunded order tradeNo db' member op named h
  next tradeNo op =>
    refine transaction_effect fun db' returned => ?_
    obtain rfl | ⟨order, member, ⟨deposit, rfl⟩ | ⟨inviter, h⟩⟩ :=
      handleQueuedCommission_cases returned
    · exact .unchanged
    · exact .commissionCleared order member deposit
    · exact .commissionSettled order inviter tradeNo db' member op h
  next tradeNo commissionStatus op =>
    refine transaction_effect fun db' returned => ?_
    obtain rfl | ⟨order, member, target, unpaid, current, orders, frame⟩ :=
      updateOrderCommissionStatus_cases returned
    · exact .unchanged
    · exact .commissionEdited order target db' member ⟨unpaid, current⟩ orders frame
  next userID req claim op =>
    unfold beginCheckout
    split
    next => exact .unchanged
    next db' _ returned => exact .checkedOut db' (checkout_checkedOut returned).writes
    next db' _ returned => exact .checkedOut db' (checkout_checkedOut returned).writes
    next db' _ returned => exact .checkedOut db' (checkout_checkedOut returned).writes
  next payments op => exact .paymentsEdited payments
  next n op =>
    split
    next flight found =>
      exact continueCheckout_effect rt s i n flight found fun m other =>
        Op.completeFree.inj (other.symm.trans op)
    next => exact .unchanged
  -- the other steps of a checkout do not complete it
  all_goals
    rename_i op
    split
    next flight found =>
      refine continueCheckout_effect rt s i _ flight found fun m other => ?_
      rw [op] at other
      cases other
    next => exact .unchanged

end Sys

/-- Rows are updated without touching the terms of an order, and entries of the
ledger are for orders there are. -/
structure Updated (db db' : Db) : Prop where
  orders : ∃ f, db'.orders.rows = db.orders.rows.map f ∧ ∀ r ∈ db.orders, (f r).terms = r.terms
  ledger : ∃ moves, db'.ledger = db.ledger ++ moves ∧ ∀ m ∈ moves, ∃ o ∈ db.orders, o.id = m.orderID
  same : db'.orderSeq = db.orderSeq ∧ db'.plans = db.plans ∧ db'.coupons = db.coupons

variable {db' : Db} {s : Sys} {i : Input} {order : OrderRecord} {tradeNo : String}

private theorem Updated.unmoved {db : Db} {f : OrderRecord → OrderRecord}
    (rows : db'.orders.rows = db.orders.rows.map f) (terms : ∀ r ∈ db.orders, (f r).terms = r.terms)
    (ledger : db'.ledger = db.ledger)
    (same : db'.orderSeq = db.orderSeq ∧ db'.plans = db.plans ∧ db'.coupons = db.coupons) :
    Updated db db' :=
  ⟨⟨f, rows, terms⟩, ⟨[], by simp [ledger], by simp⟩, same⟩

theorem Effect.saved_or_updated (effect : Effect s i db') :
    (∃ row, Saved row s.db db') ∨ Updated s.db db' := by
  cases effect with
  | unchanged => exact Or.inr (.unmoved (List.map_id _).symm (fun _ _ => rfl) rfl ⟨rfl, rfl, rfl⟩)
  | saved row db' h => exact Or.inl ⟨row, h⟩
  | cancelled order db' member unfinished h =>
    refine Or.inr ⟨⟨_, h.orders, fun r _ => cancelledRow_terms i.now order r⟩,
      ⟨_, h.moves.ledger, ?_⟩, by rw [h.frame]; exact ⟨rfl, rfl, rfl⟩⟩
    simpa using ⟨order, member, rfl⟩
  | opened order tradeNo db' member op named paid h =>
    refine Or.inr ⟨⟨_, h.orders, fun r _ => openedRow_terms i.now order r⟩,
      ⟨_, h.moves.ledger, ?_⟩, by rw [h.frame]; exact ⟨rfl, rfl, rfl⟩⟩
    simpa using ⟨order, member, rfl⟩
  | acknowledged order tradeNo c db' member confirmed named paid h =>
    obtain ⟨f, rows, same⟩ := h.orders member
    have frame := h.writes.2
    exact Or.inr (.unmoved rows (fun r stored => (same r stored).1) (by rw [frame])
      (by rw [frame]; exact ⟨rfl, rfl, rfl⟩))
  | settled order confirmed tradeNo c db' member confirmation named h =>
    refine Or.inr ⟨⟨_, h.orders, fun r _ => settledRow_terms i.now _ confirmed r⟩,
      ⟨_, h.moves.ledger, ?_⟩, by rw [h.frame]; exact ⟨rfl, rfl, rfl⟩⟩
    unfold settledMoves
    split <;> simpa using ⟨order, member, rfl⟩
  | refunded order tradeNo db' member op named h =>
    refine Or.inr ⟨⟨_, h.orders, fun r _ => refundedRow_terms i.now order r⟩,
      ⟨_, h.ledger, ?_⟩, by rw [h.frame]; exact ⟨rfl, rfl, rfl⟩⟩
    unfold refundMoves
    split
    · simp
    · simpa using ⟨order, member, rfl⟩
  | commissionCleared order member deposit =>
    exact Or.inr (.unmoved (disableDepositCommission_rows s.db order i.now)
      (fun r _ => (commissionClearedRow_standing i.now order r).1) rfl ⟨rfl, rfl, rfl⟩)
  | commissionSettled order inviter tradeNo db' member op h =>
    refine Or.inr ⟨⟨_, h.orders, fun r _ => (commissionPaidRow_standing i.now order r).1⟩,
      ⟨_, h.moves.ledger, ?_⟩, by rw [h.frame]; exact ⟨rfl, rfl, rfl⟩⟩
    simpa using ⟨order, member, rfl⟩
  | commissionEdited order target db' member unpaid orders frame =>
    exact Or.inr (.unmoved orders
      (fun r _ => (commissionEditedRow_standing i.now order target r).1) (by rw [frame])
      (by rw [frame]; exact ⟨rfl, rfl, rfl⟩))
  | checkedOut db' h =>
    obtain ⟨⟨f, rows, same⟩, frame⟩ := h.only
    exact Or.inr (.unmoved rows (fun r _ => (same r).terms) (by rw [frame])
      (by rw [frame]; exact ⟨rfl, rfl, rfl⟩))
  | paymentsEdited payments =>
    exact Or.inr (.unmoved (List.map_id _).symm (fun _ _ => rfl) rfl ⟨rfl, rfl, rfl⟩)

theorem opening_of_settled {confirmed : OrderRecord} {c : OrderPaymentConfirmation}
    (member : order ∈ s.db.orders) (confirmation : s.confirmation i.op = some (tradeNo, c))
    (named : order.tradeNo = trimSpace tradeNo)
    (h : Settled i.now c (trimSpace tradeNo) (trimSpace c.callbackNo) order confirmed s.db db') :
    s.opening i = some order := by
  have found := (s.db.orders.findUniq?_eq_some _ _).mpr ⟨member, named⟩
  have accepted : acceptsConfirmation s.db i.now (trimSpace tradeNo) c order = true := by
    simp only [acceptsConfirmation, h.attempt, h.confirmation, h.unclaimed, Except.isOk,
      Except.toBool, Bool.and_true, Bool.or_eq_true, decide_eq_true_eq, Bool.and_eq_true]
    rcases h.unopened with pending | cancelled
    · exact Or.inl pending
    · exact Or.inr ⟨cancelled, h.recoverable cancelled⟩
  simp only [Sys.opening, confirmation]
  rw [found, Option.filter_some, if_pos accepted]

theorem opening_of_opened (member : order ∈ s.db.orders) (op : i.op = .handleQueuedOrder tradeNo)
    (named : order.tradeNo = trimSpace tradeNo) (paid : order.status = .processing) :
    s.opening i = some order := by
  have found := (s.db.orders.findUniq?_eq_some _ _).mpr ⟨member, named⟩
  simp [Sys.opening, Sys.confirmation, op, found, paid, Option.filter_some]

theorem refunding_of_refunded (member : order ∈ s.db.orders)
    (op : i.op = .refundManagedOrder tradeNo) (named : order.tradeNo = trimSpace tradeNo)
    (h : Refunded i.now order s.db db') : s.refunding i = some order := by
  have found := (s.db.orders.findUniq?_eq_some _ _).mpr ⟨member, named⟩
  simp [Sys.refunding, op, found, h.completed, h.target, h.latest, Option.filter_some]

theorem refunding_eq_some (refunding : s.refunding i = some order) :
    order ∈ s.db.orders ∧ order.status = .completed ∧ refundTargetSupported order ∧
      ∃ tradeNo, i.op = .refundManagedOrder tradeNo ∧ order.tradeNo = trimSpace tradeNo := by
  unfold Sys.refunding at refunding
  split at refunding
  next tradeNo op =>
    rw [Option.filter_eq_some_iff, Table.findUniq?_eq_some] at refunding
    obtain ⟨⟨member, named⟩, checks⟩ := refunding
    simp only [Bool.and_eq_true, decide_eq_true_eq] at checks
    exact ⟨member, checks.1.1, checks.1.2, tradeNo, op, named⟩
  next => cases refunding

/-- A confirmation opens an order that waits for payment or is cancelled; the
queue opens one that an older runtime marked as paid. -/
theorem opening_eq_some (opening : s.opening i = some order) :
    order ∈ s.db.orders ∧
      ((order.status = .pending ∨ order.status = .cancelled) ∧
          (∃ tradeNo c, s.confirmation i.op = some (tradeNo, c) ∧
            order.tradeNo = trimSpace tradeNo) ∨
        order.status = .processing) := by
  unfold Sys.opening at opening
  split at opening
  next tradeNo c confirmation =>
    rw [Option.filter_eq_some_iff, Table.findUniq?_eq_some] at opening
    obtain ⟨⟨member, named⟩, accepted⟩ := opening
    simp only [acceptsConfirmation, Bool.and_eq_true, Bool.or_eq_true, decide_eq_true_eq]
      at accepted
    refine ⟨member, Or.inl ⟨?_, tradeNo, c, confirmation, named⟩⟩
    rcases accepted.1.1.1 with pending | cancelled
    · exact Or.inl pending
    · exact Or.inr cancelled.1
  next =>
    split at opening
    next =>
      rw [Option.filter_eq_some_iff, Table.findUniq?_eq_some] at opening
      exact ⟨opening.1.1, Or.inr (of_decide_eq_true opening.2)⟩
    next => cases opening

/-- The ledger grew by what the wallets changed by. The one exception is the
refund of an order whose buyer is his own inviter: the commission is noted as
taken back, and the wallet is written back as it was. -/
def Explained (s : Sys) (i : Input) (db' : Db) : Prop :=
  (∃ moves, Moves s.db db' moves) ∨
    ∃ order ∈ s.refunding i, order.inviteUserID = some order.userID ∧
      (∃ moves, db'.ledger = s.db.ledger ++ moves ∧ ∀ m ∈ moves, m.reason = .commission) ∧
      ∀ id, (db'.users.find? id).map UserRecord.wallet =
        (s.db.users.find? id).map UserRecord.wallet

theorem refundMoves_commission (db : Db) (order : OrderRecord) :
    ∀ m ∈ refundMoves db order, m.reason = .commission := by
  unfold refundMoves
  split <;> simp

theorem Effect.explained (effect : Effect s i db') : Explained s i db' := by
  cases effect with
  | unchanged => exact Or.inl ⟨_, .none rfl rfl⟩
  | saved row db' h => exact Or.inl ⟨_, h.moves⟩
  | cancelled order db' member unfinished h => exact Or.inl ⟨_, h.moves⟩
  | opened order tradeNo db' member op named paid h => exact Or.inl ⟨_, h.moves⟩
  | acknowledged order tradeNo c db' member confirmed named paid h =>
    exact Or.inl ⟨_, .none (by rw [h.writes.2]) (by rw [h.writes.2])⟩
  | settled order confirmed tradeNo c db' member confirmation named h =>
    exact Or.inl ⟨_, h.moves⟩
  | refunded order tradeNo db' member op named h =>
    by_cases own : order.inviteUserID = some order.userID
    · exact Or.inr ⟨order, refunding_of_refunded member op named h, own,
        ⟨_, h.ledger, refundMoves_commission s.db order⟩, h.overwritten own⟩
    · exact Or.inl ⟨_, h.moves own⟩
  | commissionCleared order member deposit => exact Or.inl ⟨_, .none rfl rfl⟩
  | commissionSettled order inviter tradeNo db' member op h => exact Or.inl ⟨_, h.moves⟩
  | commissionEdited order target db' member unpaid orders frame =>
    exact Or.inl ⟨_, .none (by rw [frame]) (by rw [frame])⟩
  | checkedOut db' h => exact Or.inl ⟨_, .none (by rw [h.only.frame]) (by rw [h.only.frame])⟩
  | paymentsEdited payments => exact Or.inl ⟨_, .none rfl rfl⟩

theorem Explained.isSome_find? (h : Explained s i db') (id : Int) :
    (db'.users.find? id).isSome = (s.db.users.find? id).isSome := by
  obtain ⟨moves, moved⟩ | ⟨-, -, -, -, same⟩ := h
  · simpa using congrArg Option.isSome (moved.users id)
  · simpa using congrArg Option.isSome (same id)

theorem Sys.step_of_refunding {rt : Runtime} (refunding : s.refunding i = some order) :
    (s.step rt i).db = s.db ∨ Refunded i.now order s.db (s.step rt i).db := by
  obtain ⟨member, -, -, tradeNo, op, named⟩ := refunding_eq_some refunding
  have same : s.step rt i = s.withDb (refundManagedOrder rt i.now tradeNo s.db) := by
    unfold Sys.step
    rw [op]
  rw [same]
  cases returned : refundManagedOrder rt i.now tradeNo s.db with
  | error e => exact Or.inl rfl
  | ok db' =>
    refine Or.inr ?_
    obtain ⟨o, stored, named', h⟩ := refundManagedOrder_refunded returned
    exact s.db.orders.eq_of_uniq stored member (named'.trans named.symm) ▸ h

theorem Effect.solvent (effect : Effect s i db') (solvent : Solvent s.db) : Solvent db' := by
  cases effect with
  | unchanged => exact solvent
  | saved row db' h => exact h.solvent solvent
  | cancelled order db' member unfinished h => exact h.solvent solvent
  | opened order tradeNo db' member op named paid h => exact h.solvent solvent
  | acknowledged order tradeNo c db' member confirmed named paid h =>
    exact solvent.congr (by rw [h.writes.2])
  | settled order confirmed tradeNo c db' member confirmation named h => exact h.solvent solvent
  | refunded order tradeNo db' member op named h => exact h.solvent solvent
  | commissionCleared order member deposit => exact solvent
  | commissionSettled order inviter tradeNo db' member op h => exact h.solvent solvent
  | commissionEdited order target db' member unpaid orders frame =>
    exact solvent.congr (by rw [frame])
  | checkedOut db' h => exact solvent.congr (by rw [h.only.frame])
  | paymentsEdited payments => exact solvent

end ForestPanel
