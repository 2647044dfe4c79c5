import ForestPanel.Order.Subscription
import ForestPanel.Store.Wallet

/-!
# Opening, cancelling and queue handling of orders

`openOrderTx`, `CancelOrder` and `handleQueuedOrder`.
-/
namespace ForestPanel

open Relational Outcome

def validOrderAmountState (order : OrderRecord) : Prop :=
  0 ≤ order.totalAmount ∧ 0 ≤ order.handlingAmount.getD 0 ∧
    order.totalAmount ≤ maxInt64 - order.handlingAmount.getD 0

instance (order : OrderRecord) : Decidable (validOrderAmountState order) := by
  unfold validOrderAmountState
  infer_instance

/-- The balance the order took when it was saved, where the code moves it. -/
def balancePart (order : OrderRecord) : Int := max (order.balanceAmount.getD 0) 0

def completionCredit (order : OrderRecord) : Int :=
  if order.type = .deposit then order.totalAmount else max (order.refundAmount.getD 0) 0

/-- `parseIDList` of the stored column. -/
def surplusIDs (order : OrderRecord) : List Int := order.surplusOrderIDs.getD []

/-- The order as `openOrderTx` stores it: callback and payment time filled in. -/
def openedOrder (now : Int) (order : OrderRecord) : OrderRecord :=
  { order with
    callbackNo := if blank order.callbackNo then some order.tradeNo else order.callbackNo
    paidAt := if 0 < order.paidAt.getD 0 then order.paidAt else some now
    status := .completed
    updatedAt := now }

def openDepositOrder (now : Int) (order : OrderRecord) (userRow : UserRecord) (db : Db) :
    Except ServiceError Db := do
  let db := db.disableDepositCommission order now
  let db ← db.updateUserBalance userRow.id (userRow.balance + order.totalAmount)
  let db := db.record userRow.id order.id .completion (completionCredit order) 0
  pure (db.updateOrderPaymentState (openedOrder now order))

/-- The row before the subscription is applied: with `refund_amount` credited. -/
def creditRefundAmount (order : OrderRecord) (userRow : UserRecord) : UserRecord :=
  if 0 < order.refundAmount.getD 0 then
    { userRow with balance := userRow.balance + order.refundAmount.getD 0 }
  else userRow

def markInviteCampaignUsed (order : OrderRecord) (db : Db) : Db :=
  match order.inviteCampaignID with
  | some campaignID => db.setCampaignStatus campaignID .used
  | none => db

def openPlanOrder (rt : Runtime) (cfg : Config) (now : Int) (order : OrderRecord)
    (userRow : UserRecord) (db : Db) : Except ServiceError Db := do
  let plan ← require (db.plans.find? order.planID) .planNotFound
  let db := db.markSurplusOrdersClosed (surplusIDs order) now
  let db := db.updateUserSubscription
    (applyOpenedOrder rt cfg now order plan (creditRefundAmount order userRow))
  let db := db.record userRow.id order.id .completion (completionCredit order) 0
  let db := markInviteCampaignUsed order db
  pure (db.updateOrderPaymentState (openedOrder now order))

def openOrder (rt : Runtime) (cfg : Config) (now : Int) (order : OrderRecord) (db : Db) :
    Except ServiceError Db := do
  ensure (validOrderAmountState order) .invalidParameter
  let userRow ← db.lockUser order.userID
  if order.type = .deposit then openDepositOrder now order userRow db
  else openPlanOrder rt cfg now order userRow db

/-! ### What opening writes -/

def openedRow (now : Int) (order r : OrderRecord) : OrderRecord :=
  if r.id = order.id then
    let paid := { r with
      status := .completed
      callbackNo := (openedOrder now order).callbackNo
      paidAt := (openedOrder now order).paidAt
      updatedAt := now }
    if order.type = .deposit then
      { paid with
        commissionBalance := 0
        commissionStatus := .paid
        actualCommissionBalance := some 0 }
    else paid
  else if order.type ≠ .deposit ∧ r.id ∈ surplusIDs order then
    { r with status := .closed, updatedAt := now }
  else r

theorem openedRow_terms (now : Int) (order r : OrderRecord) :
    (openedRow now order r).terms = r.terms := by
  unfold openedRow
  dsimp only
  split_ifs <;> rfl

theorem openedRow_status (now : Int) (order r : OrderRecord) :
    (openedRow now order r).status =
      if r.id = order.id then .completed
      else if order.type ≠ .deposit ∧ r.id ∈ surplusIDs order then .closed else r.status := by
  unfold openedRow
  dsimp only
  split_ifs <;> rfl

def spentCampaigns (order : OrderRecord) (db : Db) :
    Table InviteCampaignRecord.id InviteCampaignRecord.id :=
  if order.type = .deposit then db.campaigns else (markInviteCampaignUsed order db).campaigns

variable {order : OrderRecord} {db db' : Db} {cfg : Config} {now : Int}

theorem spentCampaigns_congr {order' : OrderRecord} (terms : order'.terms = order.terms)
    (same : db'.campaigns = db.campaigns) :
    spentCampaigns order' db' = spentCampaigns order db := by
  have kind : order'.type = order.type := congrArg OrderTerms.type terms
  have campaign : order'.inviteCampaignID = order.inviteCampaignID :=
    congrArg OrderTerms.inviteCampaignID terms
  unfold spentCampaigns markInviteCampaignUsed
  rw [kind, campaign]
  split
  · exact same
  · split
    · rw [Db.setCampaignStatus, Db.setCampaignStatus, same]
    · exact same

structure Opened (now : Int) (order : OrderRecord) (db db' : Db) : Prop where
  amounts : validOrderAmountState order
  orders : db'.orders.rows = db.orders.rows.map (openedRow now order)
  moves : Moves db db' [⟨order.userID, order.id, .completion, completionCredit order, 0⟩]
  solvent : Solvent db → Solvent db'
  campaigns : db'.campaigns = spentCampaigns order db
  frame : db' = { db with
    users := db'.users
    orders := db'.orders
    campaigns := db'.campaigns
    ledger := db'.ledger }

private theorem opened_deposit (now : Int) (order : OrderRecord) (userRow : UserRecord)
    (db db' : Db) (amounts : validOrderAmountState order) (deposit : order.type = .deposit)
    (locked : db.lockUser order.userID = .ok userRow)
    (returned : openDepositOrder now order userRow db = .ok db') : Opened now order db db' := by
  obtain ⟨r, -, -, id, found, balance, -⟩ := Db.lockUser_row locked
  simp only [openDepositOrder, bind_eq_ok, Db.updateUserBalance_eq_ok, pure_eq_ok] at returned
  obtain ⟨_, ⟨enough, rfl⟩, rfl⟩ := returned
  rw [id, balance] at *
  have credit : completionCredit order = order.totalAmount := if_pos deposit
  refine ⟨amounts, ?_, ?_, ?_, (if_pos deposit).symm, rfl⟩
  · simp only [Db.updateOrderPaymentState, Db.updateOrder, Db.record, Db.setUserBalance,
      Db.disableDepositCommission, Table.rows_updateWhere, List.map_map]
    apply List.map_congr_left
    intro r _
    by_cases same : r.id = order.id <;> simp [openedRow, openedOrder, deposit, same]
  · rw [credit]
    have found : (db.disableDepositCommission order now).users.find? order.userID = some r := found
    have disabled : Moves db (db.disableDepositCommission order now) [] := .none rfl rfl
    exact (disabled.trans (Db.moves_setUserBalance found .completion)).congr rfl rfl
  · intro solvent
    exact (Db.solvent_setUserBalance solvent enough).congr rfl

private theorem wallet_creditRefundAmount (order : OrderRecord) (row : UserRecord)
    (plan : order.type ≠ .deposit) :
    (creditRefundAmount order row).id = row.id ∧
      (creditRefundAmount order row).balance = row.balance + completionCredit order ∧
      (creditRefundAmount order row).commissionBalance = row.commissionBalance := by
  unfold creditRefundAmount
  rw [completionCredit, if_neg plan]
  split
  · refine ⟨rfl, ?_, rfl⟩
    dsimp only
    omega
  · refine ⟨rfl, ?_, rfl⟩
    omega

private theorem markInviteCampaignUsed_frame (db db₀ : Db) (notDeposit : order.type ≠ .deposit)
    (same : db.campaigns = db₀.campaigns) :
    markInviteCampaignUsed order db = { db with campaigns := spentCampaigns order db₀ } := by
  rw [spentCampaigns, if_neg notDeposit]
  unfold markInviteCampaignUsed
  split
  · rw [Db.setCampaignStatus, Db.setCampaignStatus, same]
  · rw [← same]

private theorem opened_plan (rt : Runtime) (cfg : Config) (now : Int) (order : OrderRecord)
    (userRow : UserRecord) (db db' : Db) (amounts : validOrderAmountState order)
    (notDeposit : order.type ≠ .deposit) (locked : db.lockUser order.userID = .ok userRow)
    (returned : openPlanOrder rt cfg now order userRow db = .ok db') : Opened now order db db' := by
  obtain ⟨r, member, -, id, found, balance, commission⟩ := Db.lockUser_row locked
  simp only [openPlanOrder, bind_eq_ok, require_eq_ok, pure_eq_ok] at returned
  obtain ⟨plan, -, rfl⟩ := returned
  have credited := wallet_creditRefundAmount order userRow notDeposit
  have applied := applyOpenedOrder_wallet rt cfg now order plan (creditRefundAmount order userRow)
  generalize applyOpenedOrder rt cfg now order plan (creditRefundAmount order userRow) = row at *
  have rowID : row.id = order.userID := applied.id.trans (credited.1.trans id)
  have rowBalance : row.balance = r.balance + completionCredit order := by
    rw [applied.balance, credited.2.1, balance]
  have rowCommission : row.commissionBalance = r.commissionBalance + 0 := by
    rw [applied.commissionBalance, credited.2.2, commission, add_zero]
  have nonneg : 0 ≤ completionCredit order := by
    rw [completionCredit, if_neg notDeposit]
    exact le_max_right _ _
  rw [markInviteCampaignUsed_frame _ db notDeposit (by rfl)]
  refine ⟨amounts, ?_, ?_, ?_, rfl, rfl⟩
  · simp only [Db.updateOrderPaymentState, Db.updateOrder, Db.record, Db.updateUserSubscription,
      Db.markSurplusOrdersClosed, Table.rows_updateWhere, List.map_map]
    apply List.map_congr_left
    intro r _
    by_cases same : r.id = order.id <;> by_cases listed : r.id ∈ surplusIDs order <;>
      simp_all [openedRow, openedOrder]
  · have closed : Moves db (db.markSurplusOrdersClosed (surplusIDs order) now) [] :=
      .none rfl rfl
    have found : (db.markSurplusOrdersClosed (surplusIDs order) now).users.find? order.userID =
        some r := found
    rw [id]
    exact (closed.trans (Db.moves_updateUserSubscription found rowID rowBalance rowCommission
      .completion)).congr rfl rfl
  · intro solvent
    have enough : 0 ≤ row.balance := by
      have := solvent r member
      omega
    have before : Solvent (db.markSurplusOrdersClosed (surplusIDs order) now) := solvent
    exact (Db.solvent_updateUserSubscription before enough).congr rfl

theorem openOrder_opened {rt : Runtime} (returned : openOrder rt cfg now order db = .ok db') :
    Opened now order db db' := by
  simp only [openOrder, bind_eq_ok, ensure_eq_ok, exists_const] at returned
  obtain ⟨amounts, userRow, locked, returned⟩ := returned
  split at returned
  next deposit => exact opened_deposit now order userRow db db' amounts deposit locked returned
  next plan => exact opened_plan rt cfg now order userRow db db' amounts plan locked returned

def checkoutCreationActive (now : Int) (order : OrderRecord) : Prop :=
  order.checkoutClaim.isSome ∧ order.checkoutClaimExpiresAt.any (fun e => now < e) = true

instance (now : Int) (order : OrderRecord) : Decidable (checkoutCreationActive now order) := by
  unfold checkoutCreationActive
  infer_instance

def returnBalancePart (order : OrderRecord) (db : Db) : Except ServiceError Db := do
  let db ←
    if 0 < order.balanceAmount.getD 0 then
      db.addToBalance order.userID (order.balanceAmount.getD 0)
    else pure db
  pure (db.record order.userID order.id .balancePart (balancePart order) 0)

/-- The status update and the refund of the balance part, as `CancelOrder`, the
queue's auto-cancel and its quarantine do them. -/
def moveToCancelled (now : Int) (order : OrderRecord) (db : Db) : Except ServiceError Db :=
  returnBalancePart order
    (db.updateOrderStatus { order with status := .cancelled, updatedAt := now })

def recoverTTL (cfg : Config) : Int :=
  if cfg.orderCancelRecoverTTL ≤ 0 then 1800 else cfg.orderCancelRecoverTTL

def cancelOrder (cfg : Config) (now userID : Int) (tradeNo : String) (db : Db) :
    Except ServiceError Db := do
  let tradeNo := trimSpace tradeNo
  ensure (tradeNo ≠ "") .invalidParameter
  let order ← require (db.lockOrder userID tradeNo) .orderNotFound
  ensure (order.status = .pending) .cancelPendingOnly
  ensure (¬checkoutCreationActive now order) .checkoutInProgress
  let db ← moveToCancelled now order db
  pure (db.setCancelRecovery tradeNo (recoverTTL cfg) now)

def shouldAutoCancelOrder (status : OrderStatus) (createdAt now : Int) : Prop :=
  status = .pending ∧ createdAt ≤ now - 2 * 3600

instance (status : OrderStatus) (createdAt now : Int) :
    Decidable (shouldAutoCancelOrder status createdAt now) := by
  unfold shouldAutoCancelOrder
  infer_instance

/-- A paid row that cannot be opened because its amounts are corrupt is
quarantined as cancelled. -/
def openQueuedOrder (rt : Runtime) (cfg : Config) (now : Int) (order : OrderRecord) (db : Db) :
    Except ServiceError Db :=
  match openOrder rt cfg now order db with
  | .error .invalidParameter => moveToCancelled now order db
  | result => result

def autoCancelOrder (cfg : Config) (now : Int) (tradeNo : String) (order : OrderRecord) (db : Db) :
    Except ServiceError Db := do
  let db ← moveToCancelled now order db
  pure (db.setCancelRecovery tradeNo (recoverTTL cfg) now)

def handleQueuedOrder (rt : Runtime) (cfg : Config) (now : Int) (tradeNo : String) (db : Db) :
    Except ServiceError Db :=
  let tradeNo := trimSpace tradeNo
  if tradeNo = "" then .ok db
  else
    match db.lockOrderByTradeNo tradeNo with
    | none => .ok db
    | some order =>
      if shouldAutoCancelOrder order.status order.createdAt now then
        if checkoutCreationActive now order then .ok db
        else autoCancelOrder cfg now tradeNo order db
      else if order.status = .processing then openQueuedOrder rt cfg now order db
      else .ok db

/-! ### What cancelling writes -/

def cancelledRow (now : Int) (order r : OrderRecord) : OrderRecord :=
  if r.id = order.id then { r with status := .cancelled, updatedAt := now } else r

theorem cancelledRow_terms (now : Int) (order r : OrderRecord) :
    (cancelledRow now order r).terms = r.terms := by
  unfold cancelledRow
  split <;> rfl

theorem cancelledRow_status (now : Int) (order r : OrderRecord) :
    (cancelledRow now order r).status = if r.id = order.id then .cancelled else r.status := by
  unfold cancelledRow
  split <;> rfl

structure Cancelled (now : Int) (order : OrderRecord) (db db' : Db) : Prop where
  orders : db'.orders.rows = db.orders.rows.map (cancelledRow now order)
  moves : Moves db db' [⟨order.userID, order.id, .balancePart, balancePart order, 0⟩]
  solvent : Solvent db → Solvent db'
  frame : db' = { db with
    users := db'.users
    orders := db'.orders
    kv := db'.kv
    ledger := db'.ledger }

theorem moves_addToBalance {userID amount : Int}
    (returned : db.addToBalance userID amount = .ok db') (orderID : Int) (reason : Reason) :
    Moves db (db'.record userID orderID reason amount 0)
        [⟨userID, orderID, reason, amount, 0⟩] ∧
      (Solvent db → Solvent db') ∧ db' = { db with users := db'.users } := by
  obtain ⟨r, found, enough, rfl⟩ := (Db.addToBalance_eq_ok ..).mp returned
  exact ⟨Db.moves_setUserBalance found reason,
    fun solvent => Db.solvent_setUserBalance solvent enough, rfl⟩

theorem moves_record_zero (db : Db) (userID orderID : Int) (reason : Reason) :
    Moves db (db.record userID orderID reason 0 0) [⟨userID, orderID, reason, 0, 0⟩] := by
  refine ⟨rfl, ?_⟩
  intro id
  simp only [Db.record, balanceMoved_singleton, commissionMoved_singleton, ite_self, add_zero]
  rfl

private theorem returnBalancePart_moves (returned : returnBalancePart order db = .ok db') :
    Moves db db' [⟨order.userID, order.id, .balancePart, balancePart order, 0⟩] ∧
      (Solvent db → Solvent db') ∧ db' = { db with users := db'.users, ledger := db'.ledger } := by
  unfold returnBalancePart at returned
  split at returned
  next positive =>
    simp only [bind_eq_ok, pure_eq_ok] at returned
    obtain ⟨db₁, added, rfl⟩ := returned
    have part : balancePart order = order.balanceAmount.getD 0 := max_eq_left positive.le
    obtain ⟨moves, solvent, frame⟩ := moves_addToBalance added order.id .balancePart
    rw [part]
    refine ⟨moves, fun h => solvent h, ?_⟩
    rw [frame]
    rfl
  next none =>
    have part : balancePart order = 0 := max_eq_right (not_lt.mp none)
    simp only [pure_bind, pure_eq_ok] at returned
    subst returned
    rw [part]
    exact ⟨moves_record_zero db _ _ _, id, rfl⟩

theorem moveToCancelled_cancelled (returned : moveToCancelled now order db = .ok db') :
    Cancelled now order db db' := by
  obtain ⟨moves, solvent, frame⟩ := returnBalancePart_moves returned
  have updated : Moves db
      (db.updateOrderStatus { order with status := .cancelled, updatedAt := now }) [] :=
    .none rfl rfl
  refine ⟨?_, updated.trans moves, solvent, ?_⟩
  · rw [frame]
    simp [Db.updateOrderStatus, Db.updateOrder, cancelledRow]
  · rw [frame]
    rfl

private theorem setCancelRecovery_frame (db : Db) (tradeNo : String) (ttl now : Int) :
    ∃ kv, db.setCancelRecovery tradeNo ttl now = { db with kv } := by
  unfold Db.setCancelRecovery
  dsimp only
  split
  · exact ⟨_, rfl⟩
  · exact ⟨_, rfl⟩

private theorem Cancelled.setCancelRecovery (h : Cancelled now order db db') (tradeNo : String)
    (ttl : Int) : Cancelled now order db (db'.setCancelRecovery tradeNo ttl now) := by
  obtain ⟨kv, frame⟩ := setCancelRecovery_frame db' tradeNo ttl now
  rw [frame]
  refine ⟨h.orders, h.moves.congr rfl rfl, h.solvent, ?_⟩
  rw [h.frame]

theorem cancelOrder_cancelled {userID : Int} {tradeNo : String}
    (returned : cancelOrder cfg now userID tradeNo db = .ok db') :
    ∃ order ∈ db.orders, order.status = .pending ∧ Cancelled now order db db' := by
  simp only [cancelOrder, bind_eq_ok, ensure_eq_ok, exists_const, require_eq_ok, pure_eq_ok]
    at returned
  obtain ⟨-, order, locked, pending, -, db₁, moved, rfl⟩ := returned
  simp only [Db.lockOrder, Option.filter_eq_some_iff, Table.findUniq?_eq_some] at locked
  exact ⟨order, locked.1.1, pending, (moveToCancelled_cancelled moved).setCancelRecovery _ _⟩

theorem handleQueuedOrder_cases {rt : Runtime} {tradeNo : String}
    (returned : handleQueuedOrder rt cfg now tradeNo db = .ok db') :
    db' = db ∨ ∃ order ∈ db.orders, order.tradeNo = trimSpace tradeNo ∧
      (((order.status = .pending ∨ order.status = .processing) ∧ Cancelled now order db db') ∨
        (order.status = .processing ∧ Opened now order db db')) := by
  unfold handleQueuedOrder at returned
  dsimp only at returned
  split at returned
  · exact Or.inl (Except.ok.inj returned).symm
  split at returned
  · exact Or.inl (Except.ok.inj returned).symm
  next order locked =>
    obtain ⟨member, named⟩ := (Table.findUniq?_eq_some ..).mp locked
    split at returned
    next expired =>
      split at returned
      · exact Or.inl (Except.ok.inj returned).symm
      · simp only [autoCancelOrder, bind_eq_ok, pure_eq_ok] at returned
        obtain ⟨db₁, moved, rfl⟩ := returned
        exact Or.inr ⟨order, member, named, Or.inl ⟨Or.inl expired.1,
          (moveToCancelled_cancelled moved).setCancelRecovery _ _⟩⟩
    · split at returned
      next paid =>
        unfold openQueuedOrder at returned
        split at returned
        · exact Or.inr ⟨order, member, named, Or.inl ⟨Or.inr paid,
            moveToCancelled_cancelled returned⟩⟩
        · exact Or.inr ⟨order, member, named, Or.inr ⟨paid, openOrder_opened returned⟩⟩
      · exact Or.inl (Except.ok.inj returned).symm

end ForestPanel
