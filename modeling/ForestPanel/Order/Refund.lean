import ForestPanel.Order.Open

/-!
# Refunding a completed order

`RefundManagedOrder`: the buyer's row is read first, the inviter's commission is
taken back, the subscription is rolled back or rebuilt, and the buyer's row is
written as it was read. No amount of the order itself is given back or taken.
-/
namespace ForestPanel

open Relational Outcome

def rollbackAmount (order : OrderRecord) : Int :=
  if 0 < order.actualCommissionBalance.getD 0 then order.actualCommissionBalance.getD 0
  else order.commissionBalance

/-- What of it `balance` pays, when `commission_balance` does not suffice. -/
def recoveredFromBalance (inviter : UserRecord) (amount : Int) : Int :=
  if inviter.commissionBalance - amount < 0 ∧ 0 < inviter.balance then
    min inviter.balance (-(inviter.commissionBalance - amount))
  else 0

def rollbackInviter (inviter : UserRecord) (amount : Int) : UserRecord :=
  { inviter with
    balance := inviter.balance - recoveredFromBalance inviter amount
    commissionBalance :=
      inviter.commissionBalance - amount + recoveredFromBalance inviter amount }

/-- `order.CommissionStatus == 2` or an actual amount is on record. -/
def commissionPaidOut (order : OrderRecord) : Prop :=
  order.commissionStatus = .paid ∨ 0 < order.actualCommissionBalance.getD 0

instance (order : OrderRecord) : Decidable (commissionPaidOut order) := by
  unfold commissionPaidOut
  infer_instance

def rollbackCommissionForRefund (order : OrderRecord) (db : Db) : Except ServiceError Db :=
  match order.inviteUserID with
  | none => .ok db
  | some inviterID =>
    if order.commissionBalance ≤ 0 then .ok db
    else if commissionPaidOut order then
      match db.lockUser inviterID with
      | .error .notFound => .ok db
      | .error e => .error e
      | .ok inviter =>
        let recovered := recoveredFromBalance inviter (rollbackAmount order)
        let db := db.updateUserSubscription (rollbackInviter inviter (rollbackAmount order))
        let db := db.record inviter.id order.id .commission (-recovered)
          (recovered - rollbackAmount order)
        .ok (db.deleteCommissionLog order.tradeNo)
    else .ok (db.deleteCommissionLog order.tradeNo)

def rebuildSubscriptionFromOrderIDs (rt : Runtime) (current : UserRecord) (ids : List Int)
    (db : Db) : Except ServiceError UserRecord := do
  let rows := (db.orders.rows.filter fun o => o.id ∈ ids).insertionSort replayOrder
  let restored ← replay rt db (clearSubscriptionForRefund current) rows
  pure (preserveUserUsage current restored)

def rebuildPreviousSubscriptionBeforeRefund (rt : Runtime) (current : UserRecord)
    (refunded : OrderRecord) (db : Db) : Except ServiceError UserRecord :=
  let rows := (db.orders.rows.filter fun o =>
    o.userID = refunded.userID && o.status = .completed && o.id ≠ refunded.id && 0 < o.planID &&
      o.paidAt.getD o.createdAt < effectiveOrderAt refunded).insertionSort replayOrder
  if rows = [] then .ok (clearSubscriptionForRefund current)
  else do
    let restored ← replay rt db (clearSubscriptionForRefund current) rows
    pure (preserveUserUsage current restored)

def rollbackUserSubscriptionForRefund (rt : Runtime) (now : Int) (current : UserRecord)
    (refunded : OrderRecord) (db : Db) : Except ServiceError (UserRecord × Db) :=
  if surplusIDs refunded ≠ [] then do
    let db := db.restoreSurplusOrdersForRefund (surplusIDs refunded) now
    let restored ← rebuildSubscriptionFromOrderIDs rt current (surplusIDs refunded) db
    pure (restored, db)
  else
    match refunded.type with
    | .renewal => do
      let restored ← rollbackRenewalSubscription rt current refunded
      pure (restored, db)
    | .change => do
      let restored ← rebuildPreviousSubscriptionBeforeRefund rt current refunded db
      pure (restored, db)
    | .purchase | .reset | .deposit => .ok (clearSubscriptionForRefund current, db)

/-- `status = 3 AND id <> $2 AND created_at > $3` for the same user. -/
def hasLaterCompleted (db : Db) (order : OrderRecord) : Bool :=
  db.orders.rows.any fun o =>
    o.userID = order.userID && o.status = .completed && o.id ≠ order.id &&
      order.createdAt < o.createdAt

/-- The kinds of order that cannot be refunded. -/
def refundTargetSupported (order : OrderRecord) : Prop :=
  0 < order.planID ∧ order.type ≠ .deposit ∧ order.period ≠ .resetPrice

instance (order : OrderRecord) : Decidable (refundTargetSupported order) := by
  unfold refundTargetSupported
  infer_instance

def refundManagedOrder (rt : Runtime) (now : Int) (tradeNo : String) (db : Db) :
    Except ServiceError Db := do
  let tradeNo := trimSpace tradeNo
  ensure (tradeNo ≠ "") .invalidParameter
  let order ← require (db.lockOrderByTradeNo tradeNo) .orderNotFound
  ensure (order.status = .completed) .refundCompletedOnly
  ensure (refundTargetSupported order) .refundTargetNotSupported
  ensure (hasLaterCompleted db order = false) .refundLatestOnly
  let userRow ← db.lockUser order.userID
  let db ← rollbackCommissionForRefund order db
  let (restoredUser, db) ← rollbackUserSubscriptionForRefund rt now userRow order db
  let db := db.updateUserSubscription restoredUser
  pure (db.updateOrderRefundState { order with
    status := .cancelled
    commissionStatus := .rejected
    actualCommissionBalance := none
    updatedAt := now })

def rolledBackInviter (db : Db) (order : OrderRecord) : Option UserRecord :=
  order.inviteUserID.bind fun inviterID =>
    if 0 < order.commissionBalance ∧ commissionPaidOut order then db.users.find? inviterID else none

def refundMoves (db : Db) (order : OrderRecord) : List Movement :=
  match rolledBackInviter db order with
  | none => []
  | some inviter =>
    let recovered := recoveredFromBalance inviter (rollbackAmount order)
    [⟨inviter.id, order.id, .commission, -recovered, recovered - rollbackAmount order⟩]

/-- Whether the refund reaches the deletion of the order's commission log. -/
def deletesCommissionLog (db : Db) (order : OrderRecord) : Prop :=
  order.inviteUserID.isSome ∧ 0 < order.commissionBalance ∧
    (commissionPaidOut order → (rolledBackInviter db order).isSome)

instance (db : Db) (order : OrderRecord) : Decidable (deletesCommissionLog db order) := by
  unfold deletesCommissionLog
  infer_instance

def restoredRow (now : Int) (order r : OrderRecord) : OrderRecord :=
  if r.status = .closed ∧ r.id ∈ surplusIDs order then
    { r with status := .completed, updatedAt := now }
  else r

def refundedRow (now : Int) (order r : OrderRecord) : OrderRecord :=
  if r.id = order.id then
    { r with
      status := .cancelled
      commissionStatus := .rejected
      actualCommissionBalance := none
      updatedAt := now }
  else restoredRow now order r

theorem refundedRow_terms (now : Int) (order r : OrderRecord) :
    (refundedRow now order r).terms = r.terms := by
  unfold refundedRow restoredRow
  split_ifs <;> rfl

theorem refundedRow_status (now : Int) (order r : OrderRecord) :
    (refundedRow now order r).status =
      if r.id = order.id then .cancelled
      else if r.status = .closed ∧ r.id ∈ surplusIDs order then .completed else r.status := by
  unfold refundedRow restoredRow
  split_ifs <;> rfl

structure Refunded (now : Int) (order : OrderRecord) (db db' : Db) : Prop where
  completed : order.status = .completed
  target : refundTargetSupported order
  latest : hasLaterCompleted db order = false
  orders : db'.orders.rows = db.orders.rows.map (refundedRow now order)
  commissionLogs : db'.commissionLogs =
    if deletesCommissionLog db order then
      db.commissionLogs.filter fun l => l.tradeNo ≠ order.tradeNo
    else db.commissionLogs
  ledger : db'.ledger = db.ledger ++ refundMoves db order
  moves : order.inviteUserID ≠ some order.userID → Moves db db' (refundMoves db order)
  overwritten : order.inviteUserID = some order.userID → ∀ id,
    (db'.users.find? id).map UserRecord.wallet = (db.users.find? id).map UserRecord.wallet
  solvent : Solvent db → Solvent db'
  frame : db' = { db with
    users := db'.users
    orders := db'.orders
    commissionLogs := db'.commissionLogs
    ledger := db'.ledger }

theorem recoveredFromBalance_le (inviter : UserRecord) (amount : Int)
    (enough : 0 ≤ inviter.balance) : recoveredFromBalance inviter amount ≤ inviter.balance := by
  unfold recoveredFromBalance
  split
  · exact min_le_left _ _
  · exact enough

private theorem find?_updateUserSubscription_other (db : Db) (row : UserRecord) (id : Int)
    (other : row.id ≠ id) : (db.updateUserSubscription row).users.find? id = db.users.find? id := by
  simp only [Db.updateUserSubscription, Table.find?_updateWhere]
  cases found : db.users.find? id with
  | none => rfl
  | some r => simp [Table.key_of_find? found, Ne.symm other]

private theorem rollbackCommissionForRefund_writes {order : OrderRecord} {db db' : Db}
    (returned : rollbackCommissionForRefund order db = .ok db') :
    Moves db db' (refundMoves db order) ∧ (Solvent db → Solvent db') ∧
      (db'.commissionLogs = if deletesCommissionLog db order then
        db.commissionLogs.filter fun l => l.tradeNo ≠ order.tradeNo else db.commissionLogs) ∧
      (∀ id, order.inviteUserID ≠ some id → db'.users.find? id = db.users.find? id) ∧
      db' = { db with
        users := db'.users
        commissionLogs := db'.commissionLogs
        ledger := db'.ledger } := by
  unfold rollbackCommissionForRefund at returned
  split at returned
  next nobody =>
    cases returned
    have moves : refundMoves db order = [] := by simp [refundMoves, rolledBackInviter, nobody]
    rw [moves]
    exact ⟨.none rfl rfl, id, by simp [deletesCommissionLog, nobody], fun _ _ => rfl, rfl⟩
  next inviterID invited =>
    split at returned
    next nothing =>
      cases returned
      have moves : refundMoves db order = [] := by
        simp [refundMoves, rolledBackInviter, invited, not_lt.mpr nothing]
      rw [moves]
      exact ⟨.none rfl rfl, id, by simp [deletesCommissionLog, not_lt.mpr nothing],
        fun _ _ => rfl, rfl⟩
    next positive =>
      have positive : 0 < order.commissionBalance := not_le.mp positive
      split at returned
      next paidOut =>
        split at returned
        next missing =>
          cases returned
          have nobody := ((Db.lockUser_eq_error ..).mp missing).1
          have moves : refundMoves db order = [] := by
            simp [refundMoves, rolledBackInviter, invited, nobody]
          rw [moves]
          exact ⟨.none rfl rfl, id, by
            simp [deletesCommissionLog, rolledBackInviter, invited, nobody, paidOut],
            fun _ _ => rfl, rfl⟩
        next => cases returned
        next inviter locked =>
          cases returned
          obtain ⟨r, found, rfl⟩ := (Db.lockUser_eq_ok ..).mp locked
          have rolled : rolledBackInviter db order = some r := by
            simp [rolledBackInviter, invited, positive, paidOut, found]
          have id : r.id = inviterID := Table.key_of_find? found
          subst id
          refine ⟨?_, ?_, ?_, ?_, rfl⟩
          · rw [refundMoves, rolled]
            have key : (rollbackInviter { r with
                expiredAt := Db.normalizeNullableExpiry r.expiredAt } (rollbackAmount order)).id =
                r.id := rfl
            refine (Db.moves_updateUserSubscription found key ?_ ?_ .commission).congr rfl rfl
            · exact sub_eq_add_neg _ _
            · simp only [rollbackInviter, recoveredFromBalance]
              ring
          · intro solvent
            refine (Db.solvent_updateUserSubscription solvent ?_).congr rfl
            have enough := solvent r (Table.mem_of_find? found)
            have bound := recoveredFromBalance_le r (rollbackAmount order) enough
            simp only [rollbackInviter, recoveredFromBalance] at *
            omega
          · simp [deletesCommissionLog, rolled, invited, positive, Db.deleteCommissionLog,
              Db.record, Db.updateUserSubscription]
          · intro other different
            refine find?_updateUserSubscription_other db _ other ?_
            rintro rfl
            exact different invited
      next waiting =>
        cases returned
        have moves : refundMoves db order = [] := by
          simp [refundMoves, rolledBackInviter, invited, waiting]
        rw [moves]
        exact ⟨.none rfl rfl, id, by
          simp [deletesCommissionLog, invited, positive, waiting, Db.deleteCommissionLog],
          fun _ _ => rfl, rfl⟩

theorem rollbackUserSubscriptionForRefund_writes {rt : Runtime} {now : Int}
    {current row : UserRecord} {order : OrderRecord} {db db' : Db}
    (returned : rollbackUserSubscriptionForRefund rt now current order db = .ok (row, db')) :
    SameWallet row current ∧ db'.orders.rows = db.orders.rows.map (restoredRow now order) ∧
      db' = { db with orders := db'.orders } := by
  have unlisted : surplusIDs order = [] → db.orders.rows.map (restoredRow now order) =
      db.orders.rows := by
    intro none
    have same : restoredRow now order = id := by
      funext r
      simp [restoredRow, none]
    rw [same, List.map_id]
  unfold rollbackUserSubscriptionForRefund at returned
  split at returned
  next listed =>
    simp only [bind_eq_ok, rebuildSubscriptionFromOrderIDs, pure_eq_ok, Prod.mk.injEq] at returned
    obtain ⟨_, ⟨restored, replayed, rfl⟩, rfl, rfl⟩ := returned
    refine ⟨?_, ?_, rfl⟩
    · exact (preserveUserUsage_wallet _ _).trans
        ((replay_wallet _ _ _ _ _ replayed).trans (clearSubscriptionForRefund_wallet _))
    · simp [Db.restoreSurplusOrdersForRefund, restoredRow]
  next none =>
    rw [unlisted (not_not.mp none)]
    split at returned
    next =>
      simp only [bind_eq_ok, pure_eq_ok, Prod.mk.injEq] at returned
      obtain ⟨restored, rolled, rfl, rfl⟩ := returned
      exact ⟨rollbackRenewalSubscription_wallet _ _ _ _ rolled, rfl, rfl⟩
    next =>
      simp only [bind_eq_ok, pure_eq_ok, Prod.mk.injEq] at returned
      obtain ⟨restored, rebuilt, rfl, rfl⟩ := returned
      refine ⟨?_, rfl, rfl⟩
      unfold rebuildPreviousSubscriptionBeforeRefund at rebuilt
      dsimp only at rebuilt
      split at rebuilt
      next => exact Except.ok.inj rebuilt ▸ clearSubscriptionForRefund_wallet current
      next =>
        simp only [bind_eq_ok, pure_eq_ok] at rebuilt
        obtain ⟨replayed, done, rfl⟩ := rebuilt
        exact (preserveUserUsage_wallet _ _).trans
          ((replay_wallet _ _ _ _ _ done).trans (clearSubscriptionForRefund_wallet _))
    all_goals
      obtain ⟨rfl, rfl⟩ := Prod.mk.inj (Except.ok.inj returned)
      exact ⟨clearSubscriptionForRefund_wallet current, rfl, rfl⟩

theorem refundManagedOrder_refunded {rt : Runtime} {now : Int} {tradeNo : String} {db db' : Db}
    (returned : refundManagedOrder rt now tradeNo db = .ok db') :
    ∃ order ∈ db.orders, order.tradeNo = trimSpace tradeNo ∧ Refunded now order db db' := by
  simp only [refundManagedOrder, bind_eq_ok, ensure_eq_ok, exists_const, require_eq_ok,
    pure_eq_ok] at returned
  obtain ⟨-, order, locked, completed, target, latest, userRow, lockedUser, db₁, rolled,
    ⟨row, db₂⟩, restored, rfl⟩ := returned
  obtain ⟨member, tradeNo'⟩ := (Table.findUniq?_eq_some ..).mp locked
  refine ⟨order, member, tradeNo', ?_⟩
  obtain ⟨r, stored, key, id, found, balance, commission⟩ := Db.lockUser_row lockedUser
  obtain ⟨moves, solvent₁, logs, others, frame₁⟩ := rollbackCommissionForRefund_writes rolled
  obtain ⟨wallet, orders, frame₂⟩ := rollbackUserSubscriptionForRefund_writes restored
  refine ⟨completed, target, latest, ?_, ?_, ?_, ?_, ?_, ?_, ?_⟩
  · have same : db₁.orders = db.orders := by rw [frame₁]
    simp only [Db.updateOrderRefundState, Db.updateOrder, Db.updateUserSubscription,
      Table.rows_updateWhere, orders, same, List.map_map]
    apply List.map_congr_left
    intro r _
    have key : (restoredRow now order r).id = r.id := by
      unfold restoredRow
      split <;> rfl
    simp only [Function.comp_apply, decide_eq_true_eq, key, refundedRow]
    split
    · unfold restoredRow
      split <;> rfl
    · rfl
  · rw [← logs, frame₂]
    rfl
  · rw [← moves.ledger, frame₂]
    rfl
  · intro foreign
    have before : db₁.users.find? order.userID = some r := by rw [others _ foreign, found]
    have before₂ : db₂.users.find? order.userID = some r := by rw [frame₂, before]
    have unchanged : Moves db₁ db₂ [] := by
      rw [frame₂]
      exact .none rfl rfl
    have rewritten := Db.moves_rewrite before₂ (wallet.id.trans id) (wallet.balance.trans balance)
      (wallet.commissionBalance.trans commission)
    have total := (moves.trans unchanged).trans rewritten
    rw [List.append_nil, List.append_nil] at total
    exact total.congr rfl rfl
  · intro own k
    have users : db₂.users.find? k = db₁.users.find? k := by rw [frame₂]
    have written : row.id = order.userID := wallet.id.trans id
    simp only [Db.updateOrderRefundState, Db.updateOrder, Db.updateUserSubscription,
      Table.find?_updateWhere, users, Option.map_map]
    by_cases same : k = order.userID
    · have kept := moves.users k
      subst same
      rw [found] at kept ⊢
      cases found₁ : db₁.users.find? order.userID with
      | none => rw [found₁] at kept; cases kept
      | some r₁ =>
        have key₁ : r₁.id = order.userID := Table.key_of_find? found₁
        simp [key₁, written, UserRecord.wallet, wallet.balance, wallet.commissionBalance, balance,
          commission]
    · have kept := others k fun invited => same (Option.some.inj (invited.symm.trans own))
      rw [kept]
      cases other : db.users.find? k with
      | none => rfl
      | some r₁ =>
        have key₁ : r₁.id = k := Table.key_of_find? other
        simp [key₁, written, same]
  · intro solvent
    have solvent₂ : Solvent db₂ := Solvent.congr (by rw [frame₂]) (solvent₁ solvent)
    refine (Db.solvent_updateUserSubscription solvent₂ ?_).congr rfl
    rw [wallet.balance, balance]
    exact solvent r stored
  · rw [frame₂, frame₁]
    rfl

end ForestPanel
