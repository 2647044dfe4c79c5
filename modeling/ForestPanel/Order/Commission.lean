import ForestPanel.Order.Open

/-!
# Settling and editing commissions

`handleQueuedCommission`, which pays an order's commission to its inviter, and
the administrator's edit of the commission status.
-/
namespace ForestPanel

open Relational Outcome

/-- The debt in `commission_balance` the credit repays first. -/
def repaidCommissionDebt (inviter : UserRecord) (amount : Int) : Int :=
  if inviter.commissionBalance < 0 then min amount (-inviter.commissionBalance) else 0

/-- What the credit adds to `balance`: what the debt leaves over, when
withdrawals are closed. -/
def creditedToBalance (cfg : Config) (inviter : UserRecord) (amount : Int) : Int :=
  let credited := amount - repaidCommissionDebt inviter amount
  if 0 < credited ∧ cfg.withdrawCloseEnable then credited else 0

def creditedToCommission (cfg : Config) (inviter : UserRecord) (amount : Int) : Int :=
  let credited := amount - repaidCommissionDebt inviter amount
  repaidCommissionDebt inviter amount +
    if 0 < credited ∧ ¬cfg.withdrawCloseEnable then credited else 0

def creditInviter (cfg : Config) (inviter : UserRecord) (amount : Int) : UserRecord :=
  { inviter with
    balance := inviter.balance + creditedToBalance cfg inviter amount
    commissionBalance := inviter.commissionBalance + creditedToCommission cfg inviter amount }

/-- Whether the waiting commission may be paid, or already is being paid. -/
def commissionDue (cfg : Config) (now : Int) (order : OrderRecord) : Prop :=
  let paidAt := if 0 < order.paidAt.getD 0 then order.paidAt.getD 0 else order.createdAt
  match order.commissionStatus with
  | .waiting =>
    cfg.commissionAutoCheckEnable ∧ paidAt ≤ now - max cfg.commissionAutoCheckMinutes 0 * 60
  | .paying => True
  | .paid | .rejected => False

instance (cfg : Config) (now : Int) (order : OrderRecord) :
    Decidable (commissionDue cfg now order) := by
  unfold commissionDue
  dsimp only
  split <;> infer_instance

def settleCommission (cfg : Config) (now : Int) (order : OrderRecord) (inviterID : Int) (db : Db) :
    Except ServiceError Db :=
  match db.lockUser inviterID with
  | .error .notFound => .ok db
  | .error e => .error e
  | .ok inviter =>
    let amount := order.commissionBalance
    let db := db.updateUserSubscription (creditInviter cfg inviter amount)
    let db := db.record inviter.id order.id .commission (creditedToBalance cfg inviter amount)
      (creditedToCommission cfg inviter amount)
    let db := db.insertCommissionLog
      ⟨inviterID, order.userID, order.tradeNo, order.totalAmount, amount, now⟩
    .ok (db.updateOrderCommissionState { order with
      commissionStatus := .paid
      actualCommissionBalance := some amount
      updatedAt := now })

def handleQueuedCommission (cfg : Config) (now : Int) (tradeNo : String) (db : Db) :
    Except ServiceError Db :=
  match db.lockOrderByTradeNo tradeNo with
  | none => .ok db
  | some order =>
    if order.status ≠ .completed then .ok db
    else if order.type = .deposit ∨ order.period = .deposit then
      if order.commissionStatus = .paid ∧ order.commissionBalance = 0 then .ok db
      else .ok (db.disableDepositCommission order now)
    else
      match order.inviteUserID with
      | none => .ok db
      | some inviterID =>
        if 0 < order.commissionBalance ∧ commissionDue cfg now order then
          settleCommission cfg now order inviterID db
        else .ok db

/-- `editableOrderCommissionStatus`, with the status the code stands for. -/
def editableOrderCommissionStatus (value : Int) : Option CommissionStatus :=
  if value = 0 then some .waiting
  else if value = 1 then some .paying
  else if value = 3 then some .rejected
  else none

def updateOrderCommissionStatus (now : Int) (tradeNo : String) (commissionStatus : Option Int)
    (db : Db) : Except ServiceError Db := do
  let tradeNo := trimSpace tradeNo
  let target ← require (commissionStatus.bind editableOrderCommissionStatus) .commissionInvalid
  ensure (tradeNo ≠ "") .commissionInvalid
  let order ← require (db.lockOrderByTradeNo tradeNo) .managedOrderMissing
  ensure (¬(order.commissionStatus = .paid ∨ 0 < order.actualCommissionBalance.getD 0))
    .commissionSettled
  ensure (¬(db.commissionLogs.any fun l => l.tradeNo = tradeNo)) .commissionSettled
  if order.commissionStatus = target then pure db
  else
    pure (db.updateOrder order.id (fun r => { r with
      commissionStatus := target
      updatedAt := now }) fun _ => ⟨rfl, rfl⟩)

theorem credited_total (cfg : Config) (inviter : UserRecord) (amount : Int)
    (positive : 0 < amount) :
    creditedToBalance cfg inviter amount + creditedToCommission cfg inviter amount = amount := by
  have repaid : repaidCommissionDebt inviter amount ≤ amount := by
    unfold repaidCommissionDebt
    split <;> omega
  simp only [creditedToBalance, creditedToCommission]
  generalize repaidCommissionDebt inviter amount = debt at repaid
  cases cfg.withdrawCloseEnable <;> simp <;> omega

theorem creditedToBalance_nonneg (cfg : Config) (inviter : UserRecord) (amount : Int) :
    0 ≤ creditedToBalance cfg inviter amount := by
  simp only [creditedToBalance]
  split_ifs <;> omega

def commissionPaidRow (now : Int) (order r : OrderRecord) : OrderRecord :=
  if r.id = order.id then
    { r with
      commissionStatus := .paid
      actualCommissionBalance := some order.commissionBalance
      updatedAt := now }
  else r

theorem commissionPaidRow_standing (now : Int) (order r : OrderRecord) :
    (commissionPaidRow now order r).terms = r.terms ∧
      (commissionPaidRow now order r).status = r.status := by
  unfold commissionPaidRow
  split <;> exact ⟨rfl, rfl⟩

structure CommissionSettled (cfg : Config) (now : Int) (order : OrderRecord)
    (inviter : UserRecord) (db db' : Db) : Prop where
  completed : order.status = .completed
  plan : order.type ≠ .deposit ∧ order.period ≠ .deposit
  invited : order.inviteUserID = some inviter.id
  found : db.users.find? inviter.id = some inviter
  positive : 0 < order.commissionBalance
  due : commissionDue cfg now order
  orders : db'.orders.rows = db.orders.rows.map (commissionPaidRow now order)
  commissionLogs : db'.commissionLogs = db.commissionLogs ++
    [⟨inviter.id, order.userID, order.tradeNo, order.totalAmount, order.commissionBalance, now⟩]
  moves : Moves db db' [⟨inviter.id, order.id, .commission,
    creditedToBalance cfg inviter order.commissionBalance,
    creditedToCommission cfg inviter order.commissionBalance⟩]
  solvent : Solvent db → Solvent db'
  frame : db' = { db with
    users := db'.users
    orders := db'.orders
    commissionLogs := db'.commissionLogs
    ledger := db'.ledger }

private theorem settleCommission_settled {cfg : Config} {now : Int} {order : OrderRecord}
    {inviterID : Int} {db db' : Db} (completed : order.status = .completed)
    (plan : order.type ≠ .deposit ∧ order.period ≠ .deposit)
    (invited : order.inviteUserID = some inviterID) (positive : 0 < order.commissionBalance)
    (due : commissionDue cfg now order)
    (returned : settleCommission cfg now order inviterID db = .ok db') :
    db' = db ∨ ∃ inviter, CommissionSettled cfg now order inviter db db' := by
  unfold settleCommission at returned
  split at returned
  next => exact Or.inl (Except.ok.inj returned).symm
  next => cases returned
  next inviter locked =>
    obtain rfl := Except.ok.inj returned
    obtain ⟨r, found, rfl⟩ := (Db.lockUser_eq_ok ..).mp locked
    have key : r.id = inviterID := Table.key_of_find? found
    subst key
    have row : (creditInviter cfg { r with
        expiredAt := Db.normalizeNullableExpiry r.expiredAt } order.commissionBalance).id =
        r.id := rfl
    refine Or.inr ⟨r, completed, plan, invited, found, positive, due, ?_, rfl, ?_, ?_, rfl⟩
    · simp [Db.updateOrderCommissionState, Db.updateOrder, Db.insertCommissionLog, Db.record,
        Db.updateUserSubscription, commissionPaidRow]
    · exact (Db.moves_updateUserSubscription found row rfl rfl .commission).congr rfl rfl
    · intro solvent
      refine (Db.solvent_updateUserSubscription solvent ?_).congr rfl
      have enough := solvent r (Table.mem_of_find? found)
      have credit := creditedToBalance_nonneg cfg r order.commissionBalance
      exact Int.add_nonneg enough credit

/-- The row of a deposit order after its commission columns are cleared. -/
def commissionClearedRow (now : Int) (order r : OrderRecord) : OrderRecord :=
  if r.id = order.id then
    { r with
      commissionBalance := 0
      commissionStatus := .paid
      actualCommissionBalance := some 0
      updatedAt := now }
  else r

theorem disableDepositCommission_rows (db : Db) (order : OrderRecord) (now : Int) :
    (db.disableDepositCommission order now).orders.rows =
      db.orders.rows.map (commissionClearedRow now order) := by
  simp [Db.disableDepositCommission, Db.updateOrder, commissionClearedRow]

theorem commissionClearedRow_standing (now : Int) (order r : OrderRecord) :
    (commissionClearedRow now order r).terms = r.terms ∧
      (commissionClearedRow now order r).status = r.status := by
  unfold commissionClearedRow
  split <;> exact ⟨rfl, rfl⟩

theorem handleQueuedCommission_cases {cfg : Config} {now : Int} {tradeNo : String} {db db' : Db}
    (returned : handleQueuedCommission cfg now tradeNo db = .ok db') :
    db' = db ∨ ∃ order ∈ db.orders,
      ((order.type = .deposit ∨ order.period = .deposit) ∧
        db' = db.disableDepositCommission order now) ∨
      ∃ inviter, CommissionSettled cfg now order inviter db db' := by
  unfold handleQueuedCommission at returned
  split at returned
  next => exact Or.inl (Except.ok.inj returned).symm
  next order locked =>
    have member : order ∈ db.orders := ((Table.findUniq?_eq_some ..).mp locked).1
    split at returned
    next => exact Or.inl (Except.ok.inj returned).symm
    next completed =>
      split at returned
      next deposit =>
        split at returned
        next => exact Or.inl (Except.ok.inj returned).symm
        next => exact Or.inr ⟨order, member, Or.inl ⟨deposit, (Except.ok.inj returned).symm⟩⟩
      next plan =>
        split at returned
        next => exact Or.inl (Except.ok.inj returned).symm
        next inviterID invited =>
          split at returned
          next ready =>
            rcases settleCommission_settled (not_not.mp completed) (not_or.mp plan) invited
              ready.1 ready.2 returned with same | settled
            · exact Or.inl same
            · exact Or.inr ⟨order, member, Or.inr settled⟩
          next => exact Or.inl (Except.ok.inj returned).symm

theorem editableOrderCommissionStatus_ne_paid {value : Int} {status : CommissionStatus}
    (editable : editableOrderCommissionStatus value = some status) : status ≠ .paid := by
  unfold editableOrderCommissionStatus at editable
  split_ifs at editable <;> cases editable <;> decide

def commissionEditedRow (now : Int) (order : OrderRecord) (target : CommissionStatus)
    (r : OrderRecord) : OrderRecord :=
  if r.id = order.id then { r with commissionStatus := target, updatedAt := now } else r

theorem commissionEditedRow_standing (now : Int) (order : OrderRecord) (target : CommissionStatus)
    (r : OrderRecord) : (commissionEditedRow now order target r).terms = r.terms ∧
      (commissionEditedRow now order target r).status = r.status := by
  unfold commissionEditedRow
  split <;> exact ⟨rfl, rfl⟩

theorem updateOrderCommissionStatus_cases {now : Int} {tradeNo : String}
    {commissionStatus : Option Int} {db db' : Db}
    (returned : updateOrderCommissionStatus now tradeNo commissionStatus db = .ok db') :
    db' = db ∨ ∃ order ∈ db.orders, ∃ target, target ≠ .paid ∧ order.commissionStatus ≠ .paid ∧
      db'.orders.rows = db.orders.rows.map (commissionEditedRow now order target) ∧
      db' = { db with orders := db'.orders } := by
  simp only [updateOrderCommissionStatus, bind_eq_ok, ensure_eq_ok, exists_const,
    require_eq_ok] at returned
  obtain ⟨target, wanted, -, order, locked, unpaid, -, returned⟩ := returned
  have member : order ∈ db.orders := ((Table.findUniq?_eq_some ..).mp locked).1
  split at returned
  next =>
    rw [pure_eq_ok] at returned
    exact Or.inl returned.symm
  next =>
    rw [pure_eq_ok] at returned
    subst returned
    obtain ⟨value, -, editable⟩ := Option.bind_eq_some_iff.mp wanted
    refine Or.inr ⟨order, member, target, editableOrderCommissionStatus_ne_paid editable,
      fun paid => unpaid (Or.inl paid), ?_, rfl⟩
    simp [Db.updateOrder, commissionEditedRow]

end ForestPanel
