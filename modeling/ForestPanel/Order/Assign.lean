import ForestPanel.Order.Save

/-!
# Orders from elsewhere

The other transactions that insert orders: the administrator assigns one of any period to a
user, and a user's transfer of commission to the balance leaves a completed deposit order.
-/
namespace ForestPanel

open Relational Outcome

structure OrderAssignRequest where
  planID : Int
  period : String
  totalAmount : Int
deriving Repr, DecidableEq

/-- The `switch` of `AssignOrder`, which has no surplus and no case for deposits. -/
def assignedType (now : Int) (userRow : UserRecord) (planID : Int) (period : Period) : OrderType :=
  if period = .resetPrice then .reset
  else if userRow.planID.isSome ∧ userRow.planID ≠ some planID then .change
  else if notExpired userRow now = true ∧ userRow.planID = some planID then .renewal
  else .purchase

/-- `userID` is the user that the email of the request finds. -/
def assignOrder (cfg : Config) (now userID : Int) (req : OrderAssignRequest) (tradeNo : String)
    (db : Db) : Except ServiceError Db := do
  ensure (0 < req.planID ∧ 0 ≤ req.totalAmount) .invalidParameter
  let period ← require (periodOf (trimSpace req.period)) .invalidParameter
  let userRow ← db.lockUser userID
  let plan ← require (db.plans.find? req.planID) .planNotFound
  ensure (db.hasPendingOrder userRow.id = false) .pendingOrderExists
  let type := assignedType now userRow plan.id period
  let draft ← setInvite cfg db userRow
    (newDraft userRow.id plan.id type period tradeNo req.totalAmount)
  db.insertOrder (draft.row now)

/-- `Transfer`; its errors have texts of their own, which are not told apart here. -/
def transfer (rt : Runtime) (cfg : Config) (now userID amount : Int) (tradeNo : String) (db : Db) :
    Except ServiceError Db := do
  ensure (1 ≤ amount) .invalidParameter
  let userRow ← db.lockUser userID
  ensure (amount ≤ userRow.commissionBalance) .insufficientBalance
  let draft ← setOrderType rt cfg db now userRow
    (newDraft userRow.id 0 .purchase .deposit tradeNo amount)
  let draft ← setInvite cfg db userRow draft
  let db ← db.insertOrder
    { ({ draft with totalAmount := 0, surplusAmount := amount } : OrderDraft).row now with
      status := .completed }
  pure (db.updateUserSubscription
    { userRow with
      commissionBalance := userRow.commissionBalance - amount
      balance := userRow.balance + amount })

/-- A row without surplus is inserted under the next number, for a plan or a deposit. -/
structure Inserted (row : OrderRecord) (db db' : Db) : Prop where
  id : row.id = db.orderSeq + 1
  seq : db'.orderSeq = db.orderSeq + 1
  plan : row.period = .deposit ∨ 0 < row.planID
  plain : surplusIDs row = []
  orders : db'.orders.rows = db.orders.rows ++ [row]
  status : row.status ≠ .closed

private theorem insertOrder_rows {db db' : Db} {draft : OrderRecord}
    (returned : db.insertOrder draft = .ok db') :
    db'.orders.rows = db.orders.rows ++ [{ draft with id := db.orderSeq + 1 }] ∧
      db'.orderSeq = db.orderSeq + 1 := by
  simp only [Db.insertOrder, bind_eq_ok, require_eq_ok, pure_eq_ok] at returned
  obtain ⟨orders, inserted, rfl⟩ := returned
  exact ⟨((Table.insert?_eq_some ..).mp inserted).1, rfl⟩

theorem assignOrder_inserted {cfg : Config} {now userID : Int} {req : OrderAssignRequest}
    {tradeNo : String} {db db' : Db}
    (returned : assignOrder cfg now userID req tradeNo db = .ok db') :
    ∃ row, Inserted row db db' := by
  simp only [assignOrder, bind_eq_ok, ensure_eq_ok, exists_const, require_eq_ok] at returned
  obtain ⟨⟨positive, -⟩, period, -, userRow, -, plan, found, -, draft, invited, returned⟩ :=
    returned
  obtain ⟨inviter, commission, rfl⟩ := setInvite_frame invited
  obtain ⟨rows, seq⟩ := insertOrder_rows returned
  have named : plan.id = req.planID := Table.key_of_find? found
  refine ⟨_, rfl, seq, Or.inr ?_, rfl, rows, nofun⟩
  exact named ▸ positive

theorem transfer_inserted {rt : Runtime} {cfg : Config} {now userID amount : Int}
    {tradeNo : String} {db db' : Db}
    (returned : transfer rt cfg now userID amount tradeNo db = .ok db') :
    ∃ row, Inserted row db db' := by
  simp only [transfer, bind_eq_ok, ensure_eq_ok, exists_const, pure_eq_ok] at returned
  obtain ⟨-, userRow, -, -, draft, typed, draft', invited, db₁, inserted, rfl⟩ := returned
  obtain rfl := Except.ok.inj typed
  obtain ⟨inviter, commission, rfl⟩ := setInvite_frame invited
  obtain ⟨rows, seq⟩ := insertOrder_rows inserted
  exact ⟨_, rfl, seq, Or.inl rfl, rfl, rows, by rintro ⟨⟩⟩

end ForestPanel
