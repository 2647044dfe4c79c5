import ForestPanel.System

/-!
# Which orders are admitted

What `SaveOrder` has made sure of when it saves an order of a plan. The seats of a plan are
counted only for a user who holds another plan.
-/
namespace ForestPanel

open Relational Outcome

/-- The subscription has no end, or has not come to it. -/
def UserRecord.Unexpired (row : UserRecord) (now : Int) : Prop :=
  ∀ expiry, row.expiredAt = some expiry → now < expiry

def UserRecord.Subscribed (row : UserRecord) (planID now : Int) : Prop :=
  row.planID = some planID ∧ row.Unexpired now

/-- An order of the user that waits for its payment or to be opened. -/
def UnfinishedOrder (db : Db) (userID : Int) : Prop :=
  ∃ o ∈ db.orders, o.userID = userID ∧ (o.status = .pending ∨ o.status = .processing)

structure Admissible (db : Db) (now : Int) (userRow : UserRecord) (plan : PlanRecord)
    (period : Period) : Prop where
  priced : (plan.priceForPeriod period).isSome = true
  offered : period ≠ .resetPrice → plan.isShown = true ∨
    plan.canRenew = true ∧ userRow.planID = some plan.id
  seat : plan.capacityLimit.isSome = true → planHasCapacity db plan now = true ∨
    userRow.Subscribed plan.id now
  renewal : period ≠ .resetPrice → userRow.planID = some plan.id → plan.canRenew = true
  reset : period = .resetPrice → userRow.Subscribed plan.id now
  alone : ¬UnfinishedOrder db userRow.id

/-- The seats are counted, as the user holds another plan, or need not be. -/
def SeatCounted (db : Db) (now : Int) (userRow : UserRecord) (plan : PlanRecord) : Prop :=
  (∃ other, userRow.planID = some other ∧ other ≠ plan.id) ∨
    planHasCapacity db plan now = true ∨ userRow.Subscribed plan.id now

private theorem unexpired_of_isAvailable {row : UserRecord} {now : Int}
    (available : row.isAvailable now = true) : row.Unexpired now := by
  intro expiry stored
  simp only [UserRecord.isAvailable, stored, Bool.and_eq_true, decide_eq_true_eq] at available
  exact available.2

private theorem not_unfinished {db : Db} {userID : Int}
    (none' : db.hasPendingOrder userID = false) : ¬UnfinishedOrder db userID := by
  rintro ⟨o, member, buyer, status⟩
  have found : db.hasPendingOrder userID = true := by
    refine List.any_eq_true.mpr ⟨o, member, ?_⟩
    simpa [buyer] using status
  rw [none'] at found
  cases found

private theorem admissible_iff_of_checkPlan {db : Db} {now price : Int} {userRow : UserRecord}
    {plan : PlanRecord} {period : Period} (alone : ¬UnfinishedOrder db userRow.id)
    (checked : checkPlan db now userRow plan period = .ok price) :
    Admissible db now userRow plan period ↔ SeatCounted db now userRow plan := by
  simp only [checkPlan, bind_eq_ok, ensure_eq_ok, exists_const, require_eq_ok,
    pure_eq_ok] at checked
  obtain ⟨seats, price', priced, -, reset, shown, renewable, -, rfl⟩ := checked
  have reset' : period = .resetPrice → userRow.Subscribed plan.id now := by
    intro pack
    rcases reset with other | ⟨available, holds⟩
    · exact absurd pack other
    · exact ⟨holds, unexpired_of_isAvailable available⟩
  constructor
  · intro admissible
    cases limited : plan.capacityLimit with
    | none => exact .inr (.inl (by simp [planHasCapacity, limited]))
    | some capacity => exact .inr (admissible.seat (by simp [limited]))
  · intro counted
    constructor
    case priced => simp [priced]
    case offered =>
      intro plain
      exact (shown.resolve_left plain)
    case seat =>
      intro limited
      rcases counted with ⟨other, holds, different⟩ | seat
      · rcases seats with none' | same | pack | capacity
        · rw [holds] at none'
          cases none'
        · rw [holds] at same
          exact absurd (Option.some.inj same) different
        · exact .inr (reset' pack)
        · exact .inl capacity
      · exact seat
    case renewal =>
      intro plain holds
      rcases renewable with pack | renew | other
      · exact absurd pack plain
      · exact renew
      · exact absurd holds other
    case reset => exact reset'
    case alone => exact alone

/-- An order of a plan that is saved meets the rules exactly when the user holds another plan,
the plan has a seat left, or the user holds the plan before the expiry. -/
theorem saveOrder_admission_iff (rt : Runtime) (cfg : Config) (now userID : Int)
    (req : OrderSaveRequest) (tradeNo : String) (db : Db) :
    match saveOrder rt cfg now userID req tradeNo db with
    | .error _ => True
    | .ok _ => req.planID ≠ 0 → ∃ userRow plan period,
        db.lockUser userID = .ok userRow ∧ db.plans.find? req.planID = some plan ∧
        periodOf (trimSpace req.period) = some period ∧
        (Admissible db now userRow plan period ↔ SeatCounted db now userRow plan) := by
  cases returned : saveOrder rt cfg now userID req tradeNo db with
  | error e => trivial
  | ok db' =>
    intro ordered
    simp only [saveOrder, bind_eq_ok, ensure_eq_ok, exists_const, require_eq_ok] at returned
    obtain ⟨-, period, named, userRow, locked, alone, returned⟩ := returned
    rw [if_neg ordered] at returned
    simp only [savePlanOrder, bind_eq_ok, require_eq_ok] at returned
    obtain ⟨plan, found, price, checked, -⟩ := returned
    have own : userRow.id = userID := by
      simp only [Db.lockUser, bind_eq_ok, require_eq_ok, pure_eq_ok] at locked
      obtain ⟨row, stored, rfl⟩ := locked
      exact (Table.key_of_find? stored : row.id = userID)
    refine ⟨userRow, plan, period, locked, found, named, ?_⟩
    exact admissible_iff_of_checkPlan (own ▸ not_unfinished alone) checked

/-- A plan for one user, who is there, and another user without a plan. -/
def fullPlan : Db :=
  (Small.sys
    ⟨[{ Small.buyer 1 0 with planID := some 1, expiredAt := some 5000 }, Small.buyer 2 0],
      by decide, by decide⟩
    ⟨[{ Small.plan 1 1000 with capacityLimit := some 1 }], by decide, by decide⟩ .empty).db

/-- The plan is sold to the other user. -/
theorem full_plan_sold :
    ∃ db' userRow plan,
      saveOrder Small.runtime Small.config 1000 2 ⟨1, "month_price", "", 0⟩ "T" fullPlan =
        .ok db' ∧
      fullPlan.lockUser 2 = .ok userRow ∧ fullPlan.plans.find? 1 = some plan ∧
      ¬Admissible fullPlan 1000 userRow plan .monthPrice := by
  refine ⟨_, _, _, rfl, rfl, rfl, ?_⟩
  intro admissible
  rcases admissible.seat rfl with counted | ⟨holds, -⟩
  · exact absurd counted (by decide)
  · exact absurd holds (by decide)

end ForestPanel
