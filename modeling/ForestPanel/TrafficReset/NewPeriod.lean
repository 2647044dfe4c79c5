import ForestPanel.Lib.Outcome
import ForestPanel.Store.Database
import ForestPanel.TrafficReset.Shown

/-!
# An early new period

A user who has used up the traffic may give up days of the subscription for a new period: as
many as are left to the next reset, or as the period has. What is left of the subscription is
more than a period and a day, and no count of days to a reset is more than that.
-/
namespace ForestPanel.TrafficReset

open Calendar Outcome Relational

inductive NewPeriodError
  | renewalNotAllowed
  | notFound
  | trafficLeft
  | subscriptionNotRenewable
  | planNotFound
  | invalidResetPeriod
  | notEnoughTime
deriving DecidableEq, Repr

/-- A row of `v2_user`. -/
structure UserRow extends UserRecord where
  updatedAt : Int
deriving DecidableEq

def UserRow.key (r : UserRow) : Int := r.id

structure PeriodBase where
  users : Table UserRow.key UserRow.key
  plans : Table ResetPlan.id ResetPlan.id

structure PeriodConfig where
  allowNewPeriod : Bool
  resetTrafficMethod : Int
deriving DecidableEq

def runningExpiry (expiredAt : Option Int) (now : Int) : Option Int := expiredAt.filter (now < ·)

def calculateResetDayForPlan (zone : Zone) (cfg : PeriodConfig) (plan : ResetPlan)
    (expiredAt : Option Int) (now : Int) : Option Int := do
  let expiry ← runningExpiry expiredAt now
  match plan.resetTrafficMethod.getD cfg.resetTrafficMethod with
  | 0 => some (calcResetDayByMonthFirstDay zone now)
  | 1 => some (calcResetDayByExpireDay zone expiry now)
  | 3 => some (calcResetDayByYearFirstDay zone now)
  | 4 => some (calcResetDayByYearExpiredAt zone expiry now)
  | _ => none

def calculateResetPeriodForPlan (cfg : PeriodConfig) (plan : ResetPlan) (expiredAt : Option Int)
    (now : Int) : Option Int := do
  let _ ← runningExpiry expiredAt now
  match plan.resetTrafficMethod.getD cfg.resetTrafficMethod with
  | 0 => some 1
  | 1 => some 30
  | 3 => some 12
  | 4 => some 365
  | _ => none

def periodDays (resetDay resetPeriod : Int) : Option (Int × Int) :=
  let positive := fun period => if resetDay ≤ 0 then period else resetDay
  match resetPeriod with
  | 1 => some (30, 30)
  | 30 => some (positive 30, 30)
  | 12 => some (365, 365)
  | 365 => some (positive 365, 365)
  | _ => none

def lockUserRow (db : PeriodBase) (userID : Int) : Except NewPeriodError UserRow := do
  let row ← require (db.users.find? userID) .notFound
  pure { row with expiredAt := Db.normalizeNullableExpiry row.expiredAt }

def updateUserSubscriptionRow (db : PeriodBase) (row : UserRow) (now : Int) : PeriodBase :=
  { db with
    users := db.users.updateWhere (fun r => r.id = row.id)
      (fun r => { r with
        balance := row.balance
        commissionBalance := row.commissionBalance
        u := row.u
        d := row.d
        transferEnable := row.transferEnable
        deviceLimit := row.deviceLimit
        groupID := row.groupID
        planID := row.planID
        speedLimit := row.speedLimit
        expiredAt := row.expiredAt
        updatedAt := now }) fun _ => ⟨rfl, rfl⟩ }

def newPeriod (zone : Zone) (cfg : PeriodConfig) (db : PeriodBase) (userID now : Int) :
    Except NewPeriodError PeriodBase := do
  ensure (cfg.allowNewPeriod = true) .renewalNotAllowed
  let userRow ← lockUserRow db userID
  ensure (userRow.transferEnable ≤ userRow.u + userRow.d) .trafficLeft
  let planID ← require userRow.planID .subscriptionNotRenewable
  let plan ← require (db.plans.find? planID) .planNotFound
  let resetDay ← require (calculateResetDayForPlan zone cfg plan userRow.expiredAt now)
    .subscriptionNotRenewable
  let resetPeriod ← require (calculateResetPeriodForPlan cfg plan userRow.expiredAt now)
    .subscriptionNotRenewable
  let (day, period) ← require (periodDays resetDay resetPeriod) .invalidResetPeriod
  let expiredAt ← require userRow.expiredAt .notEnoughTime
  ensure ((period + 1) * 86400 < expiredAt - now) .notEnoughTime
  pure (updateUserSubscriptionRow db
    { userRow with expiredAt := some (expiredAt - day * 86400), u := 0, d := 0 } now)

/-- The database after the request; a failed one is rolled back. -/
def afterNewPeriod (zone : Zone) (cfg : PeriodConfig) (db : PeriodBase) (userID now : Int) :
    PeriodBase :=
  match newPeriod zone cfg db userID now with
  | .ok db' => db'
  | .error _ => db

private theorem periodDays_bounds {zone : Zone} {cfg : PeriodConfig} {plan : ResetPlan}
    {expiredAt : Option Int} {now : Nat} {resetDay resetPeriod day period : Int}
    (left : calculateResetDayForPlan zone cfg plan expiredAt now = some resetDay)
    (length : calculateResetPeriodForPlan cfg plan expiredAt now = some resetPeriod)
    (days : periodDays resetDay resetPeriod = some (day, period)) :
    0 < day ∧ day ≤ period + 1 := by
  simp only [calculateResetDayForPlan, Option.bind_eq_bind, Option.bind_eq_some_iff] at left
  simp only [calculateResetPeriodForPlan, Option.bind_eq_bind, Option.bind_eq_some_iff] at length
  obtain ⟨expiry, -, left⟩ := left
  obtain ⟨-, -, length⟩ := length
  generalize plan.resetTrafficMethod.getD cfg.resetTrafficMethod = method at left length
  split at left
  next =>
    obtain rfl := Option.some.inj length
    obtain ⟨rfl, rfl⟩ := Prod.mk.inj (Option.some.inj days)
    omega
  next =>
    have most := expireDay_le zone expiry now
    obtain rfl := Option.some.inj left
    obtain rfl := Option.some.inj length
    obtain ⟨rfl, rfl⟩ := Prod.mk.inj (Option.some.inj days)
    dsimp only
    split <;> omega
  next =>
    obtain rfl := Option.some.inj length
    obtain ⟨rfl, rfl⟩ := Prod.mk.inj (Option.some.inj days)
    omega
  next =>
    have most := yearExpiredAt_le zone expiry now
    obtain rfl := Option.some.inj left
    obtain rfl := Option.some.inj length
    obtain ⟨rfl, rfl⟩ := Prod.mk.inj (Option.some.inj days)
    dsimp only
    split <;> omega
  next => cases left

/-- What a request leaves: nothing is changed when it fails; else the user's counters are zero,
the expiry is earlier but still to come, and of the other fields only `updated_at` is new. -/
theorem newPeriod_spec (zone : Zone) (cfg : PeriodConfig) (db : PeriodBase) (userID : Int)
    (now : Nat) :
    match newPeriod zone cfg db userID now with
    | .error _ => afterNewPeriod zone cfg db userID now = db
    | .ok db' => afterNewPeriod zone cfg db userID now = db' ∧
        ∃ row expiredAt shortened, db.users.find? userID = some row ∧
          row.expiredAt = some expiredAt ∧ shortened < expiredAt ∧ now < shortened ∧
          db'.users.find? userID = some { row with
            u := 0, d := 0, expiredAt := some shortened, updatedAt := (now : Int) } ∧
          (∀ other, other ≠ userID → db'.users.find? other = db.users.find? other) ∧
          db'.plans = db.plans := by
  cases returned : newPeriod zone cfg db userID now with
  | error e => simp [afterNewPeriod, returned]
  | ok db' =>
    refine ⟨by simp [afterNewPeriod, returned], ?_⟩
    simp only [newPeriod, lockUserRow, bind_eq_ok, ensure_eq_ok, exists_const, require_eq_ok,
      pure_eq_ok] at returned
    obtain ⟨-, locked, ⟨row, found, rfl⟩, -, planID, -, plan, -, resetDay, left, resetPeriod,
      length, ⟨day, period⟩, days, expiredAt, running, enough, rfl⟩ := returned
    obtain ⟨least, most⟩ := periodDays_bounds left length days
    have stored : row.expiredAt = some expiredAt := (Option.filter_eq_some_iff.mp running).1
    have named : row.id = userID := (Table.key_of_find? found : UserRow.key row = userID)
    refine ⟨row, expiredAt, expiredAt - day * 86400, found, stored, by omega, by omega, ?_, ?_, rfl⟩
    · simp [updateUserSubscriptionRow, Table.find?_updateWhere, found, named]
    · intro other different
      simp only [updateUserSubscriptionRow, Table.find?_updateWhere, named]
      cases there : db.users.find? other with
      | none => rfl
      | some r =>
        have key : r.id = other := (Table.key_of_find? there : UserRow.key r = other)
        simp [key, different]

/-- `updated_at` is a field, and changes too. -/
theorem newPeriod_changes_updatedAt :
    ∃ (zone : Zone) (cfg : PeriodConfig) (db db' : PeriodBase) (row row' : UserRow),
      newPeriod zone cfg db 1 1000 = .ok db' ∧ db.users.find? 1 = some row ∧
        db'.users.find? 1 = some row' ∧ row'.updatedAt ≠ row.updatedAt := by
  let row : UserRow :=
    { id := 1, inviteUserID := none, balance := 0, commissionBalance := 0, discount := none,
      commissionType := 0, commissionRate := none, u := 5, d := 5, transferEnable := 10,
      deviceLimit := none, banned := 0, groupID := some 1, planID := some 1, speedLimit := none,
      expiredAt := some 10000000, updatedAt := 0 }
  let db : PeriodBase :=
    { users := ⟨[row], by decide, by decide⟩
      plans := ⟨[⟨1, some 0⟩], by decide, by decide⟩ }
  refine ⟨⟨0, by decide⟩, ⟨true, 0⟩, db, _, row, _, rfl, rfl, rfl, ?_⟩
  decide

end ForestPanel.TrafficReset
