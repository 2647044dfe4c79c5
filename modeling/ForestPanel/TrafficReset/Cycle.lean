import ForestPanel.Lib.Calendar
import ForestPanel.Lib.Table
import ForestPanel.Passport.RuntimeStore
import ForestPanel.Store.Rows
import Mathlib.Data.List.Sort

/-!
# Traffic resets

A plan's reset method cuts time into cycles. A sweep resets the traffic of every user whose
cycle it has not seen yet, and keeps the cycle it saw last as a marker in `v2_runtime_kv`.
-/
namespace ForestPanel.TrafficReset

open Calendar Passport Relational

/-- `trafficResetClippedDate`, for the month `m`. -/
def trafficResetClippedDate (zone : Zone) (m day : Int) : Int :=
  let lastDay := dayOf (zone.day (zone.date (m + 1) 0))
  zone.date m (if lastDay < day then lastDay else day)

def trafficResetMonthlyAnchor (zone : Zone) (expiredAt now : Int) : Int :=
  let target := dayOf (zone.day expiredAt)
  let candidate := trafficResetClippedDate zone (monthOf (zone.day now)) target
  if now < candidate then
    let prev := zone.addMonths now (-1)
    trafficResetClippedDate zone (monthOf (zone.day prev)) target
  else candidate

def trafficResetYearlyAnchor (zone : Zone) (expiredAt now : Int) : Int :=
  let target := zone.day expiredAt
  let year := monthOf (zone.day now) / 12
  let candidate :=
    trafficResetClippedDate zone (12 * year + monthOf target % 12) (dayOf target)
  if now < candidate then
    trafficResetClippedDate zone (12 * (year - 1) + monthOf target % 12) (dayOf target)
  else candidate

structure TrafficResetCycle where
  marker : String
  startAt : Int
deriving DecidableEq

/-- Methods 0 and 1 are the monthly ones, by the first day and by the day of the expiry,
3 and 4 the yearly ones; 2 is never. -/
def trafficResetStart (zone : Zone) (method expiredAt now : Int) : Option Int :=
  match method with
  | 0 => some (zone.date (monthOf (zone.day now)) 1)
  | 1 => some (trafficResetMonthlyAnchor zone expiredAt now)
  | 3 => some (zone.date (12 * (monthOf (zone.day now) / 12)) 1)
  | 4 => some (trafficResetYearlyAnchor zone expiredAt now)
  | _ => none

def cycleMarker (planID method start : Int) : String :=
  "plan:" ++ formatInt planID ++ "|method:" ++ formatInt method ++ "|start:" ++ formatInt start

def trafficResetCurrentCycle (zone : Zone) (planID method expiredAt now : Int) :
    Option TrafficResetCycle :=
  if expiredAt ≤ 0 ∧ method ≠ 0 ∧ method ≠ 3 then none
  else (trafficResetStart zone method expiredAt now).map fun start =>
    { marker := cycleMarker planID method start, startAt := start }

/-- The columns of `v2_user` that the sweep reads. -/
structure TrafficUser where
  id : Int
  planID : Option Int
  u : Int
  d : Int
  expiredAt : Option Int
  createdAt : Int
  updatedAt : Int
deriving DecidableEq

structure ResetPlan where
  id : Int
  resetTrafficMethod : Option Int
deriving DecidableEq

structure PaidOrder where
  userID : Int
  planID : Int
  period : Period
  status : OrderStatus
  paidAt : Option Int
deriving DecidableEq

structure TrafficBase where
  users : Table TrafficUser.id TrafficUser.id
  plans : Table ResetPlan.id ResetPlan.id
  orders : List PaidOrder
  kv : Kv

structure TrafficResetCandidate where
  userID : Int
  planID : Int
  u : Int
  d : Int
  expiredAt : Int
  updatedAt : Int
  subscriptionStartedAt : Int
  planResetTrafficMethod : Option Int
deriving DecidableEq

/-- When the subscription began; without a time, when the row was written. -/
def TrafficResetCandidate.startedAt (item : TrafficResetCandidate) : Int :=
  if item.subscriptionStartedAt ≤ 0 then item.updatedAt else item.subscriptionStartedAt

/-- The last payment of the plan, or the creation of the user. -/
def subscriptionStartedAt (db : TrafficBase) (user : TrafficUser) (planID : Int) : Int :=
  ((db.orders.filter fun o => o.userID = user.id && o.status = .completed && o.planID = planID &&
    o.period ≠ .resetPrice && o.period ≠ .deposit).filterMap (·.paidAt)).max?.getD user.createdAt

/-- The row of the query for a user, who has a plan and has not expired. -/
def candidateOf (db : TrafficBase) (now : Int) (user : TrafficUser) :
    Option TrafficResetCandidate := do
  let planID ← user.planID
  let plan ← db.plans.find? planID
  let expiredAt ← user.expiredAt.filter (now < ·)
  some
    { userID := user.id
      planID
      u := user.u
      d := user.d
      expiredAt
      updatedAt := user.updatedAt
      subscriptionStartedAt := subscriptionStartedAt db user planID
      planResetTrafficMethod := plan.resetTrafficMethod }

def candidates (db : TrafficBase) (now : Int) : List TrafficResetCandidate :=
  (db.users.rows.filterMap (candidateOf db now)).insertionSort fun a b => a.userID ≤ b.userID

inductive TrafficResetApplyResult
  | skipped | markedOnly | reset
deriving DecidableEq, Repr

def trafficResetCycleKVKey (userID : Int) : String :=
  "TRAFFIC_RESET_CYCLE_USER_" ++ formatInt userID

/-- 400 days. -/
def trafficResetMarkerTTLSeconds : Int := 400 * 24 * 3600

def resetUserTrafficUsage (db : TrafficBase) (userID now : Int) : TrafficBase :=
  { db with
    users := db.users.updateWhere (fun r => r.id = userID)
      (fun r => { r with u := 0, d := 0, updatedAt := now }) fun _ => ⟨rfl, rfl⟩ }

/-- `resetTrafficMethod` is the method of the configuration, for plans that have none. -/
def applyTrafficResetCandidate (zone : Zone) (resetTrafficMethod : Int) (db : TrafficBase)
    (item : TrafficResetCandidate) (now : Int) (forceBackfill : Bool) :
    TrafficBase × TrafficResetApplyResult :=
  let method := item.planResetTrafficMethod.getD resetTrafficMethod
  match trafficResetCurrentCycle zone item.planID method item.expiredAt now with
  | none => (db, .skipped)
  | some cycle =>
    let markerKey := trafficResetCycleKVKey item.userID
    if (kvGet db.kv now markerKey).map trimSpace = some cycle.marker then (db, .skipped)
    else
      let kv := kvSet db.kv now markerKey cycle.marker trafficResetMarkerTTLSeconds
      if (forceBackfill = true ∨ item.startedAt < cycle.startAt) ∧ (0 < item.u ∨ 0 < item.d) then
        ({ resetUserTrafficUsage db item.userID now with kv }, .reset)
      else ({ db with kv }, .markedOnly)

structure TrafficResetSweepResult where
  scanned : Nat
  reset : Nat
  markedOnly : Nat
  skipped : Nat
deriving DecidableEq

/-- The candidates one by one, with what came of each. -/
def applyAll (zone : Zone) (resetTrafficMethod : Int) (now : Int) (forceBackfill : Bool) :
    TrafficBase → List TrafficResetCandidate →
      TrafficBase × List (TrafficResetCandidate × TrafficResetApplyResult)
  | db, [] => (db, [])
  | db, item :: rest =>
    let (db', applied) :=
      applyTrafficResetCandidate zone resetTrafficMethod db item now forceBackfill
    let (db'', later) := applyAll zone resetTrafficMethod now forceBackfill db' rest
    (db'', (item, applied) :: later)

def runTrafficResetSweepAt (zone : Zone) (resetTrafficMethod : Int) (db : TrafficBase)
    (now : Int) (forceBackfill : Bool) : TrafficBase × TrafficResetSweepResult :=
  let (db', applied) :=
    applyAll zone resetTrafficMethod now forceBackfill db (candidates db now)
  (db', { scanned := applied.length
          reset := applied.countP (·.2 = .reset)
          markedOnly := applied.countP (·.2 = .markedOnly)
          skipped := applied.countP (·.2 = .skipped) })

end ForestPanel.TrafficReset
