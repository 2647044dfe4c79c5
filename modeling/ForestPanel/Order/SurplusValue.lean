import Mathlib.Algebra.Order.Field.Basic
import Mathlib.Algebra.Order.Floor.Ring
import Mathlib.Data.Rat.Floor
import Mathlib.Tactic.Positivity
import ForestPanel.System

/-!
# The value of the remaining period

What a change of plan counts the unused part of the old subscription for, in rational numbers:
the average price of a covered second, times the seconds that remain, less for used traffic.
The seconds that remain come from the user's expiry and are not bounded by those covered.
-/
namespace ForestPanel

open Relational Outcome

def monthSeconds : Int := 30 * 86400

/-- `orderSurplusAmount` of `applyPeriodSurplusTx`, before its integer part is taken. -/
def orderSurplusAmount (orderAmountSum orderRangeSecond orderSurplusSecond transferEnable
    used : Int) : ℚ :=
  let remainingTrafficRatio : ℚ := (transferEnable - used : Int) / transferEnable
  let avgPricePerSecond : ℚ := orderAmountSum / orderRangeSecond
  if orderRangeSecond ≤ 31 * 86400 then
    let remainingExpiredRatio : ℚ := orderSurplusSecond / orderRangeSecond
    avgPricePerSecond * orderSurplusSecond * min remainingExpiredRatio remainingTrafficRatio
  else
    let firstMonthRemain := orderSurplusSecond.tmod monthSeconds
    let surplusRatio := min ((firstMonthRemain : ℚ) / monthSeconds) remainingTrafficRatio
    let laterMonths := orderSurplusSecond - firstMonthRemain
    avgPricePerSecond * monthSeconds * surplusRatio + avgPricePerSecond * laterMonths

def runningOrders (rt : Runtime) (db : Db) (now userID : Int) : List OrderRecord :=
  (completedOrders db userID isPeriodOrder).filter (coversNow rt now)

def lastValidateAt (orders : List OrderRecord) : Int :=
  orders.foldl (fun t o => max t o.createdAt) 0

def expiredAtByOrder (rt : Runtime) (orders : List OrderRecord) : Int :=
  rt.addMonths (lastValidateAt orders) (orders.map fun o => (periodMonths o.period).getD 0).sum

/-- The seconds that the orders cover, from the last of them on. -/
def orderRangeSecond (rt : Runtime) (orders : List OrderRecord) : Int :=
  expiredAtByOrder rt orders - lastValidateAt orders

def orderSurplusSecond (userRow : UserRecord) (now : Int) : Int := userRow.expiredAt.getD 0 - now

def orderAmountSum (orders : List OrderRecord) : Int := (orders.map orderAmount).sum

def leavesPeriodSurplus (rt : Runtime) (orders : List OrderRecord) (now : Int)
    (userRow : UserRecord) : Prop :=
  orders = [] ∨ userRow.expiredAt.isNone ∨ userRow.expiredAt.getD 0 < now ∨
    expiredAtByOrder rt orders < now ∨ orderRangeSecond rt orders ≤ 0 ∨
    userRow.transferEnable ≤ 0

instance (rt : Runtime) (orders : List OrderRecord) (now : Int) (userRow : UserRecord) :
    Decidable (leavesPeriodSurplus rt orders now userRow) := by
  unfold leavesPeriodSurplus
  infer_instance

/-- The surplus of `applyPeriodSurplusTx` in exact arithmetic. -/
def periodSurplusValue (rt : Runtime) (db : Db) (now : Int) (userRow : UserRecord) : ℚ :=
  let orders := runningOrders rt db now userRow.id
  if leavesPeriodSurplus rt orders now userRow then 0
  else
    max (orderSurplusAmount (orderAmountSum orders) (orderRangeSecond rt orders)
      (orderSurplusSecond userRow now) userRow.transferEnable (userRow.u + userRow.d)) 0

/-- The price computation takes the integer part of the exact amount. -/
def TruncatesSurplus (rt : Runtime) : Prop :=
  ∀ sum range left quota used,
    max (rt.periodSurplus sum range left quota used) 0 =
      ⌊max (orderSurplusAmount sum range left quota used) 0⌋

theorem applyPeriodSurplus_value {rt : Runtime} (truncates : TruncatesSurplus rt) (db : Db)
    (now : Int) (userRow : UserRecord) (draft : OrderDraft) (fresh : draft.surplusAmount = 0) :
    (applyPeriodSurplus rt db now userRow draft).surplusAmount =
      ⌊periodSurplusValue rt db now userRow⌋ := by
  by_cases leaves : leavesPeriodSurplus rt (runningOrders rt db now userRow.id) now userRow
  · have kept : applyPeriodSurplus rt db now userRow draft = draft := if_pos leaves
    have value : periodSurplusValue rt db now userRow = 0 := if_pos leaves
    rw [kept, value, fresh, Int.floor_zero]
  · have value : periodSurplusValue rt db now userRow = max (orderSurplusAmount _ _ _ _ _) 0 :=
      if_neg leaves
    rw [value, ← truncates]
    exact congrArg OrderDraft.surplusAmount (if_neg leaves)

section Bounds

variable {paid range left quota used : Int}

private theorem orderSurplusAmount_le_average (price : 0 ≤ paid) (covers : 0 < range)
    (long : 31 * 86400 < range) :
    orderSurplusAmount paid range left quota used ≤ paid * (left / range : ℚ) := by
  have average : (0 : ℚ) ≤ paid / range := by positivity
  have month : (0 : ℚ) < monthSeconds := by
    have : 0 < monthSeconds := by decide
    exact_mod_cast this
  unfold orderSurplusAmount
  rw [if_neg (by omega)]
  dsimp only
  set first := left.tmod monthSeconds
  calc (paid / range : ℚ) * monthSeconds *
          min ((first : ℚ) / monthSeconds) ((quota - used : Int) / quota) +
        paid / range * (left - first : Int)
      ≤ (paid / range : ℚ) * monthSeconds * ((first : ℚ) / monthSeconds) +
          paid / range * (left - first : Int) := by
        gcongr
        exact min_le_left _ _
    _ = paid * (left / range : ℚ) := by
        push_cast
        field_simp
        ring

private theorem orderSurplusAmount_le_ratio (price : 0 ≤ paid) (covers : 0 < range)
    (remains : 0 ≤ left) (short : range ≤ 31 * 86400) {bound : ℚ}
    (ratio : min ((left : ℚ) / range) ((quota - used : Int) / quota) ≤ bound) :
    orderSurplusAmount paid range left quota used ≤ paid * (left / range : ℚ) * bound := by
  unfold orderSurplusAmount
  rw [if_pos short]
  dsimp only
  calc (paid / range : ℚ) * left * min ((left : ℚ) / range) ((quota - used : Int) / quota)
      ≤ (paid / range : ℚ) * left * bound := by gcongr
    _ = paid * (left / range : ℚ) * bound := by ring

private theorem orderSurplusAmount_le_paid (price : 0 ≤ paid) (covers : 0 < range)
    (remains : 0 ≤ left) (covered : left ≤ range) :
    orderSurplusAmount paid range left quota used ≤ paid := by
  have part : (left / range : ℚ) ≤ 1 := by
    rw [div_le_one (by exact_mod_cast covers)]
    exact_mod_cast covered
  have whole : (0 : ℚ) ≤ paid := by exact_mod_cast price
  have scaled : paid * (left / range : ℚ) ≤ paid := mul_le_of_le_one_right whole part
  by_cases short : range ≤ 31 * 86400
  · calc orderSurplusAmount paid range left quota used
        ≤ paid * (left / range : ℚ) * 1 :=
          orderSurplusAmount_le_ratio price covers remains short ((min_le_left _ _).trans part)
      _ = paid * (left / range : ℚ) := mul_one _
      _ ≤ paid := scaled
  · exact (orderSurplusAmount_le_average price covers (by omega)).trans scaled

private theorem orderSurplusAmount_le_share (price : 0 ≤ paid) (covers : 0 < range)
    (remains : 0 ≤ left) (quotaPos : 0 < quota) (traffic : 0 ≤ used) :
    orderSurplusAmount paid range left quota used ≤ paid * (left / range : ℚ) := by
  have unused : ((quota - used : Int) / quota : ℚ) ≤ 1 := by
    rw [div_le_one (by exact_mod_cast quotaPos)]
    exact_mod_cast Int.sub_le_self quota traffic
  by_cases short : range ≤ 31 * 86400
  · have amount := orderSurplusAmount_le_ratio price covers remains short
      ((min_le_right _ _).trans unused)
    rwa [mul_one] at amount
  · exact orderSurplusAmount_le_average price covers (by omega)

end Bounds

section User

variable {rt : Runtime} {db : Db} {now : Int} {userRow : UserRecord}

theorem periodSurplusValue_nonneg (rt : Runtime) (db : Db) (now : Int) (userRow : UserRecord) :
    0 ≤ periodSurplusValue rt db now userRow := by
  unfold periodSurplusValue
  dsimp only
  split
  · exact le_rfl
  · exact le_max_right _ _

private theorem periodSurplusValue_le {bound : ℚ} (nonneg : 0 ≤ bound)
    (amount : 0 < orderRangeSecond rt (runningOrders rt db now userRow.id) →
      0 ≤ orderSurplusSecond userRow now → 0 < userRow.transferEnable →
      orderSurplusAmount (orderAmountSum (runningOrders rt db now userRow.id))
        (orderRangeSecond rt (runningOrders rt db now userRow.id)) (orderSurplusSecond userRow now)
        userRow.transferEnable (userRow.u + userRow.d) ≤ bound) :
    periodSurplusValue rt db now userRow ≤ bound := by
  unfold periodSurplusValue
  dsimp only
  split
  · exact nonneg
  next counted =>
    simp only [leavesPeriodSurplus, not_or, not_lt, not_le] at counted
    obtain ⟨-, -, remains, -, covers, quota⟩ := counted
    apply max_le _ nonneg
    exact amount covers (by unfold orderSurplusSecond; omega) quota

private theorem orderAmountSum_running_le
    (paid : ∀ o ∈ completedOrders db userRow.id isPeriodOrder, 0 ≤ orderAmount o) :
    0 ≤ orderAmountSum (runningOrders rt db now userRow.id) ∧
      orderAmountSum (runningOrders rt db now userRow.id) ≤
        orderAmountSum (completedOrders db userRow.id isPeriodOrder) := by
  unfold runningOrders orderAmountSum
  generalize completedOrders db userRow.id isPeriodOrder = orders at paid
  induction orders with
  | nil => simp
  | cons o rest ih =>
    have first := paid o List.mem_cons_self
    have others := ih fun o' member => paid o' (List.mem_cons_of_mem o member)
    rw [List.map_cons, List.sum_cons]
    by_cases covers : coversNow rt now o = true
    · rw [List.filter_cons_of_pos covers, List.map_cons, List.sum_cons]
      omega
    · rw [List.filter_cons_of_neg covers]
      omega

end User

/-- The surplus is never negative. As long as the expiry is no further off than the seconds that
the running orders cover, it is at most what was paid for them; a later expiry raises the bound
in proportion. -/
theorem period_surplus_bounded (rt : Runtime) (db : Db) (now : Int) (userRow : UserRecord) :
    let running := runningOrders rt db now userRow.id
    let completed := completedOrders db userRow.id isPeriodOrder
    let range := orderRangeSecond rt running
    let left := orderSurplusSecond userRow now
    let value := periodSurplusValue rt db now userRow
    0 ≤ value ∧
    (0 ≤ orderAmountSum running → left ≤ range → value ≤ orderAmountSum running) ∧
    ((∀ o ∈ completed, 0 ≤ orderAmount o) → left ≤ range → value ≤ orderAmountSum completed) ∧
    (0 ≤ orderAmountSum running → 0 ≤ userRow.u + userRow.d →
      value ≤ orderAmountSum running * max 1 (left / range : ℚ)) := by
  intro running completed range left value
  have paid : 0 ≤ orderAmountSum running → left ≤ range → value ≤ orderAmountSum running := by
    intro price covered
    apply periodSurplusValue_le (by exact_mod_cast price)
    intro covers remains _
    exact orderSurplusAmount_le_paid price covers remains covered
  refine ⟨periodSurplusValue_nonneg rt db now userRow, paid, ?_, ?_⟩
  · intro prices covered
    obtain ⟨price, fewer⟩ : 0 ≤ orderAmountSum running ∧
        orderAmountSum running ≤ orderAmountSum completed := orderAmountSum_running_le prices
    have all : (orderAmountSum running : ℚ) ≤ orderAmountSum completed := by exact_mod_cast fewer
    exact (paid price covered).trans all
  · intro price traffic
    have price' : (0 : ℚ) ≤ orderAmountSum running := by exact_mod_cast price
    apply periodSurplusValue_le (by positivity)
    intro covers remains quota
    calc _ ≤ orderAmountSum running * (left / range : ℚ) :=
          orderSurplusAmount_le_share price covers remains quota traffic
      _ ≤ orderAmountSum running * max 1 (left / range : ℚ) := by
          gcongr
          exact le_max_right _ _

/-- A month of the plan, bought for 1000 at the start of January 1970. -/
def monthlyOrder : OrderRecord :=
  { (newDraft 1 1 .purchase .monthPrice "T1" 1000).row 0 with id := 1, status := .completed }

def monthlyDb : Db :=
  { (Small.sys ⟨[Small.buyer 1 0], Small.one_buyer, Small.one_buyer⟩ .empty .empty).db with
    orders := ⟨[monthlyOrder], by decide, by decide⟩ }

/-- The buyer of the month, with an expiry `days` after its start. -/
def monthlyBuyer (days : Int) : UserRecord :=
  { Small.buyer 1 0 with
    planID := some 1
    transferEnable := 100 * trafficGB
    expiredAt := some (days * 86400) }

/-- With the expiry that the month gives, the surplus on the fifteenth day is within the price. -/
theorem period_surplus_bounded_monthly :
    periodSurplusValue Small.runtime monthlyDb (15 * 86400) (monthlyBuyer 31) ≤ 1000 :=
  (period_surplus_bounded Small.runtime monthlyDb (15 * 86400) (monthlyBuyer 31)).2.1
    (by decide) (by decide)

/-- With an expiry of sixty days, the surplus on the first day is more than the price. -/
theorem period_surplus_exceeds_price :
    (orderAmountSum (completedOrders monthlyDb 1 isPeriodOrder) : ℚ) <
      periodSurplusValue Small.runtime monthlyDb 86400 (monthlyBuyer 60) := by
  decide +kernel

end ForestPanel
