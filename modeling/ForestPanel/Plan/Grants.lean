import ForestPanel.Plan.Quota
import ForestPanel.System

/-!
# What a plan grants

Six operations put a user on a plan. Four of them give exactly the stored quota. A
one-time purchase adds the user's unused GiB to a quota in bytes, and the merge of a
MySQL site reads the stored bytes as GiB; `quota_granted` says when the two still
agree with the others.
-/
namespace ForestPanel.Quota

open Decimal Double Machine Outcome Relational

/-! ## Quotas that were saved -/

theorem planTransferEnableBytes_eq (value : Int) :
    planTransferEnableBytes value = pure (ForestPanel.planTransferEnableBytes value) := by
  unfold planTransferEnableBytes ForestPanel.planTransferEnableBytes planTrafficGiB trafficGB
  split_ifs with none bytes
  · rfl
  · rfl
  · rw [mul, word_of_fits]
    unfold Fits
    omega

def Stored (stored : Int) : Prop := (stored = 0 ∨ planTrafficGiB ≤ stored) ∧ Fits stored

theorem planTransferEnableBytes_stores {value : Int} (fits : Fits value) :
    Stored (ForestPanel.planTransferEnableBytes value) := by
  unfold Fits at fits
  unfold Stored Fits ForestPanel.planTransferEnableBytes planTrafficGiB trafficGB
  split_ifs <;> omega

theorem planTransferEnableBytes_stored {stored : Int} (saved : Stored stored) :
    ForestPanel.planTransferEnableBytes stored = stored := by
  unfold Stored planTrafficGiB at saved
  unfold ForestPanel.planTransferEnableBytes trafficGB
  split_ifs <;> omega

variable {req : PlanSaveRequest} {db : Db} {after : Checked Db} {left : Int}
  {info : MergeTargetPlanInfo}

theorem savePlan_exact {newID : Int} (returned : savePlan newID req db = .ok after) :
    after.exact = true := by
  unfold savePlan at returned
  simp only [bind_eq_ok, ensure_eq_ok] at returned
  obtain ⟨-, -, returned⟩ := returned
  split at returned
  · simp only [bind_eq_ok, require_eq_ok, pure_eq_ok] at returned
    obtain ⟨plans, -, rfl⟩ := returned
    rw [planTransferEnableBytes_eq]
    rfl
  · simp only [bind_eq_ok, ensure_eq_ok, pure_eq_ok] at returned
    obtain ⟨-, -, rfl⟩ := returned
    simp [updatePlan, planTransferEnableBytes_eq]

theorem savePlan_row {newID : Int} {row : PlanRecord} (returned : savePlan newID req db = .ok after)
    (found : after.value.plans.find? (req.id.getD newID) = some row) :
    row.transferEnable = ForestPanel.planTransferEnableBytes req.transferEnable := by
  unfold savePlan at returned
  simp only [bind_eq_ok, ensure_eq_ok] at returned
  obtain ⟨-, -, returned⟩ := returned
  split at returned
  next created =>
    simp only [bind_eq_ok, require_eq_ok, pure_eq_ok] at returned
    obtain ⟨plans, inserted, rfl⟩ := returned
    rw [created, Option.getD_none] at found
    have member := (plans.find?_eq_some newID row).mp found
    obtain ⟨-, fresh, -⟩ := (db.plans.insert?_eq_some plans _).mp inserted
    rcases (Table.mem_of_insert? inserted row).mp member.1 with old | new
    · exact absurd member.2 (fresh row old)
    · rw [new, insertedPlan, planTransferEnableBytes_eq]
      rfl
  next id updated =>
    simp only [bind_eq_ok, ensure_eq_ok, pure_eq_ok] at returned
    obtain ⟨-, -, rfl⟩ := returned
    rw [updated, Option.getD_some] at found
    simp only [updatePlan, planTransferEnableBytes_eq, Checked.value_bind, Checked.value_pure,
      Table.find?_updateWhere, Option.map_eq_some_iff] at found
    obtain ⟨plan, earlier, rfl⟩ := found
    have same : plan.id = id := ((db.plans.find?_eq_some id plan).mp earlier).2
    rw [decide_eq_true same]
    rfl

theorem Saved.stored {plan : PlanRecord} (saved : Saved plan) : Stored plan.transferEnable := by
  obtain ⟨newID, req, db, after, row, fits, returned, found, same⟩ := saved
  rw [same, savePlan_row returned found]
  exact planTransferEnableBytes_stores fits

/-! ## The grants -/

/-- The plan a user was put on, and the quota of its row afterwards. -/
structure Granted where
  planID : Int
  transferEnable : Int
deriving Repr, DecidableEq

inductive Grant
  /-- `openOrderTx` for an order of the user with this row. -/
  | openOrder (rt : Runtime) (cfg : Config) (now : Int) (order : OrderRecord) (user : UserRecord)
  | forceUpdate (req : PlanSaveRequest) (userID : Int)
  | generate (userID planID : Int) (expiredAt : Option Int)
  /-- To another plan, and without a quota. -/
  | support (version : UserRecord → String) (req : SupportEntitlementChangeRequest)
      (before : UserRecord)
  | mergeNew (planMap : Int → Option Int) (source : MergeSourceUser)
  | mergeInto (planMap : Int → Option Int) (source : MergeSourceUser) (existing : MergeTargetUser)

def targetPlans (db : Db) (id : Int) : Option MergeTargetPlanInfo :=
  (db.plans.find? id).map loadMergeTargetPlan

def lockedUser (user : UserRecord) : UserRecord :=
  { user with expiredAt := Db.normalizeNullableExpiry user.expiredAt }

/-- The tables afterwards and the grant; `none` where the operation refuses, or puts nobody
on a plan. -/
def Grant.run (db : Db) : Grant → Option (Db × Checked Granted)
  | .openOrder rt cfg now order user =>
    if order.type = .deposit ∨ order.period = .resetPrice then none
    else (db.plans.find? order.planID).map fun plan =>
      let row := applyOpenedOrder rt cfg now order plan (lockedUser user)
      (db, ⟨⟨plan.id, row.value.transferEnable⟩, row.exact⟩)
  | .forceUpdate req userID =>
    match savePlan 0 req db with
    | .error _ => none
    | .ok after => do
      let id ← req.id
      let row ← after.value.users.find? userID
      if req.forceUpdate ∧ row.planID = some id then
        some (after.value, ⟨⟨id, row.transferEnable⟩, after.exact⟩)
      else none
  | .generate userID planID expiredAt =>
    (db.plans.find? planID).map fun plan =>
      let row := generatedUser userID (some plan) expiredAt
      (db, ⟨⟨plan.id, row.value.transferEnable⟩, row.exact⟩)
  | .support version req before =>
    match changeSupportEntitlement version req db.plans.find? before with
    | .error _ => none
    | .ok row =>
      if req.transferEnable.isNone then
        (req.planID.filter fun id => before.planID ≠ some id).map fun id =>
          (db, ⟨⟨id, row.value.transferEnable⟩, row.exact⟩)
      else none
  | .mergeNew planMap source => do
    let row ← buildMergeInsertUser source (targetPlans db) planMap
    let id ← row.value.planID
    some (db, ⟨⟨id, row.value.transferEnable⟩, row.exact⟩)
  | .mergeInto planMap source existing => do
    let sourcePlan ← resolveMergeMappedTargetPlan (targetPlans db) planMap source
    let row := buildMergedTargetUserSubscription existing source sourcePlan (targetPlans db)
    let id ← row.value.planID
    some (db, ⟨⟨id, row.value.transferEnable⟩, row.exact⟩)

def unused (user : UserRecord) : Int := user.transferEnable - (user.u + user.d)

/-- The purchase that carries unused traffic over. -/
def Carries (order : OrderRecord) (user : UserRecord) : Prop :=
  order.period = .onetimePrice ∧ order.surplusOrderIDs = none ∧
    (lockedUser user).expiredAt = none

instance (order : OrderRecord) (user : UserRecord) : Decidable (Carries order user) := by
  unfold Carries
  infer_instance

/-- The quota the grant owes its user, from the quota of the plan. -/
def Grant.promised (quota : Int) : Grant → Int
  | .openOrder _ _ _ order user =>
    if Carries order user then quota + max (unused user) 0 / planTrafficGiB * planTrafficGiB
    else quota
  | .mergeNew _ source => maxMergeTransferEnableBytes [source.transferEnable, quota]
  | .mergeInto _ source existing =>
    maxMergeTransferEnableBytes [existing.transferEnable, source.transferEnable, quota]
  | _ => quota

/-- The carried traffic is less than one GiB; or the plan has no quota, and neither the
conversion to a double nor the threshold of `planTransferEnableBytes` changes the GiB. -/
def SmallCarry (stored left : Int) : Prop :=
  left < planTrafficGiB ∨
    stored = 0 ∧ left < planTrafficGiB * planTrafficGiB ∧
      nearest left < ((left / planTrafficGiB + 1) * planTrafficGiB : Int)

/-- The share of the merge is covered by what the user has anyway. -/
def Covered (stored kept : Int) : Prop :=
  stored = 0 ∨ stored < 2 ^ 33 ∧ stored * planTrafficGiB ≤ kept

/-- When the grant gives what it owes, for a plan with this stored quota. -/
def Grant.HoldsWhen (stored : Int) : Grant → Prop
  | .openOrder _ _ _ order user =>
    order.period = .onetimePrice ∧ order.surplusOrderIDs = none →
      Fits (user.u + user.d) ∧ Fits (unused user) ∧
        (Carries order user → SmallCarry stored (unused user))
  | .mergeNew _ source => Covered stored source.transferEnable
  | .mergeInto _ source existing =>
    Covered stored (max existing.transferEnable source.transferEnable)
  | _ => True

/-! ## Orders -/

section Carry

variable {order : OrderRecord} {plan : PlanRecord} {user : UserRecord}

private def carried (left : Int) : Int :=
  if ((Float64.ofInt left).divBy (2 ^ 30)).positive then
    ((Float64.ofInt left).divBy (2 ^ 30)).toInt64
  else 0

private theorem bounded_of_fits {n : Int} (fits : Fits n) : |n| ≤ 2 ^ 63 := by
  unfold Fits at fits
  exact abs_le.mpr ⟨by omega, by omega⟩

private theorem carried_nonpositive (fits : Fits left) (none : left ≤ 0) : carried left = 0 := by
  have below : nearest left / 2 ^ 30 ≤ 0 :=
    div_nonpos_of_nonpos_of_nonneg (nearest_nonpos (by exact_mod_cast none)) (by norm_num)
  rw [carried, ofInt_eq (bounded_of_fits fits), Float64.divBy, positive_ofRat below]
  rfl

private theorem carried_eq (fits : Fits left) (some : 0 < left) :
    carried left = ⌊nearest left / 2 ^ 30⌋ := by
  have least : 1 ≤ (left : ℚ) := by exact_mod_cast some
  have high : (left : ℚ) ≤ 2 ^ 63 := by
    unfold Fits at fits
    exact_mod_cast (show left ≤ 2 ^ 63 by omega)
  have one := (nearest_bits least).1
  have double := nearest_le (le_abs.mpr (.inl least))
  rw [abs_of_pos (zero_lt_one.trans_le one), abs_of_pos (zero_lt_one.trans_le least)] at double
  have quotient : Float64.ofRat (nearest left / 2 ^ 30) = .finite (nearest left / 2 ^ 30) := by
    have top : (2 : ℚ) ^ 34 < 2 ^ 1024 := pow_lt_pow_right₀ (by norm_num) (by norm_num)
    rw [Float64.ofRat, nearest_div_pow least (by norm_num), if_neg]
    rw [not_le, abs_of_pos (by positivity)]
    refine lt_of_le_of_lt ?_ top
    rw [div_le_iff₀ (by norm_num)]
    linarith
  have positive : 0 < nearest left / 2 ^ 30 := by positivity
  have small : ⌊nearest (left : ℚ) / 2 ^ 30⌋ ≤ 2 ^ 34 := by
    rw [← Int.floor_intCast (R := ℚ) (2 ^ 34)]
    apply Int.floor_le_floor
    rw [div_le_iff₀ (by norm_num)]
    push_cast
    linarith
  have nonneg : 0 ≤ ⌊nearest (left : ℚ) / 2 ^ 30⌋ := Int.floor_nonneg.mpr positive.le
  rw [carried, ofInt_eq (bounded_of_fits fits), Float64.divBy, quotient, Float64.positive,
    if_pos (decide_eq_true positive), Float64.toInt64]
  rw [if_neg (not_lt.mpr positive.le), if_pos]
  constructor <;> omega

private theorem carried_small (fits : Fits left) (small : left < planTrafficGiB) :
    carried left = 0 := by
  rcases le_or_gt left 0 with none | some
  · exact carried_nonpositive fits none
  · unfold planTrafficGiB at small
    obtain ⟨n, rfl⟩ := Int.eq_ofNat_of_zero_le some.le
    have same : nearest ((n : Int) : ℚ) = n := by
      rw [Int.cast_natCast]
      exact nearest_natCast (by omega)
    rw [carried_eq fits some, same, Int.floor_eq_zero_iff]
    constructor
    · positivity
    · rw [div_lt_one (by norm_num)]
      exact_mod_cast (show n < 2 ^ 30 by omega)

private theorem carried_bounds (fits : Fits left) (some : 0 < left) :
    left / planTrafficGiB ≤ carried left ∧ carried left ≤ 2 * (left / planTrafficGiB) + 1 := by
  have least : 1 ≤ (left : ℚ) := by exact_mod_cast some
  have high : (left : ℚ) < 2 ^ 63 := by
    unfold Fits at fits
    exact_mod_cast (show left < 2 ^ 63 by omega)
  rw [carried_eq fits some]
  constructor
  · rw [Int.le_floor, le_div_iff₀ (by norm_num)]
    apply le_nearest least high
    have below := Int.ediv_mul_le left (show planTrafficGiB ≠ 0 by decide)
    exact_mod_cast below
  · have one := (nearest_bits least).1
    have double := nearest_le (le_abs.mpr (.inl least))
    rw [abs_of_pos (zero_lt_one.trans_le one), abs_of_pos (zero_lt_one.trans_le least)] at double
    rw [← Int.lt_add_one_iff, Int.floor_lt, div_lt_iff₀ (by norm_num)]
    have above := Int.lt_ediv_add_one_mul_self left (show 0 < planTrafficGiB by decide)
    have cast : (left : ℚ) < ((left / planTrafficGiB + 1) * planTrafficGiB : Int) := by
      exact_mod_cast above
    unfold planTrafficGiB at cast ⊢
    push_cast at cast ⊢
    linarith

private theorem carried_whole (fits : Fits left) (some : 0 < left) :
    carried left = left / planTrafficGiB ↔
      nearest left < ((left / planTrafficGiB + 1) * planTrafficGiB : Int) := by
  have low := (carried_bounds fits some).1
  have below : carried left < left / planTrafficGiB + 1 ↔
      nearest left < ((left / planTrafficGiB + 1) * planTrafficGiB : Int) := by
    rw [carried_eq fits some, Int.floor_lt, div_lt_iff₀ (by norm_num)]
    unfold planTrafficGiB
    push_cast
    norm_num
  rw [← below]
  omega

private theorem carriedQuota_exact (user : UserRecord) {stored : Int} (quota : plan.transferEnable = stored)
    (fits : Fits stored) (plain : order.surplusOrderIDs = none) (sum : Fits (user.u + user.d))
    (rest : Fits (unused user)) :
    carriedQuota order plan user =
      if user.expiredAt.isNone then word (stored + carried (unused user)) else pure stored := by
  have whole : word (stored + 0) = pure stored := by
    rw [add_zero, word_of_fits fits]
  unfold carriedQuota
  rw [plain, quota]
  dsimp only
  have left : user.transferEnable - (user.u + user.d) = unused user := rfl
  rw [add, word_of_fits sum, pure_bind, sub, left, word_of_fits rest, pure_bind, carried]
  by_cases expiry : user.expiredAt.isNone = true
  · by_cases positive : ((Float64.ofInt (unused user)).divBy (2 ^ 30)).positive = true
    · rw [if_pos ⟨positive, expiry⟩, if_pos expiry, if_pos positive, add]
    · rw [if_neg fun both => positive both.1, if_pos expiry, if_neg positive, whole]
  · rw [if_neg fun both => expiry both.2, if_neg expiry]

private theorem carriedQuota_inexact (plan : PlanRecord) (user : UserRecord)
    (plain : order.surplusOrderIDs = none)
    (leaves : ¬(Fits (user.u + user.d) ∧ Fits (unused user))) :
    (carriedQuota order plan user).exact = false := by
  unfold carriedQuota
  rw [plain, Bool.eq_false_iff]
  dsimp only
  intro exact'
  simp only [Checked.exact_bind, Bool.and_eq_true, add, exact_word, sub] at exact'
  obtain ⟨sum, rest, -⟩ := exact'
  rw [word_of_fits sum] at rest
  exact leaves ⟨sum, rest⟩

private theorem carry_owed {stored : Int} (saved : Stored stored) (rest : Fits left) :
    (Fits (stored + carried left) ∧
      ForestPanel.planTransferEnableBytes (wrap (stored + carried left)) =
        stored + max left 0 / planTrafficGiB * planTrafficGiB) ↔ SmallCarry stored left := by
  have quota := planTransferEnableBytes_stored saved
  obtain ⟨shape, fits⟩ := saved
  rcases le_or_gt left 0 with none | some
  · have small : SmallCarry stored left := by
      left
      exact lt_of_le_of_lt none (by decide)
    rw [carried_nonpositive rest none, add_zero, wrap_of_fits fits, quota, max_eq_right none]
    exact ⟨fun _ => small, fun _ => ⟨fits, by rw [Int.zero_ediv, zero_mul, add_zero]⟩⟩
  · have bounds := carried_bounds rest some
    have whole := carried_whole rest some
    have none : left < planTrafficGiB → carried left = 0 := carried_small rest
    unfold SmallCarry
    rw [← whole, max_eq_left some.le]
    generalize carried left = c at *
    unfold planTrafficGiB at *
    constructor
    · rintro ⟨sum, owed⟩
      rw [wrap_of_fits sum] at owed
      unfold ForestPanel.planTransferEnableBytes trafficGB at owed
      split_ifs at owed <;> omega
    · intro small
      have sum : Fits (stored + c) := by
        unfold Fits at *
        omega
      refine ⟨sum, ?_⟩
      rw [wrap_of_fits sum]
      unfold ForestPanel.planTransferEnableBytes trafficGB
      split_ifs <;> omega

theorem completionEvent_quota (cfg : Config) (kind : OrderType) (userRow : UserRecord) :
    (applyOrderCompletionEvent cfg kind userRow).transferEnable = userRow.transferEnable := by
  unfold applyOrderCompletionEvent
  dsimp only
  split_ifs <;> rfl

private theorem applyOpenedOrder_period (rt : Runtime) (cfg : Config) (now : Int)
    (plan : PlanRecord) (user : UserRecord) (other : order.period ≠ .onetimePrice) (grants : order.period ≠ .resetPrice) :
    (applyOpenedOrder rt cfg now order plan user).exact = true ∧
      (applyOpenedOrder rt cfg now order plan user).value.transferEnable =
        ForestPanel.planTransferEnableBytes plan.transferEnable := by
  unfold applyOpenedOrder
  split
  · exact absurd ‹_› other
  · exact absurd ‹_› grants
  · simp [applyOrderPeriod, planTransferEnableBytes_eq, completionEvent_quota]

theorem openOrder_owed {rt : Runtime} {cfg : Config} {now : Int}
    (saved : Stored plan.transferEnable) (grants : order.period ≠ .resetPrice) :
    ((applyOpenedOrder rt cfg now order plan (lockedUser user)).exact = true ∧
      (applyOpenedOrder rt cfg now order plan (lockedUser user)).value.transferEnable =
        Grant.promised plan.transferEnable (.openOrder rt cfg now order user)) ↔
    Grant.HoldsWhen plan.transferEnable (.openOrder rt cfg now order user) := by
  have quota := planTransferEnableBytes_stored saved
  by_cases once : order.period = .onetimePrice
  · have row : (applyOpenedOrder rt cfg now order plan (lockedUser user)).exact =
          (carriedQuota order plan (lockedUser user)).exact ∧
        (applyOpenedOrder rt cfg now order plan (lockedUser user)).value.transferEnable =
          ForestPanel.planTransferEnableBytes
            (carriedQuota order plan (lockedUser user)).value := by
      simp [applyOpenedOrder, once, applyOrderOneTime, planTransferEnableBytes_eq,
        completionEvent_quota]
    rw [row.1, row.2]
    unfold Grant.HoldsWhen Grant.promised
    dsimp only
    cases surplus : order.surplusOrderIDs with
    | some ids =>
      have plain : ¬Carries order user := by
        rintro ⟨-, none, -⟩
        simp [surplus] at none
      simp [carriedQuota, surplus, quota, plain]
    | none =>
      by_cases sums : Fits (user.u + user.d) ∧ Fits (unused user)
      · have exact' :=
          carriedQuota_exact (lockedUser user) rfl saved.2 surplus sums.1 sums.2
        have same : unused (lockedUser user) = unused user := rfl
        rw [exact', same]
        by_cases expiry : (lockedUser user).expiredAt = none
        · have carries : Carries order user := ⟨once, surplus, expiry⟩
          have owed := carry_owed saved sums.2
          simp only [expiry, Option.isNone_none, if_true, exact_word, once, sums,
            carries, true_imp_iff, and_self, true_and]
          exact owed
        · have plain : ¬Carries order user := fun carries => expiry carries.2.2
          simp [expiry, plain, quota, sums]
      · have left := carriedQuota_inexact plan (lockedUser user) surplus sums
        constructor
        · rintro ⟨exact', -⟩
          rw [left] at exact'
          exact absurd exact' Bool.false_ne_true
        · intro holds
          obtain ⟨sum, rest, -⟩ := holds ⟨once, rfl⟩
          exact absurd ⟨sum, rest⟩ sums
  · have period := applyOpenedOrder_period rt cfg now plan (lockedUser user) once grants
    have plain : ¬Carries order user := fun carries => once carries.1
    unfold Grant.HoldsWhen Grant.promised
    dsimp only
    rw [if_neg plain, period.2, quota]
    exact ⟨fun _ both => absurd both.1 once, fun _ => ⟨period.1, rfl⟩⟩

end Carry

/-! ## The merge -/

theorem maxMergeTransferEnableBytes_pair (a b : Int) :
    maxMergeTransferEnableBytes [a, b] = max (max 0 a) b := rfl

theorem maxMergeTransferEnableBytes_three (a b c : Int) :
    maxMergeTransferEnableBytes [a, b, c] = max (max 0 (max a b)) c := by
  rw [← max_assoc]
  rfl

private theorem share_owed {stored : Int} (kept : Int) (saved : Stored stored) :
    ((planTransferGBToUserBytes stored).exact = true ∧
      max (max 0 kept) (planTransferGBToUserBytes stored).value = max (max 0 kept) stored) ↔
    Covered stored kept := by
  obtain ⟨shape, fits⟩ := saved
  unfold planTransferGBToUserBytes Covered
  split
  next none =>
    have zero : stored = 0 := by
      unfold planTrafficGiB at shape
      omega
    simp [zero]
  next some =>
    rw [mul, exact_word, word]
    dsimp only
    constructor
    · rintro ⟨product, largest⟩
      rw [wrap_of_fits product] at largest
      unfold Fits planTrafficGiB at *
      omega
    · intro covered
      have product : Fits (stored * planTrafficGiB) := by
        unfold Fits planTrafficGiB at *
        omega
      refine ⟨product, ?_⟩
      rw [wrap_of_fits product]
      unfold planTrafficGiB at *
      omega

theorem targetPlans_found {id : Int} {plan : PlanRecord} (loaded : targetPlans db id = some info)
    (found : db.plans.find? info.id = some plan) : info.transferEnable = plan.transferEnable := by
  obtain ⟨row, first, rfl⟩ := Option.map_eq_some_iff.mp loaded
  have key : row.id = id := ((db.plans.find?_eq_some id row).mp first).2
  obtain rfl : row = plan := by
    rw [loadMergeTargetPlan, key, first] at found
    exact Option.some.inj found
  rfl

theorem resolveMergeMappedTargetPlan_found {planMap : Int → Option Int} {source : MergeSourceUser}
    {plan : PlanRecord}
    (mapped : resolveMergeMappedTargetPlan (targetPlans db) planMap source = some info)
    (found : db.plans.find? info.id = some plan) : info.transferEnable = plan.transferEnable := by
  simp only [resolveMergeMappedTargetPlan, Option.bind_eq_bind, Option.bind_eq_some_iff] at mapped
  obtain ⟨-, -, id, -, loaded⟩ := mapped
  exact targetPlans_found loaded found

theorem preferredMergeTargetPlan_found {existing : MergeTargetUser} {planMap : Int → Option Int}
    {source : MergeSourceUser} {plan : PlanRecord}
    (mapped : resolveMergeMappedTargetPlan (targetPlans db) planMap source = some info)
    (found : db.plans.find? (preferredMergeTargetPlan existing info (targetPlans db)).id =
      some plan) :
    (preferredMergeTargetPlan existing info (targetPlans db)).transferEnable =
      plan.transferEnable := by
  unfold preferredMergeTargetPlan at found ⊢
  split at found
  · exact resolveMergeMappedTargetPlan_found mapped found
  next current known =>
    split_ifs at found ⊢
    · exact resolveMergeMappedTargetPlan_found mapped found
    · obtain ⟨id, -, rebuilt⟩ := Option.map_eq_some_iff.mp known
      cases loaded : targetPlans db id with
      | some row =>
        rw [loaded, Option.getD_some] at rebuilt
        exact targetPlans_found (rebuilt ▸ loaded) found
      | none =>
        rw [loaded, Option.getD_none] at rebuilt
        rw [← rebuilt] at found
        rw [targetPlans, found] at loaded
        cases loaded

/-! ## All six -/

theorem changeSupportEntitlement_plan {version : UserRecord → String}
    {req : SupportEntitlementChangeRequest} {plans : Int → Option PlanRecord}
    {before : UserRecord} {row : Checked UserRecord} {id : Int}
    (returned : changeSupportEntitlement version req plans before = .ok row)
    (keeps : req.transferEnable = none)
    (moves : (req.planID.filter fun id => before.planID ≠ some id) = some id) :
    ∃ plan, plans id = some plan ∧ row.exact = true ∧
      row.value.transferEnable = ForestPanel.planTransferEnableBytes plan.transferEnable := by
  unfold changeSupportEntitlement at returned
  simp only [bind_eq_ok, ensure_eq_ok, pure_eq_ok] at returned
  obtain ⟨-, -, granted, changed, -, -, rfl⟩ := returned
  unfold changeSupportPlan at changed
  rw [moves] at changed
  simp only [bind_eq_ok, require_eq_ok, ensure_eq_ok, pure_eq_ok] at changed
  obtain ⟨plan, found, -, -, rfl⟩ := changed
  refine ⟨plan, found, ?_⟩
  rw [keeps, planTransferEnableBytes_eq]
  exact ⟨rfl, rfl⟩

theorem savePlan_forced {id userID : Int} {row : UserRecord}
    (returned : savePlan 0 req db = .ok after) (target : req.id = some id)
    (forced : req.forceUpdate = true) (found : after.value.users.find? userID = some row)
    (member : row.planID = some id) :
    row.transferEnable = ForestPanel.planTransferEnableBytes req.transferEnable := by
  unfold savePlan at returned
  rw [target] at returned
  simp only [bind_eq_ok, ensure_eq_ok, pure_eq_ok] at returned
  obtain ⟨-, -, -, -, rfl⟩ := returned
  simp only [updatePlan, planTransferEnableBytes_eq, Checked.value_bind, Checked.value_pure,
    Table.find?_updateWhere, Option.map_eq_some_iff, forced, Bool.true_and] at found
  obtain ⟨user, -, rfl⟩ := found
  by_cases on : user.planID = some id
  · rw [decide_eq_true on, if_pos rfl]
    rfl
  · rw [decide_eq_false on, if_neg Bool.false_ne_true] at member
    exact absurd member on

/-- A grant of a saved plan gives the quota it owes, in 64 bits, exactly where no GiB are
added to bytes and no bytes are read as GiB. -/
theorem quota_granted {db after : Db} {grant : Grant} {granted : Checked Granted}
    {plan : PlanRecord} (ran : grant.run db = some (after, granted))
    (found : after.plans.find? granted.value.planID = some plan) (saved : Saved plan) :
    (granted.exact = true ∧ granted.value.transferEnable =
      grant.promised (ForestPanel.planTransferEnableBytes plan.transferEnable)) ↔
    grant.HoldsWhen plan.transferEnable := by
  have quota := planTransferEnableBytes_stored saved.stored
  cases grant with
  | openOrder rt cfg now order user =>
    simp only [Grant.run] at ran
    split_ifs at ran with refused
    obtain ⟨row, loaded, same⟩ := Option.map_eq_some_iff.mp ran
    injection same with tables result
    subst tables result
    obtain rfl : row = plan := by
      have key := (db.plans.find?_eq_some _ row).mp loaded
      rw [key.2, loaded] at found
      exact Option.some.inj found
    rw [quota]
    exact openOrder_owed saved.stored fun reset => refused (.inr reset)
  | forceUpdate req userID =>
    simp only [Grant.run] at ran
    split at ran
    · cases ran
    next result returned =>
      simp only [Option.bind_eq_bind, Option.bind_eq_some_iff] at ran
      obtain ⟨id, target, row, member, chosen⟩ := ran
      split_ifs at chosen with both
      injection chosen with chosen
      injection chosen with tables result
      subst tables result
      have bytes := savePlan_forced returned target both.1 member both.2
      have stored := @savePlan_row _ _ _ _ plan returned (by rw [target]; exact found)
      simp only [Grant.promised, Grant.HoldsWhen, iff_true]
      rw [quota, stored]
      exact ⟨savePlan_exact returned, bytes⟩
  | generate userID planID expiredAt =>
    obtain ⟨row, loaded, same⟩ := Option.map_eq_some_iff.mp ran
    injection same with tables result
    subst tables result
    obtain rfl : row = plan := by
      have key := (db.plans.find?_eq_some _ row).mp loaded
      rw [key.2, loaded] at found
      exact Option.some.inj found
    simp [generatedUser, userPlanTransferEnable, planTransferEnableBytes_eq, Grant.promised,
      Grant.HoldsWhen]
  | support version req before =>
    simp only [Grant.run] at ran
    split at ran
    · cases ran
    next row returned =>
      split_ifs at ran with keeps
      obtain ⟨id, moves, same⟩ := Option.map_eq_some_iff.mp ran
      injection same with tables result
      subst tables result
      obtain ⟨loaded, known, exact', bytes⟩ :=
        changeSupportEntitlement_plan returned (Option.isNone_iff_eq_none.mp keeps) moves
      obtain rfl : loaded = plan := Option.some.inj (known.symm.trans found)
      simp [Grant.promised, Grant.HoldsWhen, exact', bytes]
  | mergeNew planMap source =>
    simp only [Grant.run, Option.bind_eq_bind, Option.bind_eq_some_iff] at ran
    obtain ⟨row, built, id, member, same⟩ := ran
    injection same with same
    injection same with tables result
    subst tables result
    unfold buildMergeInsertUser at built
    dsimp only at built
    split_ifs at built
    · obtain rfl := Option.some.inj built
      cases member
    · obtain ⟨info, mapped, rfl⟩ := Option.map_eq_some_iff.mp built
      obtain rfl : info.id = id := Option.some.inj member
      have share := resolveMergeMappedTargetPlan_found mapped found
      rw [quota, ← share]
      have owed := share_owed source.transferEnable (share ▸ saved.stored)
      simpa [Grant.promised, Grant.HoldsWhen, maxMergeTransferEnableBytes_pair] using owed
  | mergeInto planMap source existing =>
    simp only [Grant.run, Option.bind_eq_bind, Option.bind_eq_some_iff] at ran
    obtain ⟨info, mapped, id, member, same⟩ := ran
    injection same with same
    injection same with tables result
    subst tables result
    obtain rfl : (preferredMergeTargetPlan existing info (targetPlans db)).id = id :=
      Option.some.inj member
    have share := preferredMergeTargetPlan_found mapped found
    rw [quota, ← share]
    have owed := share_owed (max existing.transferEnable source.transferEnable)
      (share ▸ saved.stored)
    simpa [Grant.promised, Grant.HoldsWhen, buildMergedTargetUserSubscription,
      maxMergeTransferEnableBytes_three] using owed

/-! ## A plan of 100 GiB -/

namespace Small

def request : PlanSaveRequest where
  id := none
  name := "monthly"
  groupID := 1
  transferEnable := 100
  deviceLimit := none
  shown := some 1
  renew := none
  monthPrice := some 1000
  quarterPrice := none
  halfYearPrice := none
  yearPrice := none
  twoYearPrice := none
  threeYearPrice := none
  onetimePrice := some 2000
  resetPrice := none
  capacityLimit := none
  speedLimit := none
  forceUpdate := false

def plan : PlanRecord := insertedPlan 7 request 107374182400

def panel : Db :=
  (ForestPanel.Small.sys .empty ⟨[plan], by decide, by decide⟩ .empty).db

theorem plan_saved : Saved plan := by
  have created : savePlan 7 request (ForestPanel.Small.sys .empty .empty .empty).db =
      .ok ⟨panel, true⟩ := by
    rfl
  exact ⟨7, request, _, _, plan, by decide, created, rfl, rfl⟩

def order (period : Period) : OrderRecord where
  id := 1
  userID := 1
  planID := 7
  couponID := none
  paymentID := none
  type := .purchase
  period
  tradeNo := "A"
  callbackNo := none
  totalAmount := 1000
  handlingAmount := none
  discountAmount := none
  surplusAmount := none
  refundAmount := none
  balanceAmount := none
  surplusOrderIDs := none
  checkoutResult := none
  checkoutClaim := none
  checkoutClaimExpiresAt := none
  checkoutFingerprint := none
  status := .processing
  commissionStatus := .waiting
  commissionBalance := 0
  actualCommissionBalance := none
  inviteUserID := none
  inviteCampaignID := none
  inviteCampaignDiscountAmount := 0
  paidAt := some 100
  createdAt := 0
  updatedAt := 100

/-- A buyer with a permanent subscription and 10 GiB left of 50. -/
def buyer : UserRecord :=
  { ForestPanel.Small.buyer 1 0 with
    transferEnable := 53687091200
    d := 42949672960 }

def purchase (period : Period) : Grant :=
  .openOrder ForestPanel.Small.runtime ForestPanel.Small.config 100 (order period) buyer

def purchased (period : Period) : Checked Granted :=
  let row := applyOpenedOrder ForestPanel.Small.runtime ForestPanel.Small.config 100
    (order period) plan (lockedUser buyer)
  ⟨⟨7, row.value.transferEnable⟩, row.exact⟩

end Small

/-- A month of the plan: 100 GiB. -/
theorem quota_granted_month :
    ((Small.purchased .monthPrice).exact = true ∧
      (Small.purchased .monthPrice).value.transferEnable =
        (Small.purchase .monthPrice).promised
          (ForestPanel.planTransferEnableBytes Small.plan.transferEnable)) ↔
      (Small.purchase .monthPrice).HoldsWhen Small.plan.transferEnable :=
  @quota_granted Small.panel Small.panel _ _ _ rfl rfl Small.plan_saved

/-- The plan bought once: 100 GiB and 10 bytes, for a user with 10 GiB left. -/
theorem gib_added_to_bytes :
    ¬∀ (db after : Db) (grant : Grant) (granted : Checked Granted) (plan : PlanRecord),
      grant.run db = some (after, granted) →
      after.plans.find? granted.value.planID = some plan → Saved plan →
      granted.exact = true ∧ granted.value.transferEnable =
        grant.promised (ForestPanel.planTransferEnableBytes plan.transferEnable) := by
  intro agree
  have owed := agree Small.panel Small.panel (Small.purchase .onetimePrice)
    (Small.purchased .onetimePrice) Small.plan rfl rfl Small.plan_saved
  rw [planTransferEnableBytes_stored Small.plan_saved.stored] at owed
  have holds := (openOrder_owed Small.plan_saved.stored (by decide)).mp owed
  obtain ⟨-, -, small⟩ := holds ⟨rfl, rfl⟩
  rcases small ⟨rfl, rfl, rfl⟩ with less | ⟨unlimited, -⟩
  · exact absurd less (by decide)
  · exact absurd unlimited (by decide)

/-- The merge gives a new user of the same plan 4 EiB. -/
example : ((Grant.mergeNew some ⟨some 7, none, 0, none, none, none⟩).run Small.panel).map (·.2) =
    some ⟨⟨7, 4611686018427387904⟩, false⟩ := by decide

end ForestPanel.Quota
