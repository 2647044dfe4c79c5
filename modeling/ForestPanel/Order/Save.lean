import ForestPanel.Order.Open

/-!
# Saving an order

`SaveOrder`: price, coupon, member discount, order type with the surplus of the
old subscription, invite campaign, balance, commission, and the insert. The
transaction threads the draft of the order and the database.
-/
namespace ForestPanel

open Relational Outcome

structure OrderSaveRequest where
  planID : Int
  period : String
  couponCode : String
  depositAmount : Int
deriving Repr, DecidableEq

/-- The order while it is being built; a zero amount is stored as `NULL`. -/
structure OrderDraft where
  userID : Int
  planID : Int
  couponID : Option Int
  type : OrderType
  period : Period
  tradeNo : String
  totalAmount : Int
  discountAmount : Int
  surplusAmount : Int
  refundAmount : Int
  balanceAmount : Int
  surplusOrderIDs : List Int
  commissionBalance : Int
  inviteUserID : Option Int
  inviteCampaignID : Option Int
  inviteCampaignDiscountAmount : Int
deriving Repr, DecidableEq

def newDraft (userID planID : Int) (type : OrderType) (period : Period) (tradeNo : String)
    (totalAmount : Int) : OrderDraft where
  userID
  planID
  couponID := none
  type
  period
  tradeNo
  totalAmount
  discountAmount := 0
  surplusAmount := 0
  refundAmount := 0
  balanceAmount := 0
  surplusOrderIDs := []
  commissionBalance := 0
  inviteUserID := none
  inviteCampaignID := none
  inviteCampaignDiscountAmount := 0

def nullZeroInt64 (value : Int) : Option Int := if value = 0 then none else some value

/-- The row `insertOrderTx` writes; the identity column is set by the insert. -/
def OrderDraft.row (draft : OrderDraft) (now : Int) : OrderRecord where
  id := 0
  userID := draft.userID
  planID := draft.planID
  couponID := draft.couponID
  paymentID := none
  type := draft.type
  period := draft.period
  tradeNo := draft.tradeNo
  callbackNo := none
  totalAmount := draft.totalAmount
  handlingAmount := none
  discountAmount := nullZeroInt64 draft.discountAmount
  surplusAmount := nullZeroInt64 draft.surplusAmount
  refundAmount := nullZeroInt64 draft.refundAmount
  balanceAmount := nullZeroInt64 draft.balanceAmount
  surplusOrderIDs := if draft.surplusOrderIDs = [] then none else some draft.surplusOrderIDs
  checkoutResult := none
  checkoutClaim := none
  checkoutClaimExpiresAt := none
  checkoutFingerprint := none
  status := .pending
  commissionStatus := .waiting
  commissionBalance := draft.commissionBalance
  actualCommissionBalance := none
  inviteUserID := draft.inviteUserID
  inviteCampaignID := draft.inviteCampaignID
  inviteCampaignDiscountAmount := draft.inviteCampaignDiscountAmount
  paidAt := none
  createdAt := now
  updatedAt := now

/-- `amount * rate / 100`, truncated towards zero. -/
def calcPercent (amount rate : Int) : Int := (amount * rate).tdiv 100

/-! ## The plan -/

def PlanRecord.priceForPeriod (p : PlanRecord) : Period → Option Int
  | .monthPrice => p.monthPrice
  | .quarterPrice => p.quarterPrice
  | .halfYearPrice => p.halfYearPrice
  | .yearPrice => p.yearPrice
  | .twoYearPrice => p.twoYearPrice
  | .threeYearPrice => p.threeYearPrice
  | .onetimePrice => p.onetimePrice
  | .resetPrice => p.resetPrice
  | .deposit => none

def PlanRecord.isShown (p : PlanRecord) : Bool := p.shown ≠ 0

def PlanRecord.canRenew (p : PlanRecord) : Bool := p.renew ≠ 0

def UserRecord.isAvailable (row : UserRecord) (now : Int) : Bool :=
  row.banned = 0 && 0 < row.transferEnable &&
    (match row.expiredAt with
      | none => true
      | some e => now < e)

/-- `activePlanCounts` for one plan. -/
def activePlanCount (db : Db) (planID now : Int) : Int :=
  db.users.rows.countP fun r =>
    r.planID = some planID &&
      (match r.expiredAt with
        | none => true
        | some e => now ≤ e || e ≤ 0)

def planHasCapacity (db : Db) (plan : PlanRecord) (now : Int) : Bool :=
  match plan.capacityLimit with
  | none => true
  | some capacity => 0 < capacity - activePlanCount db plan.id now

/-- Everything `SaveOrder` checks between loading the plan and drafting the order. -/
def checkPlan (db : Db) (now : Int) (userRow : UserRecord) (plan : PlanRecord) (period : Period) :
    Except ServiceError Int := do
  let samePlan := userRow.planID = some plan.id
  ensure (userRow.planID.isNone ∨ samePlan ∨ period = .resetPrice ∨
    planHasCapacity db plan now = true) .planSoldOut
  let price ← require (plan.priceForPeriod period) .periodUnavailable
  ensure (0 ≤ price) .invalidParameter
  ensure (period ≠ .resetPrice ∨ (userRow.isAvailable now = true ∧ samePlan)) .resetUnavailable
  ensure (period = .resetPrice ∨ plan.isShown = true ∨ (plan.canRenew = true ∧ samePlan))
    .subscriptionSoldOut
  ensure (period = .resetPrice ∨ plan.canRenew = true ∨ ¬samePlan) .planCannotRenew
  ensure (plan.isShown = true ∨ plan.canRenew = false ∨ userRow.isAvailable now = true)
    .planExpiredChangeRequired
  pure price

/-! ## The coupon -/

def couponDiscount (coupon : CouponRecord) (totalAmount : Int) : Except ServiceError Int :=
  if coupon.type = 1 then .ok (min coupon.value totalAmount)
  else if coupon.type = 2 then .ok (min (calcPercent totalAmount coupon.value) totalAmount)
  else .error .couponFailed

def checkCoupon (db : Db) (now : Int) (coupon : CouponRecord) (draft : OrderDraft) :
    Except ServiceError Unit := do
  ensure (coupon.shown ≠ 0) .couponInvalid
  ensure (coupon.limitUse.all (fun limit => 0 < limit) = true) .couponUnavailable
  ensure (coupon.startedAt ≤ now) .couponNotStarted
  ensure (now ≤ coupon.endedAt) .couponExpired
  ensure (coupon.limitPlanIDs.all (fun ids => draft.planID ∈ ids) = true) .couponPlanRestricted
  ensure (coupon.limitPeriod.all (fun periods => draft.period.text ∈ periods) = true)
    .couponPeriodRestricted
  ensure (coupon.limitUseWithUser.all (fun limit =>
    db.couponUsedCount coupon.id draft.userID < limit) = true) .couponUserLimit

def applyCoupon (now : Int) (coupon : CouponRecord) (draft : OrderDraft) (db : Db) :
    Except ServiceError (OrderDraft × Db) := do
  checkCoupon db now coupon draft
  let discount ← couponDiscount coupon draft.totalAmount
  let draft := { draft with
    discountAmount := draft.discountAmount + discount
    totalAmount := draft.totalAmount - discount
    couponID := some coupon.id }
  match coupon.limitUse with
  | none => pure (draft, db)
  | some limit => do
    ensure (0 ≤ limit - 1) .couponFailed
    pure (draft, db.updateCouponLimit coupon.id (limit - 1))

def useCouponCode (now : Int) (couponCode : String) (draft : OrderDraft) (db : Db) :
    Except ServiceError (OrderDraft × Db) :=
  if trimSpace couponCode = "" then .ok (draft, db)
  else do
    let coupon ← require (db.loadCoupon (trimSpace couponCode)) .couponInvalid
    applyCoupon now coupon draft db

def applyUserDiscount (userRow : UserRecord) (draft : OrderDraft) : OrderDraft :=
  if 0 < userRow.discount.getD 0 then
    let vipDiscount := calcPercent draft.totalAmount (userRow.discount.getD 0)
    { draft with
      discountAmount := draft.discountAmount + vipDiscount
      totalAmount := draft.totalAmount - vipDiscount }
  else draft

/-! ## The surplus of the old subscription -/

/-- `WHERE user_id = $1 AND period … AND status = 3`. -/
def completedOrders (db : Db) (userID : Int) (period : Period → Bool) : List OrderRecord :=
  db.orders.rows.filter fun o => o.userID = userID && o.status = .completed && period o.period

def lastOrder (orders : List OrderRecord) : Option OrderRecord :=
  orders.foldl (fun best o =>
    match best with
    | none => some o
    | some b => if b.id < o.id then some o else some b) none

def applyOneTimeSurplus (rt : Runtime) (db : Db) (userRow : UserRecord) (draft : OrderDraft) :
    OrderDraft :=
  match lastOrder (completedOrders db userRow.id fun p => p = .onetimePrice) with
  | none => draft
  | some last =>
    let paidTotal := last.totalAmount + last.balanceAmount.getD 0
    if userRow.transferEnable = 0 ∨ paidTotal = 0 then draft
    else
      { draft with
        surplusAmount :=
          max (rt.oneTimeSurplus userRow.transferEnable (userRow.u + userRow.d) paidTotal) 0
        surplusOrderIDs := (completedOrders db userRow.id fun p => p ≠ .resetPrice).map (·.id) }

/-- The price an order stands for in the period surplus. -/
def orderAmount (o : OrderRecord) : Int :=
  o.totalAmount + o.balanceAmount.getD 0 + o.surplusAmount.getD 0 - o.refundAmount.getD 0

def isPeriodOrder (p : Period) : Bool := p ≠ .resetPrice && p ≠ .onetimePrice && p ≠ .deposit

/-- Not yet over when the new order is saved. -/
def coversNow (rt : Runtime) (now : Int) (o : OrderRecord) : Bool :=
  match periodMonths o.period with
  | none => false
  | some months => now ≤ rt.addMonths o.createdAt months

def applyPeriodSurplus (rt : Runtime) (db : Db) (now : Int) (userRow : UserRecord)
    (draft : OrderDraft) : OrderDraft :=
  let orders := completedOrders db userRow.id isPeriodOrder
  let valid := orders.filter (coversNow rt now)
  let lastValidateAt := valid.foldl (fun t o => max t o.createdAt) 0
  let orderMonthSum := (valid.map fun o => (periodMonths o.period).getD 0).sum
  let expiredAtByOrder := rt.addMonths lastValidateAt orderMonthSum
  let expiredAt := userRow.expiredAt.getD 0
  let orderRangeSecond := expiredAtByOrder - lastValidateAt
  if valid = [] ∨ userRow.expiredAt.isNone ∨ expiredAt < now ∨ expiredAtByOrder < now ∨
      orderRangeSecond ≤ 0 ∨ userRow.transferEnable ≤ 0 then draft
  else
    { draft with
      surplusAmount := max (rt.periodSurplus (valid.map orderAmount).sum orderRangeSecond
        (expiredAt - now) userRow.transferEnable (userRow.u + userRow.d)) 0
      surplusOrderIDs := orders.map (·.id) }

def applySurplusValue (rt : Runtime) (db : Db) (now : Int) (userRow : UserRecord)
    (draft : OrderDraft) : OrderDraft :=
  if userRow.expiredAt.isNone then applyOneTimeSurplus rt db userRow draft
  else applyPeriodSurplus rt db now userRow draft

/-- The surplus pays the price; what exceeds it is refunded when the order opens. -/
def deductSurplus (draft : OrderDraft) : OrderDraft :=
  if draft.totalAmount ≤ draft.surplusAmount then
    { draft with
      refundAmount := draft.surplusAmount - draft.totalAmount
      totalAmount := 0 }
  else { draft with totalAmount := draft.totalAmount - draft.surplusAmount }

/-- `now` is before the expiry, or there is none to pass. -/
def notExpired (row : UserRecord) (now : Int) : Bool :=
  match row.expiredAt with
  | none => false
  | some e => now < e

def setOrderType (rt : Runtime) (cfg : Config) (db : Db) (now : Int) (userRow : UserRecord)
    (draft : OrderDraft) : Except ServiceError OrderDraft :=
  if draft.period = .deposit then .ok { draft with type := .deposit }
  else if draft.period = .resetPrice then .ok { draft with type := .reset }
  else if userRow.planID.isSome ∧ userRow.planID ≠ some draft.planID ∧
      (userRow.expiredAt.isNone ∨ notExpired userRow now = true) then do
    ensure (cfg.planChangeEnable = true) .planChangeDisabled
    let draft := { draft with type := .change }
    if cfg.surplusEnable then pure (deductSurplus (applySurplusValue rt db now userRow draft))
    else pure draft
  else if notExpired userRow now = true ∧ userRow.planID = some draft.planID then
    .ok { draft with type := .renewal }
  else .ok { draft with type := .purchase }

/-! ## The invite campaign -/

def campaignDiscount (campaign : InviteCampaignRecord) (draft : OrderDraft) : OrderDraft :=
  if campaign.planID ≠ draft.planID ∨ campaign.period ≠ draft.period.text then draft
  else
    let discountAmount := min campaign.currentAmount draft.totalAmount
    if discountAmount ≤ 0 then draft
    else
      { draft with
        inviteCampaignID := some campaign.id
        inviteCampaignDiscountAmount := discountAmount
        totalAmount := draft.totalAmount - discountAmount }

def applyInviteCampaignDiscount (now userID : Int) (draft : OrderDraft) (db : Db) :
    OrderDraft × Db :=
  match db.currentInviteCampaign userID with
  | none => (draft, db)
  | some campaign =>
    if campaign.expiredAt ≤ now then (draft, db.setCampaignStatus campaign.id .expired)
    else if campaign.status = .active ∧ campaign.targetAmount ≤ campaign.currentAmount then
      (campaignDiscount campaign draft, db.setCampaignStatus campaign.id .completed)
    else (campaignDiscount campaign draft, db)

/-- The campaigns after an order of `userID` looked at the current one: its status
is brought up to date. -/
def refreshedCampaigns (now userID : Int) (db : Db) :
    Table InviteCampaignRecord.id InviteCampaignRecord.id :=
  match db.currentInviteCampaign userID with
  | none => db.campaigns
  | some campaign =>
    if campaign.expiredAt ≤ now then (db.setCampaignStatus campaign.id .expired).campaigns
    else if campaign.status = .active ∧ campaign.targetAmount ≤ campaign.currentAmount then
      (db.setCampaignStatus campaign.id .completed).campaigns
    else db.campaigns

/-! ## Balance and commission -/

def balanceUsed (userRow : UserRecord) (draft : OrderDraft) : Int :=
  if 0 < userRow.balance ∧ 0 < draft.totalAmount then min userRow.balance draft.totalAmount else 0

def useBalance (userRow : UserRecord) (draft : OrderDraft) (db : Db) :
    Except ServiceError (OrderDraft × Db) :=
  if 0 < userRow.balance ∧ 0 < draft.totalAmount then do
    let used := balanceUsed userRow draft
    let db ← db.updateUserBalance userRow.id (userRow.balance - used)
    pure ({ draft with balanceAmount := used, totalAmount := draft.totalAmount - used }, db)
  else .ok (draft, db)

def earnsCommission (cfg : Config) (db : Db) (userRow inviter : UserRecord) : Bool :=
  if inviter.commissionType = 0 then !cfg.commissionFirstTime || !db.haveValidOrder userRow.id
  else if inviter.commissionType = 1 then true
  else if inviter.commissionType = 2 then !db.haveValidOrder userRow.id
  else false

def commissionRate (cfg : Config) (inviter : UserRecord) : Int :=
  if 0 < inviter.commissionRate.getD 0 then inviter.commissionRate.getD 0 else cfg.inviteCommission

def setInvite (cfg : Config) (db : Db) (userRow : UserRecord) (draft : OrderDraft) :
    Except ServiceError OrderDraft :=
  match userRow.inviteUserID with
  | none => .ok draft
  | some inviterID =>
    let draft := { draft with inviteUserID := some inviterID }
    if draft.period = .deposit ∨ draft.type = .deposit ∨ draft.totalAmount ≤ 0 then .ok draft
    else
      match db.lockUser inviterID with
      | .error .notFound => .ok draft
      | .error e => .error e
      | .ok inviter =>
        if earnsCommission cfg db userRow inviter then
          .ok { draft with
            commissionBalance := calcPercent draft.totalAmount (commissionRate cfg inviter) }
        else .ok draft

/-! ## The transaction -/

/-- The insert, and the ghost entry for the balance part. -/
def insertDraft (now : Int) (draft : OrderDraft) (db : Db) : Except ServiceError Db := do
  let db ← db.insertOrder (draft.row now)
  pure (db.record draft.userID db.orderSeq .balancePart (-draft.balanceAmount) 0)

def saveDepositOrder (cfg : Config) (now : Int) (userRow : UserRecord) (amount : Int)
    (tradeNo : String) (db : Db) : Except ServiceError Db := do
  ensure (0 < amount) .depositAmountInvalid
  ensure (amount < 9999999) .depositAmountTooLarge
  let draft ← setInvite cfg db userRow (newDraft userRow.id 0 .deposit .deposit tradeNo amount)
  insertDraft now draft db

def savePlanOrder (rt : Runtime) (cfg : Config) (now : Int) (userRow : UserRecord)
    (plan : PlanRecord) (period : Period) (couponCode tradeNo : String) (db : Db) :
    Except ServiceError Db := do
  let price ← checkPlan db now userRow plan period
  let draft := newDraft userRow.id plan.id .purchase period tradeNo price
  let (draft, db) ← useCouponCode now couponCode draft db
  let draft := applyUserDiscount userRow draft
  ensure (0 ≤ draft.totalAmount) .invalidParameter
  let draft ← setOrderType rt cfg db now userRow draft
  let (draft, db) := applyInviteCampaignDiscount now userRow.id draft db
  ensure (0 ≤ draft.totalAmount) .invalidParameter
  let (draft, db) ← useBalance userRow draft db
  let draft ← setInvite cfg db userRow draft
  insertDraft now draft db

/-- `tradeNo` is what `generateTradeNo` returns. -/
def saveOrder (rt : Runtime) (cfg : Config) (now userID : Int) (req : OrderSaveRequest)
    (tradeNo : String) (db : Db) : Except ServiceError Db := do
  ensure (0 ≤ req.planID) .invalidParameter
  let period ← require (periodOf (trimSpace req.period)) .invalidParameter
  let userRow ← db.lockUser userID
  ensure (db.hasPendingOrder userID = false) .pendingOrderExists
  if req.planID = 0 then saveDepositOrder cfg now userRow req.depositAmount tradeNo db
  else do
    let plan ← require (db.plans.find? req.planID) .planNotFound
    savePlanOrder rt cfg now userRow plan period req.couponCode tradeNo db

/-! ## What saving writes -/

def usedCoupon (couponID : Int) (c : CouponRecord) : CouponRecord :=
  if c.id = couponID then { c with limitUse := c.limitUse.map (· - 1) } else c

private theorem usedCoupon_eq_self (couponID : Int) (c : CouponRecord)
    (unlimited : c.id = couponID → c.limitUse = none) : usedCoupon couponID c = c := by
  unfold usedCoupon
  split
  next same =>
    have none := unlimited same
    cases c
    simp_all
  next => rfl

/-- The coupon of a saved order existed, had uses left, and lost one. -/
def CouponUsed (db db' : Db) (userID : Int) : Option Int → Prop
  | none => db'.coupons = db.coupons
  | some couponID => ∃ c ∈ db.coupons, c.id = couponID ∧
      (∀ limit, c.limitUse = some limit → 0 < limit) ∧
      (∀ limit, c.limitUseWithUser = some limit → db.couponUsedCount couponID userID < limit) ∧
      db'.coupons.rows = db.coupons.rows.map (usedCoupon couponID)

/-- A discount is of a campaign there is, and within the reward it has accrued. -/
def WithinReward (db : Db) (campaignID : Option Int) (discount : Int) : Prop :=
  ∀ c, campaignID = some c →
    ∃ k ∈ db.campaigns, k.id = c ∧ 0 < discount ∧ discount ≤ k.currentAmount

private theorem withinReward_none (db : Db) (discount : Int) : WithinReward db none discount :=
  nofun

/-- What every stage of the draft keeps: `balance` is what the buyer's balance
pays of it so far. -/
structure Drafted (db db' : Db) (userID planID balance : Int) (draft : OrderDraft) : Prop where
  buyer : draft.userID = userID
  plan : draft.planID = planID
  part : draft.balanceAmount = balance
  period : draft.period ≠ .deposit
  type : draft.type ≠ .deposit
  surplus : ∀ i ∈ draft.surplusOrderIDs,
    ∃ o ∈ db.orders, o.id = i ∧ o.userID = userID ∧ o.status = .completed
  refund : 0 ≤ draft.refundAmount
  coupon : CouponUsed db db' userID draft.couponID
  campaign : WithinReward db draft.inviteCampaignID draft.inviteCampaignDiscountAmount

private theorem newDraft_drafted (db : Db) (userID planID price : Int) (period : Period)
    (tradeNo : String) (plan : period ≠ .deposit) :
    Drafted db db userID planID 0 (newDraft userID planID .purchase period tradeNo price) where
  buyer := rfl
  plan := rfl
  part := rfl
  period := plan
  type := by simp [newDraft]
  surplus := fun i listed => by cases listed
  refund := le_rfl
  coupon := rfl
  campaign := withinReward_none db 0

variable {db db' db₀ : Db} {userID planID balance now : Int} {draft draft' : OrderDraft}
  {rt : Runtime} {userRow r : UserRecord} {cfg : Config} {tradeNo : String} {req : OrderSaveRequest}

private theorem Drafted.congr {db₁ db₂ : Db} (h : Drafted db db₁ userID planID balance draft)
    (coupons : db₂.coupons = db₁.coupons) : Drafted db db₂ userID planID balance draft := by
  refine { h with coupon := ?_ }
  have used := h.coupon
  unfold CouponUsed at used ⊢
  rw [coupons]
  exact used

private theorem applyCoupon_drafted {coupon : CouponRecord} (member : coupon ∈ db.coupons)
    (drafted : Drafted db db userID planID 0 draft)
    (returned : applyCoupon now coupon draft db = .ok (draft', db')) :
    Drafted db db' userID planID 0 draft' ∧ db' = { db with coupons := db'.coupons } := by
  simp only [applyCoupon, bind_eq_ok] at returned
  obtain ⟨_, checked, discount, -, returned⟩ := returned
  simp only [checkCoupon, bind_eq_ok, ensure_eq_ok, exists_const, Option.all_eq_true,
    decide_eq_true_eq] at checked
  obtain ⟨-, available, -, -, -, -, perUser⟩ := checked
  rw [drafted.buyer] at perUser
  split at returned
  next unlimited =>
    rw [pure_eq_ok] at returned
    obtain ⟨rfl, rfl⟩ := Prod.mk.inj returned
    refine ⟨{ drafted with coupon := ⟨coupon, member, rfl, available, perUser, ?_⟩ }, rfl⟩
    conv_lhs => rw [← List.map_id db.coupons.rows]
    apply List.map_congr_left
    intro c stored
    refine (usedCoupon_eq_self _ _ ?_).symm
    intro same
    exact db.coupons.eq_of_key stored member same ▸ unlimited
  next limit limited =>
    simp only [bind_eq_ok, ensure_eq_ok, exists_const, pure_eq_ok] at returned
    obtain ⟨enough, returned⟩ := returned
    obtain ⟨rfl, rfl⟩ := Prod.mk.inj returned
    refine ⟨{ drafted with coupon := ⟨coupon, member, rfl, available, perUser, ?_⟩ }, rfl⟩
    simp only [Db.updateCouponLimit, Table.rows_updateWhere]
    apply List.map_congr_left
    intro c stored
    by_cases same : c.id = coupon.id
    · rw [db.coupons.eq_of_key stored member same]
      simp [usedCoupon, limited]
    · simp [usedCoupon, same]

private theorem useCouponCode_drafted {couponCode : String}
    (drafted : Drafted db db userID planID 0 draft)
    (returned : useCouponCode now couponCode draft db = .ok (draft', db')) :
    Drafted db db' userID planID 0 draft' ∧ db' = { db with coupons := db'.coupons } := by
  unfold useCouponCode at returned
  split at returned
  next =>
    obtain ⟨rfl, rfl⟩ := Prod.mk.inj (Except.ok.inj returned)
    exact ⟨drafted, rfl⟩
  next =>
    simp only [bind_eq_ok, require_eq_ok] at returned
    obtain ⟨coupon, loaded, returned⟩ := returned
    exact applyCoupon_drafted (List.mem_of_find?_eq_some loaded) drafted returned

private theorem applyUserDiscount_drafted (userRow : UserRecord)
    (drafted : Drafted db db' userID planID balance draft) :
    Drafted db db' userID planID balance (applyUserDiscount userRow draft) := by
  unfold applyUserDiscount
  split
  · exact { drafted with }
  · exact drafted

private theorem completedOrders_listed (db : Db) (userID : Int) (period : Period → Bool) (i : Int)
    (listed : i ∈ (completedOrders db userID period).map (·.id)) :
    ∃ o ∈ db.orders, o.id = i ∧ o.userID = userID ∧ o.status = .completed := by
  obtain ⟨o, found, rfl⟩ := List.mem_map.mp listed
  simp only [completedOrders, List.mem_filter, Bool.and_eq_true, decide_eq_true_eq] at found
  exact ⟨o, found.1, rfl, found.2.1.1, found.2.1.2⟩

private theorem applySurplusValue_drafted (same : db.orders = db₀.orders)
    (drafted : Drafted db₀ db userRow.id planID balance draft) :
    Drafted db₀ db userRow.id planID balance (applySurplusValue rt db now userRow draft) := by
  have listed := completedOrders_listed db userRow.id
  rw [same] at listed
  unfold applySurplusValue
  split
  · unfold applyOneTimeSurplus
    split
    · exact drafted
    · dsimp only
      split
      · exact drafted
      · exact { drafted with surplus := listed _ }
  · unfold applyPeriodSurplus
    dsimp only
    split
    · exact drafted
    · exact { drafted with surplus := listed _ }

private theorem deductSurplus_drafted (drafted : Drafted db db' userID planID balance draft) :
    Drafted db db' userID planID balance (deductSurplus draft) := by
  unfold deductSurplus
  split
  next paid => exact { drafted with refund := Int.sub_nonneg.mpr paid }
  next => exact { drafted with }

private theorem setOrderType_drafted (same : db.orders = db₀.orders)
    (drafted : Drafted db₀ db userRow.id planID balance draft)
    (returned : setOrderType rt cfg db now userRow draft = .ok draft') :
    Drafted db₀ db userRow.id planID balance draft' := by
  have typed : ∀ type, type ≠ OrderType.deposit →
      Drafted db₀ db userRow.id planID balance { draft with type } :=
    fun _ different => { drafted with type := different }
  unfold setOrderType at returned
  split at returned
  next deposit => exact absurd deposit drafted.period
  next =>
    split at returned
    next => exact Except.ok.inj returned ▸ typed .reset (by decide)
    next =>
      split at returned
      next =>
        simp only [bind_eq_ok, ensure_eq_ok, exists_const] at returned
        obtain ⟨-, returned⟩ := returned
        have change := typed .change (by decide)
        split at returned
        next =>
          rw [pure_eq_ok] at returned
          exact returned ▸ deductSurplus_drafted (applySurplusValue_drafted same change)
        next =>
          rw [pure_eq_ok] at returned
          exact returned ▸ change
      next =>
        split at returned
        next => exact Except.ok.inj returned ▸ typed .renewal (by decide)
        next => exact Except.ok.inj returned ▸ typed .purchase (by decide)

theorem currentInviteCampaign_mem {campaign : InviteCampaignRecord}
    (found : db.currentInviteCampaign userID = some campaign) :
    campaign ∈ db.campaigns ∧ campaign.userID = userID ∧
      (campaign.status = .active ∨ campaign.status = .completed) := by
  have listed : ∀ (rows : List InviteCampaignRecord) (best : Option InviteCampaignRecord),
      rows.foldl (fun best c =>
        match best with
        | none => some c
        | some b => if b.id < c.id then some c else some b) best = some campaign →
      campaign ∈ rows ∨ best = some campaign := by
    intro rows
    induction rows with
    | nil => exact fun best same => Or.inr same
    | cons c rows ih =>
      intro best same
      rw [List.foldl_cons] at same
      rcases ih _ same with later | chosen
      · exact Or.inl (List.mem_cons_of_mem c later)
      · split at chosen
        · exact Or.inl (Option.some.inj chosen ▸ List.mem_cons_self)
        · split at chosen
          · exact Or.inl (Option.some.inj chosen ▸ List.mem_cons_self)
          · exact Or.inr chosen
  rcases listed _ _ found with member | impossible
  · simp only [List.mem_filter, Bool.and_eq_true, Bool.or_eq_true, decide_eq_true_eq] at member
    exact member
  · cases impossible

private theorem applyInviteCampaignDiscount_drafted (now : Int)
    (same : db.campaigns = db₀.campaigns) (drafted : Drafted db₀ db userID planID balance draft) :
    Drafted db₀ (applyInviteCampaignDiscount now userID draft db).2 userID planID balance
        (applyInviteCampaignDiscount now userID draft db).1 ∧
      (applyInviteCampaignDiscount now userID draft db).2 =
        { db with campaigns := refreshedCampaigns now userID db } := by
  have discounted : ∀ campaign, db.currentInviteCampaign userID = some campaign →
      Drafted db₀ db userID planID balance (campaignDiscount campaign draft) := by
    intro campaign found
    unfold campaignDiscount
    dsimp only
    split
    · exact drafted
    · split
      · exact drafted
      next positive =>
        refine { drafted with campaign := ?_ }
        rintro c ⟨⟩
        have member := (currentInviteCampaign_mem found).1
        exact ⟨campaign, same ▸ member, rfl, not_le.mp positive, min_le_left _ _⟩
  unfold applyInviteCampaignDiscount refreshedCampaigns
  split
  next => exact ⟨drafted, rfl⟩
  next campaign found =>
    split
    · exact ⟨drafted.congr rfl, rfl⟩
    · split
      · exact ⟨(discounted campaign found).congr rfl, rfl⟩
      · exact ⟨discounted campaign found, rfl⟩

private theorem useBalance_writes (found : db.users.find? userRow.id = some r)
    (balance : userRow.balance = r.balance) (drafted : Drafted db₀ db userRow.id planID 0 draft)
    (priced : 0 ≤ draft.totalAmount) (returned : useBalance userRow draft db = .ok (draft', db')) :
    Drafted db₀ db' userRow.id planID draft'.balanceAmount draft' ∧
    0 ≤ draft'.balanceAmount ∧ 0 ≤ draft'.totalAmount ∧
    (∀ orderID, Moves db (db'.record userRow.id orderID .balancePart (-draft'.balanceAmount) 0)
      [⟨userRow.id, orderID, .balancePart, -draft'.balanceAmount, 0⟩]) ∧
    (Solvent db → Solvent db') ∧ db' = { db with users := db'.users } := by
  unfold useBalance at returned
  split at returned
  next both =>
    simp only [bind_eq_ok, Db.updateUserBalance_eq_ok, pure_eq_ok, Prod.mk.injEq] at returned
    obtain ⟨_, ⟨enough, rfl⟩, rfl, rfl⟩ := returned
    have used : balanceUsed userRow draft = min userRow.balance draft.totalAmount := if_pos both
    refine ⟨{ drafted.congr rfl with part := rfl }, ?_, ?_, ?_,
      fun h => Db.solvent_setUserBalance h enough, rfl⟩
    · exact used ▸ le_min both.1.le both.2.le
    · exact Int.sub_nonneg.mpr (used ▸ min_le_right _ _)
    · intro orderID
      rw [balance, sub_eq_add_neg]
      exact Db.moves_setUserBalance found .balancePart
  next =>
    obtain ⟨rfl, rfl⟩ := Prod.mk.inj (Except.ok.inj returned)
    have unused := drafted.part
    refine ⟨{ drafted with part := rfl }, unused.ge, priced, ?_, id, rfl⟩
    intro orderID
    rw [unused, neg_zero]
    exact moves_record_zero db _ _ _

theorem setInvite_frame (returned : setInvite cfg db userRow draft = .ok draft') :
    ∃ inviteUserID commissionBalance,
      draft' = { draft with inviteUserID, commissionBalance } := by
  unfold setInvite at returned
  split at returned
  next => exact ⟨_, _, (Except.ok.inj returned).symm⟩
  next =>
    dsimp only at returned
    split at returned
    next => exact ⟨_, _, (Except.ok.inj returned).symm⟩
    next =>
      split at returned
      next => exact ⟨_, _, (Except.ok.inj returned).symm⟩
      next => cases returned
      next =>
        split at returned
        next => exact ⟨_, _, (Except.ok.inj returned).symm⟩
        next => exact ⟨_, _, (Except.ok.inj returned).symm⟩

/-- `row` was inserted for a buyer without an unfinished order. -/
structure Saved (row : OrderRecord) (db db' : Db) : Prop where
  id : row.id = db.orderSeq + 1
  fresh : ∀ b ∈ db.orders, b.id ≠ row.id ∧ b.tradeNo ≠ row.tradeNo
  user : ∃ u ∈ db.users, u.id = row.userID
  plan : row.type ≠ .deposit → ∃ p ∈ db.plans, p.id = row.planID
  alone : db.hasPendingOrder row.userID = false
  unpaid : row.status = .pending ∧ row.paymentID = none ∧ row.handlingAmount = none ∧
    row.callbackNo = none
  unsettled : row.commissionStatus = .waiting ∧ row.actualCommissionBalance = none
  amounts : 0 ≤ row.totalAmount ∧ 0 ≤ row.refundAmount.getD 0 ∧ 0 ≤ row.balanceAmount.getD 0
  surplus : ∀ i ∈ surplusIDs row,
    ∃ o ∈ db.orders, o.id = i ∧ o.userID = row.userID ∧ o.status = .completed
  deposit : row.type = .deposit → surplusIDs row = []
  period : row.period = .deposit → row.type = .deposit
  coupon : CouponUsed db db' row.userID row.couponID
  reward : WithinReward db row.inviteCampaignID row.inviteCampaignDiscountAmount
  plain : row.type = .deposit → row.inviteCampaignID = none
  orders : db'.orders.rows = db.orders.rows ++ [row]
  moves : Moves db db' [⟨row.userID, row.id, .balancePart, -row.balanceAmount.getD 0, 0⟩]
  solvent : Solvent db → Solvent db'
  frame : db' = { db with
    users := db'.users
    coupons := db'.coupons
    campaigns := db'.campaigns
    orders := db'.orders
    orderSeq := db.orderSeq + 1
    ledger := db'.ledger }

@[simp] theorem getD_nullZeroInt64 (value : Int) : (nullZeroInt64 value).getD 0 = value := by
  unfold nullZeroInt64
  split <;> simp_all

@[simp] theorem surplusIDs_row (draft : OrderDraft) (now : Int) :
    surplusIDs (draft.row now) = draft.surplusOrderIDs := by
  unfold surplusIDs OrderDraft.row
  dsimp only
  split <;> simp_all

/-- A draft that may be inserted: all that `Saved` says of the row, said of it.
`db₀` is the database at the start of the transaction. -/
structure Ready (db₀ db : Db) (draft : OrderDraft) : Prop where
  user : ∃ u ∈ db₀.users, u.id = draft.userID
  plan : draft.type ≠ .deposit → ∃ p ∈ db₀.plans, p.id = draft.planID
  alone : db₀.hasPendingOrder draft.userID = false
  amounts : 0 ≤ draft.totalAmount ∧ 0 ≤ draft.refundAmount ∧ 0 ≤ draft.balanceAmount
  surplus : ∀ i ∈ draft.surplusOrderIDs,
    ∃ o ∈ db₀.orders, o.id = i ∧ o.userID = draft.userID ∧ o.status = .completed
  deposit : draft.type = .deposit → draft.surplusOrderIDs = []
  period : draft.period = .deposit → draft.type = .deposit
  coupon : CouponUsed db₀ db draft.userID draft.couponID
  reward : WithinReward db₀ draft.inviteCampaignID draft.inviteCampaignDiscountAmount
  plain : draft.type = .deposit → draft.inviteCampaignID = none
  moves : ∀ orderID,
    Moves db₀ (db.record draft.userID orderID .balancePart (-draft.balanceAmount) 0)
      [⟨draft.userID, orderID, .balancePart, -draft.balanceAmount, 0⟩]
  solvent : Solvent db₀ → Solvent db
  frame : db = { db₀ with
    users := db.users
    coupons := db.coupons
    campaigns := db.campaigns }

private theorem insertDraft_saved (ready : Ready db₀ db draft)
    (returned : insertDraft now draft db = .ok db') :
    Saved { draft.row now with id := db₀.orderSeq + 1 } db₀ db' := by
  have rows : db.orders = db₀.orders := by rw [ready.frame]
  have seq : db.orderSeq = db₀.orderSeq := by rw [ready.frame]
  simp only [insertDraft, Db.insertOrder, bind_eq_ok, require_eq_ok, pure_eq_ok, rows, seq]
    at returned
  obtain ⟨_, ⟨orders, inserted, rfl⟩, rfl⟩ := returned
  obtain ⟨appended, freshID, freshTradeNo⟩ := (Table.insert?_eq_some ..).mp inserted
  have refund := ready.amounts.2.1
  have part := ready.amounts.2.2
  rw [← getD_nullZeroInt64 draft.refundAmount] at refund
  rw [← getD_nullZeroInt64 draft.balanceAmount] at part
  have listed := surplusIDs_row draft now
  refine ⟨rfl, fun b stored => ⟨freshID b stored, freshTradeNo b stored⟩, ready.user, ready.plan,
    ready.alone, ⟨rfl, rfl, rfl, rfl⟩, ⟨rfl, rfl⟩, ⟨ready.amounts.1, refund, part⟩, ?_, ?_,
    ready.period, ready.coupon, ready.reward, ready.plain, appended, ?_,
    ready.solvent, ?_⟩
  · exact fun i member => ready.surplus i (listed ▸ member)
  · exact fun deposit => listed.trans (ready.deposit deposit)
  · have stored : (draft.row now).balanceAmount.getD 0 = draft.balanceAmount :=
      getD_nullZeroInt64 _
    have moves : Moves db₀ (db.record draft.userID (db₀.orderSeq + 1) .balancePart
        (-draft.balanceAmount) 0) [⟨draft.userID, db₀.orderSeq + 1, .balancePart,
        -(draft.row now).balanceAmount.getD 0, 0⟩] := by
      rw [stored]
      exact ready.moves _
    exact moves.congr rfl rfl
  · rw [ready.frame]
    rfl

private theorem insertDraft_campaigns (returned : insertDraft now draft db = .ok db') :
    db'.campaigns = db.campaigns := by
  simp only [insertDraft, Db.insertOrder, bind_eq_ok, require_eq_ok, pure_eq_ok] at returned
  obtain ⟨_, ⟨orders, -, rfl⟩, rfl⟩ := returned
  rfl

private theorem saveDepositOrder_saved {amount : Int} (found : db.users.find? userRow.id = some r)
    (alone : db.hasPendingOrder userRow.id = false)
    (returned : saveDepositOrder cfg now userRow amount tradeNo db = .ok db') :
    (∃ row, Saved row db db' ∧ row.userID = userRow.id) ∧ db'.campaigns = db.campaigns := by
  simp only [saveDepositOrder, bind_eq_ok, ensure_eq_ok, exists_const] at returned
  obtain ⟨positive, -, draft, invited, inserted⟩ := returned
  obtain ⟨inviter, commission, rfl⟩ := setInvite_frame invited
  refine ⟨⟨_, insertDraft_saved ?_ inserted, rfl⟩, insertDraft_campaigns inserted⟩
  exact {
    user := ⟨r, (Table.find?_eq_some ..).mp found⟩
    plan := fun kind => absurd rfl kind
    alone
    amounts := ⟨positive.le, le_rfl, le_rfl⟩
    surplus := fun i listed => by cases listed
    deposit := fun _ => rfl
    period := fun _ => rfl
    coupon := rfl
    reward := withinReward_none db 0
    plain := fun _ => rfl
    moves := fun orderID => moves_record_zero db _ _ _
    solvent := id
    frame := rfl }

private theorem savePlanOrder_saved {plan : PlanRecord} {period : Period} {couponCode : String}
    (found : db.users.find? userRow.id = some r) (balance : userRow.balance = r.balance)
    (alone : db.hasPendingOrder userRow.id = false) (offered : plan ∈ db.plans)
    (returned : savePlanOrder rt cfg now userRow plan period couponCode tradeNo db = .ok db') :
    (∃ row, Saved row db db' ∧ row.userID = userRow.id) ∧
      db'.campaigns = refreshedCampaigns now userRow.id db := by
  simp only [savePlanOrder, bind_eq_ok, ensure_eq_ok, exists_const] at returned
  obtain ⟨price, checked, ⟨draft₁, db₁⟩, coupon, -, draft₃, typed, priced, ⟨draft₅, db₅⟩, paid,
    draft₆, invited, inserted⟩ := returned
  simp only [checkPlan, bind_eq_ok, ensure_eq_ok, exists_const, require_eq_ok] at checked
  obtain ⟨-, _, sold, -⟩ := checked
  have notDeposit : period ≠ .deposit := by
    rintro rfl
    cases sold
  obtain ⟨drafted₁, only₁⟩ := useCouponCode_drafted
    (newDraft_drafted db userRow.id plan.id price period tradeNo notDeposit) coupon
  have drafted₃ := setOrderType_drafted (by rw [only₁])
    (applyUserDiscount_drafted userRow drafted₁) typed
  have discounted := applyInviteCampaignDiscount_drafted now (by rw [only₁]) drafted₃
  have refreshed : refreshedCampaigns now userRow.id db₁ = refreshedCampaigns now userRow.id db := by
    rw [only₁]
    rfl
  rw [refreshed] at discounted
  dsimp only at priced paid invited inserted
  generalize applyInviteCampaignDiscount now userRow.id draft₃ db₁ = result at *
  obtain ⟨draft₄, db₄⟩ := result
  obtain ⟨drafted₄, only₄⟩ := discounted
  dsimp only at drafted₄ only₄ priced paid
  have found₄ : db₄.users.find? userRow.id = some r := by rw [only₄, only₁, found]
  obtain ⟨drafted, part, total, moves, solvent, only₅⟩ :=
    useBalance_writes found₄ balance drafted₄ priced paid
  obtain ⟨inviter, commission, rfl⟩ := setInvite_frame invited
  have buyer := drafted.buyer
  have unmoved : Moves db db₄ [] := by
    rw [only₄, only₁]
    exact .none rfl rfl
  refine ⟨⟨_, insertDraft_saved ?_ inserted, buyer⟩, ?_⟩
  case refine_2 =>
    rw [insertDraft_campaigns inserted, only₅, only₄]
  exact {
    user := ⟨r, buyer ▸ (Table.find?_eq_some ..).mp found⟩
    plan := fun _ => ⟨plan, offered, drafted.plan.symm⟩
    alone := buyer ▸ alone
    amounts := ⟨total, drafted.refund, part⟩
    surplus := buyer ▸ drafted.surplus
    deposit := fun kind => absurd kind drafted.type
    period := fun kind => absurd kind drafted.period
    coupon := buyer ▸ drafted.coupon
    reward := drafted.campaign
    plain := fun kind => absurd kind drafted.type
    moves := fun orderID => buyer ▸ unmoved.trans (moves orderID)
    solvent := fun h => solvent (h.congr (by rw [only₄, only₁]))
    frame := by rw [only₅, only₄, only₁] }

private theorem saveOrder_writes (returned : saveOrder rt cfg now userID req tradeNo db = .ok db') :
    (∃ row, Saved row db db' ∧ row.userID = userID) ∧
      db'.campaigns =
        if req.planID = 0 then db.campaigns else refreshedCampaigns now userID db := by
  simp only [saveOrder, bind_eq_ok, ensure_eq_ok, exists_const, require_eq_ok] at returned
  obtain ⟨-, period, -, userRow, locked, alone, returned⟩ := returned
  obtain ⟨r, -, -, key, found, balance, -⟩ := Db.lockUser_row locked
  rw [← key] at found alone ⊢
  split at returned
  next deposit =>
    rw [if_pos deposit]
    exact saveDepositOrder_saved found alone returned
  next plan =>
    simp only [bind_eq_ok, require_eq_ok] at returned
    obtain ⟨plan, offered, returned⟩ := returned
    rw [if_neg ‹_›]
    exact savePlanOrder_saved found balance alone (Table.mem_of_find? offered) returned

theorem saveOrder_saved (returned : saveOrder rt cfg now userID req tradeNo db = .ok db') :
    ∃ row, Saved row db db' ∧ row.userID = userID :=
  (saveOrder_writes returned).1

theorem saveOrder_campaigns (returned : saveOrder rt cfg now userID req tradeNo db = .ok db') :
    db'.campaigns = if req.planID = 0 then db.campaigns else refreshedCampaigns now userID db :=
  (saveOrder_writes returned).2

end ForestPanel
