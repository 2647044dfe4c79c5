import ForestPanel.System

/-!
# The amounts of a saved order

Every deduction takes a part of what is left of the price and writes it into one field, so
that the fields of the inserted row add up to the price, and to what is refunded.
-/
namespace ForestPanel

open Relational Outcome

/-- The price, and what will be refunded, is what the amounts of the draft add up to. -/
structure OrderDraft.Balanced (draft : OrderDraft) (price : Int) : Prop where
  sum : price + draft.refundAmount = draft.discountAmount + draft.surplusAmount +
    draft.inviteCampaignDiscountAmount + draft.balanceAmount + draft.totalAmount
  refund : 0 ≤ draft.refundAmount
  discount : 0 ≤ draft.discountAmount
  surplus : 0 ≤ draft.surplusAmount
  campaign : 0 ≤ draft.inviteCampaignDiscountAmount
  balance : 0 ≤ draft.balanceAmount
  total : 0 ≤ draft.totalAmount

private theorem calcPercent_nonneg {amount rate : Int} (priced : 0 ≤ amount) (rated : 0 ≤ rate) :
    0 ≤ calcPercent amount rate :=
  Int.tdiv_nonneg (Int.mul_nonneg priced rated) (by decide)

private theorem calcPercent_le {amount rate : Int} (priced : 0 ≤ amount) (rated : 0 ≤ rate)
    (whole : rate ≤ 100) : calcPercent amount rate ≤ amount := by
  have product : 0 ≤ amount * rate := Int.mul_nonneg priced rated
  have bound : amount * rate ≤ amount * 100 := Int.mul_le_mul_of_nonneg_left whole priced
  rw [calcPercent, Int.tdiv_eq_ediv_of_nonneg product]
  omega

private theorem couponDiscount_bounds {coupon : CouponRecord} {total discount : Int}
    (value : 0 ≤ coupon.value) (priced : 0 ≤ total)
    (returned : couponDiscount coupon total = .ok discount) : 0 ≤ discount ∧ discount ≤ total := by
  unfold couponDiscount at returned
  split at returned
  next =>
    rw [← Except.ok.inj returned]
    omega
  next =>
    split at returned
    next =>
      have percent := calcPercent_nonneg priced value
      rw [← Except.ok.inj returned]
      omega
    next => cases returned

variable {now : Int} {draft draft' : OrderDraft} {db db' : Db} {userRow : UserRecord}

private theorem useCouponCode_amounts {couponCode : String} (values : ∀ c ∈ db.coupons, 0 ≤ c.value)
    (priced : 0 ≤ draft.totalAmount)
    (returned : useCouponCode now couponCode draft db = .ok (draft', db')) :
    (∃ off couponID, 0 ≤ off ∧ off ≤ draft.totalAmount ∧ draft' = { draft with
      discountAmount := draft.discountAmount + off
      totalAmount := draft.totalAmount - off
      couponID }) ∧ db'.users = db.users ∧ db'.orders = db.orders := by
  unfold useCouponCode at returned
  split at returned
  next =>
    obtain ⟨rfl, rfl⟩ := Prod.mk.inj (Except.ok.inj returned)
    refine ⟨⟨0, draft.couponID, le_rfl, priced, ?_⟩, rfl, rfl⟩
    rw [Int.add_zero, Int.sub_zero]
  next =>
    simp only [bind_eq_ok, require_eq_ok] at returned
    obtain ⟨coupon, loaded, returned⟩ := returned
    have member := List.mem_of_find?_eq_some loaded
    simp only [applyCoupon, bind_eq_ok] at returned
    obtain ⟨_, -, off, discounted, returned⟩ := returned
    obtain ⟨nonneg, part⟩ := couponDiscount_bounds (values coupon member) priced discounted
    split at returned
    next =>
      rw [pure_eq_ok] at returned
      obtain ⟨rfl, rfl⟩ := Prod.mk.inj returned
      exact ⟨⟨off, some coupon.id, nonneg, part, rfl⟩, rfl, rfl⟩
    next limit =>
      simp only [bind_eq_ok, ensure_eq_ok, exists_const, pure_eq_ok] at returned
      obtain ⟨-, returned⟩ := returned
      obtain ⟨rfl, rfl⟩ := Prod.mk.inj returned
      exact ⟨⟨off, some coupon.id, nonneg, part, rfl⟩, rfl, rfl⟩

private theorem applyUserDiscount_amounts (userRow : UserRecord) (draft : OrderDraft)
    (whole : userRow.discount.getD 0 ≤ 100) (priced : 0 ≤ draft.totalAmount) :
    ∃ off, 0 ≤ off ∧ off ≤ draft.totalAmount ∧ applyUserDiscount userRow draft = { draft with
      discountAmount := draft.discountAmount + off
      totalAmount := draft.totalAmount - off } := by
  unfold applyUserDiscount
  split
  next positive =>
    exact ⟨_, calcPercent_nonneg priced positive.le, calcPercent_le priced positive.le whole, rfl⟩
  next =>
    refine ⟨0, le_rfl, priced, ?_⟩
    rw [Int.add_zero, Int.sub_zero]

private theorem applySurplusValue_amounts (rt : Runtime) (db : Db) (now : Int)
    (userRow : UserRecord) (draft : OrderDraft) (unused : draft.surplusAmount = 0) :
    ∃ surplus ids, 0 ≤ surplus ∧ applySurplusValue rt db now userRow draft = { draft with
      surplusAmount := surplus
      surplusOrderIDs := ids } := by
  have same : draft = { draft with
      surplusAmount := 0
      surplusOrderIDs := draft.surplusOrderIDs } := by
    rw [← unused]
  unfold applySurplusValue
  split
  · unfold applyOneTimeSurplus
    split
    next => exact ⟨0, _, le_rfl, same⟩
    next =>
      dsimp only
      split
      next => exact ⟨0, _, le_rfl, same⟩
      next => exact ⟨_, _, le_max_right _ _, rfl⟩
  · unfold applyPeriodSurplus
    dsimp only
    split
    next => exact ⟨0, _, le_rfl, same⟩
    next => exact ⟨_, _, le_max_right _ _, rfl⟩

private theorem setOrderType_amounts {rt : Runtime} {cfg : Config}
    (surplus : draft.surplusAmount = 0) (refund : draft.refundAmount = 0)
    (priced : 0 ≤ draft.totalAmount)
    (returned : setOrderType rt cfg db now userRow draft = .ok draft') :
    ∃ type surplus refund ids, 0 ≤ surplus ∧ 0 ≤ refund ∧
      0 ≤ draft.totalAmount - surplus + refund ∧ draft' = { draft with
        type
        surplusAmount := surplus
        refundAmount := refund
        totalAmount := draft.totalAmount - surplus + refund
        surplusOrderIDs := ids } := by
  have plain : ∀ type, ∃ kind surplus refund ids, 0 ≤ surplus ∧ 0 ≤ refund ∧
      0 ≤ draft.totalAmount - surplus + refund ∧ { draft with type } = { draft with
        type := kind
        surplusAmount := surplus
        refundAmount := refund
        totalAmount := draft.totalAmount - surplus + refund
        surplusOrderIDs := ids } := by
    intro type
    refine ⟨type, 0, 0, draft.surplusOrderIDs, le_rfl, le_rfl, by omega, ?_⟩
    rw [← surplus, surplus, Int.sub_zero, Int.add_zero, ← refund]
  unfold setOrderType at returned
  split at returned
  next => exact Except.ok.inj returned ▸ plain .deposit
  next =>
    split at returned
    next => exact Except.ok.inj returned ▸ plain .reset
    next =>
      split at returned
      next =>
        simp only [bind_eq_ok, ensure_eq_ok, exists_const] at returned
        obtain ⟨-, returned⟩ := returned
        split at returned
        next =>
          rw [pure_eq_ok] at returned
          obtain ⟨value, ids, nonneg, same⟩ :=
            applySurplusValue_amounts rt db now userRow { draft with type := .change } surplus
          rw [same, deductSurplus] at returned
          dsimp only at returned
          split at returned
          next paid =>
            -- the whole price is paid
            refine ⟨.change, value, value - draft.totalAmount, ids, nonneg, by omega, by omega, ?_⟩
            rw [← returned]
            congr 1
            omega
          next =>
            refine ⟨.change, value, 0, ids, nonneg, le_rfl, by omega, ?_⟩
            rw [← returned, Int.add_zero, refund]
        next =>
          rw [pure_eq_ok] at returned
          exact returned ▸ plain .change
      next =>
        split at returned
        next => exact Except.ok.inj returned ▸ plain .renewal
        next => exact Except.ok.inj returned ▸ plain .purchase

private theorem campaignDiscount_amounts (campaign : InviteCampaignRecord) (draft : OrderDraft)
    (unused : draft.inviteCampaignDiscountAmount = 0) (priced : 0 ≤ draft.totalAmount) :
    ∃ id off, 0 ≤ off ∧ off ≤ draft.totalAmount ∧ campaignDiscount campaign draft = { draft with
      inviteCampaignID := id
      inviteCampaignDiscountAmount := off
      totalAmount := draft.totalAmount - off } := by
  have same : draft = { draft with
      inviteCampaignID := draft.inviteCampaignID
      inviteCampaignDiscountAmount := 0
      totalAmount := draft.totalAmount - 0 } := by
    rw [Int.sub_zero, ← unused]
  unfold campaignDiscount
  split
  next => exact ⟨_, 0, le_rfl, priced, same⟩
  next =>
    dsimp only
    split
    next => exact ⟨_, 0, le_rfl, priced, same⟩
    next positive => exact ⟨_, _, (not_le.mp positive).le, min_le_right _ _, rfl⟩

private theorem applyInviteCampaignDiscount_amounts (now userID : Int) (draft : OrderDraft)
    (db : Db) (unused : draft.inviteCampaignDiscountAmount = 0) (priced : 0 ≤ draft.totalAmount) :
    (∃ id off, 0 ≤ off ∧ off ≤ draft.totalAmount ∧
      (applyInviteCampaignDiscount now userID draft db).1 = { draft with
        inviteCampaignID := id
        inviteCampaignDiscountAmount := off
        totalAmount := draft.totalAmount - off }) ∧
      (applyInviteCampaignDiscount now userID draft db).2.users = db.users ∧
      (applyInviteCampaignDiscount now userID draft db).2.orders = db.orders := by
  have same : draft = { draft with
      inviteCampaignID := draft.inviteCampaignID
      inviteCampaignDiscountAmount := 0
      totalAmount := draft.totalAmount - 0 } := by
    rw [Int.sub_zero, ← unused]
  unfold applyInviteCampaignDiscount
  split
  next => exact ⟨⟨_, 0, le_rfl, priced, same⟩, rfl, rfl⟩
  next campaign _ =>
    split
    next => exact ⟨⟨_, 0, le_rfl, priced, same⟩, rfl, rfl⟩
    next =>
      split
      · exact ⟨campaignDiscount_amounts campaign draft unused priced, rfl, rfl⟩
      · exact ⟨campaignDiscount_amounts campaign draft unused priced, rfl, rfl⟩

private theorem useBalance_amounts {r : UserRecord} (found : db.users.find? userRow.id = some r)
    (balance : userRow.balance = r.balance) (solvent : 0 ≤ r.balance)
    (unused : draft.balanceAmount = 0) (priced : 0 ≤ draft.totalAmount)
    (returned : useBalance userRow draft db = .ok (draft', db')) :
    (∃ used, 0 ≤ used ∧ used ≤ draft.totalAmount ∧ used ≤ r.balance ∧
      draft' = { draft with balanceAmount := used, totalAmount := draft.totalAmount - used } ∧
      ∃ r', db'.users.find? userRow.id = some r' ∧ r'.balance = r.balance - used) ∧
      db'.orders = db.orders := by
  unfold useBalance at returned
  split at returned
  next both =>
    simp only [bind_eq_ok, Db.updateUserBalance_eq_ok, pure_eq_ok, Prod.mk.injEq] at returned
    obtain ⟨_, ⟨enough, rfl⟩, rfl, rfl⟩ := returned
    have used : balanceUsed userRow draft = min userRow.balance draft.totalAmount := if_pos both
    have key := Table.key_of_find? found
    refine ⟨⟨balanceUsed userRow draft, ?_, ?_, ?_, rfl, ?_⟩, rfl⟩
    · rw [used]
      exact le_min both.1.le both.2.le
    · rw [used]
      exact min_le_right _ _
    · rw [← balance]
      exact Int.sub_nonneg.mp enough
    · refine ⟨{ r with balance := userRow.balance - balanceUsed userRow draft }, ?_, ?_⟩
      · rw [Db.setUserBalance, Table.find?_updateWhere, found, Option.map_some, if_pos]
        exact decide_eq_true key
      · rw [← balance]
  next =>
    obtain ⟨rfl, rfl⟩ := Prod.mk.inj (Except.ok.inj returned)
    refine ⟨⟨0, le_rfl, priced, solvent, ?_, r, found, (Int.sub_zero _).symm⟩, rfl⟩
    rw [Int.sub_zero, ← unused]

structure OrderRecord.Accounted (row : OrderRecord) (price : Int) : Prop where
  sum : price + row.refundAmount.getD 0 = row.discountAmount.getD 0 + row.surplusAmount.getD 0 +
    row.inviteCampaignDiscountAmount + row.balanceAmount.getD 0 + row.totalAmount
  nonneg : 0 ≤ price ∧ 0 ≤ row.refundAmount.getD 0 ∧ 0 ≤ row.discountAmount.getD 0 ∧
    0 ≤ row.surplusAmount.getD 0 ∧ 0 ≤ row.inviteCampaignDiscountAmount ∧
    0 ≤ row.balanceAmount.getD 0 ∧ 0 ≤ row.totalAmount

private theorem accounted_row {price id : Int} (priced : 0 ≤ price)
    (balanced : draft.Balanced price) : OrderRecord.Accounted { draft.row now with id } price := by
  have refund : (draft.row now).refundAmount.getD 0 = draft.refundAmount := getD_nullZeroInt64 _
  have discount : (draft.row now).discountAmount.getD 0 = draft.discountAmount :=
    getD_nullZeroInt64 _
  have surplus : (draft.row now).surplusAmount.getD 0 = draft.surplusAmount := getD_nullZeroInt64 _
  have balance : (draft.row now).balanceAmount.getD 0 = draft.balanceAmount := getD_nullZeroInt64 _
  constructor
  · rw [refund, discount, surplus, balance]
    exact balanced.sum
  · rw [refund, discount, surplus, balance]
    exact ⟨priced, balanced.refund, balanced.discount, balanced.surplus, balanced.campaign,
      balanced.balance, balanced.total⟩

private theorem insertDraft_rows (returned : insertDraft now draft db = .ok db') :
    db'.orders.rows = db.orders.rows ++ [{ draft.row now with id := db.orderSeq + 1 }] ∧
      db'.users = db.users := by
  simp only [insertDraft, Db.insertOrder, bind_eq_ok, require_eq_ok, pure_eq_ok] at returned
  obtain ⟨_, ⟨orders, inserted, rfl⟩, rfl⟩ := returned
  exact ⟨((Table.insert?_eq_some ..).mp inserted).1, rfl⟩

/-- What one successful order of a plan does to the order table and to the buyer. -/
structure Bought (db db' : Db) (userID price : Int) (row : OrderRecord) : Prop where
  accounted : row.Accounted price
  inserted : db'.orders.rows = db.orders.rows ++ [row]
  buyer : row.userID = userID
  balance : ∃ r r', db.users.find? userID = some r ∧ db'.users.find? userID = some r' ∧
    r'.balance = r.balance - row.balanceAmount.getD 0 ∧ 0 ≤ r'.balance

private theorem savePlanOrder_bought {rt : Runtime} {cfg : Config} {r : UserRecord}
    {plan : PlanRecord} {period : Period} {couponCode tradeNo : String}
    (found : db.users.find? userRow.id = some r) (balance : userRow.balance = r.balance)
    (solvent : 0 ≤ r.balance) (whole : userRow.discount.getD 0 ≤ 100)
    (values : ∀ c ∈ db.coupons, 0 ≤ c.value)
    (returned : savePlanOrder rt cfg now userRow plan period couponCode tradeNo db = .ok db') :
    ∃ price row, plan.priceForPeriod period = some price ∧ Bought db db' userRow.id price row := by
  simp only [savePlanOrder, bind_eq_ok, ensure_eq_ok, exists_const] at returned
  obtain ⟨price, checked, ⟨draft₁, db₁⟩, coupon, -, draft₃, typed, -, ⟨draft₅, db₅⟩, paid,
    draft₆, invited, inserted⟩ := returned
  simp only [checkPlan, bind_eq_ok, ensure_eq_ok, exists_const, require_eq_ok, pure_eq_ok]
    at checked
  obtain ⟨-, _, sold, priced, -, -, -, -, same⟩ := checked
  rw [same] at sold priced
  obtain ⟨⟨off₁, couponID, low₁, part₁, same₁⟩, users₁, orders₁⟩ :=
    useCouponCode_amounts values priced coupon
  have left₁ : 0 ≤ draft₁.totalAmount := by
    rw [same₁]
    exact Int.sub_nonneg.mpr part₁
  obtain ⟨off₂, low₂, part₂, same₂⟩ := applyUserDiscount_amounts userRow draft₁ whole left₁
  dsimp only at typed paid invited inserted
  rw [same₂] at typed
  obtain ⟨type, surplus, refund, ids, low₃, back₃, left₃, same₃⟩ :=
    setOrderType_amounts (by rw [same₁]; rfl) (by rw [same₁]; rfl)
      (Int.sub_nonneg.mpr part₂) typed
  have unused : draft₃.inviteCampaignDiscountAmount = 0 := by
    rw [same₃, same₁]
    rfl
  have left : 0 ≤ draft₃.totalAmount := by
    rw [same₃]
    exact left₃
  obtain ⟨⟨id, off₄, low₄, part₄, same₄⟩, users₄, orders₄⟩ :=
    applyInviteCampaignDiscount_amounts now userRow.id draft₃ db₁ unused left
  generalize applyInviteCampaignDiscount now userRow.id draft₃ db₁ = discounted at *
  obtain ⟨draft₄, db₄⟩ := discounted
  dsimp only at same₄ users₄ orders₄ paid
  have found₄ : db₄.users.find? userRow.id = some r := by rw [users₄, users₁, found]
  have left₄ : 0 ≤ draft₄.totalAmount := by
    rw [same₄]
    exact Int.sub_nonneg.mpr part₄
  obtain ⟨⟨used, low₅, part₅, enough, same₅, r', found', lowered⟩, orders₅⟩ :=
    useBalance_amounts found₄ balance solvent (by rw [same₄, same₃, same₁]; rfl) left₄ paid
  obtain ⟨inviter, commission, rfl⟩ := setInvite_frame invited
  obtain ⟨rows, users⟩ := insertDraft_rows inserted
  have balanced : OrderDraft.Balanced draft₅ price := by
    rw [same₅, same₄, same₃, same₁]
    rw [same₄, same₃, same₁] at part₅
    rw [same₃, same₁] at part₄
    rw [same₁] at part₂ left₃
    simp only [newDraft] at part₁ part₂ part₄ part₅ left₃ ⊢
    constructor <;> dsimp only <;> omega
  have part : draft₅.balanceAmount = used := by rw [same₅]
  have buyer : draft₅.userID = userRow.id := by
    rw [same₅, same₄, same₃, same₁]
    rfl
  rw [orders₅, orders₄, orders₁] at rows
  refine ⟨price, _, sold, ?_, rows, buyer, r, r', found, ?_, ?_, ?_⟩
  · exact accounted_row priced { balanced with }
  · rw [users]
    exact found'
  · rw [lowered, ← part]
    congr 1
    exact (getD_nullZeroInt64 _).symm
  · omega

/-- A request for a plan is refused and changes nothing, or it inserts one order whose
amounts add up to the price and takes the balance part from the buyer. -/
theorem saveOrder_accounted {rt : Runtime} {s : Sys} {i : Input} {userID : Int}
    {req : OrderSaveRequest} {tradeNo : String} (op : i.op = .saveOrder userID req tradeNo)
    (plan : req.planID ≠ 0) (values : ∀ c ∈ s.db.coupons, 0 ≤ c.value)
    (buyer : ∀ r ∈ s.db.users, r.id = userID →
      0 ≤ r.balance ∧ 0 ≤ r.discount.getD 0 ∧ r.discount.getD 0 ≤ 100) :
    (∃ e, saveOrder rt i.cfg i.now userID req tradeNo s.db = .error e ∧ Sys.step rt s i = s) ∨
    ∃ db', saveOrder rt i.cfg i.now userID req tradeNo s.db = .ok db' ∧
      (Sys.step rt s i).db = db' ∧
      ∃ plan ∈ s.db.plans, plan.id = req.planID ∧
        ∃ period price row, periodOf (trimSpace req.period) = some period ∧
          plan.priceForPeriod period = some price ∧ Bought s.db db' userID price row := by
  have stepped : Sys.step rt s i =
      s.withDb (saveOrder rt i.cfg i.now userID req tradeNo s.db) := by
    rw [Sys.step, op]
  rw [stepped]
  cases returned : saveOrder rt i.cfg i.now userID req tradeNo s.db with
  | error e => exact Or.inl ⟨e, rfl, rfl⟩
  | ok db' =>
    refine Or.inr ⟨db', rfl, rfl, ?_⟩
    simp only [saveOrder, bind_eq_ok, ensure_eq_ok, exists_const, require_eq_ok, if_neg plan]
      at returned
    obtain ⟨-, period, named, userRow, locked, -, offer, offered, saved⟩ := returned
    obtain ⟨r, found, row⟩ := (Db.lockUser_eq_ok ..).mp locked
    have id := Table.key_of_find? found
    have key : userRow.id = userID := by rw [← row, ← id]
    have balance : userRow.balance = r.balance := by rw [← row]
    have discount : userRow.discount = r.discount := by rw [← row]
    obtain ⟨solvent, -, whole⟩ := buyer r (Table.mem_of_find? found) id
    rw [← discount] at whole
    rw [← key] at found ⊢
    obtain ⟨price, row, sold, bought⟩ :=
      savePlanOrder_bought found balance solvent whole values saved
    exact ⟨offer, Table.mem_of_find? offered, Table.key_of_find? offered, period, price, row,
      named, sold, bought⟩

private def firstPurchase : Sys :=
  Small.sys ⟨[Small.buyer 1 300], by decide, by decide⟩
    ⟨[Small.plan 1 1000], Small.one_plan, Small.one_plan⟩
    .empty

theorem saveOrder_accounted_first :
    ∃ price row, Bought firstPurchase.db
      (Sys.step Small.runtime firstPurchase (Small.save 100 1 1 "T1")).db 1 price row := by
  rcases @saveOrder_accounted Small.runtime firstPurchase (Small.save 100 1 1 "T1") 1
      ⟨1, "month_price", "", 0⟩ "T1" rfl (by decide) (by decide) (by decide) with
    ⟨e, refused, -⟩ | ⟨db', -, same, plan, -, -, period, price, row, -, -, bought⟩
  · have accepted : (saveOrder Small.runtime (Small.save 100 1 1 "T1").cfg
        (Small.save 100 1 1 "T1").now 1 ⟨1, "month_price", "", 0⟩ "T1"
        firstPurchase.db).toOption.isSome = true := by
      decide +kernel
    rw [refused] at accepted
    cases accepted
  · rw [same]
    exact ⟨price, row, bought⟩

end ForestPanel
