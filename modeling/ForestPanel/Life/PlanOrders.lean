import ForestPanel.Effects
import ForestPanel.Order.Assign

/-!
# Surplus and plan orders

A change of plan uses up older orders of the buyer. The period surplus takes them from the
orders of a period; the one-time surplus takes all but traffic packs, and with them a deposit.
-/
namespace ForestPanel

open Relational Outcome Transition

structure PlanOrder (userID : Int) (r : OrderRecord) : Prop where
  buyer : r.userID = userID
  plan : 0 < r.planID
  notDeposit : r.period ≠ .deposit
  notReset : r.period ≠ .resetPrice

variable {userID now : Int} {draft draft' : OrderDraft} {userRow : UserRecord} {cfg : Config}
  {period : Period} {rt : Runtime} {req : OrderSaveRequest} {tradeNo : String} {row : OrderRecord}
  {s : Sys} {i : Input}

private theorem PlanOrder.congr {r r' : OrderRecord} (order : PlanOrder userID r)
    (terms : r'.terms = r.terms) : PlanOrder userID r' := by
  have buyer : r'.userID = r.userID := congrArg OrderTerms.userID terms
  have plan : r'.planID = r.planID := congrArg OrderTerms.planID terms
  have period : r'.period = r.period := congrArg OrderTerms.period terms
  exact ⟨buyer ▸ order.buyer, plan ▸ order.plan, period ▸ order.notDeposit,
    period ▸ order.notReset⟩

/-! ## The surplus of a saved order -/

/-- The last one-time order has a price that is given back. -/
def paidOneTime (db : Db) (userID : Int) : Bool :=
  match lastOrder (completedOrders db userID fun p => p = .onetimePrice) with
  | some last => last.totalAmount + last.balanceAmount.getD 0 ≠ 0
  | none => false

/-- A change of plan without an expiry, which takes the one-time surplus. -/
def takesOneTimeSurplus (cfg : Config) (db : Db) (userRow : UserRecord) (planID : Int)
    (period : Period) : Bool :=
  period ≠ .resetPrice && userRow.planID.isSome && userRow.planID ≠ some planID &&
    userRow.expiredAt.isNone && cfg.surplusEnable && userRow.transferEnable ≠ 0 &&
    paidOneTime db userRow.id

def hasCompletedDeposit (db : Db) (userID : Int) : Bool :=
  completedOrders db userID (fun p => p = .deposit) ≠ []

/-- What the stages of the draft leave of the order. -/
private structure SameOrder (draft draft' : OrderDraft) : Prop where
  buyer : draft'.userID = draft.userID
  plan : draft'.planID = draft.planID
  period : draft'.period = draft.period
  surplus : draft'.surplusOrderIDs = draft.surplusOrderIDs

private theorem SameOrder.trans {a b c : OrderDraft} (first : SameOrder a b)
    (second : SameOrder b c) : SameOrder a c :=
  ⟨second.buyer.trans first.buyer, second.plan.trans first.plan,
    second.period.trans first.period, second.surplus.trans first.surplus⟩

private theorem sameOrder_useCouponCode {couponCode : String} {db db' : Db}
    (returned : useCouponCode now couponCode draft db = .ok (draft', db')) :
    SameOrder draft draft' ∧ db'.orders = db.orders ∧ db'.orderSeq = db.orderSeq := by
  unfold useCouponCode at returned
  split at returned
  · obtain ⟨rfl, rfl⟩ := Prod.mk.inj (Except.ok.inj returned)
    exact ⟨⟨rfl, rfl, rfl, rfl⟩, rfl, rfl⟩
  · simp only [bind_eq_ok, require_eq_ok, applyCoupon] at returned
    obtain ⟨coupon, -, -, -, discount, -, returned⟩ := returned
    split at returned
    · rw [pure_eq_ok] at returned
      obtain ⟨rfl, rfl⟩ := Prod.mk.inj returned
      exact ⟨⟨rfl, rfl, rfl, rfl⟩, rfl, rfl⟩
    · simp only [bind_eq_ok, pure_eq_ok] at returned
      obtain ⟨-, -, returned⟩ := returned
      obtain ⟨rfl, rfl⟩ := Prod.mk.inj returned
      exact ⟨⟨rfl, rfl, rfl, rfl⟩, rfl, rfl⟩

private theorem sameOrder_applyUserDiscount (userRow : UserRecord) (draft : OrderDraft) :
    SameOrder draft (applyUserDiscount userRow draft) := by
  unfold applyUserDiscount
  split <;> exact ⟨rfl, rfl, rfl, rfl⟩

private theorem sameOrder_applyInviteCampaignDiscount (now userID : Int) (draft : OrderDraft)
    (db : Db) :
    SameOrder draft (applyInviteCampaignDiscount now userID draft db).1 ∧
      (applyInviteCampaignDiscount now userID draft db).2.orders = db.orders ∧
      (applyInviteCampaignDiscount now userID draft db).2.orderSeq = db.orderSeq := by
  have discounted : ∀ campaign, SameOrder draft (campaignDiscount campaign draft) := by
    intro campaign
    unfold campaignDiscount
    dsimp only
    split
    · exact ⟨rfl, rfl, rfl, rfl⟩
    · split <;> exact ⟨rfl, rfl, rfl, rfl⟩
  unfold applyInviteCampaignDiscount
  split
  · exact ⟨⟨rfl, rfl, rfl, rfl⟩, rfl, rfl⟩
  · split
    · exact ⟨⟨rfl, rfl, rfl, rfl⟩, rfl, rfl⟩
    · split
      · exact ⟨discounted _, rfl, rfl⟩
      · exact ⟨discounted _, rfl, rfl⟩

private theorem sameOrder_useBalance {db db' : Db}
    (returned : useBalance userRow draft db = .ok (draft', db')) :
    SameOrder draft draft' ∧ db'.orders = db.orders ∧ db'.orderSeq = db.orderSeq := by
  unfold useBalance at returned
  split at returned
  · simp only [bind_eq_ok, Db.updateUserBalance_eq_ok, pure_eq_ok, Prod.mk.injEq] at returned
    obtain ⟨_, ⟨-, rfl⟩, rfl, rfl⟩ := returned
    exact ⟨⟨rfl, rfl, rfl, rfl⟩, rfl, rfl⟩
  · obtain ⟨rfl, rfl⟩ := Prod.mk.inj (Except.ok.inj returned)
    exact ⟨⟨rfl, rfl, rfl, rfl⟩, rfl, rfl⟩

inductive SurplusSource (cfg : Config) (db : Db) (userRow : UserRecord) (planID : Int)
    (period : Period) : List Int → Prop
  | none : SurplusSource cfg db userRow planID period []
  | ofPeriods : SurplusSource cfg db userRow planID period
      ((completedOrders db userRow.id isPeriodOrder).map (·.id))
  | oneTime (taken : takesOneTimeSurplus cfg db userRow planID period = true) :
      SurplusSource cfg db userRow planID period
        ((completedOrders db userRow.id fun p => p ≠ .resetPrice).map (·.id))

private theorem SurplusSource.congr {db db₁ : Db} {planID : Int} {ids : List Int}
    (source : SurplusSource cfg db₁ userRow planID period ids) (same : db₁.orders = db.orders) :
    SurplusSource cfg db userRow planID period ids := by
  have completed : ∀ p, completedOrders db₁ userRow.id p = completedOrders db userRow.id p := by
    intro p
    rw [completedOrders, completedOrders, same]
  cases source with
  | none => exact .none
  | ofPeriods => exact completed _ ▸ .ofPeriods
  | oneTime taken =>
    rw [completed]
    refine .oneTime ?_
    rw [takesOneTimeSurplus, paidOneTime, completed] at taken
    exact taken

private theorem applySurplusValue_source {db : Db} (fresh : draft.surplusOrderIDs = [])
    (plain : draft.period ≠ .resetPrice) (holds : userRow.planID.isSome = true)
    (other : userRow.planID ≠ some draft.planID) (enabled : cfg.surplusEnable = true) :
    (applySurplusValue rt db now userRow draft).userID = draft.userID ∧
      (applySurplusValue rt db now userRow draft).planID = draft.planID ∧
      (applySurplusValue rt db now userRow draft).period = draft.period ∧
      SurplusSource cfg db userRow draft.planID draft.period
        (applySurplusValue rt db now userRow draft).surplusOrderIDs := by
  unfold applySurplusValue
  split
  next endless =>
    unfold applyOneTimeSurplus
    split
    next => exact ⟨rfl, rfl, rfl, fresh ▸ .none⟩
    next last found =>
      dsimp only
      split
      · exact ⟨rfl, rfl, rfl, fresh ▸ .none⟩
      next paid =>
        obtain ⟨quota, price⟩ := not_or.mp paid
        refine ⟨rfl, rfl, rfl, .oneTime ?_⟩
        simp [takesOneTimeSurplus, paidOneTime, found, plain, holds, other, endless, enabled, quota,
          price]
  next =>
    unfold applyPeriodSurplus
    dsimp only
    split
    · exact ⟨rfl, rfl, rfl, fresh ▸ .none⟩
    · exact ⟨rfl, rfl, rfl, .ofPeriods⟩

private theorem setOrderType_source {db : Db} (fresh : draft.surplusOrderIDs = [])
    (returned : setOrderType rt cfg db now userRow draft = .ok draft') :
    draft'.userID = draft.userID ∧ draft'.planID = draft.planID ∧ draft'.period = draft.period ∧
      SurplusSource cfg db userRow draft.planID draft.period draft'.surplusOrderIDs := by
  unfold setOrderType at returned
  split at returned
  next =>
    obtain rfl := Except.ok.inj returned
    exact ⟨rfl, rfl, rfl, fresh ▸ .none⟩
  next =>
    split at returned
    next =>
      obtain rfl := Except.ok.inj returned
      exact ⟨rfl, rfl, rfl, fresh ▸ .none⟩
    next plain =>
      split at returned
      next change =>
        obtain ⟨holds, other, -⟩ := change
        simp only [bind_eq_ok, ensure_eq_ok, exists_const] at returned
        obtain ⟨-, returned⟩ := returned
        split at returned
        next enabled =>
          rw [pure_eq_ok] at returned
          obtain ⟨buyer, plan, period, source⟩ := @applySurplusValue_source now
            { draft with type := .change } userRow cfg rt db fresh plain holds other enabled
          subst returned
          unfold deductSurplus
          split
          · exact ⟨buyer, plan, period, source⟩
          · exact ⟨buyer, plan, period, source⟩
        next =>
          rw [pure_eq_ok] at returned
          subst returned
          exact ⟨rfl, rfl, rfl, fresh ▸ .none⟩
      next =>
        split at returned
        next =>
          obtain rfl := Except.ok.inj returned
          exact ⟨rfl, rfl, rfl, fresh ▸ .none⟩
        next =>
          obtain rfl := Except.ok.inj returned
          exact ⟨rfl, rfl, rfl, fresh ▸ .none⟩

private structure SavedRow (cfg : Config) (db db' : Db) (userID planID : Int) (period : Period)
    (row : OrderRecord) : Prop where
  id : row.id = db.orderSeq + 1
  seq : db'.orderSeq = db.orderSeq + 1
  orders : db'.orders.rows = db.orders.rows ++ [row]
  buyer : row.userID = userID
  plan : row.period = .deposit ∨ 0 < row.planID
  status : row.status ≠ .closed
  source : surplusIDs row = [] ∨ ∃ userRow, db.lockUser userID = .ok userRow ∧
    SurplusSource cfg db userRow planID period (surplusIDs row)

private theorem insertDraft_seq {db db' : Db} (returned : insertDraft now draft db = .ok db') :
    db'.orders.rows = db.orders.rows ++ [{ draft.row now with id := db.orderSeq + 1 }] ∧
      db'.orderSeq = db.orderSeq + 1 := by
  simp only [insertDraft, Db.insertOrder, bind_eq_ok, require_eq_ok, pure_eq_ok] at returned
  obtain ⟨_, ⟨orders, inserted, rfl⟩, rfl⟩ := returned
  exact ⟨((Table.insert?_eq_some ..).mp inserted).1, rfl⟩

private theorem saveOrder_row {db db' : Db}
    (returned : saveOrder rt cfg now userID req tradeNo db = .ok db') :
    ∃ period row, periodOf (trimSpace req.period) = some period ∧
      SavedRow cfg db db' userID req.planID period row := by
  simp only [saveOrder, bind_eq_ok, ensure_eq_ok, exists_const, require_eq_ok] at returned
  obtain ⟨nonneg, period, named, userRow, locked, -, returned⟩ := returned
  obtain ⟨-, -, -, own, -⟩ := Db.lockUser_row locked
  refine ⟨period, ?_⟩
  split at returned
  next =>
    simp only [saveDepositOrder, bind_eq_ok, ensure_eq_ok, exists_const] at returned
    obtain ⟨-, -, draft, invited, inserted⟩ := returned
    obtain ⟨inviter, commission, rfl⟩ := setInvite_frame invited
    obtain ⟨rows, seq⟩ := insertDraft_seq inserted
    exact ⟨_, named, rfl, seq, rows, own, Or.inl rfl, (by rintro ⟨⟩), Or.inl rfl⟩
  next ordered =>
    simp only [savePlanOrder, bind_eq_ok, ensure_eq_ok, exists_const, require_eq_ok] at returned
    obtain ⟨plan, found, price, -, ⟨draft₁, db₁⟩, coupon, -, draft₂, typed, -, ⟨draft₃, db₃⟩, paid,
      draft₄, invited, inserted⟩ := returned
    have planID : plan.id = req.planID := Table.key_of_find? found
    obtain ⟨same₁, orders₁, seq₁⟩ := sameOrder_useCouponCode coupon
    have same₁ := same₁.trans (sameOrder_applyUserDiscount userRow draft₁)
    obtain ⟨buyer, plan', period', source⟩ := setOrderType_source same₁.surplus typed
    obtain ⟨same₂, orders₂, seq₂⟩ := sameOrder_applyInviteCampaignDiscount now userRow.id draft₂ db₁
    obtain ⟨same₃, orders₃, seq₃⟩ := sameOrder_useBalance paid
    have same₃ := same₂.trans same₃
    obtain ⟨inviter, commission, rfl⟩ := setInvite_frame invited
    obtain ⟨rows, seq⟩ := insertDraft_seq inserted
    rw [orders₃, seq₃, orders₂, seq₂, orders₁, seq₁] at rows
    rw [seq₃, seq₂, seq₁] at seq
    refine ⟨_, named, rfl, seq, rows, ?_, Or.inr ?_, (by rintro ⟨⟩), Or.inr ⟨userRow, locked, ?_⟩⟩
    · exact (same₃.buyer.trans (buyer.trans same₁.buyer)).trans own
    · have positive : 0 < plan.id := by omega
      have same : draft₃.planID = plan.id := same₃.plan.trans (plan'.trans same₁.plan)
      exact same ▸ positive
    · have listed : surplusIDs { ({ draft₃ with
          inviteUserID := inviter
          commissionBalance := commission } : OrderDraft).row now with id := db.orderSeq + 1 } =
          draft₂.surplusOrderIDs :=
        (surplusIDs_row _ now).trans same₃.surplus
      rw [listed, ← planID]
      rw [same₁.plan, same₁.period] at source
      exact source.congr orders₁

/-! ## Histories -/

/-- What happens to the orders: the steps of the system, the other inserts, deletions of any
orders, and changes of everything else. -/
inductive HistoryInput
  | panel (i : Input)
  | assignOrder (cfg : Config) (now userID : Int) (req : OrderAssignRequest) (tradeNo : String)
  | transfer (cfg : Config) (now userID amount : Int) (tradeNo : String)
  | deleteOrders (ids : List Int)
  | edit (users : Table UserRecord.id UserRecord.id) (plans : Table PlanRecord.id PlanRecord.id)
    (coupons : Table CouponRecord.id CouponRecord.id)
    (campaigns : Table InviteCampaignRecord.id InviteCampaignRecord.id)

def historyStep (rt : Runtime) (s : Sys) : HistoryInput → Sys
  | .panel i => s.step rt i
  | .assignOrder cfg now userID req tradeNo =>
    s.withDb (assignOrder cfg now userID req tradeNo s.db)
  | .transfer cfg now userID amount tradeNo =>
    s.withDb (transfer rt cfg now userID amount tradeNo s.db)
  | .deleteOrders ids =>
    { s with db := { s.db with orders := s.db.orders.deleteWhere fun o => o.id ∈ ids } }
  | .edit users plans coupons campaigns =>
    { s with db := { s.db with users, plans, coupons, campaigns } }

/-- No one-time surplus is taken by a user with a completed deposit. -/
def SparesDeposits (s : Sys) (h : HistoryInput) : Prop :=
  match h with
  | .panel ⟨_, cfg, .saveOrder userID req _⟩ =>
    match s.db.lockUser userID, periodOf (trimSpace req.period) with
    | .ok userRow, some period => takesOneTimeSurplus cfg s.db userRow req.planID period = true →
        hasCompletedDeposit s.db userID = false
    | _, _ => True
  | _ => True

instance (s : Sys) (h : HistoryInput) : Decidable (SparesDeposits s h) := by
  unfold SparesDeposits
  split
  · split <;> infer_instance
  · infer_instance

/-- The numbers that a new order uses up are those of completed orders of the user that bought
a plan. -/
def UsesPlanOrders (rt : Runtime) (s : Sys) (h : HistoryInput) : Prop :=
  ∀ o ∈ (historyStep rt s h).db.orders, (∀ r ∈ s.db.orders, r.id ≠ o.id) → ∀ i ∈ surplusIDs o,
    ∃ r ∈ s.db.orders, r.id = i ∧ r.status = .completed ∧ PlanOrder o.userID r

/-- The orders are numbered, and are for a deposit or a plan. What is used up are plan orders
of the user, and no deposit is. -/
structure PlanSurplus (db : Db) : Prop where
  ids : ∀ o ∈ db.orders, o.id ≤ db.orderSeq
  plans : ∀ o ∈ db.orders, o.period = .deposit ∨ 0 < o.planID
  surplus : ∀ o ∈ db.orders, ∀ i ∈ surplusIDs o,
    i ≤ db.orderSeq ∧ ∀ r ∈ db.orders, r.id = i → PlanOrder o.userID r
  unclosed : ∀ o ∈ db.orders, o.period = .deposit → o.status ≠ .closed

section

variable {db db' : Db}

private theorem PlanSurplus.insert (h : PlanSurplus db) (id : row.id = db.orderSeq + 1)
    (seq : db'.orderSeq = db.orderSeq + 1) (orders : db'.orders.rows = db.orders.rows ++ [row])
    (plan : row.period = .deposit ∨ 0 < row.planID) (status : row.status ≠ .closed)
    (uses : ∀ i ∈ surplusIDs row, ∃ r ∈ db.orders, r.id = i ∧ r.status = .completed ∧
      PlanOrder row.userID r) : PlanSurplus db' := by
  have cases' : ∀ o ∈ db'.orders, o ∈ db.orders ∨ o = row := by
    intro o member
    rw [Table.mem_def, orders] at member
    rcases List.mem_append.mp member with old | new
    · exact .inl old
    · exact .inr (List.mem_singleton.mp new)
  -- what is used up is there already, so no new order takes its number
  have older : ∀ o ∈ db'.orders, ∀ i ∈ surplusIDs o,
      i ≤ db.orderSeq ∧ ∀ r ∈ db.orders, r.id = i → PlanOrder o.userID r := by
    intro o member i listed
    rcases cases' o member with old | rfl
    · exact h.surplus o old i listed
    · obtain ⟨r, stored, rfl, -, bought⟩ := uses i listed
      refine ⟨h.ids r stored, ?_⟩
      intro r' stored' same
      rw [db.orders.eq_of_key stored' stored same]
      exact bought
  constructor
  case ids =>
    intro o member
    rw [seq]
    rcases cases' o member with old | rfl
    · have before := h.ids o old
      omega
    · omega
  case plans =>
    intro o member
    rcases cases' o member with old | rfl
    · exact h.plans o old
    · exact plan
  case surplus =>
    intro o member i listed
    obtain ⟨before, bought⟩ := older o member i listed
    refine ⟨by omega, ?_⟩
    intro r stored same
    rcases cases' r stored with old | rfl
    · exact bought r old same
    · omega
  case unclosed =>
    intro o member deposit
    rcases cases' o member with old | rfl
    · exact h.unclosed o old deposit
    · exact status

/-- The orders keep their terms, and those that are closed were used up. -/
structure Closes (db db' : Db) : Prop where
  rows : ∃ f, db'.orders.rows = db.orders.rows.map f ∧ ∀ r ∈ db.orders, (f r).terms = r.terms ∧
    ((f r).status = .closed → r.status = .closed ∨ ∃ o ∈ db.orders, r.id ∈ surplusIDs o)
  seq : db'.orderSeq = db.orderSeq

private theorem PlanSurplus.update (h : PlanSurplus db) (closes : Closes db db') :
    PlanSurplus db' := by
  obtain ⟨⟨f, rows, kept⟩, seq⟩ := closes
  have cases' : ∀ o ∈ db'.orders, ∃ r ∈ db.orders, f r = o := by
    intro o member
    rw [Table.mem_def, rows] at member
    exact List.mem_map.mp member
  constructor
  case ids =>
    intro o member
    obtain ⟨r, stored, rfl⟩ := cases' o member
    have same : (f r).id = r.id := congrArg OrderTerms.id (kept r stored).1
    rw [seq, same]
    exact h.ids r stored
  case plans =>
    intro o member
    obtain ⟨r, stored, rfl⟩ := cases' o member
    have period : (f r).period = r.period := congrArg OrderTerms.period (kept r stored).1
    have plan : (f r).planID = r.planID := congrArg OrderTerms.planID (kept r stored).1
    rw [period, plan]
    exact h.plans r stored
  case surplus =>
    intro o member i listed
    obtain ⟨r, stored, rfl⟩ := cases' o member
    have ids : surplusIDs (f r) = surplusIDs r :=
      congrArg (·.getD []) (congrArg OrderTerms.surplusOrderIDs (kept r stored).1)
    have buyer : (f r).userID = r.userID := congrArg OrderTerms.userID (kept r stored).1
    rw [ids] at listed
    obtain ⟨before, bought⟩ := h.surplus r stored i listed
    rw [seq, buyer]
    refine ⟨before, ?_⟩
    intro used member' same
    obtain ⟨u, stored', rfl⟩ := cases' used member'
    have terms := (kept u stored').1
    have order := bought u stored' ((congrArg OrderTerms.id terms).symm.trans same)
    exact order.congr terms
  case unclosed =>
    intro o member deposit closed
    obtain ⟨r, stored, rfl⟩ := cases' o member
    have period : (f r).period = r.period := congrArg OrderTerms.period (kept r stored).1
    rw [period] at deposit
    rcases (kept r stored).2 closed with before | ⟨user, listed, used⟩
    · exact h.unclosed r stored deposit before
    · exact ((h.surplus user listed r.id used).2 r stored rfl).notDeposit deposit

private theorem PlanSurplus.mono (h : PlanSurplus db) (seq : db'.orderSeq = db.orderSeq)
    (fewer : ∀ o ∈ db'.orders, o ∈ db.orders) : PlanSurplus db' := by
  constructor
  case ids => exact fun o member => seq ▸ h.ids o (fewer o member)
  case plans => exact fun o member => h.plans o (fewer o member)
  case surplus =>
    intro o member i listed
    obtain ⟨before, bought⟩ := h.surplus o (fewer o member) i listed
    exact ⟨seq ▸ before, fun r stored same => bought r (fewer r stored) same⟩
  case unclosed => exact fun o member => h.unclosed o (fewer o member)

private theorem Closes.standing {f : OrderRecord → OrderRecord}
    (rows : db'.orders.rows = db.orders.rows.map f) (seq : db'.orderSeq = db.orderSeq)
    (same : ∀ r ∈ db.orders, (f r).terms = r.terms ∧ (f r).status = r.status) :
    Closes db db' :=
  ⟨⟨f, rows, fun r stored => ⟨(same r stored).1, fun closed => .inl ((same r stored).2 ▸ closed)⟩⟩,
    seq⟩

end

private theorem Effect.saved_or_closes {db' : Db} (effect : Effect s i db') :
    (∃ userID req tradeNo, i.op = .saveOrder userID req tradeNo) ∨ Closes s.db db' := by
  cases effect with
  | unchanged =>
    exact .inr (.standing (List.map_id _).symm rfl fun _ _ => ⟨rfl, rfl⟩)
  | saved row db' h op campaigns => exact .inl ⟨_, _, _, op⟩
  | cancelled order db' member unfinished h =>
    refine .inr ⟨⟨_, h.orders, fun r _ => ⟨cancelledRow_terms i.now order r, ?_⟩⟩, by rw [h.frame]⟩
    rw [cancelledRow_status]
    split
    · exact fun closed => nomatch closed
    · exact .inl
  | opened order tradeNo db' member op named paid h =>
    refine .inr ⟨⟨_, h.orders, fun r _ => ⟨openedRow_terms i.now order r, ?_⟩⟩, by rw [h.frame]⟩
    rw [openedRow_status]
    split
    · exact fun closed => nomatch closed
    · split
      next used => exact fun _ => .inr ⟨order, member, used.2⟩
      next => exact .inl
  | acknowledged order tradeNo c db' member confirmed named paid h =>
    obtain ⟨f, rows, same⟩ := h.orders member
    have frame := h.writes.2
    exact .inr (.standing rows (by rw [frame]) fun r stored =>
      ⟨(same r stored).1, (same r stored).2.1⟩)
  | settled order confirmed tradeNo c db' member confirmation named h =>
    refine .inr ⟨⟨_, h.orders, fun r _ => ⟨settledRow_terms i.now _ confirmed r, ?_⟩⟩,
      by rw [h.frame]⟩
    have terms := (confirmedOrder_terms h.confirmation).1
    have ids : surplusIDs confirmed = surplusIDs order :=
      congrArg (·.getD []) (congrArg OrderTerms.surplusOrderIDs terms)
    rw [settledRow_status]
    split
    · exact fun closed => nomatch closed
    · split
      next used => exact fun _ => .inr ⟨order, member, ids ▸ used.2⟩
      next => exact .inl
  | refunded order tradeNo db' member op named h =>
    refine .inr ⟨⟨_, h.orders, fun r _ => ⟨refundedRow_terms i.now order r, ?_⟩⟩, by rw [h.frame]⟩
    rw [refundedRow_status]
    split
    · exact fun closed => nomatch closed
    · split
      · exact fun closed => nomatch closed
      · exact .inl
  | commissionCleared order member deposit =>
    exact .inr (.standing (disableDepositCommission_rows s.db order i.now) rfl
      fun r _ => commissionClearedRow_standing i.now order r)
  | commissionSettled order inviter tradeNo db' member op h =>
    exact .inr (.standing h.orders (by rw [h.frame])
      fun r _ => commissionPaidRow_standing i.now order r)
  | commissionEdited order target db' member unpaid orders frame =>
    exact .inr (.standing orders (by rw [frame])
      fun r _ => commissionEditedRow_standing i.now order target r)
  | checkedOut db' h =>
    obtain ⟨⟨f, rows, same⟩, frame⟩ := h.only
    exact .inr (.standing rows (by rw [frame]) fun r _ => ⟨(same r).terms, (same r).status⟩)
  | paymentsEdited payments =>
    exact .inr (.standing (List.map_id _).symm rfl fun _ _ => ⟨rfl, rfl⟩)

/-! ## Steps -/

private theorem SurplusSource.uses {db : Db} {planID : Int} {ids : List Int} (h : PlanSurplus db)
    (own : userRow.id = userID) (source : SurplusSource cfg db userRow planID period ids)
    (spares : takesOneTimeSurplus cfg db userRow planID period = true →
      hasCompletedDeposit db userID = false) :
    ∀ i ∈ ids, ∃ r ∈ db.orders, r.id = i ∧ r.status = .completed ∧ PlanOrder userID r := by
  have bought : ∀ r ∈ db.orders, r.userID = userRow.id → r.period ≠ .deposit →
      r.period ≠ .resetPrice → PlanOrder userID r := by
    intro r stored buyer notDeposit notReset
    exact ⟨buyer.trans own, (h.plans r stored).resolve_left notDeposit, notDeposit, notReset⟩
  intro i listed
  cases source with
  | none => cases listed
  | ofPeriods =>
    obtain ⟨r, found, rfl⟩ := List.mem_map.mp listed
    simp only [completedOrders, isPeriodOrder, List.mem_filter, Bool.and_eq_true,
      decide_eq_true_eq] at found
    obtain ⟨stored, ⟨buyer, completed⟩, ⟨notReset, -⟩, notDeposit⟩ := found
    exact ⟨r, stored, rfl, completed, bought r stored buyer notDeposit notReset⟩
  | oneTime taken =>
    obtain ⟨r, found, rfl⟩ := List.mem_map.mp listed
    simp only [completedOrders, List.mem_filter, Bool.and_eq_true, decide_eq_true_eq] at found
    obtain ⟨stored, ⟨buyer, completed⟩, notReset⟩ := found
    refine ⟨r, stored, rfl, completed, bought r stored buyer ?_ notReset⟩
    intro deposit
    have none' := spares taken
    simp only [hasCompletedDeposit, decide_eq_false_iff_not, not_not] at none'
    have member : r ∈ completedOrders db userID fun p => p = .deposit := by
      simp only [completedOrders, List.mem_filter, Bool.and_eq_true, decide_eq_true_eq]
      exact ⟨stored, ⟨buyer.trans own, completed⟩, deposit⟩
    rw [none'] at member
    cases member

private theorem PlanSurplus.inserted {db db' : Db} (h : PlanSurplus db)
    (inserted : Inserted row db db') : PlanSurplus db' := by
  refine h.insert inserted.id inserted.seq inserted.orders inserted.plan inserted.status ?_
  rw [inserted.plain]
  exact fun i listed => nomatch listed

private theorem SavedRow.uses {db' : Db} (h : PlanSurplus s.db)
    (op : i.op = .saveOrder userID req tradeNo) (spares : SparesDeposits s (.panel i))
    (named : periodOf (trimSpace req.period) = some period)
    (saved : SavedRow i.cfg s.db db' userID req.planID period row) :
    ∀ k ∈ surplusIDs row, ∃ r ∈ s.db.orders, r.id = k ∧ r.status = .completed ∧
      PlanOrder row.userID r := by
  rcases saved.source with none' | ⟨userRow, locked, source⟩
  · rw [none']
    exact fun k listed => nomatch listed
  · obtain ⟨-, -, -, own, -⟩ := Db.lockUser_row locked
    rw [saved.buyer]
    refine source.uses h own ?_
    obtain ⟨now, cfg, op'⟩ := i
    subst op
    simp only [SparesDeposits, locked, named] at spares
    exact spares

private theorem saveOrder_step (op : i.op = .saveOrder userID req tradeNo) :
    (s.step rt i).db = s.db ∨ ∃ period row, periodOf (trimSpace req.period) = some period ∧
      SavedRow i.cfg s.db (s.step rt i).db userID req.planID period row := by
  have step :
      (s.step rt i).db = commit s.db (saveOrder rt i.cfg i.now userID req tradeNo s.db) := by
    unfold Sys.step
    rw [op]
    rfl
  cases returned : saveOrder rt i.cfg i.now userID req tradeNo s.db with
  | error e =>
    rw [returned] at step
    exact .inl step
  | ok db' =>
    rw [returned] at step
    have same : (s.step rt i).db = db' := step
    rw [same]
    exact .inr (saveOrder_row returned)

theorem PlanSurplus.step {h : HistoryInput} (surplus : PlanSurplus s.db)
    (spares : SparesDeposits s h) : PlanSurplus (historyStep rt s h).db := by
  cases h with
  | panel i =>
    rcases (Sys.step_effect rt s i).saved_or_closes with ⟨userID, req, tradeNo, op⟩ | closes
    · rcases @saveOrder_step userID rt req tradeNo s i op with same | ⟨period, row, named, saved⟩
      · rw [historyStep, same]
        exact surplus
      · exact surplus.insert saved.id saved.seq saved.orders saved.plan saved.status
          (saved.uses surplus op spares named)
    · exact surplus.update closes
  | assignOrder cfg now userID req tradeNo =>
    refine commit_cases s.db _ surplus ?_
    intro db' returned
    obtain ⟨row, inserted⟩ := assignOrder_inserted returned
    exact surplus.inserted inserted
  | transfer cfg now userID amount tradeNo =>
    refine commit_cases s.db _ surplus ?_
    intro db' returned
    obtain ⟨row, inserted⟩ := transfer_inserted returned
    exact surplus.inserted inserted
  | deleteOrders ids =>
    exact surplus.mono rfl fun o member => ((Table.mem_deleteWhere ..).mp member).1
  | edit users plans coupons campaigns => exact surplus.mono rfl fun _ => id

private theorem PlanSurplus.uses {h : HistoryInput} (surplus : PlanSurplus s.db)
    (spares : SparesDeposits s h) : UsesPlanOrders rt s h := by
  -- a new row is the one that was inserted
  have appended : ∀ {db' : Db} {row : OrderRecord}, db'.orders.rows = s.db.orders.rows ++ [row] →
      ∀ o ∈ db'.orders, (∀ r ∈ s.db.orders, r.id ≠ o.id) → o = row := by
    intro db' row orders o member new
    rw [Table.mem_def, orders] at member
    rcases List.mem_append.mp member with old | here
    · exact absurd rfl (new o old)
    · exact List.mem_singleton.mp here
  have inserts : ∀ (result : Except ServiceError Db),
      (∀ db', result = .ok db' → ∃ row, Inserted row s.db db') →
      ∀ o ∈ (s.withDb result).db.orders, (∀ r ∈ s.db.orders, r.id ≠ o.id) → surplusIDs o = [] := by
    intro result returned o member new
    cases result with
    | error e => exact absurd rfl (new o member)
    | ok db' =>
      obtain ⟨row, inserted⟩ := returned db' rfl
      rw [appended inserted.orders o member new, inserted.plain]
  intro o member new
  cases h with
  | panel i =>
    rcases (Sys.step_effect rt s i).saved_or_closes with ⟨userID, req, tradeNo, op⟩ | closes
    · rcases @saveOrder_step userID rt req tradeNo s i op with same | ⟨period, row, named, saved⟩
      · rw [historyStep, same] at member
        exact absurd rfl (new o member)
      · obtain rfl := appended saved.orders o member new
        exact saved.uses surplus op spares named
    · obtain ⟨⟨f, rows, kept⟩, -⟩ := closes
      rw [Table.mem_def] at member
      rw [historyStep, rows] at member
      obtain ⟨r, stored, rfl⟩ := List.mem_map.mp member
      exact absurd (congrArg OrderTerms.id (kept r stored).1).symm (new r stored)
  | assignOrder cfg now userID req tradeNo =>
    rw [inserts _ (fun _ returned => assignOrder_inserted returned) o member new]
    exact fun k listed => nomatch listed
  | transfer cfg now userID amount tradeNo =>
    rw [inserts _ (fun _ returned => transfer_inserted returned) o member new]
    exact fun k listed => nomatch listed
  | deleteOrders ids => exact absurd rfl (new o ((Table.mem_deleteWhere ..).mp member).1)
  | edit users plans coupons campaigns => exact absurd rfl (new o member)

/-! ## Runs -/

/-- Orders of before the first change of plan. -/
structure BeforeSurplus (db : Db) : Prop where
  ids : ∀ o ∈ db.orders, o.id ≤ db.orderSeq
  plans : ∀ o ∈ db.orders, o.period = .deposit ∨ 0 < o.planID
  unused : ∀ o ∈ db.orders, surplusIDs o = [] ∧ o.status ≠ .closed

/-- The rows that a refund of `order` replays, before they are sorted. -/
def replayedOrders (db : Db) (order : OrderRecord) : List OrderRecord :=
  if surplusIDs order ≠ [] then db.orders.rows.filter fun o => o.id ∈ surplusIDs order
  else db.orders.rows.filter fun o =>
    o.userID = order.userID && o.status = .completed && o.id ≠ order.id && 0 < o.planID &&
      o.paidAt.getD o.createdAt < effectiveOrderAt order

private theorem BeforeSurplus.planSurplus {db : Db} (start : BeforeSurplus db) :
    PlanSurplus db := by
  constructor
  case ids => exact start.ids
  case plans => exact start.plans
  case surplus =>
    intro o member i listed
    rw [(start.unused o member).1] at listed
    exact nomatch listed
  case unclosed => exact fun o member _ => (start.unused o member).2

/-- As long as no user with a completed deposit takes the one-time surplus, every order that is
saved uses up plan orders of its user alone, no deposit is closed, and a refund replays orders
of plans. -/
theorem plan_orders_used (rt : Runtime) (s : Sys) (inputs : List HistoryInput)
    (start : BeforeSurplus s.db) (spares : Along (historyStep rt) SparesDeposits s inputs) :
    Along (historyStep rt) (UsesPlanOrders rt) s inputs ∧
    (∀ r ∈ (run (historyStep rt) s inputs).db.orders, r.period = .deposit → r.status ≠ .closed) ∧
    ∀ order ∈ (run (historyStep rt) s inputs).db.orders,
      ∀ r ∈ replayedOrders (run (historyStep rt) s inputs).db order, 0 < r.planID := by
  have kept : ∀ t h, PlanSurplus (Sys.db t) → SparesDeposits t h →
      PlanSurplus (historyStep rt t h).db := fun _ _ surplus spared => surplus.step spared
  have final := run_invariant kept s inputs
    start.planSurplus spares
  refine ⟨?_, final.unclosed, ?_⟩
  · have along := along_invariant kept s inputs
      start.planSurplus spares
    exact along_mono s inputs (fun _ _ both => both.1.uses both.2) along
  · intro order member r replayed
    unfold replayedOrders at replayed
    split at replayed
    · obtain ⟨stored, listed⟩ := List.mem_filter.mp replayed
      exact ((final.surplus order member r.id (of_decide_eq_true listed)).2 r stored rfl).plan
    · simp only [List.mem_filter, Bool.and_eq_true, decide_eq_true_eq] at replayed
      exact replayed.2.1.2

def oneTimePanel : Sys :=
  Small.sys ⟨[Small.buyer 1 0], Small.one_buyer, Small.one_buyer⟩
    ⟨[{ Small.plan 1 1000 with onetimePrice := some 1000 }, Small.plan 2 1000], by decide,
      by decide⟩ .empty

def saveAs (now planID : Int) (period : String) (deposit : Int) (tradeNo : String) :
    HistoryInput :=
  .panel (Small.input now (.saveOrder 1 ⟨planID, period, "", deposit⟩ tradeNo))

def complete (now : Int) (tradeNo : String) : HistoryInput :=
  .panel (Small.input now (.completeManually tradeNo))

/-- The buyer pays for the one-time plan and changes to the monthly one. -/
def changeFromOneTime : List HistoryInput :=
  [saveAs 100 1 "onetime_price" 0 "T1", complete 200 "T1", saveAs 300 2 "month_price" 0 "T2",
    complete 400 "T2"]

/-- The order of the one-time plan is used up. -/
theorem plan_orders_used_by_change :
    Along (historyStep Small.runtime) (UsesPlanOrders Small.runtime) oneTimePanel
        changeFromOneTime ∧
      ∃ o ∈ (run (historyStep Small.runtime) oneTimePanel changeFromOneTime).db.orders,
        surplusIDs o = [1] :=
  ⟨(plan_orders_used Small.runtime oneTimePanel changeFromOneTime
    ⟨by decide, by decide, by decide⟩ (by decide)).1, by decide⟩

def changeAfterDeposit : List HistoryInput :=
  [saveAs 10 0 "deposit" 500 "T0", complete 20 "T0"] ++ changeFromOneTime

/-- The change of plan uses up the deposit and closes it, and cannot be refunded. -/
theorem deposit_used_up :
    BeforeSurplus oneTimePanel.db ∧
    (∃ o ∈ (run (historyStep Small.runtime) oneTimePanel changeAfterDeposit).db.orders,
      ∃ r ∈ (run (historyStep Small.runtime) oneTimePanel changeAfterDeposit).db.orders,
        r.id ∈ surplusIDs o ∧ r.period = .deposit ∧ r.planID = 0 ∧ r.status = .closed) ∧
    (refundManagedOrder Small.runtime 500 "T2"
      (run (historyStep Small.runtime) oneTimePanel changeAfterDeposit).db).isOk = false := by
  refine ⟨⟨by decide, by decide, by decide⟩, by decide, by decide⟩

end ForestPanel
