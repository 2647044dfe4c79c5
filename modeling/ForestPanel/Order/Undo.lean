import Mathlib.Data.List.Sort
import ForestPanel.Lib.Calendar
import ForestPanel.System

/-!
# Refunding what was opened

A refund does not keep what the order replaced: it clears the subscription, steps the expiry back,
or replays older orders from nothing. What of the subscription it gives back depends on how the
user came by it.
-/
namespace ForestPanel

open Relational Outcome

structure Subscription where
  planID : Option Int
  groupID : Option Int
  transferEnable : Int
  deviceLimit : Option Int
  speedLimit : Option Int
  expiredAt : Option Int
deriving Repr, DecidableEq

def UserRecord.subscription (row : UserRecord) : Subscription where
  planID := row.planID
  groupID := row.groupID
  transferEnable := row.transferEnable
  deviceLimit := row.deviceLimit
  speedLimit := row.speedLimit
  expiredAt := row.expiredAt

def noSubscription : Subscription := ⟨none, none, 0, none, none, none⟩

def PlanRecord.subscription (plan : PlanRecord) (expiredAt : Option Int) : Subscription where
  planID := some plan.id
  groupID := some plan.groupID
  transferEnable := planTransferEnableBytes plan.transferEnable
  deviceLimit := plan.deviceLimit
  speedLimit := plan.speedLimit
  expiredAt

@[simp] theorem subscription_clearSubscriptionForRefund (current : UserRecord) :
    (clearSubscriptionForRefund current).subscription = noSubscription := rfl

@[simp] theorem subscription_preserveUserUsage (current restored : UserRecord) :
    (preserveUserUsage current restored).subscription = restored.subscription := by
  unfold preserveUserUsage
  split <;> rfl

/-! ## Opening and replaying -/

/-- The subscription after an order that takes effect at a time. -/
def orderSubscription (rt : Runtime) (effectiveAt : Int) (order : OrderRecord) (plan : PlanRecord)
    (row : UserRecord) : Subscription :=
  let applied := match order.period with
    | .onetimePrice => applyOrderOneTime order plan row
    | .resetPrice => { row with u := 0, d := 0 }
    | _ => applyOrderPeriod rt effectiveAt order plan row
  { applied.subscription with speedLimit := plan.speedLimit }

private theorem subscription_applyOrderCompletionEvent (cfg : Config) (type : OrderType)
    (row : UserRecord) :
    (applyOrderCompletionEvent cfg type row).subscription = row.subscription := by
  unfold applyOrderCompletionEvent
  dsimp only
  split_ifs <;> rfl

theorem subscription_applyOpenedOrder (rt : Runtime) (cfg : Config) (now : Int)
    (order : OrderRecord) (plan : PlanRecord) (row : UserRecord) :
    (applyOpenedOrder rt cfg now order plan row).subscription =
      orderSubscription rt now order plan row := by
  unfold applyOpenedOrder orderSubscription
  dsimp only
  have fields := fun r =>
    Subscription.mk.inj (subscription_applyOrderCompletionEvent cfg order.type r)
  obtain ⟨planID, groupID, transfer, device, -, expiry⟩ := fields _
  rw [Subscription.mk.injEq]
  exact ⟨planID, groupID, transfer, device, rfl, expiry⟩

theorem subscription_applyHistoricalOrder (rt : Runtime) (order : OrderRecord) (plan : PlanRecord)
    (row : UserRecord) : (applyHistoricalOrder rt row order plan).subscription =
      orderSubscription rt (effectiveOrderAt order) order plan row := rfl

variable {rt : Runtime} {order refunded : OrderRecord} {plan : PlanRecord}
  {row before current restored : UserRecord} {db db₁ db' : Db} {now later : Int}
  {f : OrderRecord → OrderRecord}

theorem orderSubscription_period {effectiveAt : Int} {months : Int}
    (period : periodMonths order.period = some months) :
    orderSubscription rt effectiveAt order plan row =
      plan.subscription (some (nextExpiredAtAt rt order.period
        (if order.type = .change then some effectiveAt else row.expiredAt) effectiveAt)) := by
  unfold orderSubscription
  cases named : order.period with
  | onetimePrice | resetPrice | deposit => rw [named] at period; cases period
  | monthPrice | quarterPrice | halfYearPrice | yearPrice | twoYearPrice | threeYearPrice =>
    simp only [UserRecord.subscription, applyOrderPeriod, PlanRecord.subscription, named]

/-- A one-time order finds no traffic that was used: nothing to carry, or nothing used of it. -/
def CarriesUnused (order : OrderRecord) (row : UserRecord) : Prop :=
  order.period = .onetimePrice → order.surplusOrderIDs.isSome = true ∨ row.expiredAt.isSome = true ∨
    row.u + row.d = 0 ∨ (row.transferEnable = 0 ∧ 0 ≤ row.u + row.d)

private theorem orderSubscription_congr {effectiveAt : Int} {replayed : UserRecord}
    (unused : CarriesUnused order row) (same : replayed.subscription = row.subscription)
    (u : replayed.u = 0) (d : replayed.d = 0) :
    orderSubscription rt effectiveAt order plan replayed =
      orderSubscription rt effectiveAt order plan row := by
  obtain ⟨planID, groupID, transfer, device, speed, expiry⟩ := Subscription.mk.inj same
  unfold orderSubscription
  dsimp only
  split
  next oneTime =>
    have carried : (applyOrderOneTime order plan replayed).transferEnable =
        (applyOrderOneTime order plan row).transferEnable := by
      unfold applyOrderOneTime
      dsimp only
      rw [transfer, expiry, u, d]
      rcases unused oneTime with chained | ends | idle | ⟨empty, traffic⟩
      · simp [Option.isSome_iff_ne_none.mp chained]
      · simp [Option.isSome_iff_ne_none.mp ends]
      · rw [idle, Int.add_zero]
      · have overdrawn : ¬row.u < -row.d := by omega
        simp [empty, overdrawn]
    simp [UserRecord.subscription, applyOrderOneTime] at carried ⊢
    exact carried
  · simp [UserRecord.subscription, planID, groupID, transfer, device, expiry]
  · simp [UserRecord.subscription, applyOrderPeriod, expiry]

private theorem usage_applyHistoricalOrder (u : row.u = 0) (d : row.d = 0) :
    (applyHistoricalOrder rt row order plan).u = 0 ∧
      (applyHistoricalOrder rt row order plan).d = 0 := by
  unfold applyHistoricalOrder
  dsimp only
  split
  · exact ⟨rfl, rfl⟩
  · exact ⟨rfl, rfl⟩
  · simp [applyOrderPeriod, u, d]

private theorem replay_append (rt : Runtime) (db : Db) (start : UserRecord)
    (orders rest : List OrderRecord) :
    replay rt db start (orders ++ rest) =
      (do replay rt db (← replay rt db start orders) rest) := by
  induction orders generalizing start with
  | nil => rfl
  | cons order orders ih =>
    rw [List.cons_append, replay, replay]
    cases db.plans.find? order.planID with
    | none => rfl
    | some plan => exact ih _

/-- The orders, each opened when it was paid, made the subscription of the row out of none. What
else happened in between left the subscription alone. -/
inductive HeldBy (rt : Runtime) (db : Db) : List OrderRecord → UserRecord → Prop
  | none {row : UserRecord} (cleared : row.subscription = noSubscription) : HeldBy rt db [] row
  | opened {orders : List OrderRecord} {before row : UserRecord} (order : OrderRecord)
      (plan : PlanRecord) (held : HeldBy rt db orders before)
      (unused : CarriesUnused order before) (stored : db.plans.find? order.planID = some plan)
      (applied :
        row.subscription = orderSubscription rt (effectiveOrderAt order) order plan before) :
      HeldBy rt db (orders ++ [order]) row

theorem HeldBy.replay {orders : List OrderRecord} (held : HeldBy rt db orders row)
    (current : UserRecord) :
    ∃ restored,
      ForestPanel.replay rt db (clearSubscriptionForRefund current) orders = .ok restored ∧
        restored.subscription = row.subscription ∧ restored.u = 0 ∧ restored.d = 0 := by
  induction held with
  | none cleared => exact ⟨_, rfl, cleared.symm, rfl, rfl⟩
  | opened order plan held unused stored applied ih =>
    obtain ⟨restored, replayed, same, u, d⟩ := ih
    refine ⟨applyHistoricalOrder rt restored order plan, ?_, ?_, usage_applyHistoricalOrder u d⟩
    · rw [replay_append, replayed]
      simp only [ForestPanel.replay, stored, require, bind, Except.bind]
    · rw [applied, subscription_applyHistoricalOrder, orderSubscription_congr unused same u d]

/-! ## What the two transactions write -/

private theorem find?_updateUserSubscription {r : UserRecord}
    (found : db.users.find? row.id = some r) :
    ∃ written, (db.updateUserSubscription row).users.find? row.id = some written ∧
      written.subscription = row.subscription := by
  have key : r.id = row.id := Table.key_of_find? found
  rw [Db.updateUserSubscription, Table.find?_updateWhere, found, Option.map_some]
  simp only [key, decide_true, if_true]
  exact ⟨_, rfl, rfl⟩

private theorem openOrder_subscription {cfg : Config} (plain : order.type ≠ .deposit)
    (opened : openOrder rt cfg now order db = .ok db₁) :
    ∃ before plan held, db.users.find? order.userID = some before ∧
      db.plans.find? order.planID = some plan ∧ db₁.plans = db.plans ∧
      db₁.users.find? order.userID = some held ∧
      held.subscription = orderSubscription rt now order plan { before with
        expiredAt := Db.normalizeNullableExpiry before.expiredAt } := by
  simp only [openOrder, openPlanOrder, if_neg plain, bind_eq_ok, require_eq_ok,
    pure_eq_ok] at opened
  obtain ⟨-, -, userRow, locked, plan, stored, rfl⟩ := opened
  obtain ⟨before, found, rfl⟩ := (Db.lockUser_eq_ok ..).mp locked
  have key : before.id = order.userID := Table.key_of_find? found
  generalize currentEq : { before with
    expiredAt := Db.normalizeNullableExpiry before.expiredAt } = current
  have currentID : current.id = order.userID := currentEq ▸ key
  have credited : (creditRefundAmount order current).id = order.userID ∧
      orderSubscription rt now order plan (creditRefundAmount order current) =
        orderSubscription rt now order plan current := by
    unfold creditRefundAmount
    split
    · refine ⟨currentID, ?_⟩
      unfold orderSubscription
      dsimp only
      split <;> rfl
    · exact ⟨currentID, rfl⟩
  have wallet := applyOpenedOrder_wallet rt cfg now order plan (creditRefundAmount order current)
  have applied := subscription_applyOpenedOrder rt cfg now order plan
    (creditRefundAmount order current)
  generalize applyOpenedOrder rt cfg now order plan (creditRefundAmount order current) = row at *
  have rowID : row.id = order.userID := wallet.id.trans credited.1
  have closed : (db.markSurplusOrdersClosed (surplusIDs order) now).users.find? row.id =
      some before := by rw [rowID]; exact found
  obtain ⟨held, written, same⟩ := find?_updateUserSubscription closed
  rw [rowID] at written
  refine ⟨before, plan, held, found, stored, ?_, ?_, ?_⟩
  · unfold markInviteCampaignUsed
    split <;> rfl
  · rw [← written]
    unfold markInviteCampaignUsed
    split <;> rfl
  · rw [same, applied, credited.2, currentEq]

private theorem rollbackCommissionForRefund_rest
    (returned : rollbackCommissionForRefund order db = .ok db') :
    db'.orders = db.orders ∧ db'.plans = db.plans ∧
      ∀ id, (db'.users.find? id).isSome = (db.users.find? id).isSome := by
  unfold rollbackCommissionForRefund at returned
  split at returned
  · cases returned
    exact ⟨rfl, rfl, fun _ => rfl⟩
  · split_ifs at returned
    · cases returned
      exact ⟨rfl, rfl, fun _ => rfl⟩
    · split at returned
      · cases returned
        exact ⟨rfl, rfl, fun _ => rfl⟩
      · cases returned
      · cases returned
        refine ⟨rfl, rfl, ?_⟩
        intro id
        simp [Db.deleteCommissionLog, Db.record, Db.updateUserSubscription, Table.find?_updateWhere]
    · cases returned
      exact ⟨rfl, rfl, fun _ => rfl⟩

private theorem refundManagedOrder_subscription {tradeNo : String}
    (returned : refundManagedOrder rt now tradeNo db = .ok db') :
    ∃ order current db₁ db₂ restored after, db.orders.findUniq? (trimSpace tradeNo) = some order ∧
      refundTargetSupported order ∧ db.lockUser order.userID = .ok current ∧
      db₁.orders = db.orders ∧ db₁.plans = db.plans ∧
      rollbackUserSubscriptionForRefund rt now current order db₁ = .ok (restored, db₂) ∧
      db'.users.find? order.userID = some after ∧ after.subscription = restored.subscription := by
  simp only [refundManagedOrder, bind_eq_ok, ensure_eq_ok, exists_const, require_eq_ok,
    pure_eq_ok] at returned
  obtain ⟨-, order, locked, -, target, -, current, lockedUser, db₁, rolled, ⟨restored, db₂⟩,
    rebuilt, rfl⟩ := returned
  obtain ⟨orders, plans, users⟩ := rollbackCommissionForRefund_rest rolled
  obtain ⟨r, -, -, id, found, -, -⟩ := Db.lockUser_row lockedUser
  obtain ⟨wallet, -, frame⟩ := rollbackUserSubscriptionForRefund_writes rebuilt
  have present : (db₂.users.find? order.userID).isSome = true := by
    rw [frame, users, found]
    rfl
  obtain ⟨r₂, stored⟩ := Option.isSome_iff_exists.mp present
  have restoredID : restored.id = order.userID := wallet.id.trans id
  rw [← restoredID] at stored
  obtain ⟨after, written, same⟩ := find?_updateUserSubscription stored
  rw [restoredID] at written
  exact ⟨order, current, db₁, db₂, restored, after, locked, target, lockedUser, orders, plans,
    rebuilt, written, same⟩

/-! ## The rows of a replay -/

/-- The orders that the order used up, as a replay takes them. -/
def consumedOrders (db : Db) (order : OrderRecord) : List OrderRecord :=
  (db.orders.rows.filter fun o => o.id ∈ surplusIDs order).insertionSort replayOrder

/-- The orders of the user before the order was paid, as a replay takes them. -/
def earlierOrders (db : Db) (order : OrderRecord) : List OrderRecord :=
  (db.orders.rows.filter fun o =>
    o.userID = order.userID && o.status = .completed && o.id ≠ order.id && 0 < o.planID &&
      o.paidAt.getD o.createdAt < effectiveOrderAt order).insertionSort replayOrder

private def SameHistory (o' o : OrderRecord) : Prop := o'.terms = o.terms ∧ o'.paidAt = o.paidAt

private theorem SameHistory.apply {o' o : OrderRecord} (same : SameHistory o' o) (rt : Runtime)
    (row : UserRecord) (plan : PlanRecord) :
    applyHistoricalOrder rt row o' plan = applyHistoricalOrder rt row o plan := by
  obtain ⟨terms, paidAt⟩ := same
  have type : o'.type = o.type := congrArg OrderTerms.type terms
  have period : o'.period = o.period := congrArg OrderTerms.period terms
  have ids : o'.surplusOrderIDs = o.surplusOrderIDs := congrArg OrderTerms.surplusOrderIDs terms
  have createdAt : o'.createdAt = o.createdAt := congrArg OrderTerms.createdAt terms
  have effective : effectiveOrderAt o' = effectiveOrderAt o := by
    rw [effectiveOrderAt, effectiveOrderAt, paidAt, createdAt]
  have oneTime : applyOrderOneTime o' plan row = applyOrderOneTime o plan row := by
    rw [applyOrderOneTime, applyOrderOneTime, ids]
  have months : applyOrderPeriod rt (effectiveOrderAt o') o' plan row =
      applyOrderPeriod rt (effectiveOrderAt o) o plan row := by
    rw [applyOrderPeriod, applyOrderPeriod, type, period, effective]
  rw [applyHistoricalOrder, applyHistoricalOrder, period, oneTime, months]

private theorem SameHistory.replayOrder {a a' b b' : OrderRecord} (left : SameHistory a' a)
    (right : SameHistory b' b) : ForestPanel.replayOrder a b ↔ ForestPanel.replayOrder a' b' := by
  have idA : a'.id = a.id := congrArg OrderTerms.id left.1
  have idB : b'.id = b.id := congrArg OrderTerms.id right.1
  have createdA : a'.createdAt = a.createdAt := congrArg OrderTerms.createdAt left.1
  have createdB : b'.createdAt = b.createdAt := congrArg OrderTerms.createdAt right.1
  rw [ForestPanel.replayOrder, ForestPanel.replayOrder, idA, idB, createdA, createdB, left.2,
    right.2]

private theorem replay_map (plans : db'.plans = db.plans) (orders : List OrderRecord)
    (start : UserRecord) (same : ∀ o ∈ orders, SameHistory (f o) o) :
    replay rt db' start (orders.map f) = replay rt db start orders := by
  induction orders generalizing start with
  | nil => rfl
  | cons o orders ih =>
    have first := same o List.mem_cons_self
    have planID : (f o).planID = o.planID := congrArg OrderTerms.planID first.1
    rw [List.map_cons, replay, replay, plans, planID]
    cases db.plans.find? o.planID with
    | none => rfl
    | some plan =>
      simp only [require, bind, Except.bind, first.apply]
      exact ih _ fun o' member => same o' (List.mem_cons_of_mem o member)

private theorem consumedOrders_map (rows : db'.orders.rows = db.orders.rows.map f)
    (terms : ∀ o, (f o).terms = o.terms) (same : ∀ o, o.id ∈ surplusIDs order → SameHistory (f o) o)
    :
    consumedOrders db' order = (consumedOrders db order).map f := by
  have ids : ∀ o, (f o).id = o.id := fun o => congrArg OrderTerms.id (terms o)
  unfold consumedOrders
  rw [rows, List.filter_map, List.map_insertionSort (r := replayOrder) (s := replayOrder)]
  · congr 2
    apply List.filter_congr
    intro o _
    rw [Function.comp_apply, ids]
  · intro a memberA b memberB
    have listed : ∀ o ∈ db.orders.rows.filter (fun o => o.id ∈ surplusIDs order),
        o.id ∈ surplusIDs order := by
      intro o member
      exact of_decide_eq_true (List.mem_filter.mp member).2
    exact (same a (listed a memberA)).replayOrder (same b (listed b memberB))

/-! ## Refunding after opening -/

def renewedExpiry (rt : Runtime) (now : Int) (order : OrderRecord) (before : UserRecord) : Int :=
  nextExpiredAtAt rt order.period (Db.normalizeNullableExpiry before.expiredAt) now

/-- A subscription whose expiry went forward and back by the months of the renewal. -/
def renewedAndBack (rt : Runtime) (now months : Int) (order : OrderRecord) (plan : PlanRecord)
    (before : UserRecord) : Subscription :=
  let expiry := renewedExpiry rt now order before
  if 0 < expiry then
    plan.subscription (Db.normalizeNullableExpiry (some (rt.addMonths expiry (-months))))
  else noSubscription

private theorem rollback_renewal {held : UserRecord} (kind : order.type = .renewal)
    (period : refunded.period = order.period)
    (opened : held.subscription = orderSubscription rt now order plan { before with
      expiredAt := Db.normalizeNullableExpiry before.expiredAt })
    (locked : { held with expiredAt := Db.normalizeNullableExpiry held.expiredAt } = current)
    (rolled : rollbackRenewalSubscription rt current refunded = .ok restored) :
    ∃ months, periodMonths order.period = some months ∧
      restored.subscription = renewedAndBack rt now months order plan before := by
  simp only [rollbackRenewalSubscription, bind_eq_ok, require_eq_ok, period] at rolled
  obtain ⟨months, named, rolled⟩ := rolled
  refine ⟨months, named, ?_⟩
  rw [orderSubscription_period named, if_neg (by simp [kind])] at opened
  change held.subscription = plan.subscription (some (renewedExpiry rt now order before)) at opened
  obtain ⟨planID, groupID, transfer, device, speed, expiry⟩ := Subscription.mk.inj opened
  subst locked
  unfold renewedAndBack
  dsimp only at rolled ⊢
  rw [expiry] at rolled
  by_cases future : 0 < renewedExpiry rt now order before
  · rw [if_pos future]
    simp only [Db.normalizeNullableExpiry, Option.filter_some, future, decide_true, if_true,
      pure_eq_ok] at rolled
    subst rolled
    simp only [UserRecord.subscription, PlanRecord.subscription, planID, groupID, transfer, device,
      speed, Db.normalizeNullableExpiry, Option.filter_some, decide_eq_true_eq]
    split_ifs <;> first | rfl | omega
  · rw [if_neg future]
    simp only [Db.normalizeNullableExpiry, Option.filter_some, future, decide_false,
      Bool.false_eq_true, if_false, pure_eq_ok] at rolled
    subst rolled
    rfl

private theorem subscription_of_replay {orders : List OrderRecord}
    (held : HeldBy rt db orders before) (plans : db'.plans = db.plans)
    (same : ∀ o ∈ orders, SameHistory (f o) o)
    (replayed : replay rt db' (clearSubscriptionForRefund current) (orders.map f) = .ok restored) :
    (preserveUserUsage current restored).subscription = before.subscription := by
  obtain ⟨row, replayed', given, -, -⟩ := held.replay current
  rw [replay_map plans orders _ same, replayed'] at replayed
  rw [subscription_preserveUserUsage, ← Except.ok.inj replayed, given]

private structure OpenedOrder (now : Int) (order refunded : OrderRecord) (db db₁ : Db) : Prop where
  terms : refunded.terms = order.terms
  paidAt : refunded.paidAt = (openedOrder now order).paidAt
  orders : db₁.orders.rows = db.orders.rows.map (openedRow now order)
  plans : db₁.plans = db.plans

private theorem openedRow_history {o : OrderRecord} (other : o.id ≠ order.id) :
    SameHistory (openedRow now order o) o := by
  refine ⟨openedRow_terms now order o, ?_⟩
  unfold openedRow
  rw [if_neg other]
  split <;> rfl

private theorem restoredRow_history (now : Int) (order o : OrderRecord) :
    SameHistory (restoredRow now order o) o := by
  unfold restoredRow
  split <;> exact ⟨rfl, rfl⟩

private theorem rollback_consumed {db₂ db₃ : Db} (h : OpenedOrder now order refunded db db₁)
    (orders : db₂.orders = db₁.orders) (plans : db₂.plans = db₁.plans)
    (used : surplusIDs order ≠ []) (own : order.id ∉ surplusIDs order)
    (held : HeldBy rt db (consumedOrders db order) before)
    (rolled : rollbackUserSubscriptionForRefund rt later current refunded db₂ =
      .ok (restored, db₃)) : restored.subscription = before.subscription := by
  have ids : surplusIDs refunded = surplusIDs order :=
    congrArg (·.getD []) (congrArg OrderTerms.surplusOrderIDs h.terms)
  obtain ⟨-, rows, -⟩ := rollbackUserSubscriptionForRefund_writes rolled
  unfold rollbackUserSubscriptionForRefund at rolled
  rw [ids, if_pos used] at rolled
  simp only [bind_eq_ok, rebuildSubscriptionFromOrderIDs, pure_eq_ok, Prod.mk.injEq] at rolled
  obtain ⟨_, ⟨row, replayed, rfl⟩, rfl, rfl⟩ := rolled
  rw [orders, h.orders, List.map_map] at rows
  have history : ∀ o, o.id ∈ surplusIDs order →
      SameHistory ((restoredRow later refunded ∘ openedRow now order) o) o := by
    intro o listed
    have other : o.id ≠ order.id := fun same => own (same ▸ listed)
    obtain ⟨terms, paidAt⟩ := restoredRow_history later refunded (openedRow now order o)
    obtain ⟨terms', paidAt'⟩ : SameHistory (openedRow now order o) o := openedRow_history other
    exact ⟨terms.trans terms', paidAt.trans paidAt'⟩
  have terms : ∀ o, ((restoredRow later refunded ∘ openedRow now order) o).terms = o.terms := by
    intro o
    exact (restoredRow_history later refunded _).1.trans (openedRow_terms now order o)
  have sorted := consumedOrders_map rows terms history
  unfold consumedOrders at sorted
  rw [sorted] at replayed
  have plans' : (db₂.restoreSurplusOrdersForRefund (surplusIDs order) later).plans = db.plans :=
    plans.trans h.plans
  refine subscription_of_replay held plans' ?_ replayed
  intro o member
  have listed := (List.mem_insertionSort _).mp member
  exact history o (of_decide_eq_true (List.mem_filter.mp listed).2)

private theorem filter_map_of_left_out {p : OrderRecord → Bool} (rows : List OrderRecord)
    (same : ∀ o ∈ rows, f o = o ∨ (p (f o) = false ∧ p o = false)) :
    (rows.map f).filter p = rows.filter p := by
  induction rows with
  | nil => rfl
  | cons o rows ih =>
    have rest := ih fun o' member => same o' (List.mem_cons_of_mem o member)
    rw [List.map_cons, List.filter_cons, List.filter_cons, rest]
    rcases same o List.mem_cons_self with kept | ⟨out, out'⟩
    · rw [kept]
    · rw [out, out']
      rfl

private theorem rollback_earlier {db₂ db₃ : Db} (h : OpenedOrder now order refunded db db₁)
    (orders : db₂.orders = db₁.orders) (plans : db₂.plans = db₁.plans)
    (unused : surplusIDs order = []) (change : order.type = .change)
    (held : HeldBy rt db (earlierOrders db (openedOrder now order)) before)
    (rolled : rollbackUserSubscriptionForRefund rt later current refunded db₂ =
      .ok (restored, db₃)) : restored.subscription = before.subscription := by
  have ids : surplusIDs refunded = surplusIDs order :=
    congrArg (·.getD []) (congrArg OrderTerms.surplusOrderIDs h.terms)
  have type : refunded.type = order.type := congrArg OrderTerms.type h.terms
  have userID : refunded.userID = order.userID := congrArg OrderTerms.userID h.terms
  have id : refunded.id = order.id := congrArg OrderTerms.id h.terms
  have createdAt : refunded.createdAt = order.createdAt := congrArg OrderTerms.createdAt h.terms
  have effective : effectiveOrderAt refunded = effectiveOrderAt (openedOrder now order) := by
    rw [effectiveOrderAt, effectiveOrderAt, h.paidAt, createdAt]
    rfl
  have rows : earlierOrders db₂ refunded = earlierOrders db (openedOrder now order) := by
    unfold earlierOrders
    rw [orders, h.orders, userID, id, effective]
    congr 1
    refine filter_map_of_left_out db.orders.rows fun o _ => ?_
    by_cases same : o.id = order.id
    · have same' : (openedRow now order o).id = order.id :=
        (congrArg OrderTerms.id (openedRow_terms now order o)).trans same
      right
      simp [same, same', openedOrder]
    · left
      unfold openedRow
      rw [if_neg same, if_neg (by simp [unused])]
  unfold rollbackUserSubscriptionForRefund at rolled
  rw [ids, if_neg (not_not.mpr unused), type, change] at rolled
  simp only [bind_eq_ok, pure_eq_ok, Prod.mk.injEq] at rolled
  obtain ⟨_, rebuilt, rfl, -⟩ := rolled
  unfold rebuildPreviousSubscriptionBeforeRefund at rebuilt
  dsimp only at rebuilt
  split at rebuilt
  next empty =>
    change earlierOrders db₂ refunded = [] at empty
    obtain ⟨row, replayed, given, -, -⟩ := held.replay current
    rw [← rows, empty] at replayed
    rw [← given, ← Except.ok.inj replayed, ← Except.ok.inj rebuilt]
  next =>
    simp only [bind_eq_ok, pure_eq_ok] at rebuilt
    obtain ⟨row, replayed, rfl⟩ := rebuilt
    change replay rt db₂ _ (earlierOrders db₂ refunded) = _ at replayed
    rw [rows, ← List.map_id (earlierOrders db (openedOrder now order))] at replayed
    exact subscription_of_replay held (plans.trans h.plans) (fun o _ => ⟨rfl, rfl⟩) replayed

private theorem rollback_purchase (unused : surplusIDs refunded = [])
    (kind : refunded.type ≠ .renewal) (kind' : refunded.type ≠ .change)
    (rolled : rollbackUserSubscriptionForRefund rt later current refunded db =
      .ok (restored, db')) : restored.subscription = noSubscription := by
  unfold rollbackUserSubscriptionForRefund at rolled
  rw [if_neg (not_not.mpr unused)] at rolled
  split at rolled
  next renewal => exact absurd renewal kind
  next change => exact absurd change kind'
  all_goals
    obtain ⟨rfl, rfl⟩ := Prod.mk.inj (Except.ok.inj rolled)
    rfl

/-- Going forward and back gives the same subscription when the plan's terms were the present
ones, and the calendar comes back to the same second. -/
private theorem renewedAndBack_eq_iff {months expiry : Int}
    (period : periodMonths order.period = some months) (ends : before.expiredAt = some expiry)
    (valid : 0 < expiry) (live : now < expiry) :
    renewedAndBack rt now months order plan before = before.subscription ↔
      before.subscription = plan.subscription (some expiry) ∧ 0 < rt.addMonths expiry months ∧
        rt.addMonths (rt.addMonths expiry months) (-months) = expiry := by
  have renewed : renewedExpiry rt now order before = rt.addMonths expiry months := by
    rw [renewedExpiry, ends, Db.normalizeNullableExpiry, Option.filter_some, if_pos (by simpa)]
    unfold nextExpiredAtAt
    dsimp only
    rw [period, if_pos live]
  have ends' : before.subscription.expiredAt = some expiry := ends
  unfold renewedAndBack
  dsimp only
  rw [renewed]
  constructor
  · intro same
    split at same
    next future =>
      have back := congrArg Subscription.expiredAt same
      rw [ends'] at back
      simp only [PlanRecord.subscription, Db.normalizeNullableExpiry, Option.filter_some] at back
      split_ifs at back
      rw [Option.some.inj back, Db.normalizeNullableExpiry, Option.filter_some,
        if_pos (by simpa)] at same
      exact ⟨same.symm, future, Option.some.inj back⟩
    next =>
      have back := congrArg Subscription.expiredAt same
      rw [ends'] at back
      cases back
  · rintro ⟨terms, future, back⟩
    rw [if_pos future, back, terms, Db.normalizeNullableExpiry, Option.filter_some,
      if_pos (by simpa)]

private theorem openedOrder_found {stored : OrderRecord} (member : stored ∈ db.orders)
    (terms : order.terms = stored.terms) (h : Opened now order db db₁) :
    db₁.orders.findUniq? order.tradeNo = some (openedRow now order stored) ∧
      OpenedOrder now order (openedRow now order stored) db db₁ := by
  have tradeNo : order.tradeNo = stored.tradeNo := congrArg OrderTerms.tradeNo terms
  have id : stored.id = order.id := (congrArg OrderTerms.id terms).symm
  constructor
  · have found := (db.orders.findUniq?_eq_some stored.tradeNo stored).mpr ⟨member, rfl⟩
    rw [Table.findUniq?_of_rows_map h.orders
      fun o => congrArg OrderTerms.tradeNo (openedRow_terms now order o), tradeNo, found]
    rfl
  · constructor
    case terms => exact (openedRow_terms now order stored).trans terms.symm
    case paidAt =>
      unfold openedRow
      rw [if_pos id]
      dsimp only
      split <;> rfl
    case orders => exact h.orders
    case plans => rw [h.frame]

/-- What the refund of an order that was just opened leaves of the subscription. A purchase is
cleared. A renewal is stepped back: it gives back the subscription of before when that had the
present terms of the plan, and the calendar comes back to the expiry. A change of plan gives back
a subscription that the replayed orders had made. -/
theorem refund_after_open {rt : Runtime} {cfg : Config} {now later : Int} {tradeNo : String}
    {order stored : OrderRecord} {db db₁ db₂ : Db} (member : stored ∈ db.orders)
    (terms : order.terms = stored.terms) (opened : openOrder rt cfg now order db = .ok db₁)
    (named : trimSpace tradeNo = order.tradeNo)
    (refunded : refundManagedOrder rt later tradeNo db₁ = .ok db₂) :
    ∃ before plan after, db.users.find? order.userID = some before ∧
      db.plans.find? order.planID = some plan ∧ db₂.users.find? order.userID = some after ∧
      (surplusIDs order = [] → order.type ≠ .renewal → order.type ≠ .change →
        after.subscription = noSubscription) ∧
      (surplusIDs order = [] → order.type = .renewal →
        ∃ months, periodMonths order.period = some months ∧
          after.subscription = renewedAndBack rt now months order plan before ∧
          ∀ expiry, before.expiredAt = some expiry → 0 < expiry → now < expiry →
            (after.subscription = before.subscription ↔
              before.subscription = plan.subscription (some expiry) ∧
                0 < rt.addMonths expiry months ∧
                rt.addMonths (rt.addMonths expiry months) (-months) = expiry)) ∧
      (surplusIDs order ≠ [] → order.id ∉ surplusIDs order →
        HeldBy rt db (consumedOrders db order) before →
          after.subscription = before.subscription) ∧
      (surplusIDs order = [] → order.type = .change →
        HeldBy rt db (earlierOrders db (openedOrder now order)) before →
          after.subscription = before.subscription) := by
  obtain ⟨found, isOpened⟩ := openedOrder_found member terms (openOrder_opened opened)
  obtain ⟨row, current, db', db'', restored, after, locked, target, lockedUser, orders, plans,
    rolled, written, same⟩ := refundManagedOrder_subscription refunded
  rw [named, found] at locked
  obtain rfl := Option.some.inj locked
  generalize openedRow now order stored = row at *
  have type : row.type = order.type := congrArg OrderTerms.type isOpened.terms
  have period : row.period = order.period := congrArg OrderTerms.period isOpened.terms
  have userID : row.userID = order.userID := congrArg OrderTerms.userID isOpened.terms
  have ids : surplusIDs row = surplusIDs order :=
    congrArg (·.getD []) (congrArg OrderTerms.surplusOrderIDs isOpened.terms)
  obtain ⟨before, plan, held, foundBefore, foundPlan, -, foundHeld, applied⟩ :=
    openOrder_subscription (type ▸ target.2.1) opened
  rw [userID] at written lockedUser
  refine ⟨before, plan, after, foundBefore, foundPlan, written, ?_, ?_, ?_, ?_⟩
  · intro unused kind kind'
    rw [same]
    exact rollback_purchase (ids ▸ unused) (type ▸ kind) (type ▸ kind') rolled
  · intro unused kind
    rw [same]
    unfold rollbackUserSubscriptionForRefund at rolled
    rw [ids, if_neg (not_not.mpr unused), type, kind] at rolled
    simp only [bind_eq_ok, pure_eq_ok, Prod.mk.injEq] at rolled
    obtain ⟨_, back, rfl, -⟩ := rolled
    obtain ⟨r, foundHeld', lockedHeld⟩ := (Db.lockUser_eq_ok ..).mp lockedUser
    obtain rfl := Option.some.inj (foundHeld.symm.trans foundHeld')
    obtain ⟨months, inMonths, stepped⟩ := rollback_renewal kind period applied lockedHeld back
    refine ⟨months, inMonths, stepped, ?_⟩
    intro expiry ends valid live
    rw [stepped]
    exact renewedAndBack_eq_iff inMonths ends valid live
  · intro used own byOrders
    rw [same]
    exact rollback_consumed isOpened orders plans used own byOrders rolled
  · intro unused change byOrders
    rw [same]
    exact rollback_earlier isOpened orders plans unused change byOrders rolled

/-! ## Two refunds -/

def refundOpened (order : OrderRecord) (db : Db) : Option UserRecord :=
  match openOrder Small.runtime Small.config 300 order db with
  | .error _ => none
  | .ok db =>
    match refundManagedOrder Small.runtime 400 order.tradeNo db with
    | .error _ => none
    | .ok db => db.users.find? order.userID

def processingOrder (id planID : Int) (type : OrderType) (tradeNo : String) : OrderRecord :=
  { (newDraft 1 planID type .monthPrice tradeNo 1000).row 100 with
    id
    status := .processing
    paidAt := some (100 * id) }

def firstOrder : OrderRecord := { processingOrder 1 1 .purchase "T1" with status := .completed }

def changeOrder : OrderRecord :=
  { processingOrder 2 2 .change "T2" with surplusOrderIDs := some [1] }

def firstBuyer : UserRecord :=
  applyOpenedOrder Small.runtime Small.config 100 firstOrder (Small.plan 1 1000) (Small.buyer 1 0)

def twoPlanDb (buyer : UserRecord) (orders : Table OrderRecord.id OrderRecord.tradeNo) : Db :=
  { (Small.sys ⟨[buyer], List.nodup_singleton _, List.nodup_singleton _⟩
      ⟨[Small.plan 1 1000, Small.plan 2 1000], by decide, by decide⟩ .empty).db with orders }

def changeDb : Db := twoPlanDb firstBuyer ⟨[firstOrder, changeOrder], by decide, by decide⟩

/-- The refund of the change of plan gives back the first plan. -/
theorem refund_after_open_change :
    (refundOpened changeOrder changeDb).map (·.subscription) = some firstBuyer.subscription := by
  have accepted : (refundOpened changeOrder changeDb).isSome = true := by decide
  have held : HeldBy Small.runtime changeDb (consumedOrders changeDb changeOrder) firstBuyer := by
    have orders : consumedOrders changeDb changeOrder = [] ++ [firstOrder] := by decide
    rw [orders]
    have start : HeldBy Small.runtime changeDb [] (Small.buyer 1 0) := .none rfl
    exact .opened firstOrder (Small.plan 1 1000) start
      (fun oneTime => nomatch oneTime) rfl rfl
  unfold refundOpened at accepted ⊢
  split at accepted
  · cases accepted
  next db₁ opened =>
    split at accepted
    · cases accepted
    next db₂ refunded =>
      obtain ⟨before, plan, after, foundBefore, -, found, -, -, consumed, -⟩ :=
        refund_after_open (by decide : changeOrder ∈ changeDb.orders) rfl opened (by decide)
          refunded
      have buyer : firstBuyer = before := Option.some.inj foundBefore
      rw [found, Option.map_some, consumed (by decide) (by decide) (buyer ▸ held), buyer]

/-- A buyer whose plan has run out, and who buys the other one. -/
def lapsedDb : Db :=
  twoPlanDb { firstBuyer with expiredAt := some 200 }
    ⟨[firstOrder, processingOrder 2 2 .purchase "T2"], by decide, by decide⟩

/-- The refund of the purchase leaves no plan, where there was the one that had run out. -/
theorem refund_clears_lapsed_plan :
    (lapsedDb.users.find? 1).map (·.planID) = some (some 1) ∧
      (refundOpened (processingOrder 2 2 .purchase "T2") lapsedDb).map (·.planID) = some none := by
  refine ⟨by decide, by decide⟩

end ForestPanel
