import ForestPanel.Life.Simulation

/-!
# Coupons

Saving an order takes one use of its coupon for good, and checks the buyer's
other orders with it against the limit for each user. Nothing checks the limit
again when a cancelled order is brought back.
-/
namespace ForestPanel

open Relational Transition

/-- Opening `order` brings `r` back from the cancelled orders. -/
def revivedBy (order r : OrderRecord) : Bool :=
  r.status = .cancelled && (r.id = order.id || r.id ∈ surplusIDs order)

/-- The buyer's orders with the coupon that are not cancelled once `order` is open. -/
def standingCount (db : Db) (order : OrderRecord) (couponID userID : Int) : Int :=
  db.orders.rows.countP fun o =>
    o.couponID = some couponID && o.userID = userID &&
      (o.status ≠ .cancelled || revivedBy order o)

/-- An opening that brings an order back finds room under its coupon's limit. -/
def RevivesWithinLimit (s : Sys) (i : Input) : Prop :=
  ∀ order ∈ s.opening i, ∀ r ∈ s.db.orders, revivedBy order r = true →
    ∀ c ∈ s.db.coupons, r.couponID = some c.id → ∀ limit ∈ c.limitUseWithUser,
      standingCount s.db order c.id r.userID ≤ limit

instance (s : Sys) (i : Input) : Decidable (RevivesWithinLimit s i) := by
  unfold RevivesWithinLimit
  infer_instance

private theorem limitUseWithUser_eq_some {db : Db} {couponID limit : Int} :
    db.limitUseWithUser couponID = some limit ↔
      ∃ c ∈ db.coupons, c.id = couponID ∧ c.limitUseWithUser = some limit := by
  simp only [Db.limitUseWithUser, Option.bind_eq_some_iff, Table.find?_eq_some, and_assoc]

private theorem roomy_of_revivesWithinLimit {limits : Int → Option Int} (s : Sys) (i : Input)
    (e : Life.Event Int Int Int Int) (followed : Followed limits s)
    (meets : RevivesWithinLimit s i) (about : About s i e) : e.Roomy limits s.db.book := by
  intro r member revived couponID limit carries limited
  cases about with
  | «open» order opening =>
    obtain ⟨o, stored, rfl⟩ := (mem_book ..).mp member
    rw [← followed.limits] at limited
    obtain ⟨c, found, rfl, column⟩ := limitUseWithUser_eq_some.mp limited
    have room := meets order opening o stored revived c found carries limit column
    rw [Life.Book.count, rows_book, List.countP_map]
    exact room
  | idle => cases revived
  | save => cases revived
  | cancel => cases revived
  | refund => cases revived

private theorem Db.Start.uncarried {db : Db} (start : db.Start) {p : OrderRecord → Bool}
    (carrying : ∀ o, p o = true → o.couponID.isSome) : db.orders.rows.countP p = 0 := by
  rw [List.countP_eq_zero]
  intro o member carries
  have some := carrying o carries
  rw [(start.orders o member).plain.2] at some
  cases some

theorem Db.Start.within {db : Db} (start : db.Start) :
    Life.Within db.limitUseWithUser db.book := by
  intro u k limit limited
  obtain ⟨c, member, rfl, column⟩ := limitUseWithUser_eq_some.mp limited
  rw [Life.Book.count, rows_book, List.countP_map, start.uncarried]
  · exact (start.coupons c member).2 limit column
  · intro o carries
    simp only [Function.comp_apply, life, Bool.and_eq_true] at carries
    exact Option.isSome_iff_exists.mpr ⟨_, of_decide_eq_true carries.1.1⟩

private theorem carrying_book (db : Db) (couponID : Int) :
    db.book.carrying couponID = db.orders.rows.countP fun o => o.couponID = some couponID := by
  rw [Life.Book.carrying, rows_book, List.countP_map]
  rfl

theorem Db.Start.counted {db : Db} (start : db.Start) : Life.Counted db.limitUse db.book := by
  intro k
  have none : db.book.carrying k = 0 := by
    rw [carrying_book, start.uncarried]
    · rfl
    · intro o carries
      exact Option.isSome_iff_exists.mpr ⟨_, of_decide_eq_true carries⟩
  refine ⟨?_, ?_⟩
  · rw [none]
    simp only [sub_zero, Option.map_id']
    rfl
  · intro l left
    have column : db.limitUse k = some l := left
    simp only [Db.limitUse, Option.bind_eq_some_iff, Table.find?_eq_some] at column
    obtain ⟨c, ⟨member, -⟩, limited⟩ := column
    exact (start.coupons c member).1 l limited

/-- The orders saved with the coupon: no order is ever removed. -/
def couponOrders (db : Db) (couponID : Int) : Int :=
  db.orders.rows.countP fun o => o.couponID = some couponID

theorem coupon_rows_of_run (rt : Runtime) (s : Sys) (inputs : List Input) (start : s.Start) :
    ∀ couponID,
      (run (Sys.step rt) s inputs).db.limitUse couponID =
        (s.db.limitUse couponID).map (· - couponOrders (run (Sys.step rt) s inputs).db couponID) ∧
      (∀ l, (run (Sys.step rt) s inputs).db.limitUse couponID = some l → 0 ≤ l) ∧
      (run (Sys.step rt) s inputs).db.limitUseWithUser couponID =
        s.db.limitUseWithUser couponID := by
  intro couponID
  have free : Along (Sys.step rt) (fun _ _ => True) s inputs := along_true s inputs
  have counted := law_of_run (Life.Counted s.db.limitUse) (fun _ _ => True)
    (fun _ _ _ _ _ _ => trivial) (fun _ _ _ counted _ step => counted.step step)
    s inputs start.followed start.1.counted free
  have kept : Followed s.db.limitUseWithUser (run (Sys.step rt) s inputs) :=
    start.followed.run inputs
  obtain ⟨left, nonneg⟩ := counted couponID
  rw [carrying_book] at left
  exact ⟨left, nonneg, congrFun kept.limits couponID⟩

/-- As long as every order brought back finds room, no user's paid orders exceed
a coupon's limit; its remaining uses always follow the orders saved with it. -/
theorem coupon_limits_hold (rt : Runtime) (s : Sys) (inputs : List Input) (start : s.Start)
    (openings : Along (Sys.step rt) RevivesWithinLimit s inputs) :
    (∀ couponID,
      (run (Sys.step rt) s inputs).db.limitUse couponID =
        (s.db.limitUse couponID).map (· - couponOrders (run (Sys.step rt) s inputs).db couponID) ∧
      ∀ l, (run (Sys.step rt) s inputs).db.limitUse couponID = some l → 0 ≤ l) ∧
    ∀ couponID limit, (run (Sys.step rt) s inputs).db.limitUseWithUser couponID = some limit →
      ∀ userID, (run (Sys.step rt) s inputs).db.couponUsedCount couponID userID ≤ limit := by
  have rows := coupon_rows_of_run rt s inputs start
  refine ⟨fun couponID => ⟨(rows couponID).1, (rows couponID).2.1⟩, ?_⟩
  intro couponID limit limited userID
  have within := law_of_run (Life.Within s.db.limitUseWithUser)
    (fun b e => e.Roomy s.db.limitUseWithUser b) roomy_of_revivesWithinLimit
    (fun _ _ _ within roomy step => within.step step roomy)
    s inputs start.followed start.1.within openings
  rw [(rows couponID).2.2] at limited
  rw [← couponUsedCount_book]
  refine le_trans (Life.count_mono ?_) (within userID couponID limit limited)
  intro r _ _ _ paid
  simp_all [Life.Order.paid, Life.Order.standing]

def coupon : CouponRecord where
  id := 1
  code := "WELCOME"
  type := 1
  value := 100
  shown := 1
  limitUse := some 5
  limitUseWithUser := some 1
  limitPlanIDs := none
  limitPeriod := none
  startedAt := 0
  endedAt := 2000000

def oneCoupon : Sys :=
  Small.sys ⟨[Small.buyer 1 0], Small.one_buyer, Small.one_buyer⟩
    ⟨[Small.plan 1 1000], Small.one_plan, Small.one_plan⟩
    ⟨[coupon], by decide, by decide⟩

theorem oneCoupon_start : oneCoupon.Start := Small.sys_start (by decide) (by decide)

def saveWithCoupon (now : Int) (tradeNo : String) : Input :=
  Small.input now (.saveOrder 1 ⟨1, "month_price", "WELCOME", 0⟩ tradeNo)

/-- A cancelled order gives the coupon free for another one. -/
def cancelAndSaveAgain : List Input :=
  [saveWithCoupon 100 "T1", Small.input 200 (.cancelOrder 1 "T1"), saveWithCoupon 300 "T2",
    Small.input 400 (.completeManually "T2")]

theorem coupon_limits_of_cancelAndSaveAgain :
    (∀ couponID,
      (run (Sys.step Small.runtime) oneCoupon cancelAndSaveAgain).db.limitUse couponID =
        (oneCoupon.db.limitUse couponID).map
          (· - couponOrders (run (Sys.step Small.runtime) oneCoupon cancelAndSaveAgain).db
            couponID) ∧
      ∀ l, (run (Sys.step Small.runtime) oneCoupon cancelAndSaveAgain).db.limitUse couponID =
        some l → 0 ≤ l) ∧
    ∀ couponID limit,
      (run (Sys.step Small.runtime) oneCoupon cancelAndSaveAgain).db.limitUseWithUser couponID =
        some limit →
      ∀ userID, (run (Sys.step Small.runtime) oneCoupon cancelAndSaveAgain).db.couponUsedCount
        couponID userID ≤ limit :=
  coupon_limits_hold Small.runtime oneCoupon cancelAndSaveAgain oneCoupon_start (by decide)

/-- The cancelled order is brought back after the other one was completed: the
user's two orders are paid with a coupon for one. -/
theorem coupon_limit_exceeded :
    oneCoupon.Start ∧
    (run (Sys.step Small.runtime) oneCoupon
      (cancelAndSaveAgain ++ [Small.input 500 (.completeManually "T1")])).db.limitUseWithUser 1 =
        some 1 ∧
    (run (Sys.step Small.runtime) oneCoupon
      (cancelAndSaveAgain ++ [Small.input 500 (.completeManually "T1")])).db.couponUsedCount 1 1 =
        2 := by
  refine ⟨oneCoupon_start, ?_, ?_⟩ <;> decide

end ForestPanel
