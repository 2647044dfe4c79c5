import ForestPanel.Effects
import ForestPanel.Life.Laws

/-!
# The system follows the book

`book` reads the life of every order off the database; every step of the system
is a step of the abstract machine, and the event tells which order the step is
about.
-/
namespace ForestPanel

open Relational Outcome Transition

def life (o : OrderRecord) : Life.Order Int Int Int Int where
  id := o.id
  user := o.userID
  status := o.status
  part := balancePart o
  credit := completionCredit o
  coupon := o.couponID
  uses := surplusIDs o

def Db.charged (db : Db) (userID orderID : Int) : Int :=
  -booked Movement.balance .balancePart userID orderID db.ledger

def Db.credited (db : Db) (userID orderID : Int) : Int :=
  booked Movement.balance .completion userID orderID db.ledger

def Db.limitUse (db : Db) (couponID : Int) : Option Int :=
  (db.coupons.find? couponID).bind CouponRecord.limitUse

def Db.limitUseWithUser (db : Db) (couponID : Int) : Option Int :=
  (db.coupons.find? couponID).bind CouponRecord.limitUseWithUser

def Db.book (db : Db) : Life.Book Int Int Int Int where
  orders := db.orders.project life fun _ => rfl
  left := db.limitUse
  charged := db.charged
  credited := db.credited

@[simp] theorem rows_book (db : Db) : db.book.orders.rows = db.orders.rows.map life := rfl

theorem mem_book (db : Db) (r : Life.Order Int Int Int Int) :
    r ∈ db.book.orders ↔ ∃ o ∈ db.orders, life o = r :=
  Table.mem_project db.orders life (fun _ => rfl) r

theorem life_of_terms {o r : OrderRecord} (terms : r.terms = o.terms) :
    life r = (life o).withStatus r.status := by
  have id : r.id = o.id := congrArg OrderTerms.id terms
  have user : r.userID = o.userID := congrArg OrderTerms.userID terms
  have coupon : r.couponID = o.couponID := congrArg OrderTerms.couponID terms
  have type : r.type = o.type := congrArg OrderTerms.type terms
  have total : r.totalAmount = o.totalAmount := congrArg OrderTerms.totalAmount terms
  have refund : r.refundAmount = o.refundAmount := congrArg OrderTerms.refundAmount terms
  have balance : r.balanceAmount = o.balanceAmount := congrArg OrderTerms.balanceAmount terms
  have surplus : r.surplusOrderIDs = o.surplusOrderIDs :=
    congrArg OrderTerms.surplusOrderIDs terms
  simp only [life, Life.Order.withStatus, balancePart, completionCredit, surplusIDs, id, user,
    coupon, type, total, refund, balance, surplus]

variable {f : OrderRecord → OrderRecord} {moves : List Movement} {i : Input}

/-- A transaction that updates order rows is an abstract event when it moves the
statuses and the money as the event says. -/
theorem step_of_rows {db db' : Db} {e : Life.Event Int Int Int Int}
    (enabled : e.Enabled db.limitUseWithUser db.book) (unsaved : e.saved = [])
    (left : ∀ before k, e.left before k = before k) (rows : db'.orders.rows = db.orders.rows.map f)
    (after : ∀ r ∈ db.orders, (f r).terms = r.terms ∧ (f r).status = e.after (life r))
    (coupons : db'.coupons = db.coupons) (ledger : db'.ledger = db.ledger ++ moves)
    (charge : ∀ u i, -booked Movement.balance .balancePart u i moves = e.charge u i)
    (credit : ∀ u i, booked Movement.balance .completion u i moves = e.credit u i) :
    Life.Step db.limitUseWithUser db.book e db'.book := by
  refine ⟨enabled, ?_, ?_, ?_, ?_⟩
  · simp only [rows_book, rows, List.map_map, unsaved, List.append_nil]
    apply List.map_congr_left
    intro r member
    obtain ⟨terms, status⟩ := after r member
    simp only [Function.comp_apply, life_of_terms terms, status]
  · intro k
    simp only [left, Db.book, Db.limitUse, coupons]
  · intro u i
    simp only [Db.book, Db.charged, ledger, booked_append, neg_add, charge]
  · intro u i
    simp only [Db.book, Db.credited, ledger, booked_append, credit]

private theorem booked_of_commission (commission : ∀ m ∈ moves, m.reason = .commission)
    (reason : Reason) (other : reason ≠ .commission) (u i : Int) :
    booked Movement.balance reason u i moves = 0 :=
  booked_eq_zero _ _ _ _ fun m member _ same => other (same.symm.trans (commission m member))

theorem idle_of_rows {db db' : Db} (rows : db'.orders.rows = db.orders.rows.map f)
    (after : ∀ r ∈ db.orders, (f r).terms = r.terms ∧ (f r).status = r.status)
    (coupons : db'.coupons = db.coupons) (ledger : db'.ledger = db.ledger ++ moves)
    (commission : ∀ m ∈ moves, m.reason = .commission) :
    Life.Step db.limitUseWithUser db.book .idle db'.book := by
  have none := booked_of_commission commission
  refine step_of_rows trivial rfl (fun _ _ => rfl) rows after coupons ledger ?_ ?_
  · intro u i
    rw [none _ (by decide) u i]
    rfl
  · exact fun u i => none _ (by decide) u i

theorem idle_of_unmoved {db db' : Db} (rows : db'.orders.rows = db.orders.rows.map f)
    (after : ∀ r ∈ db.orders, (f r).terms = r.terms ∧ (f r).status = r.status)
    (coupons : db'.coupons = db.coupons) (ledger : db'.ledger = db.ledger) :
    Life.Step db.limitUseWithUser db.book .idle db'.book := by
  have grown : db'.ledger = db.ledger ++ [] := by rw [ledger, List.append_nil]
  exact idle_of_rows rows after coupons grown (by simp)

/-- What the simulation needs of the database besides the book. -/
structure Tidy (db : Db) : Prop where
  ids : ∀ o ∈ db.orders, o.id ≤ db.orderSeq
  booked : ∀ m ∈ db.ledger, m.orderID ≤ db.orderSeq
  deposits : ∀ o ∈ db.orders, o.type = .deposit → surplusIDs o = []
  amounts : ∀ o ∈ db.orders, 0 ≤ o.balanceAmount.getD 0 ∧ 0 ≤ o.refundAmount.getD 0

/-- The order an event is about, and how the step came to it. -/
inductive About (s : Sys) (i : Input) : Life.Event Int Int Int Int → Prop
  | idle : About s i .idle
  | save (row : OrderRecord) : About s i (.save (life row))
  | cancel (order : OrderRecord) : About s i (.cancel (life order))
  | open (order : OrderRecord) (opening : s.opening i = some order) : About s i (.open (life order))
  | refund (order : OrderRecord) (refunding : s.refunding i = some order) :
      About s i (.refund (life order))

theorem About.opening_eq {s : Sys} {o : Life.Order Int Int Int Int} (about : About s i (.open o)) :
    ∃ order, s.opening i = some order ∧ life order = o := by
  cases about with
  | «open» order opening => exact ⟨order, opening, rfl⟩

theorem About.refunding_eq {s : Sys} {o : Life.Order Int Int Int Int}
    (about : About s i (.refund o)) : ∃ order, s.refunding i = some order ∧ life order = o := by
  cases about with
  | refund order refunding => exact ⟨order, refunding, rfl⟩

/-! ### One kind of transaction at a time -/

section

variable {now : Int} {order : OrderRecord} {db db' : Db}

private theorem booked_own (order : OrderRecord) (reason : Reason) (amount : Int) (u i : Int) :
    booked Movement.balance reason u i [⟨order.userID, order.id, reason, amount, 0⟩] =
      Life.Event.amount (life order) amount u i := by
  rw [booked_singleton]
  exact if_congr (by simp [life, eq_comm]) rfl rfl

private theorem booked_other (order : OrderRecord) {reason reason' : Reason}
    (other : reason' ≠ reason) (amount : Int) (u i : Int) :
    booked Movement.balance reason u i [⟨order.userID, order.id, reason', amount, 0⟩] = 0 := by
  simp [other]

private theorem neg_amount (o : Life.Order Int Int Int Int) (m u i : Int) :
    -Life.Event.amount o m u i = Life.Event.amount o (-m) u i := by
  unfold Life.Event.amount
  split <;> simp

private theorem amount_zero (o : Life.Order Int Int Int Int) (u i : Int) :
    Life.Event.amount o (0 : Int) u i = 0 := by
  simp [Life.Event.amount]

theorem Cancelled.event (h : Cancelled now order db db') (member : order ∈ db.orders)
    (unfinished : order.status = .pending ∨ order.status = .processing) :
    Life.Step db.limitUseWithUser db.book (.cancel (life order)) db'.book := by
  have coupons : db'.coupons = db.coupons := by rw [h.frame]
  refine step_of_rows ⟨(mem_book ..).mpr ⟨order, member, rfl⟩, unfinished⟩ rfl (fun _ _ => rfl)
    h.orders ?_ coupons h.moves.ledger ?_ ?_
  · exact fun r _ => ⟨cancelledRow_terms now order r, cancelledRow_status now order r⟩
  · intro u i
    rw [booked_own, neg_amount]
    rfl
  · exact fun u i => booked_other order (by decide) _ u i

private theorem status_opened (tidy : Tidy db) (member : order ∈ db.orders) (r : OrderRecord) :
    (if r.id = order.id then .completed
      else if order.type ≠ .deposit ∧ r.id ∈ surplusIDs order then .closed else r.status) =
      (Life.Event.open (life order)).after (life r) := by
  have listed : (order.type ≠ .deposit ∧ r.id ∈ surplusIDs order) ↔ r.id ∈ surplusIDs order := by
    refine ⟨And.right, fun used => ⟨fun deposit => ?_, used⟩⟩
    rw [tidy.deposits order member deposit] at used
    cases used
  simp only [listed]
  rfl

theorem Opened.event (h : Opened now order db db') (tidy : Tidy db) (member : order ∈ db.orders)
    (paid : order.status = .processing) :
    Life.Step db.limitUseWithUser db.book (.open (life order)) db'.book := by
  have coupons : db'.coupons = db.coupons := by rw [h.frame]
  refine step_of_rows ⟨(mem_book ..).mpr ⟨order, member, rfl⟩, Or.inr (Or.inl paid)⟩ rfl
    (fun _ _ => rfl) h.orders ?_ coupons h.moves.ledger ?_ ?_
  · intro r _
    exact ⟨openedRow_terms now order r,
      (openedRow_status now order r).trans (status_opened tidy member r)⟩
  · intro u i
    rw [booked_other order (by decide)]
    simp [Life.Event.charge, life, paid, amount_zero]
  · exact fun u i => booked_own order _ _ u i

theorem Settled.event {c : OrderPaymentConfirmation} {tradeNo callbackNo : String}
    {confirmed : OrderRecord} (h : Settled now c tradeNo callbackNo order confirmed db db')
    (tidy : Tidy db) (member : order ∈ db.orders) :
    Life.Step db.limitUseWithUser db.book (.open (life order)) db'.book := by
  have coupons : db'.coupons = db.coupons := by rw [h.frame]
  have terms := (confirmedOrder_terms h.confirmation).1
  have unopened : order.status = .pending ∨ order.status = .processing ∨
      order.status = .cancelled := by
    rcases h.unopened with pending | cancelled
    · exact Or.inl pending
    · exact Or.inr (Or.inr cancelled)
  refine step_of_rows ⟨(mem_book ..).mpr ⟨order, member, rfl⟩, unopened⟩ rfl
    (fun _ _ => rfl) h.orders ?_ coupons h.moves.ledger ?_ ?_
  · intro r _
    have status := status_opened tidy member r
    have id : confirmed.id = order.id := congrArg OrderTerms.id terms
    have type : confirmed.type = order.type := congrArg OrderTerms.type terms
    have listed : surplusIDs confirmed = surplusIDs order :=
      congrArg (fun t => t.surplusOrderIDs.getD []) terms
    rw [← id, ← type, ← listed] at status
    exact ⟨settledRow_terms now callbackNo confirmed r,
      (settledRow_status now callbackNo confirmed r).trans status⟩
  · intro u i
    rw [settledMoves, booked_append, booked_other order (by decide), add_zero]
    by_cases cancelled : order.status = .cancelled
    · rw [if_pos cancelled, booked_own, neg_amount, neg_neg]
      simp [Life.Event.charge, life, cancelled]
    · simp [Life.Event.charge, life, cancelled, amount_zero]
  · intro u i
    rw [settledMoves, booked_append, booked_own]
    split
    · rw [booked_other order (by decide), zero_add]
      rfl
    · exact zero_add _

theorem Refunded.event (h : Refunded now order db db') (member : order ∈ db.orders) :
    Life.Step db.limitUseWithUser db.book (.refund (life order)) db'.book := by
  have coupons : db'.coupons = db.coupons := by rw [h.frame]
  have none := booked_of_commission (refundMoves_commission db order)
  refine step_of_rows ⟨(mem_book ..).mpr ⟨order, member, rfl⟩, h.completed⟩ rfl
    (fun _ _ => rfl) h.orders ?_ coupons h.ledger ?_ ?_
  · exact fun r _ => ⟨refundedRow_terms now order r, refundedRow_status now order r⟩
  · intro u i
    rw [none _ (by decide)]
    rfl
  · exact fun u i => none _ (by decide) u i

/-! ### Saving -/

variable {row : OrderRecord}

private theorem find?_coupons {userID : Int} {couponID? : Option Int}
    (used : CouponUsed db db' userID couponID?) (k : Int) :
    db'.coupons.find? k = (db.coupons.find? k).map fun c =>
      if couponID? = some k then { c with limitUse := c.limitUse.map (· - 1) } else c := by
  cases couponID? with
  | none =>
    have same : db'.coupons = db.coupons := used
    rw [same]
    simp
  | some couponID =>
    obtain ⟨-, -, -, -, -, rows⟩ := used
    rw [Table.find?_of_rows_map rows fun c => by unfold usedCoupon; split <;> rfl]
    cases found : db.coupons.find? k with
    | none => rfl
    | some c =>
      have key : c.id = k := Table.key_of_find? found
      subst key
      simp [usedCoupon, eq_comm]

private theorem Saved.left (h : Saved row db db') (k : Int) :
    db'.limitUse k = (Life.Event.save (life row)).left db.limitUse k := by
  simp only [Db.limitUse, find?_coupons h.coupon k, Life.Event.left, life]
  by_cases carries : row.couponID = some k <;>
    cases db.coupons.find? k <;> simp [carries]

theorem limitUseWithUser_of_used {userID : Int} {couponID? : Option Int}
    (used : CouponUsed db db' userID couponID?) : db'.limitUseWithUser = db.limitUseWithUser := by
  funext k
  simp only [Db.limitUseWithUser, find?_coupons used k]
  cases db.coupons.find? k with
  | none => rfl
  | some c => simp only [Option.map_some, Option.bind_some]; split <;> rfl

private theorem Saved.coupon_found (h : Saved row db db') {k : Int} (carries : row.couponID = some k) :
    ∃ c, db.coupons.find? k = some c ∧ (∀ limit, c.limitUse = some limit → 0 < limit) ∧
      ∀ limit, c.limitUseWithUser = some limit → db.couponUsedCount k row.userID < limit := by
  have used := h.coupon
  rw [carries] at used
  obtain ⟨c, member, rfl, total, perUser, -⟩ := used
  exact ⟨c, db.coupons.find?_key member, total, perUser⟩

theorem couponUsedCount_book (db : Db) (couponID userID : Int) :
    db.book.count userID couponID Life.Order.paid = db.couponUsedCount couponID userID := by
  rw [Life.Book.count, rows_book, List.countP_map]
  rfl

private theorem Saved.savable (h : Saved row db db') (tidy : Tidy db) :
    Life.Savable db.limitUseWithUser db.book (life row) := by
  have unbooked : ∀ reason, booked Movement.balance reason row.userID row.id db.ledger = 0 := by
    intro reason
    refine booked_eq_zero _ _ _ _ fun m entry same => ?_
    have bound := tidy.booked m entry
    have id := h.id
    omega
  refine ⟨h.unpaid.1, ?_, ?_, ?_, ?_, ?_, ?_⟩
  · intro r member
    obtain ⟨o, stored, rfl⟩ := (mem_book ..).mp member
    exact (h.fresh o stored).1
  · exact ⟨neg_eq_zero.mpr (unbooked _), unbooked _⟩
  · intro r member user
    obtain ⟨o, stored, rfl⟩ := (mem_book ..).mp member
    have alone := h.alone
    simp only [Db.hasPendingOrder, List.any_eq_false] at alone
    have finished := alone o stored
    have same : o.userID = row.userID := user
    have both : o.status ≠ .pending ∧ o.status ≠ .processing := by simpa [same] using finished
    exact both
  · intro j listed
    obtain ⟨o, stored, rfl, user, completed⟩ := h.surplus j listed
    exact ⟨life o, (mem_book ..).mpr ⟨o, stored, rfl⟩, rfl, user, completed⟩
  · intro k limit carries limited
    obtain ⟨c, found, -, perUser⟩ := h.coupon_found carries
    rw [Db.limitUseWithUser, found] at limited
    rw [couponUsedCount_book]
    exact perUser limit limited
  · intro k l carries left
    obtain ⟨c, found, total, -⟩ := h.coupon_found carries
    have limit : c.limitUse = some l := by
      have column : db.limitUse k = some l := left
      rwa [Db.limitUse, found] at column
    exact total l limit

theorem Saved.event (h : Saved row db db') (tidy : Tidy db) :
    Life.Step db.limitUseWithUser db.book (.save (life row)) db'.book := by
  have part : balancePart row = row.balanceAmount.getD 0 := max_eq_left h.amounts.2.2
  refine ⟨h.savable tidy, ?_, h.left, ?_, ?_⟩
  · simp only [rows_book, h.orders, List.map_append, List.map_singleton, Life.Event.saved,
      List.map_map]
    rfl
  · intro u i
    have entry : -Life.Event.amount (life row) (-balancePart row) u i =
        Life.Event.amount (life row) (balancePart row) u i := by
      rw [neg_amount, neg_neg]
    simp only [Db.book, Db.charged, h.moves.ledger, booked_append, neg_add, ← part, booked_own,
      entry]
    rfl
  · intro u i
    have other : Reason.balancePart ≠ .completion := by decide
    simp only [Db.book, Db.credited, h.moves.ledger, booked_append, booked_other row other]
    rfl

end

/-! ### Every step -/

theorem Effect.event {s : Sys} {db' : Db} (effect : Effect s i db') (tidy : Tidy s.db) :
    ∃ e, About s i e ∧ Life.Step s.db.limitUseWithUser s.db.book e db'.book ∧
      db'.limitUseWithUser = s.db.limitUseWithUser := by
  have limits : ∀ {db' : Db}, db'.coupons = s.db.coupons →
      db'.limitUseWithUser = s.db.limitUseWithUser := by
    intro db' coupons
    funext k
    rw [Db.limitUseWithUser, Db.limitUseWithUser, coupons]
  cases effect with
  | unchanged =>
    exact ⟨.idle, .idle, idle_of_unmoved (List.map_id _).symm (fun _ _ => ⟨rfl, rfl⟩) rfl rfl, rfl⟩
  | saved row db' h =>
    exact ⟨_, .save row, h.event tidy, limitUseWithUser_of_used h.coupon⟩
  | cancelled order db' member unfinished h =>
    exact ⟨_, .cancel order, h.event member unfinished, limits (by rw [h.frame])⟩
  | opened order tradeNo db' member op named paid h =>
    exact ⟨_, .open order (opening_of_opened member op named paid), h.event tidy member paid,
      limits (by rw [h.frame])⟩
  | acknowledged order tradeNo c db' member confirmed named paid h =>
    obtain ⟨f, rows, same⟩ := h.orders member
    have frame := h.writes.2
    have standing : ∀ r ∈ s.db.orders, (f r).terms = r.terms ∧ (f r).status = r.status :=
      fun r stored => ⟨(same r stored).1, (same r stored).2.1⟩
    exact ⟨.idle, .idle, idle_of_unmoved rows standing (by rw [frame]) (by rw [frame]),
      limits (by rw [frame])⟩
  | settled order confirmed tradeNo c db' member confirmation named h =>
    exact ⟨_, .open order (opening_of_settled member confirmation named h), h.event tidy member,
      limits (by rw [h.frame])⟩
  | refunded order tradeNo db' member op named h =>
    exact ⟨_, .refund order (refunding_of_refunded member op named h), h.event member,
      limits (by rw [h.frame])⟩
  | commissionCleared order member deposit =>
    exact ⟨.idle, .idle, idle_of_unmoved (disableDepositCommission_rows s.db order i.now)
      (fun r _ => commissionClearedRow_standing i.now order r) rfl rfl, limits rfl⟩
  | commissionSettled order inviter tradeNo db' member op h =>
    exact ⟨.idle, .idle, idle_of_rows h.orders (fun r _ => commissionPaidRow_standing i.now order r)
      (by rw [h.frame]) h.moves.ledger (by simp), limits (by rw [h.frame])⟩
  | commissionEdited order target db' member unpaid orders frame =>
    exact ⟨.idle, .idle, idle_of_unmoved orders
      (fun r _ => commissionEditedRow_standing i.now order target r) (by rw [frame])
      (by rw [frame]), limits (by rw [frame])⟩
  | checkedOut db' h =>
    obtain ⟨⟨f, rows, same⟩, frame⟩ := h.only
    exact ⟨.idle, .idle, idle_of_unmoved rows (fun r _ => ⟨(same r).terms, (same r).status⟩)
      (by rw [frame]) (by rw [frame]), limits (by rw [frame])⟩
  | paymentsEdited payments =>
    exact ⟨.idle, .idle, idle_of_unmoved (List.map_id _).symm (fun _ _ => ⟨rfl, rfl⟩) rfl rfl, rfl⟩

private theorem Tidy.saved {db db' : Db} {row : OrderRecord} (tidy : Tidy db)
    (h : Saved row db db') : Tidy db' := by
  have seq : db'.orderSeq = db.orderSeq + 1 := by rw [h.frame]
  refine ⟨?_, ?_, ?_, ?_⟩
  · intro o member
    rw [seq]
    rw [Table.mem_def, h.orders, List.mem_append, List.mem_singleton] at member
    rcases member with old | rfl
    · have bound := tidy.ids o old
      omega
    · exact h.id.le
  · intro m entry
    rw [seq]
    rw [h.moves.ledger, List.mem_append, List.mem_singleton] at entry
    rcases entry with old | rfl
    · have bound := tidy.booked m old
      omega
    · exact h.id.le
  · intro o member deposit
    rw [Table.mem_def, h.orders, List.mem_append, List.mem_singleton] at member
    rcases member with old | rfl
    · exact tidy.deposits o old deposit
    · exact h.deposit deposit
  · intro o member
    rw [Table.mem_def, h.orders, List.mem_append, List.mem_singleton] at member
    rcases member with old | rfl
    · exact tidy.amounts o old
    · exact ⟨h.amounts.2.2, h.amounts.2.1⟩

private theorem Tidy.updated {db db' : Db} (tidy : Tidy db) (h : Updated db db') : Tidy db' := by
  obtain ⟨f, rows, terms⟩ := h.orders
  obtain ⟨moves, ledger, about⟩ := h.ledger
  refine ⟨?_, ?_, ?_, ?_⟩
  · intro o member
    obtain ⟨r, old, rfl⟩ := (Table.mem_of_rows_map rows o).mp member
    have id : (f r).id = r.id := congrArg OrderTerms.id (terms r old)
    rw [id, h.same.1]
    exact tidy.ids r old
  · intro m entry
    rw [h.same.1]
    rw [ledger, List.mem_append] at entry
    rcases entry with old | new
    · exact tidy.booked m old
    · obtain ⟨o, member, same⟩ := about m new
      exact same ▸ tidy.ids o member
  · intro o member deposit
    obtain ⟨r, old, rfl⟩ := (Table.mem_of_rows_map rows o).mp member
    have type : (f r).type = r.type := congrArg OrderTerms.type (terms r old)
    have listed : surplusIDs (f r) = surplusIDs r :=
      congrArg (fun t => t.surplusOrderIDs.getD []) (terms r old)
    rw [listed]
    exact tidy.deposits r old (type ▸ deposit)
  · intro o member
    obtain ⟨r, old, rfl⟩ := (Table.mem_of_rows_map rows o).mp member
    have balance : (f r).balanceAmount = r.balanceAmount :=
      congrArg OrderTerms.balanceAmount (terms r old)
    have refund : (f r).refundAmount = r.refundAmount :=
      congrArg OrderTerms.refundAmount (terms r old)
    rw [balance, refund]
    exact tidy.amounts r old

theorem Tidy.step {rt : Runtime} {s : Sys} (tidy : Tidy s.db) : Tidy (s.step rt i).db := by
  rcases (Sys.step_effect rt s i).saved_or_updated with ⟨row, saved⟩ | updated
  · exact tidy.saved saved
  · exact tidy.updated updated

theorem Db.Start.tidy {db : Db} (start : db.Start) : Tidy db := by
  refine ⟨start.ids, ?_, ?_, fun o member => (start.orders o member).amounts⟩
  · intro m entry
    rw [start.ledger, List.mem_map] at entry
    obtain ⟨o, member, rfl⟩ := entry
    exact start.ids o member
  · intro o member _
    simp [surplusIDs, (start.orders o member).plain.1]

section

variable {rt : Runtime} {G : Sys → Input → Prop} {limits : Int → Option Int}
  (J : Life.Book Int Int Int Int → Prop)
  (Allowed : Life.Book Int Int Int Int → Life.Event Int Int Int Int → Prop)

/-- What the simulation keeps: nothing changes a coupon's limit for each user. -/
structure Followed (limits : Int → Option Int) (s : Sys) : Prop where
  tidy : Tidy s.db
  limits : s.db.limitUseWithUser = limits

theorem Sys.Start.followed {s : Sys} (start : s.Start) : Followed s.db.limitUseWithUser s :=
  ⟨start.1.tidy, rfl⟩

theorem Followed.step {s : Sys} (followed : Followed limits s) (i : Input) :
    Followed limits (s.step rt i) := by
  obtain ⟨-, -, -, same⟩ := (Sys.step_effect rt s i).event followed.tidy
  exact ⟨followed.tidy.step, same.trans followed.limits⟩

theorem Followed.run {s : Sys} (followed : Followed limits s) (inputs : List Input) :
    Followed limits (run (Sys.step rt) s inputs) :=
  run_invariant (fun _ i now _ => now.step i) s inputs followed (along_true s inputs)

variable (allowed : ∀ s i e, Followed limits s → G s i → About s i e → Allowed s.db.book e)

include allowed in
theorem book_simulates :
    Simulates (Sys.step rt) (fun s i => Followed limits s ∧ G s i) (fun s => s.db.book)
      (Life.Step limits) Allowed := by
  rintro s i ⟨followed, meets⟩
  obtain ⟨e, about, step, -⟩ := (Sys.step_effect rt s i).event followed.tidy
  exact ⟨e, allowed s i e followed meets about, followed.limits ▸ step⟩

variable (preserved : ∀ b e b', J b → Allowed b e → Life.Step limits b e b' → J b')
  (s : Sys) (inputs : List Input) (followed : Followed limits s) (initial : J s.db.book)
  (admissible : Along (Sys.step rt) G s inputs)

include allowed preserved followed initial admissible

/-- A law of the book holds wherever a run ends whose steps meet `G`, if `G` says
of the order a step is about what the law asks of its event. -/
theorem law_of_run : J (run (Sys.step rt) s inputs).db.book :=
  simulation_invariant (book_simulates Allowed allowed) preserved s inputs initial
    (along_invariant (fun _ i now _ => now.step i) s inputs followed admissible)

theorem law_along_run :
    Along (Sys.step rt) (fun t i => J t.db.book ∧ Followed limits t ∧ G t i) s inputs :=
  simulation_along (book_simulates Allowed allowed) preserved s inputs initial
    (along_invariant (fun _ i now _ => now.step i) s inputs followed admissible)

end

end ForestPanel
