import ForestPanel.Life.Simulation

/-!
# Surplus orders and the life cycle

A change of plan is paid in part by what is left of the buyer's older orders,
whose numbers are stored when the new order is saved and closed when it opens.
The closing update does not look at their status, so what happened to them in
between decides whether the life cycle and the single use of surplus hold.
-/
namespace ForestPanel

open Relational Transition

/-- No order is opened that lists one used up meanwhile, or one refunded
meanwhile that lists orders of its own. -/
def OpensUnspent (s : Sys) (i : Input) : Prop :=
  ∀ order ∈ s.opening i, ∀ r ∈ s.db.orders, r.id ∈ surplusIDs order →
    r.status ≠ .closed ∧ (r.status = .completed ∨ surplusIDs r = [])

instance (s : Sys) (i : Input) : Decidable (OpensUnspent s i) := by
  unfold OpensUnspent
  infer_instance

theorem Db.Start.exclusive {db : Db} (start : db.Start) : Life.Exclusive db.book := by
  have none : ∀ r ∈ db.book.orders, r.uses = [] ∧ ¬Life.Live r.status := by
    intro r member
    obtain ⟨o, stored, rfl⟩ := (mem_book ..).mp member
    have legacy := start.orders o stored
    exact ⟨by simp [life, surplusIDs, legacy.plain.1], by simp [life, Life.Live, legacy.status]⟩
  refine ⟨?_, ?_, ?_⟩
  · exact fun o member live => absurd live (none o member).2
  · exact fun o member _ _ live => absurd live (none o member).2
  · intro o member i used
    rw [(none o member).1] at used
    cases used

private theorem unspent_of_opensUnspent {limits : Int → Option Int} (s : Sys) (i : Input)
    (e : Life.Event Int Int Int Int) (_ : Followed limits s) (meets : OpensUnspent s i)
    (about : About s i e) : e.Unspent s.db.book := by
  cases about with
  | «open» order opening =>
    intro r member used
    obtain ⟨o, stored, rfl⟩ := (mem_book ..).mp member
    exact meets order opening o stored used
  | _ => trivial

theorem exclusive_of_run (rt : Runtime) (s : Sys) (inputs : List Input) (start : s.Start)
    (openings : Along (Sys.step rt) OpensUnspent s inputs) :
    Life.Exclusive (run (Sys.step rt) s inputs).db.book :=
  law_of_run Life.Exclusive (fun b e => e.Unspent b) unspent_of_opensUnspent
    (fun _ _ _ exclusive unspent step => exclusive.step step unspent)
    s inputs start.followed start.1.exclusive openings

/-- As long as every order opened lists what is still unspent, no two live orders
list the same one. -/
theorem surplus_used_once (rt : Runtime) (s : Sys) (inputs : List Input) (start : s.Start)
    (openings : Along (Sys.step rt) OpensUnspent s inputs) :
    ∀ o ∈ (run (Sys.step rt) s inputs).db.orders, ∀ o' ∈ (run (Sys.step rt) s inputs).db.orders,
      (o.status = .completed ∨ o.status = .closed) →
      (o'.status = .completed ∨ o'.status = .closed) → o.id ≠ o'.id →
      ∀ i ∈ surplusIDs o, i ∉ surplusIDs o' := by
  intro o member o' member' live live' different
  exact (exclusive_of_run rt s inputs start openings).disjoint (life o)
    ((mem_book ..).mpr ⟨o, member, rfl⟩) (life o') ((mem_book ..).mpr ⟨o', member', rfl⟩)
    live live' different

/-- No order is opened that lists one that is not completed any more. -/
def OpensCompleted (s : Sys) (i : Input) : Prop :=
  ∀ order ∈ s.opening i, ∀ r ∈ s.db.orders, r.id ∈ surplusIDs order → r.status = .completed

instance (s : Sys) (i : Input) : Decidable (OpensCompleted s i) := by
  unfold OpensCompleted
  infer_instance

theorem OpensCompleted.unspent {s : Sys} {i : Input} (h : OpensCompleted s i) :
    OpensUnspent s i := by
  intro order opening r member listed
  have completed := h order opening r member listed
  exact ⟨by simp [completed], Or.inl completed⟩

/-- The statuses a step may give an order, with what the step must be. -/
inductive LegalChange (s : Sys) (i : Input) (r : OrderRecord) : OrderStatus → Prop
  | kept : LegalChange s i r r.status
  | cancelled (unfinished : r.status = .pending ∨ r.status = .processing) :
      LegalChange s i r .cancelled
  | opened (unfinished : r.status = .pending ∨ r.status = .processing)
      (opening : s.opening i = some r) : LegalChange s i r .completed
  /-- Only a payment confirmation brings a cancelled or refunded order back. -/
  | recovered (cancelled : r.status = .cancelled) (tradeNo : String)
      (c : OrderPaymentConfirmation) (confirmation : s.confirmation i.op = some (tradeNo, c))
      (named : r.tradeNo = trimSpace tradeNo) : LegalChange s i r .completed
  | consumed (completed : r.status = .completed) (order : OrderRecord)
      (opening : s.opening i = some order) (listed : r.id ∈ surplusIDs order) :
      LegalChange s i r .closed
  | refunded (completed : r.status = .completed) (tradeNo : String)
      (op : i.op = .refundManagedOrder tradeNo) (named : r.tradeNo = trimSpace tradeNo) :
      LegalChange s i r .cancelled
  /-- The refunded order is the one live order that used `r` up. -/
  | restored (closed : r.status = .closed) (order : OrderRecord) (tradeNo : String)
      (op : i.op = .refundManagedOrder tradeNo) (named : order.tradeNo = trimSpace tradeNo)
      (listed : r.id ∈ surplusIDs order)
      (consumer : ∀ o ∈ s.db.orders, (o.status = .completed ∨ o.status = .closed) →
        r.id ∈ surplusIDs o → o = order) : LegalChange s i r .completed

/-- A step removes no order and changes the status of each legally. -/
def LegalStep (rt : Runtime) (s : Sys) (i : Input) : Prop :=
  ∀ r ∈ s.db.orders, ∃ r' ∈ (s.step rt i).db.orders, r'.id = r.id ∧ LegalChange s i r r'.status

theorem legalStep_of_opensCompleted {rt : Runtime} {s : Sys} {i : Input} (tidy : Tidy s.db)
    (exclusive : Life.Exclusive s.db.book) (completes : OpensCompleted s i) :
    LegalStep rt s i := by
  intro r member
  obtain ⟨e, about, step, -⟩ := (Sys.step_effect rt s i).event tidy
  have booked : life r ∈ s.db.book.orders := (mem_book ..).mpr ⟨r, member, rfl⟩
  obtain ⟨r', stored, same⟩ := (mem_book ..).mp (step.mem_of_mem booked)
  have id : r'.id = r.id := congrArg Life.Order.id same
  have status : r'.status = e.after (life r) := congrArg Life.Order.status same
  refine ⟨r', stored, id, ?_⟩
  rw [status]
  have change := e.change step.enabled booked
  generalize e.after (life r) = after, e.charge (life r).user (life r).id = charge,
    e.credit (life r).user (life r).id = credit at change
  cases change with
  | unchanged => exact .kept
  | cancelled unfinished => exact .cancelled unfinished
  | opened unopened =>
    obtain ⟨order, opening, same⟩ := about.opening_eq
    obtain ⟨found, how⟩ := opening_eq_some opening
    obtain rfl := s.db.orders.eq_of_key found member (congrArg Life.Order.id same)
    rcases how with ⟨pending | cancelled, tradeNo, c, confirmation, named⟩ | paid
    · exact .opened (Or.inl pending) opening
    · exact .recovered cancelled tradeNo c confirmation named
    · exact .opened (Or.inr paid) opening
  | closed o stored other used =>
    obtain ⟨order, opening, rfl⟩ := about.opening_eq
    exact .consumed (completes order opening r member used) order opening used
  | refunded completed =>
    obtain ⟨order, refunding, same⟩ := about.refunding_eq
    obtain ⟨found, -, -, tradeNo, op, named⟩ := refunding_eq_some refunding
    obtain rfl := s.db.orders.eq_of_key found member (congrArg Life.Order.id same)
    exact .refunded completed tradeNo op named
  | restored o stored completed other used closed =>
    obtain ⟨order, refunding, rfl⟩ := about.refunding_eq
    obtain ⟨found, -, -, tradeNo, op, named⟩ := refunding_eq_some refunding
    refine .restored closed order tradeNo op named used fun o' found' live listed => ?_
    by_contra different
    have ids : (life o').id ≠ (life order).id :=
      fun same => different (s.db.orders.eq_of_key found' found same)
    exact exclusive.disjoint (life o') ((mem_book ..).mpr ⟨o', found', rfl⟩) (life order) stored
      live (Or.inl completed) ids r.id listed used

/-- As long as every order opened lists completed orders only, every order stays
in the table and its status changes legally. -/
theorem legal_life_cycle (rt : Runtime) (s : Sys) (inputs : List Input) (start : s.Start)
    (openings : Along (Sys.step rt) OpensCompleted s inputs) :
    Along (Sys.step rt) (LegalStep rt) s inputs := by
  have along := law_along_run Life.Exclusive (fun b e => e.Unspent b)
    (fun t i e followed meets => unspent_of_opensUnspent t i e followed meets.unspent)
    (fun _ _ _ exclusive unspent step => exclusive.step step unspent)
    s inputs start.followed start.1.exclusive openings
  exact along_mono s inputs (fun t i ⟨exclusive, followed, completes⟩ =>
    legalStep_of_opensCompleted followed.tidy exclusive completes) along

/-- Two plans, and a buyer whose orders the administrator completes. -/
def twoPlans : Sys :=
  Small.sys ⟨[Small.buyer 1 0], Small.one_buyer, Small.one_buyer⟩
    ⟨[Small.plan 1 1000, Small.plan 2 3000], by decide, by decide⟩ .empty

theorem twoPlans_start : twoPlans.Start :=
  Small.sys_start (by decide) fun _ member => (List.not_mem_nil member).elim

/-- A completed order, a change of plan that lists it, and a refund of the change. -/
def changeAndRefund : List Input :=
  [Small.save 100 1 1 "T1", Small.input 200 (.completeManually "T1"), Small.save 300 1 2 "T2",
    Small.input 400 (.completeManually "T2"), Small.input 500 (.refundManagedOrder "T2")]

theorem surplus_used_once_by_change :
    ∃ o ∈ (run (Sys.step Small.runtime) twoPlans (changeAndRefund.take 4)).db.orders,
      ∃ o' ∈ (run (Sys.step Small.runtime) twoPlans (changeAndRefund.take 4)).db.orders,
      o.status = .closed ∧ o'.status = .completed ∧ o.id ≠ o'.id ∧ surplusIDs o' = [1] ∧
        ∀ i ∈ surplusIDs o, i ∉ surplusIDs o' := by
  obtain ⟨o, member, o', member', closed, completed, different, listed⟩ :
      ∃ o ∈ (run (Sys.step Small.runtime) twoPlans (changeAndRefund.take 4)).db.orders,
        ∃ o' ∈ (run (Sys.step Small.runtime) twoPlans (changeAndRefund.take 4)).db.orders,
        o.status = .closed ∧ o'.status = .completed ∧ o.id ≠ o'.id ∧ surplusIDs o' = [1] := by
    decide
  have disjoint := surplus_used_once Small.runtime twoPlans (changeAndRefund.take 4)
    twoPlans_start (by decide) o member o' member' (Or.inr closed) (Or.inl completed) different
  exact ⟨o, member, o', member', closed, completed, different, listed, disjoint⟩

theorem legal_change_and_refund :
    Along (Sys.step Small.runtime) (LegalStep Small.runtime) twoPlans changeAndRefund :=
  legal_life_cycle Small.runtime twoPlans changeAndRefund twoPlans_start (by decide)

/-- The buyer saves a change of plan, cancels it, saves it again and completes
it; then the cancelled one is completed too. -/
def changeTwice : List Input :=
  [Small.save 100 1 1 "T1", Small.input 200 (.completeManually "T1"), Small.save 300 1 2 "T2",
    Small.input 400 (.cancelOrder 1 "T2"), Small.save 500 1 2 "T3",
    Small.input 600 (.completeManually "T3"), Small.input 700 (.completeManually "T2")]

/-- Both changes of plan are completed, and both list the first order. -/
theorem surplus_used_twice :
    twoPlans.Start ∧
    ∃ o ∈ (run (Sys.step Small.runtime) twoPlans changeTwice).db.orders,
      ∃ o' ∈ (run (Sys.step Small.runtime) twoPlans changeTwice).db.orders,
      o.userID = o'.userID ∧ o.status = .completed ∧ o'.status = .completed ∧ o.id ≠ o'.id ∧
        surplusIDs o = [1] ∧ surplusIDs o' = [1] := by
  refine ⟨twoPlans_start, ?_⟩
  decide

/-- The buyer completes an order and saves a change of plan that lists it; the
first order is refunded, then the second is completed, then the second is
refunded. -/
def refundBeforeChange : List Input :=
  [Small.save 100 1 1 "T1", Small.input 200 (.completeManually "T1"), Small.save 300 1 2 "T2",
    Small.input 400 (.refundManagedOrder "T1"), Small.input 500 (.completeManually "T2"),
    Small.input 600 (.refundManagedOrder "T2")]

private theorem not_legalChange_closed {s : Sys} {i : Input} {r : OrderRecord}
    (cancelled : r.status = .cancelled) : ¬LegalChange s i r .closed := by
  intro change
  generalize after : OrderStatus.closed = status at change
  cases change with
  | kept => simp [cancelled] at after
  | consumed completed => simp [cancelled] at completed
  | _ => cases after

/-- Opening the second order closes the first, which is refunded, and refunding
the second completes the first again: nobody has paid for it. -/
theorem refunded_order_completed_again :
    twoPlans.Start ∧
    ¬Along (Sys.step Small.runtime) (LegalStep Small.runtime) twoPlans refundBeforeChange ∧
    ∃ r ∈ (run (Sys.step Small.runtime) twoPlans refundBeforeChange).db.orders,
      r.id = 1 ∧ r.status = .completed := by
  refine ⟨twoPlans_start, ?_, by decide⟩
  intro legal
  have split : refundBeforeChange = refundBeforeChange.take 4 ++ refundBeforeChange.drop 4 :=
    (List.take_append_drop 4 _).symm
  rw [split, along_append] at legal
  have before : ∃ r ∈ (run (Sys.step Small.runtime) twoPlans (refundBeforeChange.take 4)).db.orders,
      r.id = 1 ∧ r.status = .cancelled := by decide
  have after : ∀ r ∈ (run (Sys.step Small.runtime) twoPlans (refundBeforeChange.take 5)).db.orders,
      r.id = 1 → r.status = .closed := by decide
  obtain ⟨r, member, id, cancelled⟩ := before
  obtain ⟨r', member', same, change⟩ := legal.2.1 r member
  rw [after r' member' (same.trans id)] at change
  exact not_legalChange_closed cancelled change

end ForestPanel
