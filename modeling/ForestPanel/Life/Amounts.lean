import ForestPanel.Life.Simulation

/-!
# What an order costs and credits

An order's balance part is taken while the order stands and given back when it
is cancelled; its credit is given while it is live. The code keeps this until it
refunds an order that has either amount: the refund sets the status of a
cancelled order and leaves the money where it is.
-/
namespace ForestPanel

open Relational Transition

/-- The amounts taken and credited on account of the order are what its status
asks for. -/
def Reconciled (db : Db) (o : OrderRecord) : Prop :=
  db.charged o.userID o.id =
      (if o.status = .cancelled then 0 else o.balanceAmount.getD 0) ∧
    db.credited o.userID o.id =
      (if o.status = .completed ∨ o.status = .closed then
        if o.type = .deposit then o.totalAmount else o.refundAmount.getD 0
      else 0)

instance (db : Db) (o : OrderRecord) : Decidable (Reconciled db o) := by
  unfold Reconciled
  infer_instance

/-- No order with a balance part or a refund amount is refunded. -/
def RefundsWithoutMoney (s : Sys) (i : Input) : Prop :=
  ∀ order ∈ s.refunding i, order.balanceAmount.getD 0 ≤ 0 ∧ order.refundAmount.getD 0 ≤ 0

instance (s : Sys) (i : Input) : Decidable (RefundsWithoutMoney s i) := by
  unfold RefundsWithoutMoney
  infer_instance

theorem reconciled_of_balanced {db : Db} (tidy : Tidy db) (balanced : Life.Balanced db.book)
    {o : OrderRecord} (member : o ∈ db.orders) : Reconciled db o := by
  have amounts := tidy.amounts o member
  have charged := balanced.charged (life o) ((mem_book ..).mpr ⟨o, member, rfl⟩)
  have credited := balanced.credited (life o) ((mem_book ..).mpr ⟨o, member, rfl⟩)
  have part : balancePart o = o.balanceAmount.getD 0 := max_eq_left amounts.1
  have refund : max (o.refundAmount.getD 0) 0 = o.refundAmount.getD 0 := max_eq_left amounts.2
  refine ⟨?_, ?_⟩
  · rw [← part]
    exact charged
  · rw [← refund]
    exact credited

/-- The charge an order that an older runtime marked as paid comes with. -/
def legacyCharge (o : OrderRecord) : Movement := ⟨o.userID, o.id, .balancePart, -balancePart o, 0⟩

private theorem booked_legacyCharges (rows : List OrderRecord)
    (keyed : (rows.map OrderRecord.id).Nodup) (o : OrderRecord) (member : o ∈ rows) :
    booked Movement.balance .balancePart o.userID o.id (rows.map legacyCharge) = -balancePart o := by
  induction rows with
  | nil => cases member
  | cons r rest ih =>
    rw [List.map_cons, List.nodup_cons] at keyed
    have split : booked Movement.balance .balancePart o.userID o.id ((r :: rest).map legacyCharge) =
        booked Movement.balance .balancePart o.userID o.id [legacyCharge r] +
          booked Movement.balance .balancePart o.userID o.id (rest.map legacyCharge) :=
      booked_append _ _ _ _ [legacyCharge r] _
    rw [split]
    rcases List.mem_cons.mp member with rfl | later
    · have others : booked Movement.balance .balancePart o.userID o.id (rest.map legacyCharge) = 0 := by
        refine booked_eq_zero _ _ _ _ fun m entry same => ?_
        obtain ⟨t, stored, rfl⟩ := List.mem_map.mp entry
        exact absurd (List.mem_map.mpr ⟨t, stored, same⟩) keyed.1
      simp [others, legacyCharge]
    · have different : r.id ≠ o.id :=
        fun same => keyed.1 (List.mem_map.mpr ⟨o, later, same.symm⟩)
      simp [ih keyed.2 later, legacyCharge, different]

theorem Db.Start.balanced {db : Db} (start : db.Start) : Life.Balanced db.book := by
  refine ⟨?_, ?_, ?_⟩
  · intro r member
    obtain ⟨o, stored, rfl⟩ := (mem_book ..).mp member
    have charged : db.charged o.userID o.id = balancePart o := by
      rw [Db.charged, start.ledger]
      exact neg_eq_iff_eq_neg.mpr (booked_legacyCharges _ db.orders.keyed o stored)
    have waiting : (life o).status ≠ .cancelled := by
      simp [life, (start.orders o stored).status]
    rw [if_neg waiting]
    exact charged
  · intro r member
    obtain ⟨o, stored, rfl⟩ := (mem_book ..).mp member
    have uncredited : db.credited o.userID o.id = 0 := by
      rw [Db.credited, start.ledger]
      refine booked_eq_zero _ _ _ _ fun m entry _ => ?_
      obtain ⟨t, -, rfl⟩ := List.mem_map.mp entry
      simp
    have waiting : ¬Life.Live (life o).status := by
      simp [life, Life.Live, (start.orders o stored).status]
    rw [if_neg waiting]
    exact uncredited
  · intro r member i used
    obtain ⟨o, stored, rfl⟩ := (mem_book ..).mp member
    simp [life, surplusIDs, (start.orders o stored).plain.1] at used

private theorem free_of_refundsWithoutMoney {limits : Int → Option Int} (s : Sys) (i : Input)
    (e : Life.Event Int Int Int Int) (_ : Followed limits s) (meets : RefundsWithoutMoney s i)
    (about : About s i e) : e.Free := by
  cases about with
  | refund order refunding =>
    obtain ⟨balance, refund⟩ := meets order refunding
    refine ⟨max_eq_right balance, ?_⟩
    have target : order.type ≠ .deposit := (refunding_eq_some refunding).2.2.1.2.1
    exact (if_neg target).trans (max_eq_right refund)
  | _ => trivial

/-- As long as no order with money to it is refunded, every order's amounts
follow its status in every state, and the ledger explains every balance. -/
theorem reconciled_of_run (rt : Runtime) (s : Sys) (inputs : List Input) (start : s.Start)
    (refunds : Along (Sys.step rt) RefundsWithoutMoney s inputs) :
    (∀ o ∈ (run (Sys.step rt) s inputs).db.orders,
      Reconciled (run (Sys.step rt) s inputs).db o) ∧
    Along (Sys.step rt) (fun t i => Explained t i (t.step rt i).db) s inputs := by
  have balanced := law_of_run Life.Balanced (fun _ e => e.Free) free_of_refundsWithoutMoney
    (fun _ _ _ balanced free step => balanced.step step free)
    s inputs start.followed start.1.balanced refunds
  have tidy : Tidy (run (Sys.step rt) s inputs).db := (start.followed.run inputs).tidy
  refine ⟨fun o member => reconciled_of_balanced tidy balanced member, ?_⟩
  exact along_mono s inputs (fun t i _ => (Sys.step_effect rt t i).explained)
    (along_true s inputs)

def twoBuyers : Sys :=
  Small.sys ⟨[Small.buyer 1 2500, Small.buyer 2 0], by decide, by decide⟩
    ⟨[Small.plan 1 1000], Small.one_plan, Small.one_plan⟩ .empty

theorem twoBuyers_start : twoBuyers.Start :=
  Small.sys_start (by decide) fun _ member => (List.not_mem_nil member).elim

/-- A cancelled order is recovered, and an order without money to it is refunded. -/
def recoverAndRefund : List Input :=
  [Small.save 100 1 1 "T1", Small.input 200 (.cancelOrder 1 "T1"),
    Small.input 300 (.completeManually "T1"), Small.save 400 2 1 "T2",
    Small.input 500 (.completeManually "T2"), Small.input 600 (.refundManagedOrder "T2")]

theorem reconciled_of_recoverAndRefund :
    (∀ o ∈ (run (Sys.step Small.runtime) twoBuyers recoverAndRefund).db.orders,
      Reconciled (run (Sys.step Small.runtime) twoBuyers recoverAndRefund).db o) ∧
    Along (Sys.step Small.runtime) (fun t i => Explained t i (t.step Small.runtime i).db)
      twoBuyers recoverAndRefund :=
  reconciled_of_run Small.runtime twoBuyers recoverAndRefund twoBuyers_start (by decide)

/-- Saved with the whole price from the balance, completed by the administrator,
refunded, and completed once more. -/
def refundThenReopen : List Input :=
  [Small.save 100 1 1 "T1", Small.input 200 (.completeManually "T1"),
    Small.input 300 (.refundManagedOrder "T1"), Small.input 400 (.completeManually "T1")]

/-- The refund keeps the price, and the second completion takes it again. -/
theorem refund_keeps_balance_part :
    twoBuyers.Start ∧
    (∃ o ∈ (run (Sys.step Small.runtime) twoBuyers (refundThenReopen.take 3)).db.orders,
      o.status = .cancelled ∧ o.balanceAmount = some 1000 ∧
      (run (Sys.step Small.runtime) twoBuyers (refundThenReopen.take 3)).db.charged 1 1 = 1000 ∧
      ¬Reconciled (run (Sys.step Small.runtime) twoBuyers (refundThenReopen.take 3)).db o) ∧
    ∃ o ∈ (run (Sys.step Small.runtime) twoBuyers refundThenReopen).db.orders,
      o.status = .completed ∧ o.balanceAmount = some 1000 ∧
      (run (Sys.step Small.runtime) twoBuyers refundThenReopen).db.charged 1 1 = 2000 ∧
      ¬Reconciled (run (Sys.step Small.runtime) twoBuyers refundThenReopen).db o := by
  refine ⟨twoBuyers_start, ?_, ?_⟩ <;> decide

end ForestPanel
