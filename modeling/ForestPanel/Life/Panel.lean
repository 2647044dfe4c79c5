import ForestPanel.Life.Amounts
import ForestPanel.Life.Commissions
import ForestPanel.Life.Surplus
import ForestPanel.Payment.Links

/-!
# What every run of the panel keeps

Two laws of the book hold of every run, whatever is refunded or recovered: a buyer who owes one
order has no other that is unfinished, and an order that counts as used up is carried by a live
order of its buyer. The panel follows the book, and never spends more than a wallet has.
-/
namespace ForestPanel

open Relational Transition

namespace Life

variable {ι υ κ M : Type} [DecidableEq ι] [DecidableEq υ] [DecidableEq κ] [AddGroup M]
  {perUser : κ → Option Int} {b b' : Book ι υ κ M} {e : Event ι υ κ M}

def Unfinished (status : OrderStatus) : Prop := status = .pending ∨ status = .processing

section

omit [DecidableEq ι] [DecidableEq υ] [DecidableEq κ]

variable {r : Order ι υ κ M} {status : OrderStatus} {charge credit : M}

private theorem unfinished_before (change : Change b r e status charge credit)
    (unfinished : Unfinished status) : status = r.status := by
  cases change with
  | unchanged => rfl
  | _ => rcases unfinished with now | now <;> cases now

private theorem live_or_refunded (live : Live r.status)
    (change : Change b r e status charge credit) : Live status ∨ e = .refund r := by
  cases change with
  | unchanged => exact Or.inl live
  | cancelled unfinished => rcases unfinished with now | now <;> simp [Live, now] at live
  | opened => exact Or.inl (Or.inl rfl)
  | closed => exact Or.inl (Or.inr rfl)
  | refunded => exact Or.inr rfl
  | restored => exact Or.inl (Or.inl rfl)

private theorem closed_before (change : Change b r e status charge credit)
    (closed : status = .closed) : (r.status = .closed ∧ e.Spares r) ∨
      ∃ o ∈ b.orders, e = .open o ∧ o.id ≠ r.id ∧ r.id ∈ o.uses := by
  cases change with
  | unchanged _ spared => exact Or.inl ⟨closed, spared⟩
  | closed o stored other used => exact Or.inr ⟨o, stored, rfl, other.symm, used⟩
  | _ => cases closed

end

/-- Who has an order to pay has no other unfinished order. -/
def OneUnfinished (b : Book ι υ κ M) : Prop :=
  ∀ r ∈ b.orders, ∀ o ∈ b.orders, r.user = o.user → r.status = .pending → Unfinished o.status →
    r = o

private theorem Step.unfinished (h : Step perUser b e b') {r : Order ι υ κ M}
    (member : r ∈ b'.orders) (unfinished : Unfinished r.status) : r ∈ b.orders ∨ e = .save r := by
  rcases h.mem_cases member with ⟨o, old, rfl⟩ | saved
  · have same : e.after o = o.status := unfinished_before (e.change h.enabled old) unfinished
    rw [same]
    exact Or.inl old
  · exact Or.inr saved

theorem OneUnfinished.step (one : OneUnfinished b) (h : Step perUser b e b') :
    OneUnfinished b' := by
  intro r member o member' user pending unfinished
  rcases h.unfinished member (Or.inl pending) with old | rfl
  · rcases h.unfinished member' unfinished with old' | rfl
    · exact one r old o old' user pending unfinished
    · exact absurd pending (h.enabled.alone r old user).1
  · rcases h.unfinished member' unfinished with old' | saved
    · exact absurd unfinished (not_or.mpr (h.enabled.alone o old' user.symm))
    · exact Event.save.inj saved

/-- What an order uses are orders of its buyer, and an order that is used up is carried by
another one, which is live. -/
structure Carried (b : Book ι υ κ M) : Prop where
  known : ∀ o ∈ b.orders, ∀ i ∈ o.uses, ∃ r ∈ b.orders, r.id = i ∧ r.user = o.user
  closed : ∀ r ∈ b.orders, r.status = .closed →
    ∃ o ∈ b.orders, o.id ≠ r.id ∧ r.id ∈ o.uses ∧ Live o.status

theorem Carried.step (carried : Carried b) (h : Step perUser b e b') : Carried b' := by
  constructor
  case known =>
    intro o member i used
    rcases h.mem_cases member with ⟨o, old, rfl⟩ | rfl
    · obtain ⟨r, found, same⟩ := carried.known o old i used
      exact ⟨_, h.mem_of_mem found, same⟩
    · obtain ⟨r, found, same, user, -⟩ := h.enabled.uses i used
      exact ⟨_, h.mem_of_mem found, same, user⟩
  case closed =>
    intro r member closed
    rcases h.mem_cases member with ⟨r, old, rfl⟩ | rfl
    · rcases closed_before (e.change h.enabled old) closed with
        ⟨before, spared⟩ | ⟨o, stored, rfl, other, used⟩
      · obtain ⟨o, stored, other, used, live⟩ := carried.closed r old before
        refine ⟨_, h.mem_of_mem stored, other, used, ?_⟩
        rcases live_or_refunded live (e.change h.enabled stored) with after | rfl
        · exact after
        · -- the refund of what carries `r` gives `r` back
          exact absurd ⟨before, used⟩ spared.2
      · exact ⟨_, h.mem_of_mem stored, other, used, Or.inl (if_pos rfl)⟩
    · rw [h.enabled.pending] at closed
      cases closed

end Life

section

variable {s : Sys}

theorem Sys.Start.oneUnfinished (start : s.Start) : Life.OneUnfinished s.db.book := by
  intro r member o _ _ pending
  obtain ⟨o, stored, rfl⟩ := (mem_book ..).mp member
  have paid := (start.1.orders o stored).status
  exact absurd (paid.symm.trans pending) (by decide)

theorem Sys.Start.carried (start : s.Start) : Life.Carried s.db.book := by
  constructor
  case known =>
    intro r member i used
    obtain ⟨o, stored, rfl⟩ := (mem_book ..).mp member
    simp [life, surplusIDs, (start.1.orders o stored).plain.1] at used
  case closed =>
    intro r member closed
    obtain ⟨o, stored, rfl⟩ := (mem_book ..).mp member
    have paid := (start.1.orders o stored).status
    exact absurd (paid.symm.trans closed) (by decide)

/-- A law that every step of the book keeps holds of the book in every reachable state. -/
theorem book_law {J : Life.Book Int Int Int Int → Prop}
    (kept : ∀ limits b e b', J b → Life.Step limits b e b' → J b') (rt : Runtime)
    (inputs : List Input) (start : s.Start) (initial : J s.db.book) :
    J (run (Sys.step rt) s inputs).db.book :=
  law_of_run J (fun _ _ => True) (fun _ _ _ _ _ _ => trivial)
    (fun _ _ _ before _ step => kept _ _ _ _ before step) s inputs start.followed initial
    (along_true s inputs)

end

/-- After a cancelled order was recovered, and another one refunded. -/
def recovered : Sys := run (Sys.step Small.runtime) twoBuyers recoverAndRefund

/-- After a change of plan was saved. -/
def changing : Sys := run (Sys.step Small.runtime) twoPlans (changeAndRefund.take 3)

/-- After that change was completed. -/
def changed : Sys := run (Sys.step Small.runtime) twoPlans (changeAndRefund.take 4)

/-- Every run of the panel is a run of the book, with an event for each request: the code opens,
cancels and refunds an order, and takes its money, only when the book allows it. -/
theorem panel_follows_book (rt : Runtime) (s : Sys) (inputs : List Input) (start : s.Start) :
    ∃ events : List (Life.Event Int Int Int Int), events.length = inputs.length ∧
      Path (Life.Step s.db.limitUseWithUser) s.db.book events
        (run (Sys.step rt) s inputs).db.book := by
  apply simulation_path (book_simulates (fun _ _ => True) fun _ _ _ _ _ _ => trivial) s inputs
  exact along_invariant (fun _ i now _ => now.step i) s inputs start.followed (along_true s inputs)

theorem panel_follows_book_recovering :
    ∃ events : List (Life.Event Int Int Int Int), events.length = recoverAndRefund.length ∧
      Path (Life.Step twoBuyers.db.limitUseWithUser) twoBuyers.db.book events
        recovered.db.book :=
  panel_follows_book Small.runtime twoBuyers recoverAndRefund twoBuyers_start

/-- In every reachable state a buyer with an order to pay has no other unfinished order. -/
theorem one_order_to_pay (rt : Runtime) (s : Sys) (inputs : List Input) (start : s.Start) :
    ∀ o ∈ (run (Sys.step rt) s inputs).db.orders, ∀ o' ∈ (run (Sys.step rt) s inputs).db.orders,
      o.userID = o'.userID → o.status = .pending →
        o'.status = .pending ∨ o'.status = .processing → o = o' := by
  intro o member o' member' user pending unfinished
  have one : Life.OneUnfinished (run (Sys.step rt) s inputs).db.book :=
    book_law (fun _ _ _ _ before step => before.step step) rt inputs start start.oneUnfinished
  have same := one (life o) ((mem_book ..).mpr ⟨o, member, rfl⟩) (life o')
    ((mem_book ..).mpr ⟨o', member', rfl⟩) user pending unfinished
  exact Table.eq_of_key _ member member' (congrArg Life.Order.id same)

theorem one_order_to_pay_changing :
    ∃ o ∈ changing.db.orders, o.status = .pending ∧
      ∀ o' ∈ changing.db.orders, o.userID = o'.userID →
        o'.status = .pending ∨ o'.status = .processing → o = o' := by
  obtain ⟨o, member, pending⟩ : ∃ o ∈ changing.db.orders, o.status = .pending := by decide
  refine ⟨o, member, pending, fun o' member' user unfinished => ?_⟩
  exact one_order_to_pay Small.runtime twoPlans (changeAndRefund.take 3) twoPlans_start
    o member o' member' user pending unfinished

/-- In every reachable state the orders that an order uses are stored orders of its buyer, and an
order that counts as used up is used by another order of its buyer that is live. -/
theorem used_orders_carried (rt : Runtime) (s : Sys) (inputs : List Input) (start : s.Start) :
    ∀ o ∈ (run (Sys.step rt) s inputs).db.orders,
      (∀ i ∈ surplusIDs o, ∃ r ∈ (run (Sys.step rt) s inputs).db.orders,
        r.id = i ∧ r.userID = o.userID) ∧
      (o.status = .closed → ∃ o' ∈ (run (Sys.step rt) s inputs).db.orders, o'.id ≠ o.id ∧
        o'.userID = o.userID ∧ o.id ∈ surplusIDs o' ∧
        (o'.status = .completed ∨ o'.status = .closed)) := by
  intro o member
  have carried : Life.Carried (run (Sys.step rt) s inputs).db.book :=
    book_law (fun _ _ _ _ before step => before.step step) rt inputs start start.carried
  have known : ∀ o ∈ (run (Sys.step rt) s inputs).db.orders, ∀ i ∈ surplusIDs o,
      ∃ r ∈ (run (Sys.step rt) s inputs).db.orders, r.id = i ∧ r.userID = o.userID := by
    intro o member i used
    obtain ⟨_, found, same, user⟩ :=
      carried.known (life o) ((mem_book ..).mpr ⟨o, member, rfl⟩) i used
    obtain ⟨r, stored, rfl⟩ := (mem_book ..).mp found
    exact ⟨r, stored, same, user⟩
  refine ⟨known o member, ?_⟩
  intro closed
  obtain ⟨_, found, other, used, live⟩ :=
    carried.closed (life o) ((mem_book ..).mpr ⟨o, member, rfl⟩) closed
  obtain ⟨o', stored, rfl⟩ := (mem_book ..).mp found
  obtain ⟨r, stored', same, user⟩ := known o' stored o.id used
  obtain rfl : r = o := Table.eq_of_key _ stored' member same
  exact ⟨o', stored, other, user.symm, used, live⟩

theorem used_orders_carried_changed :
    ∃ o ∈ changed.db.orders, o.status = .closed ∧
      ∃ o' ∈ changed.db.orders, o'.id ≠ o.id ∧ o'.userID = o.userID ∧ o.id ∈ surplusIDs o' ∧
        (o'.status = .completed ∨ o'.status = .closed) := by
  obtain ⟨o, member, closed⟩ : ∃ o ∈ changed.db.orders, o.status = .closed := by decide
  have ⟨_, carried⟩ := used_orders_carried Small.runtime twoPlans (changeAndRefund.take 4)
    twoPlans_start o member
  exact ⟨o, member, closed, carried closed⟩

/-- No wallet is ever overdrawn. -/
theorem wallets_never_overdrawn (rt : Runtime) (s : Sys) (inputs : List Input) (start : s.Start) :
    ∀ u ∈ (run (Sys.step rt) s inputs).db.users, 0 ≤ u.balance := by
  have reached : Conserved (run (Sys.step rt) s inputs) :=
    run_invariant (fun _ i now _ => now.step i) s inputs start.conserved (along_true s inputs)
  exact reached.solvent

theorem wallets_never_overdrawn_recovering :
    recovered.db.users.rows.map UserRecord.balance = [1500, 0] ∧
      ∀ u ∈ recovered.db.users, 0 ≤ u.balance :=
  ⟨by decide, wallets_never_overdrawn Small.runtime twoBuyers recoverAndRefund twoBuyers_start⟩

end ForestPanel
