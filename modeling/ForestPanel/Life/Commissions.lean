import ForestPanel.Life.Simulation

/-!
# Commissions

An order's commission is credited to its inviter once, and taken back by the
refund. The order's columns, the ledger and the commission log agree about it in
every state. The buyer's own row is read before the refund takes the commission
back and written after, so nothing is said of a buyer who is his own inviter.
-/
namespace ForestPanel

open Relational Transition

/-! ## What the state of a commission is -/

/-- The commission was credited and not taken back. Deposits only look paid. -/
def CreditedCommission (o : OrderRecord) : Prop :=
  o.commissionStatus = .paid ∧ o.type ≠ .deposit ∧ o.period ≠ .deposit

instance (o : OrderRecord) : Decidable (CreditedCommission o) := by
  unfold CreditedCommission
  infer_instance

/-- The net credit of a user's two wallets for the commission of an order. -/
def Db.commissioned (db : Db) (userID orderID : Int) : Int :=
  booked (fun m => m.balance + m.commissionBalance) .commission userID orderID db.ledger

/-- What the columns of an order whose commission is not credited may hold. -/
def NothingToRollBack (o : OrderRecord) : Prop :=
  o.actualCommissionBalance.getD 0 ≤ 0 ∧ (o.commissionStatus = .paid → o.commissionBalance ≤ 0)

/-- The columns of an order whose commission is credited. -/
structure RollsBack (db : Db) (o : OrderRecord) : Prop where
  positive : 0 < o.commissionBalance
  actual : o.actualCommissionBalance = some o.commissionBalance
  inviter : ∃ inviterID, o.inviteUserID = some inviterID ∧ (db.users.find? inviterID).isSome

theorem RollsBack.users {db db' : Db} {o : OrderRecord} (h : RollsBack db o)
    (users : ∀ id, (db'.users.find? id).isSome = (db.users.find? id).isSome) : RollsBack db' o := by
  obtain ⟨inviterID, invited, found⟩ := h.inviter
  exact { h with inviter := ⟨inviterID, invited, (users inviterID).trans found⟩ }

structure CommissionState (db : Db) (o : OrderRecord) : Prop where
  credited : CreditedCommission o → RollsBack db o
  uncredited : ¬CreditedCommission o → NothingToRollBack o
  net : ∀ userID, db.commissioned userID o.id =
    if CreditedCommission o ∧ o.inviteUserID = some userID then o.commissionBalance else 0
  logged : (∃ l ∈ db.commissionLogs, l.tradeNo = o.tradeNo) ↔ CreditedCommission o

structure Commissions (db : Db) : Prop where
  orders : ∀ o ∈ db.orders, CommissionState db o
  logs : ∀ l ∈ db.commissionLogs, ∃ o ∈ db.orders, o.tradeNo = l.tradeNo

/-! ## Transactions that leave commissions alone -/

/-- The two rows are of one order in one state of its commission. -/
def SameCommission (r r' : OrderRecord) : Prop :=
  (CreditedCommission r' ↔ CreditedCommission r) ∧
    (CreditedCommission r → r'.commissionBalance = r.commissionBalance ∧
      r'.actualCommissionBalance = r.actualCommissionBalance) ∧
    (¬CreditedCommission r → NothingToRollBack r → NothingToRollBack r')

variable {r r' : OrderRecord} {rt : Runtime} {s : Sys}

theorem SameCommission.of_columns (terms : r'.terms = r.terms)
    (status : r'.commissionStatus = r.commissionStatus)
    (balance : r'.commissionBalance = r.commissionBalance)
    (actual : r'.actualCommissionBalance = r.actualCommissionBalance) : SameCommission r r' := by
  have type : r'.type = r.type := congrArg OrderTerms.type terms
  have period : r'.period = r.period := congrArg OrderTerms.period terms
  simp only [SameCommission, CreditedCommission, NothingToRollBack, type, period, status, balance,
    actual]
  exact ⟨trivial, fun _ => ⟨trivial, trivial⟩, fun _ kept => kept⟩

theorem SameCommission.of_deposit (terms : r'.terms = r.terms)
    (deposit : r.type = .deposit ∨ r.period = .deposit) (balance : r'.commissionBalance = 0)
    (actual : r'.actualCommissionBalance = some 0) : SameCommission r r' := by
  have type : r'.type = r.type := congrArg OrderTerms.type terms
  have period : r'.period = r.period := congrArg OrderTerms.period terms
  have never : ¬CreditedCommission r := by
    rintro ⟨-, notType, notPeriod⟩
    exact deposit.elim notType notPeriod
  have never' : ¬CreditedCommission r' := by
    rintro ⟨-, notType, notPeriod⟩
    exact deposit.elim (type ▸ notType) (period ▸ notPeriod)
  refine ⟨iff_of_false never' never, fun credited => absurd credited never, fun _ _ => ?_⟩
  exact ⟨by simp [actual], fun _ => balance.le⟩

section

variable {db db' : Db} (users : ∀ id, (db'.users.find? id).isSome = (db.users.find? id).isSome)

include users

/-- The state of a commission carries over to a row in the same state, if neither
the log nor the ledger says anything new about the order. -/
theorem CommissionState.transfer (state : CommissionState db r) (terms : r'.terms = r.terms)
    (same : SameCommission r r') (logged : (∃ l ∈ db'.commissionLogs, l.tradeNo = r.tradeNo) ↔
      ∃ l ∈ db.commissionLogs, l.tradeNo = r.tradeNo)
    (net : ∀ userID, db'.commissioned userID r.id = db.commissioned userID r.id) :
    CommissionState db' r' := by
  obtain ⟨iff, columns, nothing⟩ := same
  have id : r'.id = r.id := congrArg OrderTerms.id terms
  have tradeNo : r'.tradeNo = r.tradeNo := congrArg OrderTerms.tradeNo terms
  have inviter : r'.inviteUserID = r.inviteUserID := congrArg OrderTerms.inviteUserID terms
  refine ⟨?_, ?_, ?_, ?_⟩
  · intro credited
    have before := (state.credited (iff.mp credited)).users users
    obtain ⟨balance, actual⟩ := columns (iff.mp credited)
    exact ⟨balance ▸ before.positive, by rw [actual, balance, before.actual],
      inviter ▸ before.inviter⟩
  · exact fun uncredited => nothing (mt iff.mpr uncredited) (state.uncredited (mt iff.mpr uncredited))
  · intro userID
    rw [id, net, state.net userID, inviter]
    by_cases credited : CreditedCommission r
    · simp only [credited, iff.mpr credited, (columns credited).1]
    · simp only [credited, mt iff.mp credited, false_and, if_false]
  · rw [tradeNo, logged, state.logged, iff]

/-- The commissions stand when every row keeps its state, the logs are the same
and no commission is booked. -/
theorem Commissions.kept {f : OrderRecord → OrderRecord} {moves : List Movement}
    (commissions : Commissions db) (rows : db'.orders.rows = db.orders.rows.map f)
    (terms : ∀ r ∈ db.orders, (f r).terms = r.terms)
    (same : ∀ r ∈ db.orders, SameCommission r (f r))
    (logs : db'.commissionLogs = db.commissionLogs) (ledger : db'.ledger = db.ledger ++ moves)
    (unbooked : ∀ m ∈ moves, m.reason ≠ .commission) : Commissions db' := by
  refine ⟨?_, ?_⟩
  · intro o member
    obtain ⟨r, old, rfl⟩ := (Table.mem_of_rows_map rows o).mp member
    refine (commissions.orders r old).transfer users (terms r old) (same r old) (by rw [logs]) ?_
    intro userID
    rw [Db.commissioned, ledger, booked_append,
      booked_eq_zero _ _ _ _ fun m entry _ => unbooked m entry, add_zero]
    rfl
  · intro l entry
    rw [logs] at entry
    obtain ⟨o, member, named⟩ := commissions.logs l entry
    exact ⟨f o, (Table.mem_of_rows_map rows _).mpr ⟨o, member, rfl⟩,
      (congrArg OrderTerms.tradeNo (terms o member)).trans named⟩

end

/-! ### The rows -/

private theorem openedRow_sameCommission (now : Int) (order r : OrderRecord)
    (type : r.id = order.id → r.type = order.type) :
    SameCommission r (openedRow now order r) := by
  have terms := openedRow_terms now order r
  by_cases deposit : r.id = order.id ∧ order.type = .deposit
  · refine .of_deposit terms (Or.inl ((type deposit.1).trans deposit.2)) ?_ ?_
    · simp [openedRow, deposit]
    · simp [openedRow, deposit]
  · refine .of_columns terms ?_ ?_ ?_
    all_goals
      unfold openedRow
      dsimp only
      split_ifs
      · exact absurd ⟨‹_›, ‹_›⟩ deposit
      all_goals rfl

private theorem settledRow_sameCommission (now : Int) (callbackNo : String)
    {confirmed : OrderRecord} (type : r.id = confirmed.id → r.type = confirmed.type) :
    SameCommission r (settledRow now callbackNo confirmed r) := by
  unfold settledRow
  split
  next same =>
    exact openedRow_sameCommission now (paidOrder now callbackNo confirmed)
      { r with paymentID := confirmed.paymentID, handlingAmount := confirmed.handlingAmount }
      fun _ => type same
  next other => exact openedRow_sameCommission now _ r fun same => absurd same other

private theorem cancelledRow_sameCommission (now : Int) (order r : OrderRecord) :
    SameCommission r (cancelledRow now order r) := by
  unfold cancelledRow
  split <;> exact .of_columns rfl rfl rfl rfl

private theorem clearedRow_sameCommission (now : Int) {order : OrderRecord}
    (deposit : r.id = order.id → r.type = .deposit ∨ r.period = .deposit) :
    SameCommission r (commissionClearedRow now order r) := by
  unfold commissionClearedRow
  split
  next same => exact .of_deposit rfl (deposit same) rfl rfl
  next => exact .of_columns rfl rfl rfl rfl

private theorem editedRow_sameCommission (now : Int) {order : OrderRecord}
    {target : CommissionStatus} (unpaid : target ≠ .paid)
    (current : r.id = order.id → r.commissionStatus ≠ .paid) :
    SameCommission r (commissionEditedRow now order target r) := by
  unfold commissionEditedRow
  split
  next same =>
    have never : ¬CreditedCommission r := fun credited => current same credited.1
    refine ⟨iff_of_false (fun credited => unpaid credited.1) never,
      fun credited => absurd credited never, fun _ nothing => ⟨nothing.1, ?_⟩⟩
    exact fun paid => absurd paid unpaid
  next => exact .of_columns rfl rfl rfl rfl

/-! ## The transactions on commissions -/

private theorem not_credited_of_due {cfg : Config} {now : Int} {order : OrderRecord}
    (due : commissionDue cfg now order) : ¬CreditedCommission order := by
  rintro ⟨paid, -⟩
  simp [commissionDue, paid] at due

section

variable {db db' : Db} {now : Int} {order : OrderRecord}

private theorem rolledBackInviter_of_credited (state : CommissionState db order)
    (credited : CreditedCommission order) :
    ∃ inviter, order.inviteUserID = some inviter.id ∧
      rolledBackInviter db order = some inviter ∧ db.users.find? inviter.id = some inviter ∧
      rollbackAmount order = order.commissionBalance := by
  obtain ⟨positive, actual, inviterID, invited, found⟩ := state.credited credited
  obtain ⟨inviter, row⟩ := Option.isSome_iff_exists.mp found
  have key : inviter.id = inviterID := Table.key_of_find? row
  subst key
  refine ⟨inviter, invited, ?_, row, ?_⟩
  · have paidOut : commissionPaidOut order := Or.inl credited.1
    simp [rolledBackInviter, invited, positive, paidOut, row]
  · simp [rollbackAmount, actual, positive]

private theorem refundMoves_of_uncredited (state : CommissionState db order)
    (uncredited : ¬CreditedCommission order) : refundMoves db order = [] := by
  obtain ⟨actual, paid⟩ := state.uncredited uncredited
  have nothing : ¬(0 < order.commissionBalance ∧ commissionPaidOut order) := by
    rintro ⟨positive, status | recorded⟩
    · exact absurd (paid status) (not_le.mpr positive)
    · exact absurd actual (not_le.mpr recorded)
  simp [refundMoves, rolledBackInviter, nothing]

private theorem commissioned_of_refunded (state : CommissionState db order)
    (h : Refunded now order db db') (userID orderID : Int) :
    db'.commissioned userID orderID = db.commissioned userID orderID -
      if CreditedCommission order ∧ order.inviteUserID = some userID ∧ order.id = orderID then
        order.commissionBalance
      else 0 := by
  rw [Db.commissioned, h.ledger, booked_append, sub_eq_add_neg]
  refine congrArg (db.commissioned userID orderID + ·) ?_
  by_cases credited : CreditedCommission order
  · obtain ⟨inviter, invited, rolled, -, amount⟩ := rolledBackInviter_of_credited state credited
    simp only [refundMoves, rolled, booked_singleton, amount, credited, invited, true_and, and_true,
      Option.some.injEq]
    split <;> omega
  · simp [refundMoves_of_uncredited state credited, credited]

private theorem logs_of_refunded (h : Refunded now order db db') {l : CommissionLog}
    (entry : l ∈ db'.commissionLogs) :
    l ∈ db.commissionLogs ∧ (deletesCommissionLog db order → l.tradeNo ≠ order.tradeNo) := by
  rw [h.commissionLogs] at entry
  split at entry
  next =>
    simp only [List.mem_filter, decide_eq_true_eq] at entry
    exact ⟨entry.1, fun _ => entry.2⟩
  next kept => exact ⟨entry, fun deletes => absurd deletes kept⟩

end

section

variable {db db' : Db} (users : ∀ id, (db'.users.find? id).isSome = (db.users.find? id).isSome)

include users

/-- A new order comes without a commission: its number and its trade number are
new to the ledger and to the log. -/
theorem Commissions.saved {row : OrderRecord} (commissions : Commissions db) (tidy : Tidy db)
    (h : Saved row db db') : Commissions db' := by
  have logs : db'.commissionLogs = db.commissionLogs := by rw [h.frame]
  have net : ∀ userID orderID, db'.commissioned userID orderID =
      db.commissioned userID orderID := by
    intro userID orderID
    simp [Db.commissioned, h.moves.ledger]
  have uncredited : ¬CreditedCommission row := by
    rintro ⟨paid, -⟩
    rw [h.unsettled.1] at paid
    cases paid
  refine ⟨?_, ?_⟩
  · intro o member
    rw [Table.mem_def, h.orders, List.mem_append, List.mem_singleton] at member
    rcases member with old | rfl
    · exact (commissions.orders o old).transfer users rfl (.of_columns rfl rfl rfl rfl)
        (by rw [logs]) fun userID => net userID o.id
    · refine ⟨fun credited => absurd credited uncredited, fun _ => ?_, ?_, ?_⟩
      · refine ⟨by simp [h.unsettled.2], fun paid => ?_⟩
        rw [h.unsettled.1] at paid
        cases paid
      · intro userID
        rw [net, Db.commissioned, if_neg fun both => uncredited both.1]
        refine booked_eq_zero _ _ _ _ fun m entry same => ?_
        have bound := tidy.booked m entry
        have id := h.id
        omega
      · refine iff_of_false ?_ uncredited
        rintro ⟨l, entry, named⟩
        rw [logs] at entry
        obtain ⟨o, member, same⟩ := commissions.logs l entry
        exact (h.fresh o member).2 (same.trans named)
  · intro l entry
    rw [logs] at entry
    obtain ⟨o, member, named⟩ := commissions.logs l entry
    refine ⟨o, ?_, named⟩
    rw [Table.mem_def, h.orders]
    exact List.mem_append_left _ member

variable {now : Int} {order : OrderRecord}

theorem Commissions.settled {cfg : Config} {inviter : UserRecord} (commissions : Commissions db)
    (member : order ∈ db.orders) (h : CommissionSettled cfg now order inviter db db') :
    Commissions db' := by
  have before := commissions.orders order member
  have uncredited := not_credited_of_due h.due
  have total := credited_total cfg inviter order.commissionBalance h.positive
  have net : ∀ userID orderID, db'.commissioned userID orderID =
      db.commissioned userID orderID +
        if inviter.id = userID ∧ order.id = orderID then order.commissionBalance else 0 := by
    intro userID orderID
    simp [Db.commissioned, h.moves.ledger, total]
  refine ⟨?_, ?_⟩
  · intro o stored
    obtain ⟨r, old, rfl⟩ := (Table.mem_of_rows_map h.orders o).mp stored
    by_cases same : r.id = order.id
    · obtain rfl := db.orders.eq_of_key old member same
      have credited : CreditedCommission (commissionPaidRow now r r) := by
        simp [CreditedCommission, commissionPaidRow, h.plan]
      have id : (commissionPaidRow now r r).id = r.id := by simp [commissionPaidRow]
      have columns : (commissionPaidRow now r r).commissionBalance = r.commissionBalance ∧
          (commissionPaidRow now r r).actualCommissionBalance = some r.commissionBalance ∧
          (commissionPaidRow now r r).inviteUserID = r.inviteUserID ∧
          (commissionPaidRow now r r).tradeNo = r.tradeNo := by simp [commissionPaidRow]
      refine ⟨fun _ => ⟨?_, ?_, inviter.id, ?_, ?_⟩, fun not => absurd credited not, ?_, ?_⟩
      · exact columns.1 ▸ h.positive
      · rw [columns.1, columns.2.1]
      · exact columns.2.2.1.trans h.invited
      · rw [users, h.found]
        rfl
      · intro userID
        rw [id, net, before.net, if_neg fun both => uncredited both.1, columns.1, columns.2.2.1,
          h.invited]
        simp [credited]
      · refine iff_of_true ⟨⟨inviter.id, r.userID, r.tradeNo, r.totalAmount, r.commissionBalance, now⟩,
          ?_, columns.2.2.2.symm⟩ credited
        rw [h.commissionLogs]
        exact List.mem_append_right _ (List.mem_singleton.mpr rfl)
    · have kept : commissionPaidRow now order r = r := if_neg same
      rw [kept]
      refine (commissions.orders r old).transfer users rfl (.of_columns rfl rfl rfl rfl) ?_ ?_
      · have other : order.tradeNo ≠ r.tradeNo :=
          fun named => same (congrArg OrderRecord.id (db.orders.eq_of_uniq old member named.symm))
        simp [h.commissionLogs, or_and_right, exists_or, other]
      · intro userID
        rw [net, if_neg fun both => same both.2.symm, add_zero]
  · intro l entry
    rw [h.commissionLogs, List.mem_append, List.mem_singleton] at entry
    have image : ∀ o ∈ db.orders, ∃ o' ∈ db'.orders, o'.tradeNo = o.tradeNo := by
      intro o stored
      exact ⟨_, (Table.mem_of_rows_map h.orders _).mpr ⟨o, stored, rfl⟩,
        congrArg OrderTerms.tradeNo (commissionPaidRow_standing now order o).1⟩
    rcases entry with old | rfl
    · obtain ⟨o, stored, named⟩ := commissions.logs l old
      obtain ⟨o', stored', same⟩ := image o stored
      exact ⟨o', stored', same.trans named⟩
    · exact image order member

theorem Commissions.refunded (commissions : Commissions db) (member : order ∈ db.orders)
    (h : Refunded now order db db') : Commissions db' := by
  have before := commissions.orders order member
  have net := commissioned_of_refunded before h
  have uncredited : ¬CreditedCommission (refundedRow now order order) := by
    simp [CreditedCommission, refundedRow]
  have terms := refundedRow_terms now order
  refine ⟨?_, ?_⟩
  · intro o stored
    obtain ⟨r, old, rfl⟩ := (Table.mem_of_rows_map h.orders o).mp stored
    by_cases same : r.id = order.id
    · obtain rfl := db.orders.eq_of_key old member same
      have id : (refundedRow now r r).id = r.id := congrArg OrderTerms.id (terms r)
      have tradeNo : (refundedRow now r r).tradeNo = r.tradeNo :=
        congrArg OrderTerms.tradeNo (terms r)
      refine ⟨fun credited => absurd credited uncredited, fun _ => ?_, ?_, ?_⟩
      · refine ⟨by simp [refundedRow], fun paid => ?_⟩
        simp [refundedRow] at paid
      · intro userID
        rw [id, net, before.net]
        simp [uncredited]
      · refine iff_of_false ?_ uncredited
        rintro ⟨l, entry, named⟩
        rw [tradeNo] at named
        have logged := logs_of_refunded h entry
        have credited := before.logged.mp ⟨l, logged.1, named⟩
        obtain ⟨inviter, invited, rolled, -, -⟩ := rolledBackInviter_of_credited before credited
        have deletes : deletesCommissionLog db r :=
          ⟨by simp [invited], (before.credited credited).positive, fun _ => by simp [rolled]⟩
        exact logged.2 deletes named
    · have kept : SameCommission r (refundedRow now order r) := by
        unfold refundedRow restoredRow
        split_ifs
        · exact .of_columns rfl rfl rfl rfl
        · exact .of_columns rfl rfl rfl rfl
      refine (commissions.orders r old).transfer users (terms r) kept ?_ ?_
      · have other : r.tradeNo ≠ order.tradeNo :=
          fun named => same (congrArg OrderRecord.id (db.orders.eq_of_uniq old member named))
        rw [h.commissionLogs]
        split
        · simp only [List.mem_filter, decide_eq_true_eq]
          constructor
          · rintro ⟨l, ⟨entry, -⟩, named⟩
            exact ⟨l, entry, named⟩
          · rintro ⟨l, entry, named⟩
            exact ⟨l, ⟨entry, named ▸ other⟩, named⟩
        · rfl
      · intro userID
        rw [net, if_neg fun both => same both.2.2.symm, sub_zero]
  · intro l entry
    obtain ⟨o, stored, named⟩ := commissions.logs l (logs_of_refunded h entry).1
    exact ⟨_, (Table.mem_of_rows_map h.orders _).mpr ⟨o, stored, rfl⟩,
      (congrArg OrderTerms.tradeNo (terms o)).trans named⟩

end

/-! ## Runs -/

theorem Commissions.step {i : Input} (commissions : Commissions s.db) (tidy : Tidy s.db) :
    Commissions (s.step rt i).db := by
  have effect := Sys.step_effect rt s i
  have users := effect.explained.isSome_find?
  generalize (s.step rt i).db = db' at effect users
  cases effect with
  | unchanged => exact commissions
  | saved row db' h => exact commissions.saved users tidy h
  | cancelled order db' member unfinished h =>
    exact commissions.kept users h.orders (fun r _ => cancelledRow_terms i.now order r)
      (fun r _ => cancelledRow_sameCommission i.now order r) (by rw [h.frame]) h.moves.ledger
      (by simp)
  | opened order tradeNo db' member op named paid h =>
    refine commissions.kept users h.orders (fun r _ => openedRow_terms i.now order r) ?_
      (by rw [h.frame]) h.moves.ledger (by simp)
    intro r stored
    exact openedRow_sameCommission i.now order r fun same =>
      congrArg OrderRecord.type (s.db.orders.eq_of_key stored member same)
  | acknowledged order tradeNo c db' member confirmed named paid h =>
    obtain ⟨f, rows, same⟩ := h.orders member
    have frame := h.writes.2
    have ledger : db'.ledger = s.db.ledger ++ [] := by rw [frame, List.append_nil]
    refine commissions.kept users rows (fun r stored => (same r stored).1) ?_ (by rw [frame]) ledger
      (by simp)
    intro r stored
    obtain ⟨terms, -, -, -, columns⟩ := same r stored
    exact .of_columns terms columns.1 columns.2.1 columns.2.2
  | settled order confirmed tradeNo c db' member confirmation named h =>
    have terms := (confirmedOrder_terms h.confirmation).1
    refine commissions.kept users h.orders (fun r _ => settledRow_terms i.now _ confirmed r) ?_
      (by rw [h.frame]) h.moves.ledger ?_
    · intro r stored
      refine settledRow_sameCommission i.now _ fun same => ?_
      obtain rfl := s.db.orders.eq_of_key stored member
        (same.trans (congrArg OrderTerms.id terms))
      exact (congrArg OrderTerms.type terms).symm
    · unfold settledMoves
      split <;> simp
  | refunded order tradeNo db' member op named h => exact commissions.refunded users member h
  | commissionCleared order member deposit =>
    have ledger : (s.db.disableDepositCommission order i.now).ledger = s.db.ledger ++ [] :=
      (List.append_nil _).symm
    refine commissions.kept users (disableDepositCommission_rows s.db order i.now)
      (fun r _ => (commissionClearedRow_standing i.now order r).1) ?_ rfl ledger (by simp)
    intro r stored
    refine clearedRow_sameCommission i.now fun same => ?_
    rwa [s.db.orders.eq_of_key stored member same]
  | commissionSettled order inviter tradeNo db' member op h =>
    exact commissions.settled users member h
  | commissionEdited order target db' member unpaid orders frame =>
    have ledger : db'.ledger = s.db.ledger ++ [] := by rw [frame, List.append_nil]
    refine commissions.kept users orders
      (fun r _ => (commissionEditedRow_standing i.now order target r).1) ?_ (by rw [frame]) ledger
      (by simp)
    intro r stored
    refine editedRow_sameCommission i.now unpaid.1 fun same => ?_
    rw [s.db.orders.eq_of_key stored member same]
    exact unpaid.2
  | checkedOut db' h =>
    obtain ⟨⟨f, rows, same⟩, frame⟩ := h.only
    have ledger : db'.ledger = s.db.ledger ++ [] := by rw [frame, List.append_nil]
    refine commissions.kept users rows (fun r _ => (same r).terms) ?_ (by rw [frame]) ledger
      (by simp)
    intro r _
    exact .of_columns (same r).terms (same r).commission.1 (same r).commission.2.1
      (same r).commission.2.2
  | paymentsEdited payments =>
    exact commissions.kept users (List.map_id _).symm (fun _ _ => rfl)
      (fun _ _ => .of_columns rfl rfl rfl rfl) rfl (List.append_nil _).symm (by simp)

theorem Db.Start.commissions {db : Db} (start : db.Start) : Commissions db := by
  have empty : ∀ l, l ∉ db.commissionLogs := by simp [start.commissionLogs]
  refine ⟨?_, fun l entry => absurd entry (empty l)⟩
  intro o member
  have legacy := start.orders o member
  have uncredited : ¬CreditedCommission o := fun credited => legacy.uncredited.1 credited.1
  refine ⟨fun credited => absurd credited uncredited, fun _ => ?_, ?_, ?_⟩
  · exact ⟨by simp [legacy.uncredited.2], fun paid => absurd paid legacy.uncredited.1⟩
  · intro userID
    rw [if_neg fun both => uncredited both.1, Db.commissioned, start.ledger]
    refine booked_eq_zero _ _ _ _ fun m entry _ => ?_
    obtain ⟨t, -, rfl⟩ := List.mem_map.mp entry
    simp
  · exact iff_of_false (fun ⟨l, entry, _⟩ => empty l entry) uncredited

/-- The inviter has been credited the commission once, net of what was taken
back, or not at all; the log says which, and nobody else was credited. -/
def CommissionLaw (db : Db) (o : OrderRecord) : Prop :=
  ∀ userID,
    (o.inviteUserID ≠ some userID → db.commissioned userID o.id = 0) ∧
    (o.inviteUserID = some userID →
      (db.commissioned userID o.id = 0 ∨
        0 < o.commissionBalance ∧ db.commissioned userID o.id = o.commissionBalance) ∧
      ((∃ l ∈ db.commissionLogs, l.tradeNo = o.tradeNo) ↔ db.commissioned userID o.id ≠ 0))

theorem CommissionState.law {db : Db} {o : OrderRecord} (state : CommissionState db o) :
    CommissionLaw db o := by
  intro userID
  have net := state.net userID
  refine ⟨fun other => ?_, fun invited => ?_⟩
  · rw [net, if_neg fun both => other both.2]
  · rw [state.logged, net]
    by_cases credited : CreditedCommission o
    · have positive := (state.credited credited).positive
      rw [if_pos ⟨credited, invited⟩]
      exact ⟨Or.inr ⟨positive, rfl⟩, iff_of_true credited positive.ne'⟩
    · rw [if_neg fun both => credited both.1]
      exact ⟨Or.inl rfl, iff_of_false credited fun not => not rfl⟩

/-- A refund takes from the inviter what the commission had credited, from both
wallets together; his balance stays above zero, and a debt is left in his
commission balance only when the balance is used up. -/
def RefundTakesCredit (rt : Runtime) (s : Sys) (i : Input) : Prop :=
  ∀ order ∈ s.refunding i,
    (∃ o ∈ (s.step rt i).db.orders, o.id = order.id ∧ o.status = .cancelled) →
    ∀ inviterID, order.inviteUserID = some inviterID → inviterID ≠ order.userID →
      ∀ u, s.db.users.find? inviterID = some u →
        ∃ u', (s.step rt i).db.users.find? inviterID = some u' ∧
          u'.balance + u'.commissionBalance =
            u.balance + u.commissionBalance - s.db.commissioned inviterID order.id ∧
          0 ≤ u'.balance ∧
          (u'.commissionBalance < 0 →
            u'.balance = 0 ∨ u'.commissionBalance = u.commissionBalance)

theorem debt_only_without_balance (inviter : UserRecord) (amount : Int)
    (solvent : 0 ≤ inviter.balance)
    (debt : inviter.commissionBalance - amount + recoveredFromBalance inviter amount < 0) :
    inviter.balance - recoveredFromBalance inviter amount = 0 := by
  unfold recoveredFromBalance at *
  split at debt
  next short =>
    rw [if_pos short]
    omega
  next enough =>
    rw [if_neg enough]
    omega

theorem Refunded.takesCredit {now : Int} {order : OrderRecord} {db db' : Db} {inviterID : Int}
    {u : UserRecord} (h : Refunded now order db db') (state : CommissionState db order)
    (solvent : Solvent db) (invited : order.inviteUserID = some inviterID)
    (other : inviterID ≠ order.userID) (found : db.users.find? inviterID = some u) :
    ∃ u', db'.users.find? inviterID = some u' ∧
      u'.balance + u'.commissionBalance =
        u.balance + u.commissionBalance - db.commissioned inviterID order.id ∧
      0 ≤ u'.balance ∧
      (u'.commissionBalance < 0 → u'.balance = 0 ∨ u'.commissionBalance = u.commissionBalance) := by
  have moved := (h.moves fun own => other (Option.some.inj (invited.symm.trans own))).users inviterID
  rw [found] at moved
  cases found' : db'.users.find? inviterID with
  | none => rw [found'] at moved; cases moved
  | some u' =>
    rw [found'] at moved
    simp only [Option.map_some, UserRecord.wallet, Option.some.injEq, Prod.mk.injEq] at moved
    obtain ⟨balance, commission⟩ := moved
    have enough : 0 ≤ u'.balance := h.solvent solvent u' (Table.mem_of_find? found')
    by_cases credited : CreditedCommission order
    · obtain ⟨inviter, invited', rolled, row, amount⟩ :=
        rolledBackInviter_of_credited state credited
      obtain rfl : inviter.id = inviterID := Option.some.inj (invited'.symm.trans invited)
      obtain rfl : inviter = u := Option.some.inj (row.symm.trans found)
      have net : db.commissioned inviter.id order.id = order.commissionBalance := by
        rw [state.net, if_pos ⟨credited, invited⟩]
      simp only [refundMoves, rolled, balanceMoved_singleton, commissionMoved_singleton, if_true,
        amount] at balance commission
      refine ⟨u', rfl, by omega, enough, fun debt => Or.inl ?_⟩
      have used := debt_only_without_balance inviter order.commissionBalance
        (solvent inviter (Table.mem_of_find? found)) (by omega)
      omega
    · have net : db.commissioned inviterID order.id = 0 := by
        rw [state.net, if_neg fun both => credited both.1]
      rw [refundMoves_of_uncredited state credited] at balance commission
      simp only [balanceMoved_nil, commissionMoved_nil, add_zero] at balance commission
      exact ⟨u', rfl, by omega, enough, fun _ => Or.inr commission⟩

theorem refundTakesCredit_of_commissions {i : Input} (commissions : Commissions s.db)
    (solvent : Solvent s.db) : RefundTakesCredit rt s i := by
  rintro order refunding ⟨o, member, same, cancelled⟩ inviterID invited other u found
  obtain ⟨stored, completed, -⟩ := refunding_eq_some refunding
  rcases Sys.step_of_refunding refunding with unchanged | h
  · rw [unchanged] at member
    rw [s.db.orders.eq_of_key member stored same, completed] at cancelled
    cases cancelled
  · exact h.takesCredit (commissions.orders order stored) solvent invited other found

structure Conserved (s : Sys) : Prop where
  commissions : Commissions s.db
  solvent : Solvent s.db
  tidy : Tidy s.db

theorem Conserved.step (conserved : Conserved s) (i : Input) :
    Conserved (s.step rt i) where
  commissions := conserved.commissions.step conserved.tidy
  solvent := (Sys.step_effect rt s i).solvent conserved.solvent
  tidy := conserved.tidy.step

theorem Sys.Start.conserved (start : s.Start) : Conserved s :=
  ⟨start.1.commissions, start.1.balances, start.1.tidy⟩

/-- For every order whose buyer is not his own inviter: the commission is
credited to the inviter once at most, net of refunds; the log has a row exactly
when it is; and a refund takes from the inviter exactly what was credited. -/
theorem commission_conserved (rt : Runtime) (s : Sys) (inputs : List Input) (start : s.Start) :
    (∀ o ∈ (run (Sys.step rt) s inputs).db.orders, o.inviteUserID ≠ some o.userID →
      CommissionLaw (run (Sys.step rt) s inputs).db o) ∧
    Along (Sys.step rt) (RefundTakesCredit rt) s inputs ∧
    Along (Sys.step rt) (fun t i => Explained t i (t.step rt i).db) s inputs := by
  have free : Along (Sys.step rt) (fun _ _ => True) s inputs := along_true s inputs
  have reached : Conserved (run (Sys.step rt) s inputs) :=
    run_invariant (fun _ i now _ => now.step i) s inputs start.conserved free
  have along : Along (Sys.step rt) (fun t _ => Conserved t ∧ True) s inputs :=
    along_invariant (fun _ i now _ => now.step i) s inputs start.conserved free
  refine ⟨fun o member _ => (reached.commissions.orders o member).law, ?_, ?_⟩
  · exact along_mono s inputs (fun _ _ now =>
      refundTakesCredit_of_commissions now.1.commissions now.1.solvent) along
  · exact along_mono s inputs (fun t i _ => (Sys.step_effect rt t i).explained) free

/-! ## Examples -/

/-- Buyer 1 was invited by 2; buyer 3 is recorded as his own inviter. -/
def invited : Sys :=
  Small.sys
    ⟨[{ Small.buyer 1 0 with inviteUserID := some 2 }, Small.buyer 2 0,
      { Small.buyer 3 0 with inviteUserID := some 3 }], by decide, by decide⟩
    ⟨[Small.plan 1 1000], Small.one_plan, Small.one_plan⟩ .empty

theorem invited_start : invited.Start :=
  Small.sys_start (by decide) fun _ member => (List.not_mem_nil member).elim

def settleToBalance (now : Int) (tradeNo : String) : Input :=
  ⟨now, { Small.config with withdrawCloseEnable := true }, .handleQueuedCommission tradeNo⟩

/-- The inviter spends the commission before the order is refunded. -/
def spendThenRefund : List Input :=
  [Small.save 100 1 1 "T1", Small.input 200 (.completeManually "T1"), settleToBalance 300 "T1",
    Small.save 400 2 1 "T2", Small.input 500 (.refundManagedOrder "T1")]

theorem commission_conserved_of_spendThenRefund :
    (∀ o ∈ (run (Sys.step Small.runtime) invited spendThenRefund).db.orders,
      o.inviteUserID ≠ some o.userID →
      CommissionLaw (run (Sys.step Small.runtime) invited spendThenRefund).db o) ∧
    Along (Sys.step Small.runtime) (RefundTakesCredit Small.runtime) invited spendThenRefund ∧
    Along (Sys.step Small.runtime) (fun t i => Explained t i (t.step Small.runtime i).db) invited
      spendThenRefund :=
  commission_conserved Small.runtime invited spendThenRefund invited_start

def refundOwnInviter : List Input :=
  [Small.save 100 3 1 "T1", Small.input 200 (.completeManually "T1"), settleToBalance 300 "T1",
    Small.input 400 (.refundManagedOrder "T1")]

def payAgainAfterRefund : List Input :=
  [Small.save 100 1 1 "T1", Small.input 200 (.completeManually "T1"), settleToBalance 300 "T1",
    Small.input 400 (.refundManagedOrder "T1"), Small.input 500 (.completeManually "T1"),
    Small.input 600 (.updateOrderCommissionStatus "T1" (some 1)), settleToBalance 700 "T1"]

/-- The refund leaves the inviter with a negative commission balance; the buyer
who invited himself keeps the commission of a refunded order, whose log is gone;
and an order paid again after its refund earns its commission a second time. -/
theorem commission_not_conserved :
    invited.Start ∧
    (∃ u ∈ (run (Sys.step Small.runtime) invited spendThenRefund).db.users,
      u.id = 2 ∧ u.balance = 0 ∧ u.commissionBalance = -100) ∧
    ((∃ o ∈ (run (Sys.step Small.runtime) invited refundOwnInviter).db.orders,
        o.id = 1 ∧ o.status = .cancelled) ∧
      (run (Sys.step Small.runtime) invited refundOwnInviter).db.commissionLogs = [] ∧
      ∃ u ∈ (run (Sys.step Small.runtime) invited refundOwnInviter).db.users,
        u.id = 3 ∧ u.balance = 100) ∧
    ((run (Sys.step Small.runtime) invited payAgainAfterRefund).db.ledger.countP fun m =>
      m.orderID = 1 && m.reason = .commission && 0 < m.balance) = 2 := by
  refine ⟨invited_start, ?_, ⟨?_, ?_, ?_⟩, ?_⟩ <;> decide

end ForestPanel
