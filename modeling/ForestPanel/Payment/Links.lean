import ForestPanel.Payment.Attempts

/-!
# Payment links

Every link a gateway was asked for has its attempt, whose charge no later step
changes. As long as the order is not paid or cancelled, a confirmation of that
charge opens it, whichever method the order has selected by then.
-/
namespace ForestPanel

open Relational Outcome Transition

/-- The link's order has an attempt with the link's method and amount. -/
def Db.Charges (db : Db) (l : Link) : Prop := ∃ o ∈ db.orders, o.tradeNo = l.tradeNo ∧
  ∃ a ∈ db.attempts, a.orderID = o.id ∧ a.paymentID = l.paymentID ∧ a.amount = l.amount

/-- Every link at a gateway, and every link a gateway is asked for, is charged. -/
structure Covered (s : Sys) : Prop where
  payable : Payable s.db
  links : ∀ l ∈ s.links, s.db.Charges l
  calls : ∀ call, .creating call ∈ s.inFlight → s.db.Charges call.link

variable {s : Sys} {i : Input} {rt : Runtime} {order : OrderRecord} {db : Db}

theorem Effect.terms {db' : Db} (effect : Effect s i db') {o : OrderRecord}
    (member : o ∈ s.db.orders) : ∃ o' ∈ db'.orders, o'.terms = o.terms := by
  rcases effect.saved_or_updated with ⟨row, saved⟩ | updated
  · refine ⟨o, ?_, rfl⟩
    rw [Table.mem_def, saved.orders]
    exact List.mem_append_left _ member
  · obtain ⟨f, rows, same⟩ := updated.orders
    exact ⟨f o, (Table.mem_of_rows_map rows _).mpr ⟨o, member, rfl⟩, same o member⟩

private theorem Db.Charges.step (i : Input) (payable : Payable s.db) {l : Link}
    (charges : s.db.Charges l) : (s.step rt i).db.Charges l := by
  obtain ⟨o, member, named, a, stored, own, method, amount⟩ := charges
  obtain ⟨o', member', terms⟩ := (Sys.step_effect rt s i).terms member
  obtain ⟨a', stored', charge⟩ := ((Sys.step_effect rt s i).payable payable).2 a stored
  have id : o'.id = o.id := congrArg OrderTerms.id terms
  have tradeNo : o'.tradeNo = o.tradeNo := congrArg OrderTerms.tradeNo terms
  simp only [OrderPaymentAttempt.charge, Charge.mk.injEq] at charge
  exact ⟨o', member', tradeNo.trans named, a', stored', by rw [charge.1, own, id],
    charge.2.1.trans method, charge.2.2.2.trans amount⟩

/-- From `s` to `t` no link was issued but that of a call in flight, and no call
started but by a checkout. -/
private structure Traffic (rt : Runtime) (i : Input) (s t : Sys) : Prop where
  links : ∀ l ∈ t.links, l ∈ s.links ∨ ∃ call, .creating call ∈ s.inFlight ∧ l = call.link
  calls : ∀ call, .creating call ∈ t.inFlight → .creating call ∈ s.inFlight ∨
    ∃ userID req claim, checkout rt i.cfg i.now userID req claim s.db = .ok (t.db, .creating call)

private theorem Traffic.idle {t : Sys} (links : t.links = s.links)
    (flights : t.inFlight = s.inFlight) : Traffic rt i s t := by
  constructor
  · intro l member
    exact Or.inl (links ▸ member)
  · intro call member
    exact Or.inl (flights ▸ member)

private theorem Traffic.withDb (s : Sys) (result : Except ServiceError Db) :
    Traffic rt i s (s.withDb result) := .idle rfl rfl

private theorem Traffic.set {t : Sys} {n : Nat} {flight : InFlight}
    (links : ∀ l ∈ t.links, l ∈ s.links ∨ ∃ call, .creating call ∈ s.inFlight ∧ l = call.link)
    (flights : t.inFlight = s.inFlight.set n flight) (later : ∀ call, flight ≠ .creating call) :
    Traffic rt i s t := by
  constructor
  · exact links
  · intro call member
    rw [flights] at member
    rcases List.mem_or_eq_of_mem_set member with old | new
    · exact Or.inl old
    · exact absurd new.symm (later call)

private theorem Traffic.withDb_done (s : Sys) (result : Except ServiceError Db) (n : Nat) :
    Traffic rt i s ((s.withDb result).setInFlight n .done) :=
  .set (fun _ member => Or.inl member) rfl fun _ => InFlight.noConfusion

private theorem Sys.continueCheckout_traffic (rt : Runtime) (s : Sys) (i : Input) (n : Nat)
    (flight : InFlight) (found : s.inFlight[n]? = some flight) :
    Traffic rt i s (s.continueCheckout rt i n flight) := by
  have known : ∀ l ∈ s.links, l ∈ s.links ∨ ∃ call, .creating call ∈ s.inFlight ∧ l = call.link :=
    fun l member => Or.inl member
  unfold continueCheckout
  split
  next tradeNo =>
    split
    · exact .withDb_done s _ n
    · exact .idle rfl rfl
  next call =>
    have issued : ∀ l ∈ s.links ++ [call.link],
        l ∈ s.links ∨ ∃ call, .creating call ∈ s.inFlight ∧ l = call.link := by
      intro l member
      rcases List.mem_append.mp member with old | new
      · exact Or.inl old
      · exact Or.inr ⟨call, List.mem_of_getElem? found, List.mem_singleton.mp new⟩
    split
    · exact ⟨issued, fun call member => Or.inl member⟩
    · exact .set known rfl fun _ => InFlight.noConfusion
    · unfold gatewayAnswered
      dsimp only
      split
      · exact .set issued rfl fun _ => InFlight.noConfusion
      · exact .set issued rfl fun _ => InFlight.noConfusion
    · exact .idle rfl rfl
  next call =>
    split
    · exact .idle rfl rfl
    · exact .set known rfl fun _ => InFlight.noConfusion
    · exact .idle rfl rfl
  next call encoded result =>
    split
    · exact .set known rfl fun _ => InFlight.noConfusion
    · exact .idle rfl rfl
  next => exact .idle rfl rfl

private theorem Sys.step_traffic (rt : Runtime) (s : Sys) (i : Input) :
    Traffic rt i s (s.step rt i) := by
  unfold step
  split
  next userID req tradeNo op => exact .withDb s _
  next userID tradeNo op => exact .withDb s _
  next tradeNo op => exact .withDb s _
  next tradeNo callbackNo paymentID amount op => exact .withDb s _
  next tradeNo op => exact .withDb s _
  next tradeNo op => exact .withDb s _
  next tradeNo op => exact .withDb s _
  next tradeNo commissionStatus op => exact .withDb s _
  next userID req claim op =>
    unfold beginCheckout
    split
    next => exact .idle rfl rfl
    next db' tradeNo returned =>
      constructor
      · exact fun l member => Or.inl member
      · intro call member
        rcases List.mem_append.mp member with old | new
        · exact Or.inl old
        · simp at new
    next db' call returned =>
      constructor
      · exact fun l member => Or.inl member
      · intro other member
        rcases List.mem_append.mp member with old | new
        · exact Or.inl old
        · obtain rfl := InFlight.creating.inj (List.mem_singleton.mp new)
          exact Or.inr ⟨userID, req, claim, returned⟩
    next db' result returned => exact .idle rfl rfl
  next payments op => exact .idle rfl rfl
  all_goals
    split
    next flight found => exact continueCheckout_traffic rt s i _ flight found
    next => exact .idle rfl rfl

theorem Covered.step (i : Input) (covered : Covered s) : Covered (s.step rt i) := by
  have traffic := Sys.step_traffic rt s i
  constructor
  · exact covered.payable.step i
  · intro l member
    rcases traffic.links l member with old | ⟨call, flying, rfl⟩
    · exact (covered.links l old).step i covered.payable
    · exact (covered.calls call flying).step i covered.payable
  · intro call member
    rcases traffic.calls call member with old | ⟨userID, req, claim, returned⟩
    · exact (covered.calls call old).step i covered.payable
    · obtain ⟨o, found, named, a, stored, own, method, amount⟩ :=
        (checkout_checkedOut returned).call call rfl
      obtain ⟨o', found', terms⟩ := (Sys.step_effect rt s i).terms found
      have id : o'.id = o.id := congrArg OrderTerms.id terms
      have tradeNo : o'.tradeNo = o.tradeNo := congrArg OrderTerms.tradeNo terms
      exact ⟨o', found', tradeNo.trans named, a, stored, own.trans id.symm, method, amount⟩

theorem Sys.Start.covered (start : s.Start) : Covered s := by
  obtain ⟨db, flights, links⟩ := start
  constructor
  · exact db.payable
  · intro l member
    rw [links] at member
    cases member
  · intro call member
    rw [flights] at member
    cases member

theorem Covered.run (inputs : List Input) (covered : Covered s) :
    Covered (run (Sys.step rt) s inputs) := by
  induction inputs generalizing s with
  | nil => exact covered
  | cons i rest ih => exact ih (covered.step i)

private theorem openOrder_ok {cfg : Config} {now : Int} (amounts : validOrderAmountState order)
    (user : (db.users.find? order.userID).isSome)
    (plan : order.type ≠ .deposit → ∃ p ∈ db.plans, p.id = order.planID) (solvent : Solvent db) :
    ∃ db', openOrder rt cfg now order db = .ok db' := by
  obtain ⟨u, found⟩ := Option.isSome_iff_exists.mp user
  have locked : db.lockUser order.userID =
      .ok { u with expiredAt := Db.normalizeNullableExpiry u.expiredAt } :=
    (Db.lockUser_eq_ok ..).mpr ⟨u, found, rfl⟩
  have nonneg := solvent u (Table.mem_of_find? found)
  by_cases deposit : order.type = .deposit
  · have enough : 0 ≤ u.balance + order.totalAmount := by
      have := amounts.1
      omega
    refine ⟨?credited, ?deposited⟩
    case deposited =>
      rw [openOrder, ensure_of _ amounts, bind_ok, locked, bind_ok, if_pos deposit,
        openDepositOrder, Db.updateUserBalance, ensure_of _ enough]
      exact rfl
  · obtain ⟨p, stored, key⟩ := plan deposit
    refine ⟨?opened, ?returned⟩
    case returned =>
      rw [openOrder, ensure_of _ amounts, bind_ok, locked, bind_ok, if_neg deposit, openPlanOrder,
        (db.plans.find?_eq_some _ _).mpr ⟨stored, key⟩]
      exact rfl

def UnusedCallback (db : Db) (paymentID : Int) (callbackNo : String) : Prop :=
  (∀ o ∈ db.orders, o.paymentID = some paymentID → o.callbackNo ≠ some callbackNo) ∧
    ∀ a ∈ db.attempts, a.paymentID = paymentID → a.callbackNo ≠ some callbackNo

instance (db : Db) (paymentID : Int) (callbackNo : String) :
    Decidable (UnusedCallback db paymentID callbackNo) := by
  unfold UnusedCallback
  infer_instance

theorem UnusedCallback.unclaimed {p : Int} {callbackNo : String}
    (unused : UnusedCallback db p callbackNo) (tradeNo : String) :
    lockPaymentCallback db tradeNo callbackNo (some p) = .ok () := by
  apply ensure_of
  simp only [callbackConflict, Bool.or_eq_false_iff, List.any_eq_false, Bool.and_eq_true,
    decide_eq_true_eq, not_and]
  constructor
  · exact fun o member used => absurd used.2 (unused.1 o member used.1)
  · exact fun a member used => absurd used.2 (unused.2 a member used.1)

theorem Payable.confirmed (payable : Payable db) (member : order ∈ db.orders)
    {a : OrderPaymentAttempt} (stored : a ∈ db.attempts) (own : a.orderID = order.id)
    (callbackNo : String) :
    db.lockOrderByTradeNo order.tradeNo = some order ∧
      (trimSpace order.tradeNo = order.tradeNo ∧ order.tradeNo ≠ "") ∧
      confirmationAttempt db order (gatewayConfirmation callbackNo a.paymentID a.amount) = some a ∧
      checkAttempt order (gatewayConfirmation callbackNo a.paymentID a.amount) (some a) = .ok () ∧
      validateOrderPaymentConfirmation (orderWithPaymentAttempt order a)
        (gatewayConfirmation callbackNo a.paymentID a.amount) = .ok () ∧
      validAttemptAmount order.totalAmount a.handlingAmount a.amount := by
  obtain ⟨positive, o, found, same, -, valid, -⟩ := payable.billed a stored
  obtain rfl := db.orders.eq_of_key found member (same.trans own)
  have rebound : validateOrderPaymentConfirmation (orderWithPaymentAttempt o a)
      (gatewayConfirmation callbackNo a.paymentID a.amount) = .ok () :=
    validate_orderWithPaymentAttempt rfl rfl rfl positive valid
  refine ⟨(Table.findUniq?_eq_some ..).mpr ⟨member, rfl⟩, named_of_attempt payable member stored own,
    (Table.findUniq?_eq_some ..).mpr ⟨stored, by rw [OrderPaymentAttempt.method, own]⟩, ?_, rebound,
    valid⟩
  rw [checkAttempt, validateOrderPaymentAttemptConfirmation, ensure_of _ ⟨own, rfl, rfl, valid.2.1⟩,
    bind_ok]
  exact rebound

theorem Payable.opens (payable : Payable db) (member : order ∈ db.orders)
    (pending : order.status = .pending) {a : OrderPaymentAttempt} (stored : a ∈ db.attempts)
    (own : a.orderID = order.id) (rt : Runtime) (cfg : Config) (now : Int) {callbackNo : String}
    (nonempty : trimSpace callbackNo ≠ "")
    (unused : UnusedCallback db a.paymentID (trimSpace callbackNo)) :
    ∃ db', markOrderPaid rt cfg now order.tradeNo
        (gatewayConfirmation callbackNo a.paymentID a.amount) db = .ok db' ∧
      ∃ o ∈ db'.orders, o.id = order.id ∧ o.status = .completed := by
  obtain ⟨locked, ⟨trimmed, named⟩, attempt, checked, rebound, valid⟩ :=
    payable.confirmed member stored own callbackNo
  obtain ⟨-, o, found, same, -, -, waits⟩ := payable.billed a stored
  obtain rfl := db.orders.eq_of_key found member (same.trans own)
  have waiting := waits pending
  obtain ⟨user, plan⟩ := payable.funded o member pending
  generalize confirmation : gatewayConfirmation callbackNo a.paymentID a.amount = c at *
  have payment : c.paymentID = some a.paymentID := confirmation ▸ rfl
  have amount : c.amount = some a.amount := confirmation ▸ rfl
  have answer : c.callbackNo = callbackNo := confirmation ▸ rfl
  -- the confirmation is for the selected method, or the order is rebound to the attempt
  obtain ⟨confirmed, accepted⟩ : ∃ confirmed, confirmedOrder o c (some a) = .ok confirmed := by
    unfold confirmedOrder
    split
    · exact ⟨o, rfl⟩
    · refine ⟨orderWithPaymentAttempt o a, ?_⟩
      simp [require, bind_ok, ensure_of _ waiting, rebound]
  have valid' := (confirmedOrder_cases accepted).1
  rw [validateOrderPaymentConfirmation_gateway payment, amount] at valid'
  obtain ⟨⟨amounts, -⟩, chosen, sum, -, -⟩ := valid'
  have sum := Option.some.inj sum
  have terms := (confirmedOrder_terms accepted).1
  have kind : confirmed.type = o.type := congrArg OrderTerms.type terms
  have buyer : confirmed.userID = o.userID := congrArg OrderTerms.userID terms
  have planID : confirmed.planID = o.planID := congrArg OrderTerms.planID terms
  obtain ⟨db₁, won⟩ : ∃ db₁, markOrderPaymentAttempt db a.id (trimSpace callbackNo) .winner now =
      .ok db₁ := ⟨_, markOrderPaymentAttempt_eq_ok.mpr ⟨⟨a, stored, rfl, waiting⟩, rfl⟩⟩
  have frame := markOrderPaymentAttempt_frame won
  have rebinding : ∃ db₂, (if ((some a).isSome && currentConfirmationFails o c) = true then
      db₁.updateOrderPayment confirmed now else db₁) = db₂ ∧ db₂.users = db.users ∧
      db₂.plans = db.plans := by
    refine ⟨_, rfl, ?_⟩
    split <;> (rw [frame]; exact ⟨rfl, rfl⟩)
  obtain ⟨db₂, rebound', users, plans⟩ := rebinding
  obtain ⟨db₃, opened⟩ : ∃ db₃, openOrder rt cfg now
      (paidOrder now (trimSpace callbackNo) confirmed) db₂ = .ok db₃ := by
    apply openOrder_ok
    · exact amounts
    · rw [users]
      exact buyer ▸ user
    · rw [plans]
      exact fun other => planID ▸ plan (kind ▸ other)
    · exact payable.solvent.congr users
  have returned : markOrderPaid rt cfg now o.tradeNo c db =
      .ok (db₃.deleteCancelRecovery o.tradeNo) := by
    have handling : confirmed.handlingAmount.getD 0 = a.amount - confirmed.totalAmount := by omega
    rw [markOrderPaid]
    dsimp only
    rw [answer, trimmed, ensure_of _ ⟨named, nonempty⟩, bind_ok, locked]
    simp only [require, bind_ok]
    rw [attempt, checked, bind_ok, pending]
    dsimp only
    rw [accepted, bind_ok, payment, unused.unclaimed, bind_ok, settleOrder,
      markWinningAttempt, ensure_of _ waiting, bind_ok, won, bind_ok,
      ensure_of _ (Or.inr ⟨chosen.trans payment.symm, by rw [amount]; exact handling⟩), bind_ok]
    dsimp only
    rw [rebound', opened]
    rfl
  refine ⟨_, returned, ?_⟩
  obtain ⟨o', member', named', ⟨paid, -⟩ | ⟨confirmed', settled⟩⟩ := markOrderPaid_cases returned
  · rw [trimmed] at named'
    obtain rfl := db.orders.eq_of_uniq member' member named'
    exact absurd pending paid
  · rw [trimmed] at named'
    obtain rfl := db.orders.eq_of_uniq member' member named'
    have id : confirmed'.id = o'.id :=
      congrArg OrderTerms.id (confirmedOrder_terms settled.confirmation).1
    refine ⟨_, (Table.mem_of_rows_map settled.orders _).mpr ⟨o', member, rfl⟩, ?_, ?_⟩
    · exact congrArg OrderTerms.id (settledRow_terms now _ confirmed' o')
    · rw [settledRow_status, if_pos id.symm]

/-- Every issued checkout stays payable: charges never change, every link has its
charge, and each charge of an order that still waits for payment opens it. -/
theorem issued_checkout_stays_payable (rt : Runtime) (s : Sys) (inputs later : List Input)
    (start : s.Start) :
    (∀ a ∈ (run (Sys.step rt) s inputs).db.attempts,
      ∃ a' ∈ (run (Sys.step rt) s (inputs ++ later)).db.attempts, a'.charge = a.charge) ∧
    (∀ l ∈ (run (Sys.step rt) s inputs).links, (run (Sys.step rt) s inputs).db.Charges l) ∧
    ∀ order ∈ (run (Sys.step rt) s inputs).db.orders, order.status = .pending →
      ∀ a ∈ (run (Sys.step rt) s inputs).db.attempts, a.orderID = order.id →
      ∀ (cfg : Config) (now : Int) (callbackNo : String), trimSpace callbackNo ≠ "" →
        UnusedCallback (run (Sys.step rt) s inputs).db a.paymentID (trimSpace callbackNo) →
        ∃ db', markOrderPaid rt cfg now order.tradeNo
            (gatewayConfirmation callbackNo a.paymentID a.amount)
            (run (Sys.step rt) s inputs).db = .ok db' ∧
          ∃ o ∈ db'.orders, o.id = order.id ∧ o.status = .completed := by
  have covered : Covered (run (Sys.step rt) s inputs) := start.covered.run inputs
  refine ⟨?_, covered.links, ?_⟩
  · rw [run_append]
    exact ChargesKept.run later covered.payable
  · intro order member pending a stored own cfg now callbackNo nonempty unused
    exact covered.payable.opens member pending stored own rt cfg now nonempty unused

def onePlan : Sys :=
  Small.sys ⟨[Small.buyer 1 0], Small.one_buyer, Small.one_buyer⟩
    ⟨[Small.plan 1 1000], Small.one_plan, Small.one_plan⟩
    .empty

theorem onePlan_start : onePlan.Start :=
  Small.sys_start (by decide) fun _ member => (List.not_mem_nil member).elim

/-- A link by card is issued, its claim expires, and the buyer switches to the app. -/
def switchMethod : List Input :=
  [Small.offer 0, Small.save 1000 1 1 "A", Small.pay 1001 1 1 "A" "c1",
    Small.input 1002 (.gatewayLinked 0), Small.pay 1200 1 2 "A" "c2"]

/-- The link by card still opens the order. -/
theorem switched_checkout_stays_payable :
    ∃ order ∈ (run (Sys.step Small.runtime) onePlan switchMethod).db.orders,
      order.paymentID = some 2 ∧ ∃ db',
        markOrderPaid Small.runtime Small.config 1300 order.tradeNo
          (gatewayConfirmation "G1" 1 1050)
          (run (Sys.step Small.runtime) onePlan switchMethod).db = .ok db' ∧
        ∃ o ∈ db'.orders, o.id = order.id ∧ o.status = .completed := by
  obtain ⟨order, member, selected, pending, a, stored, own, method, amount, unused⟩ :
      ∃ order ∈ (run (Sys.step Small.runtime) onePlan switchMethod).db.orders,
        order.paymentID = some 2 ∧ order.status = .pending ∧
        ∃ a ∈ (run (Sys.step Small.runtime) onePlan switchMethod).db.attempts,
          a.orderID = order.id ∧ a.paymentID = 1 ∧ a.amount = 1050 ∧
          UnusedCallback (run (Sys.step Small.runtime) onePlan switchMethod).db a.paymentID
            (trimSpace "G1") := by decide +kernel
  refine ⟨order, member, selected, ?_⟩
  have opens := (issued_checkout_stays_payable Small.runtime onePlan switchMethod []
    onePlan_start).2.2 order member pending a stored own Small.config 1300 "G1" (by decide) unused
  rw [method, amount] at opens
  exact opens

end ForestPanel
