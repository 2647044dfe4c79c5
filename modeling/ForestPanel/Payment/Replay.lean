import ForestPanel.Payment.Safety

/-!
# Repeated confirmations

Where the panel's own callback numbers and the gateways' ones do not mix, no two
orders store the same number for the same method, and a confirmation that opened
an order can be repeated until the order is refunded: nothing changes any more.
-/
namespace ForestPanel

open Relational Outcome Transition

/-- A number as the administrator's completion makes it. -/
def InternalNumber (callbackNo : String) : Prop :=
  "manual_operation:".toList <+: callbackNo.toList

instance (callbackNo : String) : Decidable (InternalNumber callbackNo) :=
  inferInstanceAs (Decidable (_ <+: _))

/-- A gateway's number is not one that the panel makes itself. -/
def ForeignNumbers (_ : Sys) (i : Input) : Prop :=
  match i.op with
  | .notify tradeNo callbackNo _ _ =>
    trimSpace callbackNo ≠ trimSpace tradeNo ∧ ¬InternalNumber (trimSpace callbackNo)
  | _ => True

instance (s : Sys) (i : Input) : Decidable (ForeignNumbers s i) := by
  unfold ForeignNumbers
  split <;> infer_instance

/-! ## Confirmations -/

variable {p : Int} {db db' : Db} {rt : Runtime} {o : OrderRecord} {a : OrderPaymentAttempt}

section

variable {s : Sys} {i : Input} {tradeNo : String} {c : OrderPaymentConfirmation}

private theorem confirmation_cases (confirmation : s.confirmation i.op = some (tradeNo, c)) :
    (∃ callbackNo p amount, i.op = .notify tradeNo callbackNo p amount ∧
        c = gatewayConfirmation callbackNo p amount) ∨
      c = manualConfirmation (trimSpace tradeNo) ∨ c = freeConfirmation tradeNo := by
  unfold Sys.confirmation at confirmation
  split at confirmation
  next op =>
    cases confirmation
    exact Or.inl ⟨_, _, _, op, rfl⟩
  next =>
    cases confirmation
    exact Or.inr (Or.inl rfl)
  next =>
    split at confirmation
    · cases confirmation
      exact Or.inr (Or.inr rfl)
    · cases confirmation
  next => cases confirmation

private theorem manual_number (tradeNo : String) :
    trimSpace (manualConfirmation (trimSpace tradeNo)).callbackNo =
      "manual_operation:" ++ trimSpace tradeNo :=
  trimSpace_append "manual_operation:" tradeNo (by decide) (by decide) (by decide)

private theorem gateway_number (foreign : ForeignNumbers s i)
    (confirmation : s.confirmation i.op = some (tradeNo, c)) (gateway : c.paymentID = some p) :
    trimSpace c.callbackNo ≠ trimSpace tradeNo ∧ ¬InternalNumber (trimSpace c.callbackNo) := by
  rcases confirmation_cases confirmation with ⟨callbackNo, q, amount, op, rfl⟩ | rfl | rfl
  · rw [ForeignNumbers, op] at foreign
    exact foreign
  · cases gateway
  · cases gateway

end

/-! ## Numbers are not shared -/

/-- No two orders store one number, and an internal one names its own order. -/
structure Unshared (db : Db) : Prop where
  distinct : ∀ {id id' p t}, db.Stores id p t → db.Stores id' p t → id = id'
  internal : ∀ {id p t}, db.Stores id p t → InternalNumber t →
    ∃ o ∈ db.orders, o.id = id ∧ t = "manual_operation:" ++ o.tradeNo

private theorem stores_unclaimed (payable : Payable db) {id : Int} {tradeNo callbackNo : String}
    (unclaimed : lockPaymentCallback db tradeNo callbackNo (some p) = .ok ())
    (stores : db.Stores id p callbackNo) : ∃ o ∈ db.orders, o.id = id ∧
      o.tradeNo = tradeNo := by
  simp only [lockPaymentCallback, ensure_eq_ok, callbackConflict, Bool.or_eq_false_iff,
    List.any_eq_false, Bool.and_eq_true, decide_eq_true_eq, not_and, not_not,
    List.any_eq_true, not_exists] at unclaimed
  rcases stores with ⟨o, member, own, method, number⟩ | ⟨a, member, own, method, number⟩
  · exact ⟨o, member, own, unclaimed.1 o member ⟨method, number⟩⟩
  · obtain ⟨-, o, found, same, -⟩ := payable.billed a member
    exact ⟨o, found, same.trans own, unclaimed.2 a member ⟨method, number⟩ o found same⟩

private theorem Unshared.brought {s : Sys} {i : Input} (unshared : Unshared s.db)
    (payable : Payable s.db) {id id' : Int} {t : String} (brings : Brings s i id p t)
    (stores : s.db.Stores id' p t) : id = id' := by
  obtain ⟨tradeNo, c, confirmation, rfl, ⟨o, member, own, named⟩, source⟩ := brings
  have found : ∃ o' ∈ s.db.orders, o'.id = id' ∧ o'.tradeNo = trimSpace tradeNo := by
    rcases source with ⟨gateway, unclaimed⟩ | ⟨explicit, internal⟩
    · rw [gateway] at unclaimed
      exact stores_unclaimed payable unclaimed stores
    · rcases confirmation_cases confirmation with ⟨callbackNo, q, amount, -, rfl⟩ | rfl | rfl
      · cases explicit
      · rw [manual_number] at stores
        obtain ⟨o', member', own', number⟩ := unshared.internal stores (by
          rw [InternalNumber, String.toList_append]
          exact List.prefix_append _ _)
        refine ⟨o', member', own', ?_⟩
        simpa using number.symm
      · cases explicit
  obtain ⟨o', member', own', named'⟩ := found
  obtain rfl := s.db.orders.eq_of_uniq member member' (named.trans named'.symm)
  exact own.symm.trans own'

theorem Unshared.step {s : Sys} (i : Input) (payable : Payable s.db) (foreign : ForeignNumbers s i)
    (unshared : Unshared s.db) : Unshared (s.step rt i).db := by
  have effect := Sys.step_effect rt s i
  constructor
  · intro id id' p t stores stores'
    rcases effect.stores payable stores with old | brings
    · rcases effect.stores payable stores' with old' | brings'
      · exact unshared.distinct old old'
      · exact (unshared.brought payable brings' old).symm
    · rcases effect.stores payable stores' with old' | brings'
      · exact unshared.brought payable brings old'
      · -- both are the order that the confirmation names
        obtain ⟨tradeNo, c, confirmation, -, ⟨o, member, own, named⟩, -⟩ := brings
        obtain ⟨tradeNo', c', confirmation', -, ⟨o', member', own', named'⟩, -⟩ := brings'
        rw [confirmation] at confirmation'
        cases confirmation'
        obtain rfl := s.db.orders.eq_of_uniq member member' (named.trans named'.symm)
        exact own.symm.trans own'
  · intro id p t stores form
    have before : ∃ o ∈ s.db.orders, o.id = id ∧ t = "manual_operation:" ++ o.tradeNo := by
      rcases effect.stores payable stores with old | brings
      · exact unshared.internal old form
      · obtain ⟨tradeNo, c, confirmation, rfl, ⟨o, member, own, named⟩, source⟩ := brings
        rcases source with ⟨gateway, -⟩ | ⟨explicit, -⟩
        · exact absurd form (gateway_number foreign confirmation gateway).2
        · rcases confirmation_cases confirmation with ⟨callbackNo, q, amount, -, rfl⟩ | rfl | rfl
          · cases explicit
          · exact ⟨o, member, own, by rw [manual_number, named]⟩
          · cases explicit
    obtain ⟨o, member, own, number⟩ := before
    obtain ⟨o', member', terms⟩ := effect.terms member
    have id' : o'.id = o.id := congrArg OrderTerms.id terms
    have tradeNo : o'.tradeNo = o.tradeNo := congrArg OrderTerms.tradeNo terms
    exact ⟨o', member', id'.trans own, by rw [tradeNo, number]⟩

theorem Db.Start.unshared (start : db.Start) : Unshared db :=
  ⟨fun stores => absurd stores (start.stores_nothing _ _ _),
    fun stores => absurd stores (start.stores_nothing _ _ _)⟩

structure Sound (db : Db) : Prop where
  payable : Payable db
  unshared : Unshared db

theorem Sound.step {s : Sys} (i : Input) (foreign : ForeignNumbers s i) (sound : Sound s.db) :
    Sound (s.step rt i).db :=
  ⟨sound.payable.step i, sound.unshared.step i sound.payable foreign⟩

/-! ## A confirmation that opened an order -/

/-- The paid order `o` was opened by the confirmation `c`, and its row and the row of
its attempt say so. -/
structure OpenedBy (db : Db) (c : OrderPaymentConfirmation) (o : OrderRecord) : Prop where
  paid : o.Paid
  number : o.callbackNo = some (trimSpace c.callbackNo)
  answered : o.tradeNo ≠ "" ∧ trimSpace c.callbackNo ≠ ""
  valid : validateOrderPaymentConfirmation o c = .ok ()
  current : legacyCallback o = false ∨ o.totalAmount = 0
  winner : ∀ p, c.paymentID = some p → ∃ a ∈ db.attempts, a.method = (o.id, p) ∧
    a.status = .winner ∧ a.callbackNo = some (trimSpace c.callbackNo)

private theorem validateOrderPaymentConfirmation_congr {o' : OrderRecord}
    (terms : o'.terms = o.terms) (paymentID : o'.paymentID = o.paymentID)
    (handlingAmount : o'.handlingAmount = o.handlingAmount) (c : OrderPaymentConfirmation) :
    validateOrderPaymentConfirmation o' c = validateOrderPaymentConfirmation o c := by
  have total : o'.totalAmount = o.totalAmount := congrArg OrderTerms.totalAmount terms
  have state : validOrderAmountState o' = validOrderAmountState o := by
    simp only [validOrderAmountState, total, handlingAmount]
  simp only [validateOrderPaymentConfirmation, state, total, paymentID, handlingAmount]

private theorem trimSpace_spaces {text : String} (spaces : text.toList.all (fun ch => ch = ' ')) :
    trimSpace text = "" := by
  have dropped : text.toList.dropWhile isSpace = [] := by
    rw [List.dropWhile_eq_nil_iff]
    intro ch member
    have space : ch = ' ' := of_decide_eq_true (List.all_eq_true.mp spaces ch member)
    rw [space]
    decide
  rw [trimSpace, dropped]
  rfl

private theorem OpenedBy.kept_number {c : OrderPaymentConfirmation} (opened : OpenedBy db c o)
    (gateway : c.paymentID = some p) :
    legacyCallbackColumn (some (trimSpace c.callbackNo)) o.tradeNo = false := by
  have priced := ((validateOrderPaymentConfirmation_gateway gateway).mp opened.valid).2.2.2.2
  have current := opened.current.resolve_right priced.ne'
  simp only [legacyCallback, opened.number, blank, Option.isNone_some, Option.getD_some,
    trimSpace_trimSpace, Bool.or_eq_false_iff, decide_eq_false_iff_not] at current
  simp only [legacyCallbackColumn, Bool.or_eq_false_iff, decide_eq_false_iff_not]
  refine ⟨?_, current.2⟩
  rw [Bool.eq_false_iff]
  intro spaces
  have empty := trimSpace_spaces spaces
  rw [trimSpace_trimSpace] at empty
  exact opened.answered.2 empty

private theorem Charged.keeps {charge : Charge} (h : Charged db charge db')
    (stored : a ∈ db.attempts) : ∃ a' ∈ db'.attempts,
      a'.method = a.method ∧ a'.status = a.status ∧ a'.callbackNo = a.callbackNo := by
  cases h with
  | inserted row unused rows charged waiting =>
    refine ⟨a, ?_, rfl, rfl, rfl⟩
    rw [Table.mem_def, rows]
    exact List.mem_append_left _ stored
  | updated g rows same charged =>
    refine ⟨g a, (Table.mem_of_rows_map rows _).mpr ⟨a, stored, rfl⟩, ?_, same a⟩
    rcases charged a with kept | ⟨method, written⟩
    · exact method_of_charge kept
    · rw [method]
      simp only [OrderPaymentAttempt.charge] at written
      simp [OrderPaymentAttempt.method, ← written]

private theorem CheckoutWrites.keeps_attempt (h : CheckoutWrites db db') (stored : a ∈ db.attempts)
    :
    ∃ a' ∈ db'.attempts,
      a'.method = a.method ∧ a'.status = a.status ∧ a'.callbackNo = a.callbackNo := by
  induction h with
  | refl => exact ⟨a, stored, rfl, rfl, rfl⟩
  | @tail db₁ db₂ _ last ih =>
    obtain ⟨b, found, method, status, number⟩ := ih
    have charged : ∀ charge, Charged db₁ charge db₂ → ∃ a' ∈ db₂.attempts,
        a'.method = a.method ∧ a'.status = a.status ∧ a'.callbackNo = a.callbackNo := by
      intro charge written
      obtain ⟨a', member, method', status', number'⟩ := written.keeps found
      exact ⟨a', member, method'.trans method, status'.trans status, number'.trans number⟩
    cases last with
    | attempts g rows same frame =>
      exact ⟨g b, (Table.mem_of_rows_map rows _).mpr ⟨b, found, rfl⟩,
        (method_of_charge (same b).charge).trans method, (same b).status.trans status,
        (same b).callbackNo.trans number⟩
    | orders f rows same frame =>
      rw [frame]
      exact ⟨b, found, method, status, number⟩
    | charged q p waits pending chosen rows frame => exact charged _ rows
    | claimed q p fee waits pending named source written recorded f rows standing selects frame =>
      exact charged _ written
    | selected q r waits pending named recorded own f rows standing selects frame =>
      rw [frame]
      exact ⟨b, found, method, status, number⟩

private theorem Effect.keeps_winner {s : Sys} {i : Input} (effect : Effect s i db')
    (member : o ∈ s.db.orders) (stored : a ∈ s.db.attempts) (own : a.orderID = o.id)
    (won : a.status = .winner) (number : legacyCallbackColumn a.callbackNo o.tradeNo = false) :
    ∃ a' ∈ db'.attempts,
      a'.method = a.method ∧ a'.status = .winner ∧ a'.callbackNo = a.callbackNo := by
  have kept : db'.attempts = s.db.attempts → ∃ a' ∈ db'.attempts,
      a'.method = a.method ∧ a'.status = .winner ∧ a'.callbackNo = a.callbackNo := by
    intro attempts
    rw [attempts]
    exact ⟨a, stored, rfl, won, rfl⟩
  cases effect with
  | unchanged => exact kept rfl
  | saved row db' h => exact kept (by rw [h.frame])
  | cancelled order db' known early h => exact kept (by rw [h.frame])
  | opened order tradeNo db' known op named early h => exact kept (by rw [h.frame])
  | acknowledged order tradeNo c db' known confirmed named early h =>
    obtain ⟨g, rows, answered⟩ := h.attempts
    refine ⟨g a, (Table.mem_of_rows_map rows _).mpr ⟨a, stored, rfl⟩, ?_⟩
    rcases answered a stored with same | new
    · rw [same]
      exact ⟨rfl, won, rfl⟩
    · -- only a pending attempt or a placeholder is answered
      have mine := (own_of_confirmationAttempt new.found).2.1
      obtain rfl := s.db.orders.eq_of_key member known (own.symm.trans mine)
      rcases new.before with waiting | ⟨-, placeholder⟩
      · rw [won] at waiting
        cases waiting
      · rw [number] at placeholder
        cases placeholder
  | settled order confirmed tradeNo c db' known confirmation named h =>
    refine ⟨_, (Table.mem_of_rows_map h.attempts _).mpr ⟨a, stored, rfl⟩, ?_⟩
    rcases wonRow_cases i.now (trimSpace c.callbackNo) order c stored with same | ⟨found, -⟩
    · rw [same]
      exact ⟨rfl, won, rfl⟩
    · have waiting := h.waiting a found
      rw [won] at waiting
      cases waiting
  | refunded order tradeNo db' known op named h => exact kept (by rw [h.frame])
  | commissionCleared order known deposit => exact kept rfl
  | commissionSettled order inviter tradeNo db' known op h => exact kept (by rw [h.frame])
  | commissionEdited order target db' known unpaid orders frame => exact kept (by rw [frame])
  | checkedOut db' h =>
    obtain ⟨a', found, method, status, callbackNo⟩ := CheckoutWrites.keeps_attempt h stored
    exact ⟨a', found, method, status.trans won, callbackNo⟩
  | paymentsEdited payments => exact kept rfl

private theorem OpenedBy.step {s : Sys} (i : Input) {c : OrderPaymentConfirmation}
    (member : o ∈ s.db.orders) (opened : OpenedBy s.db c o) :
    (∃ o' ∈ (s.step rt i).db.orders, o'.terms = o.terms ∧ OpenedBy (s.step rt i).db c o') ∨
      s.Refunds rt i o.id := by
  have effect := Sys.step_effect rt s i
  obtain ⟨o', found, stays⟩ := effect.staysPaid member opened.paid
  have id : o'.id = o.id := congrArg OrderTerms.id stays.terms
  have total : o'.totalAmount = o.totalAmount := congrArg OrderTerms.totalAmount stays.terms
  have tradeNo : o'.tradeNo = o.tradeNo := congrArg OrderTerms.tradeNo stays.terms
  rcases stays.paid with paid | ⟨⟨completed, cancelled⟩, text, op, named⟩
  · left
    -- the callback number is no placeholder, or nothing was paid
    have number : o'.callbackNo = o.callbackNo := by
      rcases stays.callbackNo with same | ⟨placeholder, priced⟩
      · exact same
      · rcases opened.current with proper | free
        · rw [proper] at placeholder
          cases placeholder
        · omega
    refine ⟨o', found, stays.terms, paid, number.trans opened.number, ?_, ?_, ?_, ?_⟩
    · rw [tradeNo]
      exact opened.answered
    · rw [validateOrderPaymentConfirmation_congr stays.terms stays.paymentID stays.handlingAmount]
      exact opened.valid
    · rw [total, legacyCallback, number, tradeNo]
      exact opened.current
    · intro p gateway
      obtain ⟨a, stored, method, won, callbackNo⟩ := opened.winner p gateway
      have own : a.orderID = o.id := congrArg Prod.fst method
      obtain ⟨a', stored', method', won', callbackNo'⟩ := effect.keeps_winner member stored own won
        (by rw [callbackNo]; exact opened.kept_number gateway)
      exact ⟨a', stored', by rw [method', method, id], won', callbackNo'.trans callbackNo⟩
  · exact Or.inr ⟨⟨o, member, rfl, completed, text, op, named⟩, o', found, id, cancelled⟩

private theorem Sys.step_confirmation (rt : Runtime) {s : Sys} {i : Input} {tradeNo : String}
    {c : OrderPaymentConfirmation} (confirmation : s.confirmation i.op = some (tradeNo, c)) :
    (s.step rt i).db = commit s.db (markOrderPaid rt i.cfg i.now tradeNo c s.db) := by
  unfold Sys.confirmation at confirmation
  split at confirmation
  next op =>
    cases confirmation
    rw [Sys.step, op]
    rfl
  next op =>
    cases confirmation
    rw [Sys.step, op]
    rfl
  next n op =>
    split at confirmation
    next found =>
      cases confirmation
      rw [Sys.step, op]
      dsimp only
      rw [found]
      dsimp only [Sys.continueCheckout]
      rw [op]
      rfl
    next => cases confirmation
  next => cases confirmation

private theorem Settled.openedBy {s : Sys} {i : Input} {order confirmed : OrderRecord}
    {tradeNo : String} {c : OrderPaymentConfirmation}
    (h : Settled i.now c (trimSpace tradeNo) (trimSpace c.callbackNo) order confirmed s.db db')
    (payable : Payable db') (foreign : ForeignNumbers s i)
    (confirmation : s.confirmation i.op = some (tradeNo, c))
    (named : order.tradeNo = trimSpace tradeNo)
    (found : settledRow i.now (trimSpace c.callbackNo) confirmed order ∈ db'.orders)
    (completed : (settledRow i.now (trimSpace c.callbackNo) confirmed order).status = .completed) :
    OpenedBy db' c (settledRow i.now (trimSpace c.callbackNo) confirmed order) := by
  obtain ⟨accepted, -⟩ := confirmedOrder_cases h.confirmation
  have alike := (confirmedOrder_terms h.confirmation).1
  have id : order.id = confirmed.id := (congrArg OrderTerms.id alike).symm
  have terms := settledRow_terms i.now (trimSpace c.callbackNo) confirmed order
  have bill := settledRow_bill i.now confirmed order
    ⟨trimSpace_trimSpace c.callbackNo, h.answered.2⟩
  rw [if_pos id] at bill
  generalize settledRow i.now (trimSpace c.callbackNo) confirmed order = o at *
  have number : o.callbackNo = some (trimSpace c.callbackNo) := congrArg Bill.callbackNo bill
  have tradeNo' : o.tradeNo = trimSpace tradeNo := (congrArg OrderTerms.tradeNo terms).trans named
  have valid : validateOrderPaymentConfirmation o c = .ok () := by
    rw [validateOrderPaymentConfirmation_congr (terms.trans alike.symm)
      (congrArg Bill.paymentID bill) (congrArg Bill.handlingAmount bill)]
    exact accepted
  refine ⟨Or.inl completed, number, ?_, valid, ?_, ?_⟩
  · rw [tradeNo']
    exact h.answered
  · -- only the number of a free order is a placeholder
    have proper : trimSpace c.callbackNo ≠ trimSpace tradeNo → legacyCallback o = false := by
      intro differs
      simp [legacyCallback, blank, number, tradeNo', h.answered.2, differs]
    cases gateway : c.paymentID with
    | some p => exact Or.inl (proper (gateway_number foreign confirmation gateway).1)
    | none =>
      rcases confirmation_cases confirmation with ⟨callbackNo, q, amount, -, rfl⟩ | rfl | rfl
      · cases gateway
      · left
        apply proper
        rw [manual_number]
        intro same
        have length := congrArg String.length same
        rw [String.length_append] at length
        have longer : "manual_operation:".length = 17 := by decide
        omega
      · exact Or.inr (validateOrderPaymentConfirmation_free rfl (by simp [freeConfirmation]) valid)
  · intro p gateway
    have chosen := ((validateOrderPaymentConfirmation_gateway gateway).mp valid).2.1
    obtain ⟨b, stored, own, method, -⟩ := payable.selected o found p chosen
    obtain ⟨a, known, rfl⟩ := (Table.mem_of_rows_map h.attempts b).mp stored
    have kept : (wonRow i.now (trimSpace c.callbackNo) (confirmationAttempt s.db order c) a).method =
        a.method := by
      rcases wonRow_cases i.now (trimSpace c.callbackNo) order c known with same | ⟨-, same⟩
      · rw [same]
      · rw [same]
        rfl
    have method' : a.method = (o.id, p) := by
      rw [← kept, OrderPaymentAttempt.method, own, method]
    have located : confirmationAttempt s.db order c = some a := by
      unfold confirmationAttempt
      rw [gateway, Option.bind_some]
      refine (Table.findUniq?_eq_some ..).mpr ⟨known, method'.trans ?_⟩
      rw [show o.id = order.id from congrArg OrderTerms.id terms]
    have waiting := h.waiting a located
    refine ⟨_, stored, kept.trans method', ?_, ?_⟩
    · simp [wonRow, located, waiting]
    · simp [wonRow, located, waiting]

private theorem openedBy_of_opens {s : Sys} {i : Input} (sound : Sound s.db)
    (foreign : ForeignNumbers s i) (opens : s.Opens rt i o) {tradeNo : String}
    {c : OrderPaymentConfirmation} (confirmation : s.confirmation i.op = some (tradeNo, c)) :
    ∃ o' ∈ (s.step rt i).db.orders, o'.terms = o.terms ∧ o.tradeNo = trimSpace tradeNo ∧
      OpenedBy (s.step rt i).db c o' := by
  obtain ⟨member, unpaid, q, found, same, completed⟩ := opens
  have committed := Sys.step_confirmation rt confirmation
  -- the confirmation was not refused
  obtain ⟨db', returned⟩ : ∃ db', markOrderPaid rt i.cfg i.now tradeNo c s.db = .ok db' := by
    cases result : markOrderPaid rt i.cfg i.now tradeNo c s.db with
    | ok db' => exact ⟨db', rfl⟩
    | error e =>
      rw [committed, result] at found
      obtain rfl := s.db.orders.eq_of_key found member same
      exact absurd (Or.inl completed) unpaid
  rw [returned] at committed
  have after : (s.step rt i).db = db' := committed
  have payable := (after ▸ sound.payable.step i : Payable db')
  rw [after] at found ⊢
  obtain ⟨order, stored, named, ⟨pending, cancelled, h⟩ | ⟨confirmed, h⟩⟩ :=
    markOrderPaid_cases returned
  · obtain ⟨f, rows, alike⟩ := h.orders stored
    obtain ⟨r, known, rfl⟩ := (Table.mem_of_rows_map rows q).mp found
    obtain ⟨terms, status, -⟩ := alike r known
    obtain rfl := s.db.orders.eq_of_key known member
      ((congrArg OrderTerms.id terms).symm.trans same)
    exact absurd (Or.inl (status.symm.trans completed)) unpaid
  · obtain ⟨r, known, rfl⟩ := (Table.mem_of_rows_map h.orders q).mp found
    have terms := settledRow_terms i.now (trimSpace c.callbackNo) confirmed r
    obtain rfl := s.db.orders.eq_of_key known member
      ((congrArg OrderTerms.id terms).symm.trans same)
    have id : confirmed.id = order.id :=
      congrArg OrderTerms.id (confirmedOrder_terms h.confirmation).1
    -- the completed order is the one that was confirmed
    have own : r.id = order.id := by
      rw [settledRow_status, id] at completed
      by_contra other
      rw [if_neg other] at completed
      split at completed
      · cases completed
      · exact unpaid (Or.inl completed)
    obtain rfl := s.db.orders.eq_of_key known stored own
    refine ⟨_, found, terms, named, ?_⟩
    exact h.openedBy payable foreign confirmation named found completed

private theorem OpenedBy.unclaimed (unshared : Unshared db) {c : OrderPaymentConfirmation}
    (member : o ∈ db.orders) (opened : OpenedBy db c o) :
    lockPaymentCallback db o.tradeNo (trimSpace c.callbackNo) c.paymentID = .ok () := by
  cases gateway : c.paymentID with
  | none => rfl
  | some p =>
    have chosen := ((validateOrderPaymentConfirmation_gateway gateway).mp opened.valid).2.1
    have stores : db.Stores o.id p (trimSpace c.callbackNo) :=
      Or.inl ⟨o, member, rfl, chosen, opened.number⟩
    apply ensure_of
    simp only [callbackConflict, Bool.or_eq_false_iff, List.any_eq_false, Bool.and_eq_true,
      decide_eq_true_eq, not_and, not_not, List.any_eq_true, not_exists]
    constructor
    · rintro q found ⟨method, number⟩
      have same := unshared.distinct stores (Or.inl ⟨q, found, rfl, method, number⟩)
      rw [db.orders.eq_of_key member found same]
    · rintro a found ⟨method, number⟩ q known own
      have same := unshared.distinct stores (Or.inr ⟨a, found, rfl, method, number⟩)
      rw [db.orders.eq_of_key member known (same.trans own.symm)]

private theorem OpenedBy.attempt (payable : Payable db) {c : OrderPaymentConfirmation}
    (member : o ∈ db.orders) (opened : OpenedBy db c o) :
    confirmationAttempt db o c = none ∨ ∃ a, confirmationAttempt db o c = some a ∧
      a.status = .winner ∧ a.callbackNo = some (trimSpace c.callbackNo) ∧
      checkAttempt o c (some a) = .ok () := by
  unfold confirmationAttempt
  cases gateway : c.paymentID with
  | none => exact Or.inl rfl
  | some p =>
    right
    obtain ⟨⟨-, automatic⟩, chosen, paid, positive, -⟩ :=
      (validateOrderPaymentConfirmation_gateway gateway).mp opened.valid
    obtain ⟨a, stored, method, won, number⟩ := opened.winner p gateway
    have own : a.orderID = o.id := congrArg Prod.fst method
    have selected : a.paymentID = p := congrArg Prod.snd method
    obtain ⟨b, stored', own', selected', fee⟩ := payable.selected o member p chosen
    obtain rfl := db.attempts.eq_of_uniq stored stored'
      (by simp [OrderPaymentAttempt.method, own, own', selected, selected'])
    obtain ⟨-, q, known, same, -, valid, -⟩ := payable.billed a stored
    obtain rfl := db.orders.eq_of_key known member (same.trans own)
    have amount : c.amount = some a.amount := by
      rw [paid, ← valid.2.2.2, fee]
    have method' : c.paymentID = some a.paymentID := gateway.trans (congrArg some selected.symm)
    refine ⟨a, (Table.findUniq?_eq_some ..).mpr ⟨stored, method⟩, won, number, ?_⟩
    rw [checkAttempt, validateOrderPaymentAttemptConfirmation,
      ensure_of _ ⟨own, method', amount, valid.2.1⟩, bind_ok]
    exact validate_orderWithPaymentAttempt method' amount automatic (selected ▸ positive) valid

private theorem OpenedBy.replay (sound : Sound db) {c : OrderPaymentConfirmation}
    (member : o ∈ db.orders) (opened : OpenedBy db c o) {tradeNo : String}
    (named : o.tradeNo = trimSpace tradeNo) (rt : Runtime) (cfg : Config) (now : Int) :
    markOrderPaid rt cfg now tradeNo c db = .ok db := by
  have locked : db.lockOrderByTradeNo (trimSpace tradeNo) = some o :=
    (Table.findUniq?_eq_some ..).mpr ⟨member, named⟩
  have nonempty : trimSpace tradeNo ≠ "" := named ▸ opened.answered.1
  have unclaimed := opened.unclaimed sound.unshared member
  have attempt := opened.attempt sound.payable member
  have completed : confirmCompletedOrder now o c (confirmationAttempt db o c) (trimSpace tradeNo)
      (trimSpace c.callbackNo) db = .ok db := by
    have repeated : o.callbackNo.isSome ∧
        trimSpace (o.callbackNo.getD "") = trimSpace c.callbackNo := by
      simp [opened.number]
    rw [confirmCompletedOrder, opened.valid]
    dsimp only
    rw [← named, unclaimed, bind_ok, if_pos repeated]
    rcases attempt with none | ⟨a, found, won, number, -⟩
    · rw [none]
      rfl
    · rw [found, replayConfirmation, won]
      dsimp only
      rw [ensure_of _ ⟨by simp [number], by simp [number]⟩]
      rfl
  have checked : checkAttempt o c (confirmationAttempt db o c) = .ok () := by
    rcases attempt with none | ⟨a, found, -, -, agrees⟩
    · rw [none, checkAttempt]
    · rw [found, agrees]
  rw [markOrderPaid]
  dsimp only
  rw [ensure_of _ ⟨nonempty, opened.answered.2⟩, bind_ok, locked]
  simp only [require, bind_ok]
  rw [checked, bind_ok]
  rcases opened.paid with done | closed
  · rw [done]
    exact completed
  · rw [closed]
    exact completed

/-! ## Whole runs -/

private theorem paid_until_refunded (s : Sys) (inputs : List Input) {id : Int}
    (paid : ∃ o ∈ s.db.orders, o.id = id ∧ o.Paid) :
    (∃ o ∈ (run (Sys.step rt) s inputs).db.orders, o.id = id ∧ o.Paid) ∨
      Happens (Sys.step rt) (fun t i => t.Refunds rt i id) s inputs := by
  apply lasts_or_happens (I := fun t => ∃ o ∈ t.db.orders, o.id = id ∧ o.Paid) _ s inputs paid
    (along_true s inputs)
  rintro t i ⟨o, member, rfl, settled⟩ -
  obtain ⟨o', found, stays⟩ := (Sys.step_effect rt t i).staysPaid member settled
  have same : o'.id = o.id := congrArg OrderTerms.id stays.terms
  rcases stays.paid with still | ⟨⟨completed, cancelled⟩, text, op, named⟩
  · exact Or.inl ⟨o', found, same, still⟩
  · exact Or.inr ⟨⟨o, member, rfl, completed, text, op, named⟩, o', found, same, cancelled⟩

theorem Sound.run {s : Sys} (inputs : List Input) (sound : Sound s.db)
    (foreign : Along (Sys.step rt) ForeignNumbers s inputs) :
    Sound (run (Sys.step rt) s inputs).db :=
  run_invariant (I := fun t => Sound t.db) (fun _ i sound foreign => sound.step i foreign) s inputs
    sound foreign

private theorem opened_until_refunded (s : Sys) (inputs : List Input) {c : OrderPaymentConfirmation}
    {terms : OrderTerms} (opened : ∃ o ∈ s.db.orders, o.terms = terms ∧ OpenedBy s.db c o) :
    (∃ o ∈ (run (Sys.step rt) s inputs).db.orders, o.terms = terms ∧
        OpenedBy (run (Sys.step rt) s inputs).db c o) ∨
      Happens (Sys.step rt) (fun t i => t.Refunds rt i terms.id) s inputs := by
  apply lasts_or_happens (I := fun t => ∃ o ∈ t.db.orders, o.terms = terms ∧ OpenedBy t.db c o) _ s
    inputs opened (along_true s inputs)
  rintro t i ⟨o, member, rfl, still⟩ -
  exact still.step i member

/-- In every run, what opens an order is justified, an order is opened at most once
between two refunds, and, where gateways use numbers of their own, no number is
stored for two orders and a confirmation that opened an order can be repeated. -/
theorem settlement_safety (rt : Runtime) (s : Sys) (inputs : List Input) (start : s.Start) :
    Along (Sys.step rt) (fun t i => ∀ o, t.Opens rt i o → Justified t i o) s inputs ∧
    (∀ before i middle j after, inputs = before ++ i :: (middle ++ j :: after) → ∀ o o',
      (run (Sys.step rt) s before).Opens rt i o →
      (run (Sys.step rt) s (before ++ i :: middle)).Opens rt j o' → o'.id = o.id →
      Happens (Sys.step rt) (fun t k => t.Refunds rt k o.id)
        (run (Sys.step rt) s (before ++ [i])) middle) ∧
    (Along (Sys.step rt) ForeignNumbers s inputs →
      (∀ id id' p t, (run (Sys.step rt) s inputs).db.Stores id p t →
        (run (Sys.step rt) s inputs).db.Stores id' p t → id = id') ∧
      ∀ before i after, inputs = before ++ i :: after → ∀ o tradeNo c,
        (run (Sys.step rt) s before).Opens rt i o →
        (run (Sys.step rt) s before).confirmation i.op = some (tradeNo, c) →
        ¬Happens (Sys.step rt) (fun t k => t.Refunds rt k o.id)
          (run (Sys.step rt) s (before ++ [i])) after →
        ∀ cfg now, markOrderPaid rt cfg now tradeNo c (run (Sys.step rt) s inputs).db =
          .ok (run (Sys.step rt) s inputs).db) := by
  have sound : Sound s.db := ⟨start.1.payable, start.1.unshared⟩
  refine ⟨?_, ?_, ?_⟩
  · apply along_mono s inputs _ (along_true s inputs)
    rintro t i - o ⟨member, unpaid, o', found, same, completed⟩
    exact (Sys.step_effect rt t i).justified member unpaid found same completed
  · rintro before i middle j after - o o' ⟨-, -, q, found, same, completed⟩ opens id
    have paid := @paid_until_refunded rt (run (Sys.step rt) s (before ++ [i])) middle
      o.id ⟨q, by simpa using found, same, Or.inl completed⟩
    rcases paid with ⟨r, still, own, paid⟩ | refunded
    · have member : r ∈ (run (Sys.step rt) s (before ++ i :: middle)).db.orders := by
        simpa using still
      obtain rfl := Table.eq_of_key _ member opens.1 (own.trans id.symm)
      exact absurd paid opens.2.1
    · exact refunded
  · intro foreign
    refine ⟨fun id id' p t stores stores' =>
      (sound.run inputs foreign).unshared.distinct stores stores', ?_⟩
    rintro before i after rfl o tradeNo c opens confirmation kept cfg now
    obtain ⟨first, now', -⟩ := (along_append s before (i :: after)).mp foreign
    obtain ⟨o', member, terms, named, opened⟩ :=
      openedBy_of_opens (sound.run before first) now' opens confirmation
    have still := @opened_until_refunded rt (run (Sys.step rt) s (before ++ [i])) after
      c o.terms ⟨o', by simpa using member, terms, by simpa using opened⟩
    rcases still with ⟨r, stored, same, again⟩ | refunded
    · have tradeNo' : r.tradeNo = trimSpace tradeNo :=
        (congrArg OrderTerms.tradeNo same).trans named
      refine OpenedBy.replay (sound.run _ foreign) (o := r) ?_ ?_ tradeNo' rt cfg now
      · simpa using stored
      · simpa using again
    · exact absurd refunded kept

def twoCardBuyers : Sys :=
  Small.sys ⟨[Small.buyer 1 0, Small.buyer 2 0], Small.two_buyers, Small.two_buyers⟩
    ⟨[Small.plan 1 1000], Small.one_plan, Small.one_plan⟩ .empty

theorem twoCardBuyers_start : twoCardBuyers.Start :=
  Small.sys_start (by decide) fun _ member => (List.not_mem_nil member).elim

def bothByCard : List Input :=
  [Small.offer 0, Small.save 1000 1 1 "A", Small.pay 1001 1 1 "A" "c1",
    Small.save 1002 2 1 "B", Small.pay 1003 2 1 "B" "c2"]

def bothPay : List Input :=
  bothByCard ++ Small.input 1100 (.notify "A" "G1" 1 1050) ::
    [Small.input 1101 (.notify "B" "G2" 1 1050)]

/-- The first payment is reported again. -/
theorem repeated_card_payment :
    markOrderPaid Small.runtime Small.config 2000 "A" (gatewayConfirmation "G1" 1 1050)
        (run (Sys.step Small.runtime) twoCardBuyers bothPay).db =
      .ok (run (Sys.step Small.runtime) twoCardBuyers bothPay).db := by
  obtain ⟨o, member, pending, completed⟩ :
      ∃ o ∈ (run (Sys.step Small.runtime) twoCardBuyers bothByCard).db.orders,
        o.status = .pending ∧ ∃ o' ∈ (Sys.step Small.runtime
          (run (Sys.step Small.runtime) twoCardBuyers bothByCard)
          (Small.input 1100 (.notify "A" "G1" 1 1050))).db.orders,
        o'.id = o.id ∧ o'.status = .completed := by decide +kernel
  have unpaid : ¬o.Paid := by simp [OrderRecord.Paid, pending]
  have safety := (settlement_safety Small.runtime twoCardBuyers bothPay twoCardBuyers_start).2.2
    (by decide +kernel)
  refine safety.2 bothByCard _ _ rfl o "A" _ ⟨member, unpaid, completed⟩ rfl ?_ Small.config 2000
  -- no step after the payment is a refund
  rintro ⟨before, k, after, split, ⟨-, -, -, -, tradeNo, op, -⟩, -⟩
  cases before with
  | nil =>
    obtain ⟨rfl, -⟩ := List.cons.inj split
    cases op
  | cons j before => simp at split

/-- A gateway number of the panel's own form, and the completion that makes it. -/
def foreignMark : List Input :=
  bothByCard ++ [Small.input 1100 (.notify "A" "manual_operation:B" 1 1050),
    Small.input 1101 (.completeManually "B")]

/-- Both orders then store the number for the card. -/
theorem callback_number_shared :
    ∃ o ∈ (run (Sys.step Small.runtime) twoCardBuyers foreignMark).db.orders,
      ∃ o' ∈ (run (Sys.step Small.runtime) twoCardBuyers foreignMark).db.orders, o.id ≠ o'.id ∧
        (o.paymentID = some 1 ∧ o.callbackNo = some "manual_operation:B") ∧
        o'.paymentID = some 1 ∧ o'.callbackNo = some "manual_operation:B" := by
  decide +kernel

end ForestPanel
