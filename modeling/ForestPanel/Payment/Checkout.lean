import ForestPanel.Order.Open

/-!
# Checkout of an order

`Checkout` runs in three parts: a transaction that selects the payment method
and claims the attempt, the gateway call outside any transaction, and a
transaction that stores the gateway's answer (or two statements that release the
claim). `CheckoutCall` is what the first part hands to the others.
-/
namespace ForestPanel

open Relational Outcome

structure CheckoutRequest where
  tradeNo : String
  methodID : Int
  token : String
  requestBaseURL : String
deriving Repr, DecidableEq

structure CheckoutCall where
  userID : Int
  tradeNo : String
  paymentID : Int
  total : Int
  handlingAmount : Int
  claim : String
  fingerprint : String
deriving Repr, DecidableEq

inductive CheckoutOutcome
  /-- The order costs nothing: `MarkOrderPaid` is called next. -/
  | free (tradeNo : String)
  /-- A stored answer is repeated. -/
  | answered (result : CheckoutResult)
  /-- The gateway is called next. -/
  | creating (call : CheckoutCall)
deriving Repr, DecidableEq

/-- `checkoutClaimLease` in seconds. -/
def checkoutClaimLease : Int := 120

def validCheckoutResult (result : CheckoutResult) : Bool :=
  if result.type = 0 ∨ result.type = 1 then
    match result.data with
    | .text value => trimSpace value ≠ ""
    | .flag _ | .other => false
  else if result.type = 2 then result.data = .flag true
  else false

def encodeCheckoutSnapshot (paymentID total : Int) (result : CheckoutResult) :
    Except ServiceError CheckoutSnapshot :=
  if 0 < paymentID ∧ 0 < total ∧ validCheckoutResult result = true then
    .ok ⟨1, paymentID, total, result⟩
  else .error (.requestFailed "invalid checkout result")

def decodeCheckoutSnapshot (snapshot : CheckoutSnapshot) (paymentID total : Int) :
    Except ServiceError CheckoutResult :=
  if snapshot.version = 1 ∧ snapshot.paymentID = paymentID ∧ snapshot.total = total ∧
      validCheckoutResult snapshot.result = true then .ok snapshot.result
  else .error (.requestFailed "checkout result does not match order")

/-- Not `NaN`, not infinite, not negative. -/
def validPercent : Float8 → Bool
  | .finite value => 0 ≤ value
  | .nan | .inf | .negInf => false

def methodHandlingAmount (rt : Runtime) (totalAmount : Int) (method : PaymentRecord) :
    Except ServiceError Int :=
  if method.handlingFeeFixed.isSome ∨ method.handlingFeePercent.isSome then do
    let fixed := method.handlingFeeFixed.getD 0
    let percent := method.handlingFeePercent.getD (.finite 0)
    ensure (0 ≤ fixed ∧ validPercent percent = true) .invalidParameter
    pure (rt.handlingFee totalAmount percent fixed)
  else .ok 0

def baseOr (base : String) : String := if base = "" then "http://127.0.0.1" else base

def notifyURL (cfg : Config) (method : PaymentRecord) : String :=
  let path := "/api/v1/guest/payment/notify/" ++ trimSpace method.payment ++ "/" ++
    trimSpace method.uuid
  if blank method.notifyDomain then baseOr (trimRightSlash (trimSpace cfg.appURL)) ++ path
  else trimRightSlash (trimSpace (method.notifyDomain.getD "")) ++ path

def returnURL (rt : Runtime) (cfg : Config) (requestBaseURL tradeNo : String) : String :=
  let base := trimRightSlash (rt.publicBase (trimSpace requestBaseURL))
  (if base = "" then baseOr (trimRightSlash (trimSpace cfg.appURL)) else base) ++ "/#/order/" ++
    tradeNo

def checkoutFingerprint (rt : Runtime) (cfg : Config) (method : PaymentRecord)
    (req : CheckoutRequest) (userID total : Int) : String :=
  rt.fingerprint {
    paymentID := method.id
    gateway := trimSpace method.payment
    config := trimSpace method.config
    userID
    tradeNo := trimSpace req.tradeNo
    total
    notifyURL := trimSpace (notifyURL cfg method)
    returnURL := trimSpace (returnURL rt cfg req.requestBaseURL (trimSpace req.tradeNo))
    tokenHash := rt.sha256 (trimSpace req.token) }

/-- `INSERT … ON CONFLICT (order_id, payment_id) DO UPDATE SET f WHERE p`, with
whether a row was written. -/
def upsertAttempt (db : Db) (row : OrderPaymentAttempt) (p : OrderPaymentAttempt → Bool)
    (f : OrderPaymentAttempt → OrderPaymentAttempt)
    (hf : Preserves OrderPaymentAttempt.id OrderPaymentAttempt.method f) :
    Except ServiceError (Db × Bool) :=
  match db.attempts.findUniq? row.method with
  | none => do
    let attempts ← require (db.attempts.insert? { row with id := db.attemptSeq + 1 }) .duplicateRow
    pure ({ db with attempts, attemptSeq := db.attemptSeq + 1 }, true)
  | some stored =>
    .ok ({ db with
      attempts := db.attempts.updateWhere (fun a => a.method = row.method && p a) f hf }, p stored)

def newAttempt (orderID paymentID handlingAmount amount : Int) : OrderPaymentAttempt where
  id := 0
  orderID
  paymentID
  handlingAmount
  amount
  checkoutResult := none
  checkoutClaim := none
  checkoutClaimExpiresAt := none
  checkoutFingerprint := none
  callbackNo := none
  status := .pending
  paidAt := none

def attemptClaimActive (now : Int) (a : OrderPaymentAttempt) : Bool :=
  a.checkoutClaim.isSome && a.checkoutClaimExpiresAt.any fun e => now < e

/-- The selected method of the order becomes an attempt of its own, so that its
link stays payable after the switch. -/
def archiveCurrentPaymentAttempt (order : OrderRecord) (db : Db) : Except ServiceError Db :=
  match order.paymentID with
  | none => .ok db
  | some paymentID =>
    if paymentID ≤ 0 then .ok db
    else do
      let handlingAmount := order.handlingAmount.getD 0
      ensure (0 ≤ handlingAmount ∧ 0 < order.totalAmount ∧
        order.totalAmount ≤ maxInt64 - handlingAmount) .invalidParameter
      let amount := order.totalAmount + handlingAmount
      let (db, _) ← upsertAttempt db
        { newAttempt order.id paymentID handlingAmount amount with
          checkoutResult := order.checkoutResult
          checkoutFingerprint := order.checkoutFingerprint }
        (fun a => a.status = .pending)
        (fun a => { a with
          handlingAmount
          amount
          checkoutResult := a.checkoutResult <|> order.checkoutResult
          checkoutClaim := none
          checkoutClaimExpiresAt := none
          checkoutFingerprint := a.checkoutFingerprint <|> order.checkoutFingerprint })
        fun _ => ⟨rfl, rfl⟩
      pure db

def validAttemptAmount (orderAmount handlingAmount amount : Int) : Prop :=
  0 < orderAmount ∧ 0 ≤ handlingAmount ∧ orderAmount ≤ maxInt64 - handlingAmount ∧
    orderAmount + handlingAmount = amount

instance (orderAmount handlingAmount amount : Int) :
    Decidable (validAttemptAmount orderAmount handlingAmount amount) := by
  unfold validAttemptAmount
  infer_instance

def selectCachedPaymentAttempt (now : Int) (orderID : Int) (attempt : OrderPaymentAttempt)
    (db : Db) : Db :=
  { db with
    orders := db.orders.updateWhere (fun r => r.id = orderID && r.status = .pending)
      (fun r => { r with
        paymentID := some attempt.paymentID
        handlingAmount := if attempt.handlingAmount = 0 then none else some attempt.handlingAmount
        checkoutResult := attempt.checkoutResult
        checkoutClaim := none
        checkoutClaimExpiresAt := none
        checkoutFingerprint := attempt.checkoutFingerprint
        updatedAt := now }) fun _ => ⟨rfl, rfl⟩ }

def claimPaymentAttempt (now : Int) (orderID paymentID handlingAmount amount : Int)
    (claim fingerprint : String) (db : Db) : Except ServiceError Db := do
  let (db, claimed) ← upsertAttempt db
    { newAttempt orderID paymentID handlingAmount amount with
      checkoutClaim := some claim
      checkoutClaimExpiresAt := some (now + checkoutClaimLease)
      checkoutFingerprint := some fingerprint }
    (fun a => a.status = .pending && !attemptClaimActive now a)
    (fun a => { a with
      handlingAmount
      amount
      checkoutResult := none
      checkoutClaim := some claim
      checkoutClaimExpiresAt := some (now + checkoutClaimLease)
      checkoutFingerprint := some fingerprint })
    fun _ => ⟨rfl, rfl⟩
  ensure (claimed = true) .checkoutInProgress
  pure db

/-- What is known of the attempt when the gateway has to be called: its fee, or
none yet, and the fingerprint of an earlier call. -/
structure KnownAttempt where
  handlingAmount : Option Int
  fingerprint : Option String
deriving Repr, DecidableEq

/-- A fee that is known is never computed again. -/
def attemptHandlingAmount (rt : Runtime) (totalAmount : Int) (method : PaymentRecord)
    (known : KnownAttempt) : Except ServiceError Int :=
  match known.handlingAmount with
  | some handlingAmount => .ok handlingAmount
  | none => methodHandlingAmount rt totalAmount method

def updateOrderClaim (db : Db) (now : Int) (orderID : Int) (call : CheckoutCall) : Db :=
  db.updateOrder orderID (fun r => { r with
    paymentID := some call.paymentID
    handlingAmount := if call.handlingAmount = 0 then none else some call.handlingAmount
    checkoutResult := none
    checkoutClaim := some call.claim
    checkoutClaimExpiresAt := some (now + checkoutClaimLease)
    checkoutFingerprint := some call.fingerprint
    updatedAt := now }) fun _ => ⟨rfl, rfl⟩

/-- From `loadPaymentMethodTx` to the commit of the claim. -/
def claimCheckout (rt : Runtime) (cfg : Config) (now userID : Int) (req : CheckoutRequest)
    (claim : String) (order : OrderRecord) (known : KnownAttempt) (db : Db) :
    Except ServiceError (Db × CheckoutOutcome) := do
  let method ← require (db.payments.find? req.methodID) .paymentMethodUnavailable
  ensure (method.enable = 1) .paymentMethodUnavailable
  let handlingAmount ← attemptHandlingAmount rt order.totalAmount method known
  ensure (0 ≤ handlingAmount ∧ order.totalAmount ≤ maxInt64 - handlingAmount) .invalidParameter
  let total := order.totalAmount + handlingAmount
  ensure (0 < total) .invalidParameter
  let fingerprint := checkoutFingerprint rt cfg method req userID total
  ensure (blank known.fingerprint = true ∨ known.fingerprint = some fingerprint)
    .checkoutConfigChanged
  let call : CheckoutCall :=
    ⟨userID, trimSpace req.tradeNo, method.id, total, handlingAmount, claim, fingerprint⟩
  let db ← claimPaymentAttempt now order.id method.id handlingAmount total claim fingerprint db
  pure (updateOrderClaim db now order.id call, .creating call)

/-- The method is the selected one, or the first one. -/
def checkoutSelected (rt : Runtime) (cfg : Config) (now userID : Int) (req : CheckoutRequest)
    (claim : String) (order : OrderRecord) (db : Db) :
    Except ServiceError (Db × CheckoutOutcome) := do
  let handlingAmount := order.handlingAmount.getD 0
  ensure (0 ≤ handlingAmount ∧ order.totalAmount ≤ maxInt64 - handlingAmount) .invalidParameter
  let total := order.totalAmount + handlingAmount
  ensure (0 < total) .invalidParameter
  match order.checkoutResult with
  | some snapshot => do
    let result ← decodeCheckoutSnapshot snapshot req.methodID total
    pure (db, .answered result)
  | none => do
    ensure (¬checkoutCreationActive now order) .checkoutInProgress
    -- the fee is computed once, when the first method is selected
    claimCheckout rt cfg now userID req claim order
      ⟨order.paymentID.map fun _ => handlingAmount, order.checkoutFingerprint⟩ db

/-- Another method is selected: the current one is archived first. -/
def checkoutSwitched (rt : Runtime) (cfg : Config) (now userID : Int) (req : CheckoutRequest)
    (claim : String) (order : OrderRecord) (db : Db) :
    Except ServiceError (Db × CheckoutOutcome) := do
  ensure (¬checkoutCreationActive now order) .checkoutInProgress
  let db ← archiveCurrentPaymentAttempt order db
  match db.lockOrderPaymentAttempt order.id req.methodID with
  | none => claimCheckout rt cfg now userID req claim order ⟨none, none⟩ db
  | some selected => do
    ensure (selected.status = .pending) .orderPaidOrMissing
    ensure (attemptClaimActive now selected = false) .checkoutInProgress
    ensure (validAttemptAmount order.totalAmount selected.handlingAmount selected.amount)
      .invalidParameter
    match selected.checkoutResult with
    | some snapshot => do
      let result ← decodeCheckoutSnapshot snapshot req.methodID selected.amount
      pure (selectCachedPaymentAttempt now order.id selected db, .answered result)
    | none =>
      claimCheckout rt cfg now userID req claim order
        ⟨some selected.handlingAmount, selected.checkoutFingerprint⟩ db

/-- `claim` is what `newCheckoutClaim` returns. -/
def checkout (rt : Runtime) (cfg : Config) (now userID : Int) (req : CheckoutRequest)
    (claim : String) (db : Db) : Except ServiceError (Db × CheckoutOutcome) := do
  let tradeNo := trimSpace req.tradeNo
  ensure (tradeNo ≠ "") .invalidParameter
  let order ← require (db.lockOrder userID tradeNo) .orderPaidOrMissing
  ensure (order.status = .pending) .orderPaidOrMissing
  ensure (0 ≤ order.totalAmount) .invalidParameter
  if order.totalAmount = 0 then pure (db, .free tradeNo)
  else if order.paymentID.any (fun selected => selected ≠ req.methodID) then
    checkoutSwitched rt cfg now userID req claim order db
  else checkoutSelected rt cfg now userID req claim order db

/-- The first statement of `releaseCheckoutClaim`. -/
def releaseAttemptClaim (call : CheckoutCall) (db : Db) : Db :=
  { db with
    attempts := db.attempts.updateWhere
      (fun a => (db.orders.rows.any fun o =>
          o.id = a.orderID && o.userID = call.userID && o.tradeNo = call.tradeNo) &&
        a.checkoutClaim = some call.claim && a.status = .pending && a.checkoutResult.isNone)
      (fun a => { a with
        checkoutClaim := none
        checkoutClaimExpiresAt := none
        checkoutFingerprint := none }) fun _ => ⟨rfl, rfl⟩ }

/-- The second statement of `releaseCheckoutClaim`. -/
def releaseOrderClaim (now : Int) (call : CheckoutCall) (db : Db) : Db :=
  { db with
    orders := db.orders.updateWhere
      (fun r => r.userID = call.userID && r.tradeNo = call.tradeNo &&
        r.checkoutClaim = some call.claim && r.status = .pending && r.checkoutResult.isNone)
      (fun r => { r with
        checkoutClaim := none
        checkoutClaimExpiresAt := none
        checkoutFingerprint := none
        updatedAt := now }) fun _ => ⟨rfl, rfl⟩ }

def attemptAwaits (call : CheckoutCall) (orderID : Int) (a : OrderPaymentAttempt) : Bool :=
  a.method = (orderID, call.paymentID) && a.checkoutClaim = some call.claim &&
    a.checkoutFingerprint = some call.fingerprint && a.checkoutResult.isNone &&
    (a.status = .pending || a.status = .winner)

def persistAttemptResult (call : CheckoutCall) (orderID : Int) (encoded : CheckoutSnapshot)
    (db : Db) : Db :=
  { db with
    attempts := db.attempts.updateWhere (attemptAwaits call orderID)
      (fun a => { a with
        checkoutResult := some encoded
        checkoutClaim := none
        checkoutClaimExpiresAt := none }) fun _ => ⟨rfl, rfl⟩ }

/-- `SET checkout_claim = NULL, checkout_claim_expires_at = NULL`. -/
def clearOrderClaim (db : Db) (orderID : Int) : Db :=
  db.updateOrder orderID (fun r => { r with
    checkoutClaim := none
    checkoutClaimExpiresAt := none }) fun _ => ⟨rfl, rfl⟩

def callOutdated (call : CheckoutCall) (current : OrderRecord) : Prop :=
  current.status ≠ .pending ∨ current.paymentID ≠ some call.paymentID ∨
    current.totalAmount ≠ call.total - call.handlingAmount ∨
    current.handlingAmount.getD 0 ≠ call.handlingAmount ∨
    current.checkoutFingerprint ≠ some call.fingerprint

instance (call : CheckoutCall) (current : OrderRecord) : Decidable (callOutdated call current) := by
  unfold callOutdated
  infer_instance

/-- An order older than the attempt table gets its attempt row with the first
stored answer. -/
def createLegacyAttempt (call : CheckoutCall) (orderID : Int) (encoded : CheckoutSnapshot)
    (db : Db) : Except ServiceError Db := do
  let (db, _) ← upsertAttempt db
    { newAttempt orderID call.paymentID call.handlingAmount call.total with
      checkoutResult := some encoded
      checkoutFingerprint := some call.fingerprint }
    (fun _ => true)
    (fun a => { a with
      handlingAmount := call.handlingAmount
      amount := call.total
      checkoutResult := some encoded
      checkoutClaim := none
      checkoutClaimExpiresAt := none
      checkoutFingerprint := some call.fingerprint })
    fun _ => ⟨rfl, rfl⟩
  pure db

def persistOrderResult (now : Int) (call : CheckoutCall) (current : OrderRecord)
    (encoded : CheckoutSnapshot) (db : Db) : Except ServiceError Db := do
  let db ←
    if db.attempts.rows.any (attemptAwaits call current.id) then
      pure (persistAttemptResult call current.id encoded db)
    else createLegacyAttempt call current.id encoded db
  pure (db.updateOrder current.id (fun r => { r with
    checkoutResult := some encoded
    checkoutClaim := none
    checkoutClaimExpiresAt := none
    updatedAt := now }) fun _ => ⟨rfl, rfl⟩)

/-- The transaction may commit the attempt row and still return an error. -/
def persistCheckoutResult (now : Int) (call : CheckoutCall) (encoded : CheckoutSnapshot)
    (result : CheckoutResult) (db : Db) : Db × Except ServiceError CheckoutResult :=
  match db.lockOrder call.userID call.tradeNo with
  | none => (db, .error .orderPaidOrMissing)
  | some current =>
    let persisted := persistAttemptResult call current.id encoded db
    if current.status = .processing ∨ current.status = .completed ∨ current.status = .closed then
      if current.checkoutClaim = some call.claim then
        (clearOrderClaim persisted current.id, .ok ⟨-1, .flag true⟩)
      else (persisted, .ok ⟨-1, .flag true⟩)
    else
      match current.checkoutResult with
      | some snapshot => (db, decodeCheckoutSnapshot snapshot call.paymentID call.total)
      | none =>
        if callOutdated call current then (persisted, .error .orderPaidOrMissing)
        else if current.checkoutClaim ≠ some call.claim then
          (persisted, .error .checkoutInProgress)
        else
          match persistOrderResult now call current encoded db with
          | .ok db => (db, .ok result)
          | .error e => (db, .error e)

end ForestPanel
