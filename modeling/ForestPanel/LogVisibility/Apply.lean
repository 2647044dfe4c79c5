import Mathlib.Algebra.Ring.Int.Defs
import ForestPanel.LogVisibility.Records

/-!
# Preview and apply

`PreviewCommissionLogs` stores the records it found with a digest of them.
`ApplyCommissionLogs` takes, one statement after the other, the lock of its
idempotency key, of the preview, of the orders and of the records, compares the
digest of the records as they are now, and then writes and commits. Between any
two statements other requests and the financial writers go on, as far as the
locks let them.
-/
namespace ForestPanel

namespace LogVisibility

open Relational Outcome

/-- SHA-256 of the records, of a request and of a token; no two values have the
same digest. -/
structure Digests (δ : Type) where
  ofRecords : List CommissionLogRecord → δ
  ofRequest : ApplyRequest → δ
  ofToken : String → δ
  records_injective : Function.Injective ofRecords
  request_injective : Function.Injective ofRequest
  token_injective : Function.Injective ofToken

/-- A row of `v2_commission_log_preview`. -/
structure Preview (δ : Type) where
  id : Int
  tokenHash : δ
  actorID : Int
  action : Action
  filters : CommissionLogFilter Visibility
  snapshot : List CommissionLogRecord
  snapshotHash : δ
  reason : String
  allRecords : Bool
  recordCount : Int
  totalAmount : Int
  createdAt : Int
  expiresAt : Int
  appliedOperationID : Option Int
deriving DecidableEq

/-- A row of `v2_commission_log_operation`. -/
structure Operation (δ : Type) where
  id : Int
  actorID : Int
  idempotencyKey : String
  requestHash : δ
  previewID : Int
  action : Action
  reason : String
  recordCount : Int
  totalAmount : Int
  snapshot : List CommissionLogRecord
  appliedAt : Int
  receipt : ApplyResult
deriving DecidableEq

variable {δ : Type}

def Preview.ids (p : Preview δ) : List Int := p.snapshot.map (·.id)

def Preview.trades (p : Preview δ) : List String := (p.snapshot.map (·.tradeNo)).dedup

/-- `UNIQUE (actor_id, idempotency_key)`. -/
def Operation.key (o : Operation δ) : Int × String := (o.actorID, o.idempotencyKey)

abbrev Previews (δ : Type) := Table (Preview.id (δ := δ)) (Preview.tokenHash (δ := δ))
abbrev Operations (δ : Type) := Table (Operation.id (δ := δ)) (Operation.key (δ := δ))

/-- How far an `ApplyCommissionLogs` has come, with the preview it locked. -/
inductive Phase (δ : Type)
  | begun
  /-- The key is locked and has no operation yet. -/
  | keyed
  /-- The key is locked and has the operation of this request. -/
  | replaying (receipt : ApplyResult)
  | previewed (p : Preview δ)
  /-- The orders are locked in share mode. -/
  | frozen (p : Preview δ)
  /-- The records are locked and are those of the preview. -/
  | checked (p : Preview δ)
  | done
deriving DecidableEq

namespace Phase

def holdsKey : Phase δ → Bool
  | .begun | .done => false
  | _ => true

def preview? : Phase δ → Option (Preview δ)
  | .previewed p | .frozen p | .checked p => some p
  | _ => none

def orders? : Phase δ → Option (Preview δ)
  | .frozen p | .checked p => some p
  | _ => none

def logs? : Phase δ → Option (Preview δ)
  | .checked p => some p
  | _ => none

end Phase

structure Apply (δ : Type) where
  actor : Int
  req : ApplyRequest
  phase : Phase δ
deriving DecidableEq

def Apply.key (a : Apply δ) : Int × String := (a.actor, a.req.idempotencyKey)

structure Answer where
  actor : Int
  req : ApplyRequest
  result : Except LogError ApplyResult

def Answer.key (a : Answer) : Int × String := (a.actor, a.req.idempotencyKey)

/-- `answers` is what the applies have returned so far. -/
structure World (δ : Type) where
  users : Users
  orders : Orders
  logs : Logs
  previews : Previews δ
  operations : Operations δ
  previewSeq : Int
  operationSeq : Int
  applies : List (Apply δ)
  answers : List Answer

namespace World

variable (w : World δ)

/-- `checkCommissionLogOperator`. -/
def isOperator (actor : Int) : Bool :=
  1 ≤ actor && w.users.rows.any fun u => u.id = actor && u.banned = 0 &&
    (u.isAdmin = 1 || u.isStaff = 1)

def query (f : CommissionLogFilter Visibility) (limit : Nat) : List CommissionLogRecord :=
  queryCommissionLogRows w.orders w.logs f limit

/-! ### Locks -/

def keyLocked (key : Int × String) : Bool :=
  w.applies.any fun a => a.phase.holdsKey && a.key = key

def previewLocked (id : Int) : Bool :=
  w.applies.any fun a => a.phase.preview?.any fun p => p.id = id

def orderShared (tradeNo : String) : Bool :=
  w.applies.any fun a => a.phase.orders?.any fun p => tradeNo ∈ p.trades

/-- The operator's row is locked with the records. -/
def userShared (id : Int) : Bool :=
  w.applies.any fun a => a.phase.logs?.isSome && a.actor = id

def logLocked (id : Int) : Bool :=
  w.applies.any fun a => a.phase.logs?.any fun p => id ∈ p.ids

/-! ### Requests on their way -/

def setPhase (n : Nat) (a : Apply δ) (phase : Phase δ) : World δ :=
  { w with applies := w.applies.set n { a with phase } }

def answer (n : Nat) (a : Apply δ) (result : Except LogError ApplyResult) : World δ :=
  { w.setPhase n a .done with answers := w.answers ++ [⟨a.actor, a.req, result⟩] }

end World

def newPreview (D : Digests δ) (id actor : Int) (action : Action)
    (f : CommissionLogFilter Visibility) (reason token : String) (now : Int)
    (logs : List CommissionLogRecord) : Preview δ where
  id
  tokenHash := D.ofToken token
  actorID := actor
  action
  filters := f
  snapshot := logs
  snapshotHash := D.ofRecords logs
  reason
  allRecords := commissionLogFilterAll f
  recordCount := logs.length
  totalAmount := (logs.map (·.getAmount)).sum
  createdAt := now
  expiresAt := now + 600
  appliedOperationID := none

def expired (now : Int) (p : Preview δ) : Bool := p.expiresAt < now && p.appliedOperationID.isNone

/-- `PreviewCommissionLogs`; `token` is drawn at random. All statements see one
snapshot of the database. -/
def previewCommissionLogs [DecidableEq δ] (D : Digests δ) (actor : Int) (req : PreviewRequest)
    (token : String) (now : Int) (w : World δ) : Except LogError (World δ) := do
  let checked ← checkPreview req
  ensure (w.isOperator actor) .forbidden
  let logs := w.query checked.2.1 (commissionLogMaxBatch + 1)
  ensure (logs ≠ []) (.validation (some "没有符合条件的佣金记录"))
  ensure (logs.length ≤ commissionLogMaxBatch) (.validation (some "单批最多10000条，请缩小筛选范围"))
  -- deleting a preview that an apply has locked fails in this isolation level
  ensure (w.previews.rows.all fun p => !(expired now p && w.previewLocked p.id)) .failed
  let row := newPreview D (w.previewSeq + 1) actor checked.1 checked.2.1 checked.2.2 token now logs
  let previews ← require ((w.previews.deleteWhere (expired now)).insert? row) .failed
  pure { w with previews, previewSeq := w.previewSeq + 1 }

/-- `BEGIN`, and the first look at the operator. -/
def beginApply (actor : Int) (req : ApplyRequest) (w : World δ) : World δ :=
  match checkApply req with
  | .error e => { w with answers := w.answers ++ [⟨actor, req, .error e⟩] }
  | .ok () =>
    if w.isOperator actor then { w with applies := w.applies ++ [⟨actor, req, .begun⟩] }
    else { w with answers := w.answers ++ [⟨actor, req, .error .forbidden⟩] }

/-- `pg_advisory_xact_lock`, and the look for an operation under the key. -/
def lockKey [DecidableEq δ] (D : Digests δ) (n : Nat) (a : Apply δ) (w : World δ) : World δ :=
  if w.keyLocked a.key then w
  else
    match w.operations.findUniq? a.key with
    | none => w.setPhase n a .keyed
    | some o =>
      if o.requestHash ≠ D.ofRequest a.req then w.answer n a (.error .conflict)
      else if o.receipt.committed then w.setPhase n a (.replaying o.receipt)
      else w.answer n a (.error .unavailable)

/-- The end of a replay: the operator must still be one. -/
def replay (n : Nat) (a : Apply δ) (receipt : ApplyResult) (w : World δ) : World δ :=
  if w.isOperator a.actor then w.answer n a (.ok { receipt with replayed := true })
  else w.answer n a (.error .forbidden)

def checkPreviewRow [DecidableEq δ] (D : Digests δ) (now : Int) (req : ApplyRequest)
    (p : Preview δ) : Except LogError Unit := do
  ensure (p.appliedOperationID = none ∧ now < p.expiresAt) .conflict
  ensure (req.expectedAction = "" ∨ req.expectedAction = p.action.text) .conflict
  ensure (¬(p.allRecords ∧ ¬req.confirmAll)) (.validation (some "全部记录操作需再次confirm_all=true"))
  ensure (p.snapshot ≠ [] ∧ p.snapshot.length ≤ commissionLogMaxBatch ∧
    (p.snapshot.length : Int) = p.recordCount ∧ D.ofRecords p.snapshot = p.snapshotHash) .unavailable
  ensure (∀ id ∈ req.targetID, p.ids = [id]) .conflict

/-- `WHERE token_hash = $1 AND actor_id = $2 FOR UPDATE`. -/
def lockPreview [DecidableEq δ] (D : Digests δ) (n : Nat) (a : Apply δ) (now : Int)
    (w : World δ) : World δ :=
  match (w.previews.findUniq? (D.ofToken a.req.previewHash)).filter
      (fun p => p.actorID = a.actor) with
  | none => w.answer n a (.error .notFound)
  | some p =>
    if w.previewLocked p.id then w
    else
      match checkPreviewRow D now a.req p with
      | .error e => w.answer n a (.error e)
      | .ok () => w.setPhase n a (.previewed p)

/-- The operator is locked, the records are locked, read and compared. -/
def lockRecords [DecidableEq δ] (D : Digests δ) (n : Nat) (a : Apply δ) (p : Preview δ)
    (w : World δ) : World δ :=
  if ¬w.isOperator a.actor then w.answer n a (.error .forbidden)
  else if p.ids.any w.logLocked then w
  else if D.ofRecords (w.query (byIDs p.ids) (commissionLogMaxBatch + 1)) ≠ p.snapshotHash then
    w.answer n a (.error .conflict)
  else w.setPhase n a (.checked p)

/-- The `SET` list of the update. -/
def flip (action : Action) (now actor : Int) (reason : String) (row : LogRow) : LogRow :=
  match action with
  | .delete =>
    { row with
      deletedAt := some now
      deletedBy := some actor
      deleteReason := reason
      visibilityVersion := row.visibilityVersion + 1 }
  | .restore =>
    { row with
      deletedAt := none
      deletedBy := none
      deleteReason := ""
      visibilityVersion := row.visibilityVersion + 1 }

theorem flip_id (action : Action) (now actor : Int) (reason : String) (row : LogRow) :
    (flip action now actor reason row).id = row.id := by
  cases action <;> rfl

def flipped (p : Preview δ) (now actor : Int) (logs : Logs) : Logs :=
  logs.updateWhere (fun row => row.id ∈ p.ids) (flip p.action now actor p.reason)
    fun row => ⟨flip_id _ now actor _ row, flip_id _ now actor _ row⟩

def receiptOf (id now : Int) (p : Preview δ) : ApplyResult where
  operationID := id
  action := p.action
  count := p.recordCount
  totalAmount := p.totalAmount
  committed := true
  balanceChanged := false
  appliedAt := now
  replayed := false

def newOperation (D : Digests δ) (id : Int) (a : Apply δ) (p : Preview δ) (now : Int) :
    Operation δ where
  id
  actorID := a.actor
  idempotencyKey := a.req.idempotencyKey
  requestHash := D.ofRequest a.req
  previewID := p.id
  action := p.action
  reason := p.reason
  recordCount := p.recordCount
  totalAmount := p.totalAmount
  snapshot := p.snapshot
  appliedAt := now
  receipt := receiptOf id now p

/-- `UPDATE v2_commission_log_preview SET applied_operation_id = …, snapshot = '[]'`. -/
def consume (previews : Previews δ) (id operationID : Int) : Previews δ :=
  previews.updateWhere (fun p => p.id = id)
    (fun p => { p with
      appliedOperationID := some operationID
      snapshot := [] }) fun _ => ⟨rfl, rfl⟩

def writeApply [DecidableEq δ] (D : Digests δ) (a : Apply δ) (p : Preview δ) (now : Int)
    (w : World δ) : Except LogError (World δ) := do
  let id := w.operationSeq + 1
  ensure ((w.logs.rows.countP fun row => row.id ∈ p.ids : Int) = p.recordCount) .conflict
  -- `UNIQUE (preview_id)`
  ensure (w.operations.rows.all fun o => o.previewID ≠ p.id) .failed
  let operations ← require (w.operations.insert? (newOperation D id a p now)) .failed
  pure { w with
    logs := flipped p now a.actor w.logs
    operations
    previews := consume w.previews p.id id
    operationSeq := id }

/-- The connection may be lost after the database has committed: then the writes
stay and the caller is told that the request failed. -/
def commitApply [DecidableEq δ] (D : Digests δ) (n : Nat) (a : Apply δ) (p : Preview δ) (now : Int)
    (heard : Bool) (w : World δ) : World δ :=
  match writeApply D a p now w with
  | .error e => w.answer n a (.error e)
  | .ok w' =>
    if heard then w'.answer n a (.ok (receiptOf (w.operationSeq + 1) now p))
    else w'.answer n a (.error .failed)

/-- One write of a committed transaction of the panel. It waits while an apply
holds a lock on the row. -/
inductive Write
  /-- `SaveOrder`: the number is made from the nanosecond, so no record has it yet. -/
  | insertOrder (order : Order)
  | setCommissionStatus (tradeNo : String) (status : Int)
  | deleteOrder (tradeNo : String)
  | insertLog (row : LogRow)
  /-- The refund of an order. -/
  | deleteLogs (tradeNo : String)
  /-- A user is edited or gets or loses money. -/
  | setUser (user : User)
  | insertUser (user : User)
  | deleteUser (id : Int)
deriving Repr, DecidableEq

def financial (w : World δ) : Write → World δ
  | .insertOrder order =>
    if w.logs.rows.any (fun row => row.tradeNo = order.tradeNo) then w
    else
      match w.orders.insert? order with
      | some orders => { w with orders }
      | none => w
  | .setCommissionStatus tradeNo status =>
    if w.orderShared tradeNo then w
    else
      { w with
        orders := w.orders.updateWhere (fun o => o.tradeNo = tradeNo)
          (fun o => { o with commissionStatus := status }) fun _ => ⟨rfl, rfl⟩ }
  | .deleteOrder tradeNo =>
    if w.orderShared tradeNo then w
    else { w with orders := w.orders.deleteWhere fun o => o.tradeNo = tradeNo }
  | .insertLog row =>
    match w.logs.insert? row with
    | some logs => { w with logs }
    | none => w
  | .deleteLogs tradeNo =>
    if w.logs.rows.any (fun row => row.tradeNo = tradeNo && w.logLocked row.id) then w
    else { w with logs := w.logs.deleteWhere fun row => row.tradeNo = tradeNo }
  | .setUser user =>
    if w.userShared user.id then w
    else
      { w with
        users := w.users.updateWhere (fun u => u.id = user.id)
          (fun u => { user with id := u.id }) fun _ => ⟨rfl, rfl⟩ }
  | .insertUser user =>
    match w.users.insert? user with
    | some users => { w with users }
    | none => w
  | .deleteUser id =>
    if w.userShared id then w else { w with users := w.users.deleteWhere fun u => u.id = id }

inductive Act
  | preview (actor : Int) (req : PreviewRequest) (token : String) (now : Int)
  | begin (actor : Int) (req : ApplyRequest)
  | lockKey (n : Nat)
  | replay (n : Nat)
  | lockPreview (n : Nat) (now : Int)
  /-- `SELECT … FROM v2_order … FOR SHARE`. -/
  | lockOrders (n : Nat)
  | lockRecords (n : Nat)
  | commit (n : Nat) (now : Int) (heard : Bool)
  /-- The connection is lost, or a statement fails. -/
  | abort (n : Nat)
  | financial (write : Write)

def advance [DecidableEq δ] (D : Digests δ) (w : World δ) (n : Nat) (a : Apply δ) (act : Act) :
    World δ :=
  match act, a.phase with
  | .lockKey _, .begun => lockKey D n a w
  | .replay _, .replaying receipt => replay n a receipt w
  | .lockPreview _ now, .keyed => lockPreview D n a now w
  | .lockOrders _, .previewed p => w.setPhase n a (.frozen p)
  | .lockRecords _, .frozen p => lockRecords D n a p w
  | .commit _ now heard, .checked p => commitApply D n a p now heard w
  | .abort _, .done => w
  | .abort _, _ => w.answer n a (.error .failed)
  | _, _ => w

def step [DecidableEq δ] (D : Digests δ) (w : World δ) (act : Act) : World δ :=
  match act with
  | .preview actor req token now => commit w (previewCommissionLogs D actor req token now w)
  | .begin actor req => beginApply actor req w
  | .financial write => financial w write
  | .lockKey n | .replay n | .lockPreview n _ | .lockOrders n | .lockRecords n | .commit n _ _
  | .abort n =>
    match w.applies[n]? with
    | some a => advance D w n a act
    | none => w

end LogVisibility

end ForestPanel
