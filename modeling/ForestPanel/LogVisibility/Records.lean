import Mathlib.Data.List.Sort
import ForestPanel.Lib.Outcome
import ForestPanel.Lib.Table
import ForestPanel.Store.Text

/-!
# Commission records and the filters that select them

The rows that the visibility of commission records is about, the requests of
`PreviewCommissionLogs` and `ApplyCommissionLogs` with their checks, and the
query both of them read the records with.
-/
namespace ForestPanel

namespace LogVisibility

open Relational Outcome

/-- A row of `v2_commission_log`; the trade number is trimmed. -/
structure LogRow where
  id : Int
  inviteUserID : Int
  userID : Int
  tradeNo : String
  orderAmount : Int
  getAmount : Int
  createdAt : Int
  updatedAt : Int
  deletedAt : Option Int
  deletedBy : Option Int
  deleteReason : String
  visibilityVersion : Int
deriving Repr, DecidableEq

def LogRow.hidden (row : LogRow) : Bool := row.deletedAt.isSome

/-- A row and the `commission_status` of its order, if there is one. -/
structure CommissionLogRecord extends LogRow where
  commissionStatus : Option Int
deriving Repr, DecidableEq

structure Order where
  tradeNo : String
  commissionStatus : Int
deriving Repr, DecidableEq

structure User where
  id : Int
  banned : Int
  isAdmin : Int
  isStaff : Int
  balance : Int
  commissionBalance : Int
deriving Repr, DecidableEq

abbrev Orders := Table Order.tradeNo Order.tradeNo
abbrev Logs := Table LogRow.id LogRow.id
abbrev Users := Table User.id User.id

/-- `detail` is what the code puts behind the text of `ErrCommissionLogValidation`. -/
inductive LogError
  | validation (detail : Option String)
  | conflict
  | forbidden
  | notFound
  | unavailable
  /-- A statement failed. -/
  | failed
deriving Repr, DecidableEq

/-- The text of the errors that the code makes itself. -/
def LogError.message : LogError → Option String
  | .validation none => some "佣金记录参数无效"
  | .validation (some detail) => some ("佣金记录参数无效: " ++ detail)
  | .conflict => some "佣金记录或预览已变化，请重新预览"
  | .forbidden => some "没有佣金记录操作权限"
  | .notFound => some "佣金记录预览不存在"
  | .unavailable => some "admin service unavailable"
  | .failed => none

inductive Visibility
  | active | deleted | all
deriving Repr, DecidableEq

inductive Action
  | delete | restore
deriving Repr, DecidableEq

def Action.text : Action → String
  | .delete => "delete"
  | .restore => "restore"

def actionOf (text : String) : Option Action :=
  if text = "delete" then some .delete else if text = "restore" then some .restore else none

/-- `visibility` is a text in a request and one of three after `normalize`. -/
structure CommissionLogFilter (ν : Type) where
  id : Option Int
  ids : List Int
  inviteUserID : Option Int
  userID : Option Int
  tradeNo : String
  createdFrom : Option Int
  createdTo : Option Int
  commissionStatus : Option Int
  visibility : ν
deriving Repr, DecidableEq

def commissionLogMaxBatch : Nat := 10000

def maxInt32 : Int := 2147483647

def validID (id : Int) : Bool := 1 ≤ id && id ≤ maxInt32

def validTime (ts : Int) : Bool := 0 ≤ ts && ts ≤ maxInt32

/-- `strings.ContainsAny(s, "\x00\r\n")`. -/
def breaksLine (s : String) : Bool := s.toList.any fun c => c.toNat ∈ [0, 10, 13]

def visibilityOf (text : String) : Option Visibility :=
  if text = "" ∨ text = "active" then some .active
  else if text = "deleted" then some .deleted
  else if text = "all" then some .all
  else none

/-- The ids come back sorted and without repetition. -/
def normalizeCommissionLogFilter (f : CommissionLogFilter String) :
    Except LogError (CommissionLogFilter Visibility) := do
  let invalid : LogError := .validation none
  ensure (f.id.all validID && f.inviteUserID.all validID && f.userID.all validID) invalid
  ensure (¬(f.id.isSome ∧ f.ids ≠ []) ∧ f.ids.length ≤ commissionLogMaxBatch) invalid
  ensure (f.ids.all validID) invalid
  let tradeNo := trimSpace f.tradeNo
  ensure (tradeNo.utf8ByteSize ≤ 36 ∧ ¬breaksLine tradeNo) invalid
  ensure (f.createdFrom.all validTime && f.createdTo.all validTime) invalid
  ensure (∀ t₁ ∈ f.createdFrom, ∀ t₂ ∈ f.createdTo, t₁ < t₂) invalid
  ensure (f.commissionStatus.all fun status => 0 ≤ status && status ≤ 3) invalid
  let visibility ← require (visibilityOf f.visibility) invalid
  pure { f with
    ids := (f.ids.insertionSort (· ≤ ·)).dedup
    tradeNo
    visibility }

def commissionLogFilterAll (f : CommissionLogFilter Visibility) : Bool :=
  f.id.isNone && f.ids.isEmpty && f.inviteUserID.isNone && f.userID.isNone && f.tradeNo = "" &&
    f.createdFrom.isNone && f.createdTo.isNone && f.commissionStatus.isNone

def clause (want : Option Int) (test : Int → Bool) : Bool := want.all test

def commissionLogWhere (f : CommissionLogFilter Visibility) (r : CommissionLogRecord) : Bool :=
  clause f.id (· = r.id) && (f.ids.isEmpty || r.id ∈ f.ids) &&
    clause f.inviteUserID (· = r.inviteUserID) && clause f.userID (· = r.userID) &&
    (f.tradeNo = "" || r.tradeNo = f.tradeNo) &&
    clause f.createdFrom (· ≤ r.createdAt) && clause f.createdTo (r.createdAt < ·) &&
    clause f.commissionStatus (fun status => r.commissionStatus = some status) &&
    (match f.visibility with
      | .active => !r.hidden
      | .deleted => r.hidden
      | .all => true)

/-- The filter of `ApplyCommissionLogs`: the previewed rows, hidden or not. -/
def byIDs (ids : List Int) : CommissionLogFilter Visibility where
  id := none
  ids
  inviteUserID := none
  userID := none
  tradeNo := ""
  createdFrom := none
  createdTo := none
  commissionStatus := none
  visibility := .all

/-- `v2_commission_log l LEFT JOIN v2_order o ON o.trade_no = l.trade_no`. -/
def record (orders : Orders) (row : LogRow) : CommissionLogRecord :=
  { row with commissionStatus := (orders.find? row.tradeNo).map (·.commissionStatus) }

@[simp] theorem record_toLogRow (orders : Orders) (row : LogRow) :
    (record orders row).toLogRow = row := rfl

/-- `queryCommissionLogRows`: `ORDER BY l.id LIMIT …`. -/
def queryCommissionLogRows (orders : Orders) (logs : Logs) (f : CommissionLogFilter Visibility)
    (limit : Nat) : List CommissionLogRecord :=
  (((logs.rows.map (record orders)).filter (commissionLogWhere f)).insertionSort
    fun a b => a.id ≤ b.id).take limit

theorem mem_of_query {orders : Orders} {logs : Logs} {f : CommissionLogFilter Visibility}
    {limit : Nat} {r : CommissionLogRecord}
    (member : r ∈ queryCommissionLogRows orders logs f limit) :
    r.toLogRow ∈ logs ∧ r = record orders r.toLogRow ∧ commissionLogWhere f r = true := by
  have listed := (List.mem_insertionSort _).mp (List.mem_of_mem_take member)
  obtain ⟨joined, chosen⟩ := List.mem_filter.mp listed
  obtain ⟨row, stored, rfl⟩ := List.mem_map.mp joined
  exact ⟨stored, rfl, chosen⟩

structure PreviewRequest where
  filter : CommissionLogFilter String
  action : String
  reason : String
  confirmAll : Bool
deriving Repr, DecidableEq

/-- `expectedAction` is empty or what the route is for. -/
structure ApplyRequest where
  previewHash : String
  idempotencyKey : String
  confirm : Bool
  confirmAll : Bool
  targetID : Option Int
  expectedAction : String
deriving Repr, DecidableEq

structure ApplyResult where
  operationID : Int
  action : Action
  count : Int
  totalAmount : Int
  committed : Bool
  balanceChanged : Bool
  appliedAt : Int
  replayed : Bool
deriving Repr, DecidableEq

/-- What `PreviewCommissionLogs` checks before it opens its transaction. -/
def checkPreview (req : PreviewRequest) :
    Except LogError (Action × CommissionLogFilter Visibility × String) := do
  let action ← require (actionOf req.action) (.validation none)
  let filter :=
    if action = .restore ∧ req.filter.visibility = "" then
      { req.filter with visibility := "deleted" }
    else req.filter
  let f ← normalizeCommissionLogFilter filter
  ensure (f.visibility = if action = .delete then .active else .deleted)
    (.validation (some "删除仅接受active，恢复仅接受deleted"))
  let reason := trimSpace req.reason
  ensure (reason ≠ "" ∧ reason.length ≤ 500 ∧ ¬reason.toList.any (fun c => c.toNat = 0))
    (.validation none)
  ensure (¬(commissionLogFilterAll f ∧ ¬req.confirmAll))
    (.validation (some "无目标筛选需confirm_all=true"))
  pure (action, f, reason)

/-- `hex.DecodeString` of 32 bytes, in lower case. -/
def validPreviewHash (text : String) : Bool :=
  text.length = 64 && text.toList.all fun c => ('0' ≤ c && c ≤ '9') || ('a' ≤ c && c ≤ 'f')

def validKey (key : String) : Bool :=
  1 ≤ key.utf8ByteSize && key.utf8ByteSize ≤ 128 && trimSpace key = key && !breaksLine key

/-- What `ApplyCommissionLogs` checks before it opens its transaction. -/
def checkApply (req : ApplyRequest) : Except LogError Unit :=
  ensure (req.confirm ∧ validPreviewHash req.previewHash ∧ validKey req.idempotencyKey ∧
    (∀ id ∈ req.targetID, 1 ≤ id) ∧
    (req.expectedAction = "" ∨ (actionOf req.expectedAction).isSome)) (.validation none)

end LogVisibility

end ForestPanel
