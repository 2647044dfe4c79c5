import ForestPanel.Lib.Table

/-!
# Rows of the panel's tables

One structure per table, with the columns that the order, payment and commission
code reads. A nullable column is an `Option`; a status column is an enumeration
in the order of its integer codes. Money is in cents. An `INTEGER` write out of
range is a failed statement, that is a rolled back transaction, so amounts are
unbounded here.
-/
namespace ForestPanel

open Relational

def maxInt64 : Int := 9223372036854775807

structure UserRecord where
  id : Int
  inviteUserID : Option Int
  balance : Int
  commissionBalance : Int
  discount : Option Int
  commissionType : Int
  commissionRate : Option Int
  u : Int
  d : Int
  transferEnable : Int
  deviceLimit : Option Int
  banned : Int
  groupID : Option Int
  planID : Option Int
  speedLimit : Option Int
  expiredAt : Option Int
deriving Repr, DecidableEq

/-- The keys of `allowedOrderPeriods`. -/
inductive Period
  | monthPrice | quarterPrice | halfYearPrice | yearPrice | twoYearPrice | threeYearPrice
  | onetimePrice | resetPrice | deposit
deriving Repr, DecidableEq

def Period.text : Period → String
  | .monthPrice => "month_price"
  | .quarterPrice => "quarter_price"
  | .halfYearPrice => "half_year_price"
  | .yearPrice => "year_price"
  | .twoYearPrice => "two_year_price"
  | .threeYearPrice => "three_year_price"
  | .onetimePrice => "onetime_price"
  | .resetPrice => "reset_price"
  | .deposit => "deposit"

def allowedOrderPeriods : List Period :=
  [.monthPrice, .quarterPrice, .halfYearPrice, .yearPrice, .twoYearPrice, .threeYearPrice,
    .onetimePrice, .resetPrice, .deposit]

def periodOf (text : String) : Option Period := allowedOrderPeriods.find? fun p => p.text = text

structure PlanRecord where
  id : Int
  groupID : Int
  transferEnable : Int
  deviceLimit : Option Int
  speedLimit : Option Int
  shown : Int
  renew : Int
  monthPrice : Option Int
  quarterPrice : Option Int
  halfYearPrice : Option Int
  yearPrice : Option Int
  twoYearPrice : Option Int
  threeYearPrice : Option Int
  onetimePrice : Option Int
  resetPrice : Option Int
  capacityLimit : Option Int
deriving Repr, DecidableEq

/-- `limitPlanIDs` and `limitPeriod` are the parsed lists of a non-empty column. -/
structure CouponRecord where
  id : Int
  code : String
  type : Int
  value : Int
  shown : Int
  limitUse : Option Int
  limitUseWithUser : Option Int
  limitPlanIDs : Option (List Int)
  limitPeriod : Option (List String)
  startedAt : Int
  endedAt : Int
deriving Repr, DecidableEq

inductive CampaignStatus
  | active | completed | expired | abandoned | used
deriving Repr, DecidableEq

structure InviteCampaignRecord where
  id : Int
  userID : Int
  planID : Int
  period : String
  currentAmount : Int
  targetAmount : Int
  status : CampaignStatus
  expiredAt : Int
deriving Repr, DecidableEq

/-- A `float8` column as Go scans it. -/
inductive Float8
  | finite (value : Rat)
  | nan
  | inf
  | negInf
deriving Repr, DecidableEq

structure PaymentRecord where
  id : Int
  /-- The identity column counts up from 1. -/
  positive : 0 < id
  uuid : String
  payment : String
  config : String
  notifyDomain : Option String
  handlingFeeFixed : Option Int
  handlingFeePercent : Option Float8
  enable : Int
deriving DecidableEq

/-- Codes 0 to 4: waiting for payment, paid but not opened (only legacy rows),
cancelled or refunded, completed, consumed as surplus of a later order. -/
inductive OrderStatus
  | pending | processing | cancelled | completed | closed
deriving Repr, DecidableEq

/-- Codes 1, 2, 3, 4 and 9. -/
inductive OrderType
  | purchase | renewal | change | reset | deposit
deriving Repr, DecidableEq

/-- Codes 0 to 3: waiting for confirmation, paying out, paid out, rejected. -/
inductive CommissionStatus
  | waiting | paying | paid | rejected
deriving Repr, DecidableEq

/-- The data of a gateway's answer: a link or a form, a bare flag, or anything else. -/
inductive CheckoutData
  | text (value : String)
  | flag (value : Bool)
  | other
deriving Repr, DecidableEq

structure CheckoutResult where
  type : Int
  data : CheckoutData
deriving Repr, DecidableEq

/-- The JSON text stored in `checkout_result`. -/
structure CheckoutSnapshot where
  version : Int
  paymentID : Int
  total : Int
  result : CheckoutResult
deriving Repr, DecidableEq

/-- A row of `v2_order`. `surplusOrderIDs` is the list the JSON column holds. -/
structure OrderRecord where
  id : Int
  userID : Int
  planID : Int
  couponID : Option Int
  paymentID : Option Int
  type : OrderType
  period : Period
  tradeNo : String
  callbackNo : Option String
  totalAmount : Int
  handlingAmount : Option Int
  discountAmount : Option Int
  surplusAmount : Option Int
  refundAmount : Option Int
  balanceAmount : Option Int
  surplusOrderIDs : Option (List Int)
  checkoutResult : Option CheckoutSnapshot
  checkoutClaim : Option String
  checkoutClaimExpiresAt : Option Int
  checkoutFingerprint : Option String
  status : OrderStatus
  commissionStatus : CommissionStatus
  commissionBalance : Int
  actualCommissionBalance : Option Int
  inviteUserID : Option Int
  inviteCampaignID : Option Int
  inviteCampaignDiscountAmount : Int
  paidAt : Option Int
  createdAt : Int
  updatedAt : Int
deriving Repr, DecidableEq

/-- The columns of an order that only the insert writes. -/
structure OrderTerms where
  id : Int
  userID : Int
  planID : Int
  couponID : Option Int
  type : OrderType
  period : Period
  tradeNo : String
  totalAmount : Int
  refundAmount : Option Int
  balanceAmount : Option Int
  surplusOrderIDs : Option (List Int)
  inviteUserID : Option Int
  inviteCampaignID : Option Int
  inviteCampaignDiscountAmount : Int
  createdAt : Int
deriving Repr, DecidableEq

def OrderRecord.terms (o : OrderRecord) : OrderTerms where
  id := o.id
  userID := o.userID
  planID := o.planID
  couponID := o.couponID
  type := o.type
  period := o.period
  tradeNo := o.tradeNo
  totalAmount := o.totalAmount
  refundAmount := o.refundAmount
  balanceAmount := o.balanceAmount
  surplusOrderIDs := o.surplusOrderIDs
  inviteUserID := o.inviteUserID
  inviteCampaignID := o.inviteCampaignID
  inviteCampaignDiscountAmount := o.inviteCampaignDiscountAmount
  createdAt := o.createdAt

/-- `paymentAttemptPending`, `paymentAttemptWinner`, `paymentAttemptDuplicate`. -/
inductive AttemptStatus
  | pending | winner | duplicate
deriving Repr, DecidableEq

/-- A row of `v2_order_payment_attempt`. -/
structure OrderPaymentAttempt where
  id : Int
  orderID : Int
  paymentID : Int
  handlingAmount : Int
  amount : Int
  checkoutResult : Option CheckoutSnapshot
  checkoutClaim : Option String
  checkoutClaimExpiresAt : Option Int
  checkoutFingerprint : Option String
  callbackNo : Option String
  status : AttemptStatus
  paidAt : Option Int
deriving Repr, DecidableEq

/-- The columns of `uniq_v2_order_payment_attempt_method`. -/
def OrderPaymentAttempt.method (a : OrderPaymentAttempt) : Int × Int := (a.orderID, a.paymentID)

structure CommissionLog where
  inviteUserID : Int
  userID : Int
  tradeNo : String
  orderAmount : Int
  getAmount : Int
  createdAt : Int
deriving Repr, DecidableEq

/-- A row of `v2_runtime_kv`; `expireAt = 0` never expires. -/
structure RuntimeKV where
  k : String
  expireAt : Int
deriving Repr, DecidableEq

/-- Why the code changed a user's money on account of an order. -/
inductive Reason
  | balancePart | completion | commission
deriving Repr, DecidableEq

/-- An entry of the ghost ledger: what the user's two wallets gained. -/
structure Movement where
  userID : Int
  orderID : Int
  reason : Reason
  balance : Int
  commissionBalance : Int
deriving Repr, DecidableEq

end ForestPanel
