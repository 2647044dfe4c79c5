import Mathlib.Logic.Basic

/-!
# Errors of the order and payment code

A failed statement (a lost connection, a value out of range) rolls the
transaction back like any other error and is not listed.
-/
namespace ForestPanel

inductive ServiceError
  | notFound
  | planNotFound
  | orderNotFound
  | orderPaidOrMissing
  /-- Wrapped with the reason the recovery was refused. -/
  | recoveryExpired
  | invalidParameter
  | pendingOrderExists
  | depositAmountInvalid
  | depositAmountTooLarge
  | planSoldOut
  | periodUnavailable
  | resetUnavailable
  | subscriptionSoldOut
  | planCannotRenew
  | planChangeDisabled
  | planExpiredChangeRequired
  | couponInvalid
  | couponUnavailable
  | couponNotStarted
  | couponExpired
  | couponPlanRestricted
  | couponPeriodRestricted
  | couponUserLimit
  | couponFailed
  | insufficientBalance
  | paymentMethodUnavailable
  | checkoutInProgress
  | checkoutConfigChanged
  | requestFailed (detail : String)
  | cancelPendingOnly
  | paymentConfirmationMismatch (detail : String)
  | paymentCallbackConflict
  | refundCompletedOnly
  | refundLatestOnly
  | refundTargetNotSupported
  | commissionInvalid
  | commissionSettled
  | managedOrderMissing
  | managedOrderNotPayable
  /-- A unique index refused the insert. -/
  | duplicateRow
deriving Repr, DecidableEq

/-- The text of the error, as Go prints it. -/
def ServiceError.text : ServiceError → String
  | .notFound => "user not found"
  | .planNotFound => "plan not found"
  | .orderNotFound => "order not found"
  | .orderPaidOrMissing => "order does not exist or has been paid"
  | .recoveryExpired =>
    "order does not exist or has been paid: cancelled order recovery window expired"
  | .invalidParameter => "invalid parameter"
  | .pendingOrderExists => "pending order exists"
  | .depositAmountInvalid => "deposit amount must be greater than 0"
  | .depositAmountTooLarge => "deposit amount too large"
  | .planSoldOut => "plan sold out"
  | .periodUnavailable => "payment period unavailable"
  | .resetUnavailable => "reset package unavailable"
  | .subscriptionSoldOut => "subscription sold out"
  | .planCannotRenew => "plan cannot renew"
  | .planChangeDisabled => "plan change disabled"
  | .planExpiredChangeRequired => "expired subscription must change plan"
  | .couponInvalid => "invalid coupon"
  | .couponUnavailable => "coupon unavailable"
  | .couponNotStarted => "coupon not started"
  | .couponExpired => "coupon expired"
  | .couponPlanRestricted => "coupon plan restricted"
  | .couponPeriodRestricted => "coupon period restricted"
  | .couponUserLimit => "coupon user limit reached"
  | .couponFailed => "coupon failed"
  | .insufficientBalance => "insufficient balance"
  | .paymentMethodUnavailable => "payment method unavailable"
  | .checkoutInProgress => "payment checkout is already being created"
  | .checkoutConfigChanged => "payment checkout configuration changed after the first attempt"
  | .requestFailed detail => "payment request failed: " ++ detail
  | .cancelPendingOnly => "cancel pending orders only"
  | .paymentConfirmationMismatch detail => "payment confirmation does not match order: " ++ detail
  | .paymentCallbackConflict => "payment callback already belongs to another order"
  | .refundCompletedOnly => "refund completed orders only"
  | .refundLatestOnly => "only latest completed order can be refunded"
  | .refundTargetNotSupported => "refund target not supported"
  | .commissionInvalid => "佣金状态只能设置为 0（待确认）、1（发放中）或 3（已驳回）；2（已发放）由结算任务维护"
  | .commissionSettled => "该订单已有佣金结算记录，不能重置发放状态；隐藏返佣记录不撤回余额，也不能重新发放"
  | .managedOrderMissing => "订单不存在"
  | .managedOrderNotPayable => "当前订单不支持补单"
  | .duplicateRow => "duplicate key value violates unique constraint"

end ForestPanel
