import ForestPanel.ClientEntry.Normal
import ForestPanel.GiftCard.Redeem
import ForestPanel.Lib.Outcome
import ForestPanel.Lib.Related
import ForestPanel.Lib.Table
import ForestPanel.Lib.Transition
import ForestPanel.Store.Wallet
import ForestPanel.Order.Save
import ForestPanel.Order.Settle
import ForestPanel.Order.Refund
import ForestPanel.Order.Commission
import ForestPanel.Payment.Checkout
import ForestPanel.Payment.Writes
import ForestPanel.System
import ForestPanel.Effects
import ForestPanel.Payment.Late
import ForestPanel.Payment.Replay
import ForestPanel.Life.Amounts
import ForestPanel.Life.Surplus
import ForestPanel.Life.Coupons
import ForestPanel.Life.Commissions
import ForestPanel.ClientEntry.Growth
import ForestPanel.ClientEntry.Moving
import ForestPanel.ClientEntry.Shared
import ForestPanel.ClientEntry.Readable
import ForestPanel.ClientEntry.Agreement
import ForestPanel.Session.Revocation
import ForestPanel.Passport.InviteLaws
import ForestPanel.Passport.RuntimeStore
import ForestPanel.Passport.Guesses
import ForestPanel.Passport.LockOut
import ForestPanel.Passport.LoginLaws
import ForestPanel.Campaign.Reward
import ForestPanel.LogVisibility.Laws
import ForestPanel.EntryMonitor.Notices
import ForestPanel.EntryMonitor.RunHistory
import ForestPanel.Queue.Drain
import ForestPanel.Alive.Laws
import ForestPanel.Traffic.Charges
import ForestPanel.AIOps.ChatLaws
import ForestPanel.AIOps.TurnLaws
import ForestPanel.AIOps.Redaction
import ForestPanel.AIOps.Preview
import ForestPanel.AIOps.ContextLaws
import ForestPanel.AIOps.FailoverLaws
import ForestPanel.Panel.Parameters
import ForestPanel.EntryEvidence.Delivered
import ForestPanel.Order.Amounts
import ForestPanel.Plan.Grants
import ForestPanel.Subscribe.Shown
import ForestPanel.UserMigration.MailRuns
import ForestPanel.UserMigration.PreviewLaws
import ForestPanel.DNSFailover.DecisionLaws
import ForestPanel.DNSFailover.ReportLaws
import ForestPanel.TrafficReset.Sweeps
import ForestPanel.TrafficReset.NewPeriod
import ForestPanel.Order.Admission
import ForestPanel.Order.Assign
import ForestPanel.Life.PlanOrders
import ForestPanel.Order.SurplusValue
import ForestPanel.Order.Cleanup
import ForestPanel.Order.Undo
import ForestPanel.AppleID.Sales
import ForestPanel.ClientEntry.MoveLaws
import ForestPanel.ClientEntry.Extras
import ForestPanel.SubscribeLink.Ends
import ForestPanel.Payment.Money
import ForestPanel.BackupIP.Claimable
import ForestPanel.SupportEntry.Membership
import ForestPanel.SupportEntry.Requests
import ForestPanel.SupportEntry.Change
import ForestPanel.SupportEntry.Lists
import ForestPanel.SupportEntry.Asked
import ForestPanel.SupportEntry.Rewrite
import ForestPanel.SupportEntry.Deciding
import ForestPanel.SupportEntry.Laws
import ForestPanel.SubscribeGuard.Log
import ForestPanel.SubscribeGuard.Retention
import ForestPanel.Lib.Shuffle
import ForestPanel.StructuredForm.Merge
import ForestPanel.StructuredForm.Places
import ForestPanel.StructuredForm.Orders
import ForestPanel.Plan.Merge
import ForestPanel.SupportEntry.Entitlement
import ForestPanel.SupportEntry.EntitlementLaws
import ForestPanel.Lib.Frames
import ForestPanel.ServerNode.ECHConfig
import ForestPanel.ServerNode.Keys
import ForestPanel.ServerNode.KeyLaws
import ForestPanel.Life.Panel
