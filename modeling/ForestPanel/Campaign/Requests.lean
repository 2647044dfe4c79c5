import ForestPanel.System

/-!
# Requests around an invite campaign

`CreateInviteCampaign`, the reads that bring a campaign's status up to date,
`AbandonInviteCampaign` and `SaveOrder` read a campaign with a plain `SELECT`
and write its status by its number later. A request is therefore two steps or
more, and anything may happen in between. The accrual of a registration locks
the row it reads, so it is one step; so is every other step of the panel.
-/
namespace ForestPanel

open Relational Outcome Transition

namespace Campaign

abbrev Campaigns := Table InviteCampaignRecord.id InviteCampaignRecord.id

def Running (k : InviteCampaignRecord) : Prop := k.status = .active ∨ k.status = .completed

instance (k : InviteCampaignRecord) : Decidable (Running k) := by
  unfold Running
  infer_instance

/-- `UPDATE v2_invite_campaign SET status = … WHERE id = …`. -/
structure StatusWrite where
  campaignID : Int
  status : CampaignStatus
deriving Repr, DecidableEq

/-- The `nextStatus` of `refreshInviteCampaignStatus`. -/
def nextStatus (now : Int) (row : InviteCampaignRecord) : CampaignStatus :=
  if Running row ∧ row.expiredAt ≤ now then .expired
  else if row.status = .active ∧ row.targetAmount ≤ row.currentAmount then .completed
  else row.status

/-- The write of `refreshInviteCampaignStatus`, and of `SaveOrder`, which does the same. -/
def refreshWrite (now : Int) (row : InviteCampaignRecord) : Option StatusWrite :=
  if nextStatus now row = row.status then none else some ⟨row.id, nextStatus now row⟩

/-- A deposit does not look at the campaign. -/
def orderWrite (now userID : Int) (req : OrderSaveRequest) (seen : Db) : Option StatusWrite :=
  if req.planID = 0 then none else (seen.currentInviteCampaign userID).bind (refreshWrite now)

/-- `CreateInviteCampaign` goes on only past a campaign whose time is over. -/
def passes (now : Int) (existing : Option InviteCampaignRecord) : Bool :=
  existing.all fun row => row.expiredAt ≤ now

def expireWrite (now : Int) (existing : Option InviteCampaignRecord) : Option StatusWrite :=
  if passes now existing then existing.map fun row => ⟨row.id, .expired⟩ else none

def write (db : Db) : Option StatusWrite → Db
  | none => db
  | some u => db.setCampaignStatus u.campaignID u.status

inductive Request
  /-- `SaveOrder` holds its buyer's row; its read saw the campaigns of `seen`. -/
  | saving (userID : Int) (seen : Campaigns)
  /-- A campaign was read for display, or to be abandoned. -/
  | refreshing (row : InviteCampaignRecord) (abandon : Bool)
  | abandoning (campaignID : Int)
  /-- `CreateInviteCampaign` has read the current campaign. -/
  | creating (userID : Int) (existing : Option InviteCampaignRecord)
  | done

structure World where
  sys : Sys
  requests : List Request
  campaignSeq : Int

inductive Act
  /-- Any step of the panel, a `SaveOrder` that nothing interrupts among them. -/
  | panel (i : Input)
  | lockBuyer (userID : Int)
  /-- The rest of the transaction of the request `n`. -/
  | saveOrder (n : Nat) (cfg : Config) (now : Int) (req : OrderSaveRequest) (tradeNo : String)
  /-- `fetchInviteCampaignByID`, or one row of the administrator's list. -/
  | readCampaign (campaignID : Int)
  /-- `fetchLatestInviteCampaign`. -/
  | readCurrent (userID : Int) (abandon : Bool)
  | refresh (n : Nat) (now : Int)
  | abandon (n : Nat)
  | readExisting (userID : Int)
  | createCampaign (n : Nat) (now planID : Int) (period : String) (expireSeconds : Int)
  /-- A registration accrues the reward of a campaign's row. -/
  | accrue (campaignID : Int) (rewardAmount : Nat) (now : Int)
  /-- The request is given up, with its transaction if it has one. -/
  | drop (n : Nat)

namespace World

def db (w : World) : Db := w.sys.db

def setDb (w : World) (db : Db) : World := { w with sys := { w.sys with db } }

def add (w : World) (r : Request) : World := { w with requests := w.requests ++ [r] }

def set (w : World) (n : Nat) (r : Request) : World := { w with requests := w.requests.set n r }

/-- `lockUserTx` of an unfinished `SaveOrder`. -/
def locked (w : World) (userID : Int) : Bool :=
  w.requests.any fun
    | .saving buyer _ => buyer = userID
    | _ => false

/-- Saving an order locks its buyer, and so does opening one. -/
def waits (w : World) (i : Input) : Bool :=
  match i.op with
  | .saveOrder userID _ _ => w.locked userID
  | _ => (w.sys.opening i).any fun order => w.locked order.userID

def statusWrite (w : World) : Act → Option StatusWrite
  | .panel i =>
    match i.op with
    | .saveOrder userID req _ => orderWrite i.now userID req w.db
    | _ => none
  | .saveOrder n _ now req _ =>
    match w.requests[n]? with
    | some (.saving userID seen) => orderWrite now userID req { w.db with campaigns := seen }
    | _ => none
  | .refresh n now =>
    match w.requests[n]? with
    | some (.refreshing row _) => refreshWrite now row
    | _ => none
  | .abandon n =>
    match w.requests[n]? with
    | some (.abandoning campaignID) => some ⟨campaignID, .abandoned⟩
    | _ => none
  | .createCampaign n now _ _ _ =>
    match w.requests[n]? with
    | some (.creating _ existing) => expireWrite now existing
    | _ => none
  | _ => none

end World

/-- `SaveOrder` where its campaign read saw `seen`: the row is built from that
read, and the status it computed is written to the campaign as it is now. -/
def saveOrderSeeing (rt : Runtime) (cfg : Config) (now userID : Int) (req : OrderSaveRequest)
    (tradeNo : String) (seen : Campaigns) (db : Db) : Except ServiceError Db := do
  let stale := { db with campaigns := seen }
  let saved ← saveOrder rt cfg now userID req tradeNo stale
  pure { saved with campaigns := (write db (orderWrite now userID req stale)).campaigns }

/-- `accrueInviteRegistrationTx`, under the lock of the row. -/
def accrued (rewardAmount : Nat) (now : Int) (k : InviteCampaignRecord) : InviteCampaignRecord :=
  if k.status ≠ .active ∨ k.expiredAt ≤ now then k
  else
    let newCurrent := min (k.currentAmount + rewardAmount) k.targetAmount
    { k with
      currentAmount := newCurrent
      status := if k.targetAmount ≤ newCurrent then .completed else k.status }

theorem accrued_id (rewardAmount : Nat) (now : Int) (k : InviteCampaignRecord) :
    (accrued rewardAmount now k).id = k.id := by
  unfold accrued
  split <;> rfl

def accrue (campaignID : Int) (rewardAmount : Nat) (now : Int) (db : Db) : Db :=
  { db with
    campaigns := db.campaigns.updateWhere (fun k => k.id = campaignID) (accrued rewardAmount now)
      fun k => ⟨accrued_id rewardAmount now k, accrued_id rewardAmount now k⟩ }

/-- The row `CreateInviteCampaign` inserts, if the plan offers the period. -/
def newCampaign (db : Db) (id userID now planID : Int) (period : String) (expireSeconds : Int) :
    Option InviteCampaignRecord := do
  let plan ← db.plans.find? planID
  guard plan.isShown
  let targetAmount ← (periodOf (trimSpace period)).bind plan.priceForPeriod
  pure {
    id
    userID
    planID
    period := trimSpace period
    currentAmount := 0
    targetAmount
    status := .active
    expiredAt := now + expireSeconds }

/-- The writes of `CreateInviteCampaign`: all of them or none. -/
def createCampaign (w : World) (userID : Int) (existing : Option InviteCampaignRecord)
    (now planID : Int) (period : String) (expireSeconds : Int) : World :=
  let id := w.campaignSeq + 1
  match newCampaign w.db id userID now planID period expireSeconds with
  | none => w
  | some row =>
    if passes now existing then
      match (write w.db (expireWrite now existing)).campaigns.insert? row with
      | none => w
      | some campaigns => { w.setDb { w.db with campaigns } with campaignSeq := id }
    else w

/-- What a refreshed row is read for. -/
def afterRefresh (now : Int) (row : InviteCampaignRecord) (abandon : Bool) : Request :=
  if abandon ∧ (nextStatus now row = .active ∨ nextStatus now row = .completed) then
    .abandoning row.id
  else .done

def step (rt : Runtime) (w : World) : Act → World
  | .panel i => if w.waits i then w else { w with sys := w.sys.step rt i }
  | .lockBuyer userID => if w.locked userID then w else w.add (.saving userID w.db.campaigns)
  | .saveOrder n cfg now req tradeNo =>
    match w.requests[n]? with
    | some (.saving userID seen) =>
      (w.setDb (commit w.db (saveOrderSeeing rt cfg now userID req tradeNo seen w.db))).set n .done
    | _ => w
  | .readCampaign campaignID =>
    match w.db.campaigns.find? campaignID with
    | some row => w.add (.refreshing row false)
    | none => w
  | .readCurrent userID abandon =>
    match w.db.currentInviteCampaign userID with
    | some row => w.add (.refreshing row abandon)
    | none => w
  | .refresh n now =>
    match w.requests[n]? with
    | some (.refreshing row abandon) =>
      (w.setDb (write w.db (refreshWrite now row))).set n (afterRefresh now row abandon)
    | _ => w
  | .abandon n =>
    match w.requests[n]? with
    | some (.abandoning campaignID) =>
      (w.setDb (write w.db (some ⟨campaignID, .abandoned⟩))).set n .done
    | _ => w
  | .readExisting userID => w.add (.creating userID (w.db.currentInviteCampaign userID))
  | .createCampaign n now planID period expireSeconds =>
    match w.requests[n]? with
    | some (.creating userID existing) =>
      (createCampaign w userID existing now planID period expireSeconds).set n .done
    | _ => w
  | .accrue campaignID rewardAmount now => w.setDb (accrue campaignID rewardAmount now w.db)
  | .drop n => w.set n .done

end Campaign

end ForestPanel
