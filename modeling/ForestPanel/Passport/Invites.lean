import ForestPanel.Lib.Table
import ForestPanel.Lib.Transition
import ForestPanel.Store.Text
import Mathlib.Data.List.Sort

/-!
# Registration with an invite code

The transaction of `Register`, one statement a step, under read committed: a read sees the
committed rows, a write and `FOR UPDATE` hold the row until the transaction ends, and a
statement that needs a row another transaction holds waits. The steps of all registrations
come in any order. Codes, campaigns and the end of campaigns come from elsewhere.

`User.code` and `User.campaign` are observations that no step reads.
-/
namespace ForestPanel.Invites

open Relational

/-- What a registration reads of the configuration. -/
structure Config where
  inviteForce : Bool
  inviteNeverExpire : Bool

/-- A row of `v2_invite_code`; a used code has status 1. -/
structure Code where
  id : Int
  userId : Int
  code : String
  used : Bool
deriving DecidableEq, Repr

inductive Status
  | active
  | completed
  | expired
  | abandoned
  | used
deriving DecidableEq, Repr

structure Campaign where
  id : Int
  userId : Int
  inviteCode : String
  rewardAmount : Int
  targetAmount : Int
  currentAmount : Int
  inviteCount : Int
  status : Status
  expiredAt : Int
deriving DecidableEq, Repr

structure Record where
  campaignId : Int
  inviteeUserId : Int
  inviteCode : String
  rewardAmount : Int
deriving DecidableEq, Repr

/-- A registered user, with the code it used and the campaign that was active when the
registration locked it. -/
structure User where
  id : Int
  email : String
  inviteUserId : Option Int
  code : Option Int
  campaign : Option Int
deriving DecidableEq, Repr

abbrev Codes := Table Code.id Code.id

abbrev Campaigns := Table Campaign.id Campaign.id

/-- The statement a registration comes to next. -/
inductive Phase
  | findInviteCode
  | findActiveCampaign
  | expireInviteCode
  | createUser
  | lockCampaign
  | accrue
  | commit
deriving DecidableEq, Repr

structure Tx where
  email : String
  inviteCodeInput : String
  now : Int
  phase : Phase
  inviteCode : Option Code
  activeCampaign : Option Campaign
  created : Option Int
  locked : Option Campaign
  progress : Option Campaign

structure World where
  codes : Codes
  campaigns : Campaigns
  records : List Record
  users : List User
  nextUser : Int
  txs : Nat → Option Tx
  /-- The registration that holds a row, or the entry of an unfinished insert. -/
  codeLocks : Int → Option Nat
  campaignLocks : Int → Option Nat
  emailLocks : String → Option Nat

def World.start : World where
  codes := Table.empty
  campaigns := Table.empty
  records := []
  users := []
  nextUser := 1
  txs := fun _ => none
  codeLocks := fun _ => none
  campaignLocks := fun _ => none
  emailLocks := fun _ => none

def World.setTx (w : World) (n : Nat) (tx : Tx) : World :=
  { w with txs := Function.update w.txs n (some tx) }

variable {κ : Type}

def acquire [DecidableEq κ] (locks : κ → Option Nat) (k : κ) (n : Nat) : κ → Option Nat :=
  Function.update locks k (some n)

def release (locks : κ → Option Nat) (n : Nat) : κ → Option Nat := fun k =>
  if locks k = some n then none else locks k

def World.leave (w : World) (n : Nat) : World :=
  { w with
    txs := Function.update w.txs n none
    codeLocks := release w.codeLocks n
    campaignLocks := release w.campaignLocks n
    emailLocks := release w.emailLocks n }

/-- The rows that `findInviteCodeTx` selects from. -/
def Code.matches (input : String) (c : Code) : Bool := c.code = input && !c.used

/-- `findActiveCampaignTx`: the latest campaign that is active or completed, if it is active. -/
def findActiveCampaignTx (campaigns : Campaigns) (userId : Int) (inviteCode : String) (now : Int) :
    Option Campaign :=
  let rows := campaigns.rows.filter fun c =>
    c.userId = userId && c.inviteCode = inviteCode && (c.status = .active || c.status = .completed)
  match (rows.insertionSort fun a b => b.id ≤ a.id).head? with
  | none => none
  | some campaign =>
    if campaign.status ≠ .active then none
    else if campaign.expiredAt ≤ now then none
    else some campaign

section

variable (cfg : Config)

/-- `LIMIT 1` returns any of the rows that match. -/
def findInviteCode (w : World) (n : Nat) (tx : Tx) : Option Int → World
  | none =>
    if w.codes.rows.any (Code.matches tx.inviteCodeInput) then w
    else if cfg.inviteForce then w.leave n
    else w.setTx n { tx with phase := .createUser }
  | some id =>
    match w.codes.find? id with
    | none => w
    | some row =>
      if row.matches tx.inviteCodeInput then
        w.setTx n { tx with inviteCode := some { row with code := trimSpace row.code }
                            phase := .findActiveCampaign }
      else w

def findActiveCampaign (w : World) (n : Nat) (tx : Tx) (code : Code) : World :=
  w.setTx n
    { tx with activeCampaign := findActiveCampaignTx w.campaigns code.userId code.code tx.now
              phase := if cfg.inviteNeverExpire then .createUser else .expireInviteCode }

/-- `UPDATE v2_invite_code SET status = 1`: the row is held, the write shows at the commit. -/
def expireInviteCode (w : World) (n : Nat) (tx : Tx) (code : Code) : World :=
  if (w.codeLocks code.id).isSome then w
  else
    { w with codeLocks := acquire w.codeLocks code.id n }.setTx n { tx with phase := .createUser }

/-- `INSERT INTO v2_user`; the e-mail is unique. -/
def createUser (w : World) (n : Nat) (tx : Tx) : World :=
  if (w.emailLocks tx.email).isSome then w
  else if w.users.any (fun u => u.email = tx.email) then w.leave n
  else
    { w with
      nextUser := w.nextUser + 1
      emailLocks := acquire w.emailLocks tx.email n }.setTx n
      { tx with
        created := some w.nextUser
        phase := if tx.inviteCode.isSome && tx.activeCampaign.isSome then .lockCampaign
          else .commit }

/-- `SELECT … FOR UPDATE` and the check of the row it returns. -/
def lockCampaign (w : World) (n : Nat) (tx : Tx) (campaign : Campaign) : World :=
  if (w.campaignLocks campaign.id).isSome then w
  else
    match w.campaigns.find? campaign.id with
    | none => w.leave n
    | some row =>
      let held := { w with campaignLocks := acquire w.campaignLocks campaign.id n }
      if row.status ≠ .active ∨ row.expiredAt ≤ tx.now then
        held.setTx n { tx with phase := .commit }
      else held.setTx n { tx with locked := some row
                                  phase := .accrue }

/-- The row that `accrueInviteRegistrationTx` writes. -/
def Campaign.accrued (c : Campaign) : Campaign :=
  let newCurrent := min (c.currentAmount + c.rewardAmount) c.targetAmount
  { c with
    currentAmount := newCurrent
    inviteCount := c.inviteCount + 1
    status := if c.targetAmount ≤ newCurrent then .completed else c.status }

def accrue (w : World) (n : Nat) (tx : Tx) (row : Campaign) : World :=
  if w.records.any (fun r => r.campaignId = row.id && some r.inviteeUserId = tx.created) then
    w.setTx n { tx with phase := .commit }
  else w.setTx n { tx with progress := some row.accrued
                           phase := .commit }

def Tx.user (tx : Tx) (userId : Int) : User where
  id := userId
  email := tx.email
  inviteUserId := (tx.inviteCode.map Code.userId).filter fun u => 0 < u
  code := tx.inviteCode.map Code.id
  campaign := tx.locked.map Campaign.id

/-- The codes with the one that the transaction has expired. -/
def Tx.expire (tx : Tx) (codes : Codes) : Codes :=
  match tx.inviteCode with
  | some code =>
    if cfg.inviteNeverExpire then codes
    else codes.updateWhere (fun c => c.id = code.id) (fun c => { c with used := true })
      fun _ => ⟨rfl, rfl⟩
  | none => codes

/-- The campaigns with the one that the transaction has written. -/
def Tx.write (tx : Tx) (campaigns : Campaigns) : Campaigns :=
  match tx.progress with
  | some new =>
    campaigns.updateWhere (fun c => c.id = new.id)
      (fun c => { c with
        currentAmount := new.currentAmount
        inviteCount := new.inviteCount
        status := new.status })
      fun _ => ⟨rfl, rfl⟩
  | none => campaigns

def Tx.records (tx : Tx) (userId : Int) : List Record :=
  match tx.progress, tx.inviteCode with
  | some new, some code => [⟨new.id, userId, code.code, new.rewardAmount⟩]
  | _, _ => []

def commit (w : World) (n : Nat) (tx : Tx) : World :=
  match tx.created with
  | none => w
  | some userId =>
    { w with
      codes := tx.expire cfg w.codes
      campaigns := tx.write w.campaigns
      records := w.records ++ tx.records userId
      users := w.users ++ [tx.user userId] }.leave n

/-- The next statement of registration `n`; `returned` is the row `LIMIT 1` takes. -/
def proceed (w : World) (n : Nat) (tx : Tx) (returned : Option Int) : World :=
  match tx.phase with
  | .findInviteCode => findInviteCode cfg w n tx returned
  | .findActiveCampaign =>
    match tx.inviteCode with
    | some code => findActiveCampaign cfg w n tx code
    | none => w
  | .expireInviteCode =>
    match tx.inviteCode with
    | some code => expireInviteCode w n tx code
    | none => w
  | .createUser => createUser w n tx
  | .lockCampaign =>
    match tx.activeCampaign with
    | some campaign => lockCampaign w n tx campaign
    | none => w
  | .accrue =>
    match tx.locked with
    | some row => accrue w n tx row
    | none => w
  | .commit => commit cfg w n tx

inductive Input
  /-- `BEGIN`, with the trimmed invite code. -/
  | register (n : Nat) (email inviteCode : String) (now : Int)
  | proceed (n : Nat) (returned : Option Int)
  /-- The connection is lost, or a statement fails. -/
  | rollback (n : Nat)
  | createCode (id userId : Int) (code : String)
  /-- A campaign starts with nothing accrued; its target is a price. -/
  | openCampaign (id userId : Int) (inviteCode : String) (rewardAmount : Int) (targetAmount : Nat)
      (expiredAt : Int)
  /-- A campaign ends: it expires, is abandoned or is used. -/
  | retire (id : Int) (status : Status)

def step (w : World) : Input → World
  | .register n email inviteCode now =>
    if (w.txs n).isSome then w
    else if cfg.inviteForce ∧ inviteCode = "" then w
    else
      w.setTx n
        { email, inviteCodeInput := inviteCode, now
          phase := if inviteCode = "" then .createUser else .findInviteCode
          inviteCode := none
          activeCampaign := none
          created := none
          locked := none
          progress := none }
  | .proceed n returned =>
    match w.txs n with
    | some tx => proceed cfg w n tx returned
    | none => w
  | .rollback n => w.leave n
  | .createCode id userId code =>
    match w.codes.insert? ⟨id, userId, code, false⟩ with
    | some codes => { w with codes }
    | none => w
  | .openCampaign id userId inviteCode rewardAmount targetAmount expiredAt =>
    match w.campaigns.insert?
        ⟨id, userId, inviteCode, rewardAmount, targetAmount, 0, 0, .active, expiredAt⟩ with
    | some campaigns => { w with campaigns }
    | none => w
  | .retire id status =>
    if (w.campaignLocks id).isSome ∨ status = .active ∨ status = .completed then w
    else
      { w with
        campaigns := w.campaigns.updateWhere (fun c => c.id = id) (fun c => { c with status })
          fun _ => ⟨rfl, rfl⟩ }

end

end ForestPanel.Invites
