import ForestPanel.Lib.Json
import ForestPanel.Lib.Table
import ForestPanel.Lib.Transition
import ForestPanel.Store.Text

/-!
# Migration mail

`SendMail`, `recordMailResult` and `runMailTask`, one statement on the database a step.
Requests and jobs of several API processes interleave. A statement that fails may still be
carried out later, and a process may crash between any two statements.
-/
namespace ForestPanel.UserMigration

open Relational Transition

inductive MailStatus
  | queued
  | running
  | queueFailed
  | interrupted
  | partialFailed
  | completed
deriving Repr, DecidableEq

/-- `status IN ('queued','running')` -/
def MailStatus.active (status : MailStatus) : Bool := status = .queued || status = .running

/-- `v2_user_migration_mail` -/
structure MailRow where
  requestID : String
  previewID : String
  actorID : Int
  contentHash : String
  status : MailStatus
  recipients : Nat
  sent : Nat
  failed : Nat
  intervalSeconds : Int
  createdAt : Int
  updatedAt : Int
deriving Repr, DecidableEq

structure MailTask where
  requestID : String
  previewID : String
  status : MailStatus
  recipients : Nat
  sent : Nat
  failed : Nat
  intervalSeconds : Int
  createdAt : Int
  updatedAt : Int
deriving Repr, DecidableEq

/-- `mailTaskColumns` -/
def MailRow.task (row : MailRow) : MailTask where
  requestID := row.requestID
  previewID := row.previewID
  status := row.status
  recipients := row.recipients
  sent := row.sent
  failed := row.failed
  intervalSeconds := row.intervalSeconds
  createdAt := row.createdAt
  updatedAt := row.updatedAt

/-- The primary key and the unique column are `request_id`. -/
abbrev MailTable := Table MailRow.requestID MailRow.requestID

structure Receipt where
  mailTrackingAvailable : Bool
  previewID : String
  status : String
deriving Repr, DecidableEq

/-- `v2_user_migration_receipt`; there is no receipt in a `receipt_json` that is no JSON. -/
structure ReceiptRow where
  previewID : String
  actorID : Int
  receipt : Option Receipt
deriving Repr, DecidableEq

abbrev ReceiptTable := Table ReceiptRow.previewID ReceiptRow.previewID

inductive MailError
  | unavailable
  | invalidParameter
  | targetRead
  | targetWrite
  | receiptNotFound
  | mailTrackingUnavailable
  | mailUnavailable
  | mailQueueUnavailable
  | mailNoRecipients
  | mailConflict
  | mailBusy
  | commitUnknown
deriving Repr, DecidableEq

structure MailRequest where
  previewID : String
  requestID : String
  subject : String
  content : String
  confirm : Bool
deriving Repr, DecidableEq

def validPreviewID (id : String) : Bool :=
  id.utf8ByteSize = 64 &&
    id.toList.all fun c => ('0' ≤ c && c ≤ '9') || ('a' ≤ c && c ≤ 'f')

/-- `strings.ContainsAny(s, "\r\n\x00")` -/
def breaksLine (s : String) : Bool := s.toList.any (· ∈ ['\r', '\n', '\x00'])

def normalizeMailRequest (actorID : Int) (req : MailRequest) : Except MailError MailRequest :=
  if breaksLine req.subject then .error .invalidParameter
  else
    let req := { req with subject := trimSpace req.subject, content := trimSpace req.content }
    if actorID ≤ 0 ∨ req.confirm = false ∨ validPreviewID req.previewID = false ∨
        validPreviewID req.requestID = false ∨ req.subject = "" ∨ req.content = "" ∨
        200 < req.subject.length ∨ 100000 < req.content.utf8ByteSize ∨
        breaksLine req.subject then
      .error .invalidParameter
    else .ok req

/-- `json.Marshal` of the preview, the subject and the content. -/
def MailRequest.marshal (req : MailRequest) : List Char :=
  Json.array [Json.quote req.previewID.toList, Json.quote req.subject.toList,
    Json.quote req.content.toList]

/-- The fields of `bulkMailConfig` that are read before the batch runs. -/
structure BulkMailConfig where
  host : String
  bulkIntervalSeconds : Int
deriving Repr, DecidableEq

def normalizeUserMailRecipients (emails : List String) : List String :=
  (emails.map trimSpace).filter (· ≠ "")

/-- `PrepareMigrationMail`: the interval, and the addresses the batch goes through. There is
no configuration when it cannot be read. -/
def prepareMigrationMail (cfg : Option BulkMailConfig) (emails : List String)
    (subject content : String) : Option (Int × List String) :=
  let subject := trimSpace subject
  let content := trimSpace content
  if subject = "" ∨ content = "" ∨ subject.toList.any (· ∈ ['\r', '\n']) then none
  else
    let emailList := normalizeUserMailRecipients emails
    if emailList = [] then none
    else
      match cfg with
      | none => none
      | some cfg => if cfg.host = "" then none else some (cfg.bulkIntervalSeconds, emailList)

/-- What one attempt to send to the address at a place of the batch gave. -/
structure Delivery where
  requestID : String
  place : Nat
  email : String
  success : Bool
deriving Repr, DecidableEq

def MailRow.isQueued (requestID : String) (row : MailRow) : Bool :=
  row.requestID = requestID && row.status = .queued

def MailRow.isRunning (requestID : String) (row : MailRow) : Bool :=
  row.requestID = requestID && row.status = .running

/-- `status='running' AND sent+failed<recipients` -/
def MailRow.counts (requestID : String) (row : MailRow) : Bool :=
  row.isRunning requestID && row.sent + row.failed < row.recipients

def markQueueFailed (mail : MailTable) (requestID : String) (now : Int) : MailTable :=
  mail.updateWhere (·.isQueued requestID)
    (fun row => { row with status := .queueFailed, updatedAt := now }) fun _ => ⟨rfl, rfl⟩

def markRunning (mail : MailTable) (requestID : String) (now : Int) : MailTable :=
  mail.updateWhere (·.isQueued requestID)
    (fun row => { row with status := .running, updatedAt := now }) fun _ => ⟨rfl, rfl⟩

/-- `sent=sent+$2,failed=failed+$3` -/
def MailRow.counted (row : MailRow) (success : Bool) (now : Int) : MailRow :=
  { row with
    sent := row.sent + if success then 1 else 0
    failed := row.failed + if success then 0 else 1
    updatedAt := now }

def countResult (mail : MailTable) (requestID : String) (success : Bool) (now : Int) :
    MailTable :=
  mail.updateWhere (·.counts requestID) (·.counted success now) fun _ => ⟨rfl, rfl⟩

def MailRow.finalStatus (row : MailRow) : MailStatus :=
  if row.sent + row.failed < row.recipients then .interrupted
  else if 0 < row.failed then .partialFailed
  else .completed

def finishTask (mail : MailTable) (requestID : String) (now : Int) : MailTable :=
  mail.updateWhere (·.isRunning requestID)
    (fun row => { row with status := row.finalStatus, updatedAt := now }) fun _ => ⟨rfl, rfl⟩

inductive Phase
  /-- `SELECT … FOR UPDATE` of the receipt -/
  | begun
  /-- the lookup of the request id -/
  | locked
  /-- the lookup of an active task -/
  | unseen
  /-- the recipients, and `PrepareMigrationMail` -/
  | idle
  /-- the `INSERT` -/
  | prepared (recipients : List String) (interval : Int) (emails : List String)
  /-- the commit -/
  | inserted (row : MailRow) (recipients emails : List String)
  /-- The commit was sent and is not known to have taken place; `told` when the request was
  answered so. -/
  | doubt (row : MailRow) (recipients emails : List String) (told : Bool)
  /-- `TryEnqueue` -/
  | committed (task : MailTask) (emails : List String)
  /-- the `UPDATE` to `queue_failed` -/
  | rejected (task : MailTask)
  | answered (result : Except MailError MailTask)
  | crashed

/-- `lateMark` is an `UPDATE` to `queue_failed` that failed, and may still be carried out. -/
structure Submission where
  host : Nat
  actorID : Int
  req : MailRequest
  hash : String
  phase : Phase
  lateMark : Option Int

/-- The request holds the lock on the row of its receipt. -/
def Phase.holds : Phase → Bool
  | .locked | .unseen | .idle | .prepared .. | .inserted .. | .doubt .. => true
  | .begun | .committed .. | .rejected .. | .answered .. | .crashed => false

def Phase.pending : Phase → Option MailRow
  | .inserted row _ _ | .doubt row _ _ _ => some row
  | .begun | .locked | .unseen | .idle | .prepared .. | .committed .. | .rejected ..
  | .answered .. | .crashed => none

/-- The process of a request stops. A commit that was sent may still take place. -/
def Submission.crash (now : Int) (s : Submission) : Submission :=
  match s.phase with
  | .inserted row recipients emails | .doubt row recipients emails _ =>
    { s with phase := .doubt row recipients emails false }
  | .rejected _ => { s with phase := .crashed, lateMark := some now }
  | .answered _ => s
  | .begun | .locked | .unseen | .idle | .prepared .. | .committed .. | .crashed =>
    { s with phase := .crashed }

inductive JobPhase
  /-- the `UPDATE` to `running` -/
  | waiting
  /-- the attempt to send to the address at a place -/
  | sending (place : Nat)
  /-- `recordMailResult` -/
  | delivered (d : Delivery)
  /-- the pause before the address at a place -/
  | pausing (place : Nat)
  /-- the `UPDATE` to the final status -/
  | finishing (failed : Bool)
  | ended (failed : Bool)
deriving DecidableEq

/-- The `late` fields are statements that failed, and may still be carried out. -/
structure Job where
  host : Nat
  requestID : String
  emails : List String
  interval : Int
  phase : JobPhase
  batchErr : Bool
  lateStart : Option Int
  lateResult : Option (Delivery × Int)
  lateFinish : Option Int

def Job.crash (now : Int) (j : Job) : Job :=
  match j.phase with
  | .waiting => { j with phase := .ended true, lateStart := some now }
  | .delivered d => { j with phase := .ended true, lateResult := some (d, now) }
  | .finishing _ => { j with phase := .ended true, lateFinish := some now }
  | .sending _ | .pausing _ => { j with phase := .ended true }
  | .ended _ => j

structure Mailing where
  req : MailRequest
  recipients : List String

/-- `mailings` says what the tasks were stored for, `attempts` which messages were handed to
the mail server, `recorded` which results were counted, and `starts` the requests whose job
was started. -/
structure State where
  receipts : ReceiptTable
  mail : MailTable
  submissions : List Submission
  jobs : List Job
  mailings : List Mailing
  attempts : List Delivery
  recorded : List Delivery
  starts : List String

def State.initial : State := ⟨.empty, .empty, [], [], [], [], [], []⟩

/-- Another transaction holds the lock on the receipt of an import. -/
def State.locked (st : State) (previewID : String) : Bool :=
  st.submissions.any fun s => s.phase.holds && s.req.previewID = previewID

/-- Another transaction has stored the request id and is not yet committed. -/
def State.awaits (st : State) (requestID : String) : Bool :=
  st.submissions.any fun s => s.phase.pending.any (·.requestID = requestID)

def State.setPhase (st : State) (n : Nat) (s : Submission) (phase : Phase) : State :=
  { st with submissions := st.submissions.set n { s with phase } }

def State.answer (st : State) (n : Nat) (s : Submission) (result : Except MailError MailTask) :
    State :=
  st.setPhase n s (.answered result)

def State.store (st : State) (mail : MailTable) (m : Mailing) : State :=
  { st with mail, mailings := st.mailings ++ [m] }

/-- What a request meets at a statement: whether it fails, `mailQueueAvailable`, the
dispatcher and its configuration, the answer of `mailRecipientsQuery`, and whether
`TryEnqueue` accepts the job. -/
structure Conditions where
  fails : Bool
  queueAvailable : Bool
  dispatcher : Bool
  config : Option BulkMailConfig
  recipients : List String
  accepts : Bool
  now : Int

def Submission.row (s : Submission) (recipients : List String) (interval now : Int) :
    MailRow where
  requestID := s.req.requestID
  previewID := s.req.previewID
  actorID := s.actorID
  contentHash := s.hash
  status := .queued
  recipients := recipients.length
  sent := 0
  failed := 0
  intervalSeconds := interval
  createdAt := now
  updatedAt := now

def checkReceipt (req : MailRequest) (row : ReceiptRow) : Except MailError Unit :=
  match row.receipt with
  | none => .error .targetRead
  | some receipt =>
    if receipt.previewID ≠ req.previewID ∨ receipt.status ≠ "completed" then .error .targetRead
    else if receipt.mailTrackingAvailable = false then .error .mailTrackingUnavailable
    else .ok ()

def advance (st : State) (n : Nat) (s : Submission) (c : Conditions) : State :=
  match s.phase with
  | .begun =>
    if c.fails then st.answer n s (.error .targetRead)
    else
      match st.receipts.find? s.req.previewID with
      | none => st.answer n s (.error .receiptNotFound)
      | some row =>
        if row.actorID ≠ s.actorID then st.answer n s (.error .receiptNotFound)
        else if st.locked s.req.previewID then st
        else
          match checkReceipt s.req row with
          | .error e => st.answer n s (.error e)
          | .ok () => st.setPhase n s .locked
  | .locked =>
    if c.fails then st.answer n s (.error .targetRead)
    else
      match st.mail.find? s.req.requestID with
      | none => st.setPhase n s .unseen
      | some row =>
        if row.previewID ≠ s.req.previewID ∨ row.actorID ≠ s.actorID then
          st.setPhase n s .unseen
        else if row.contentHash ≠ s.hash then st.answer n s (.error .mailConflict)
        else st.answer n s (.ok row.task)
  | .unseen =>
    if c.fails then st.answer n s (.error .targetRead)
    else if ∃ row ∈ st.mail, row.previewID = s.req.previewID ∧ row.status.active = true then
      st.answer n s (.error .mailBusy)
    else st.setPhase n s .idle
  | .idle =>
    if c.queueAvailable = false then st.answer n s (.error .mailQueueUnavailable)
    else if c.dispatcher = false then st.answer n s (.error .mailUnavailable)
    else if c.fails then st.answer n s (.error .targetRead)
    else if c.recipients = [] then st.answer n s (.error .mailNoRecipients)
    else
      match prepareMigrationMail c.config c.recipients s.req.subject s.req.content with
      | none => st.answer n s (.error .mailUnavailable)
      | some (interval, emails) =>
        if interval < 0 then st.answer n s (.error .mailUnavailable)
        else st.setPhase n s (.prepared c.recipients interval emails)
  | .prepared recipients interval emails =>
    if c.fails then st.answer n s (.error .targetWrite)
    else if st.awaits s.req.requestID then st
    else
      match st.mail.find? s.req.requestID with
      | some _ => st.answer n s (.error .mailConflict)
      | none =>
        -- the partial unique index, and the range of the column
        if (∃ row ∈ st.mail, row.previewID = s.req.previewID ∧ row.status.active = true) ∨
            2147483647 < recipients.length then
          st.answer n s (.error .targetWrite)
        else
          st.setPhase n s (.inserted (s.row recipients interval c.now) recipients emails)
  | .inserted row recipients emails =>
    if c.fails then st.setPhase n s (.doubt row recipients emails true)
    else
      match st.mail.insert? row with
      | none => st.answer n s (.error .commitUnknown)
      | some mail =>
        (st.setPhase n s (.committed row.task emails)).store mail ⟨s.req, recipients⟩
  | .committed task emails =>
    if c.accepts then
      { st.answer n s (.ok task) with
        jobs := st.jobs ++ [⟨s.host, s.req.requestID, emails, task.intervalSeconds, .waiting,
          false, none, none, none⟩] }
    else st.setPhase n s (.rejected task)
  | .rejected task =>
    if c.fails then
      { st with
        submissions := st.submissions.set n
          { s with phase := .answered (.error .targetWrite), lateMark := some c.now } }
    else if ∃ row ∈ st.mail, row.isQueued s.req.requestID = true then
      { st.answer n s (.ok { task with status := .queueFailed, updatedAt := c.now }) with
        mail := markQueueFailed st.mail s.req.requestID c.now }
    else st.answer n s (.error .targetWrite)
  | .doubt .. | .answered _ | .crashed => st

/-- The commit in doubt takes place, or its transaction is rolled back. -/
def resolve (st : State) (n : Nat) (s : Submission) (commits : Bool) : State :=
  match s.phase with
  | .doubt row recipients _ told =>
    let st := st.setPhase n s (if told then .answered (.error .commitUnknown) else .crashed)
    if commits then
      match st.mail.insert? row with
      | none => st
      | some mail => st.store mail ⟨s.req, recipients⟩
    else st
  | _ => st

/-- What a job meets: whether its statement fails, whether its context is done, and what the
mail server answers. -/
structure WorkConditions where
  fails : Bool
  cancelled : Bool
  success : Bool
  now : Int

def State.setJob (st : State) (k : Nat) (j : Job) : State :=
  { st with jobs := st.jobs.set k j }

/-- The next step of `runMailTask` and of the batch it runs. -/
def work (st : State) (k : Nat) (j : Job) (c : WorkConditions) : State :=
  match j.phase with
  | .waiting =>
    if c.fails then st.setJob k { j with phase := .ended true, lateStart := some c.now }
    else if ∃ row ∈ st.mail, row.isQueued j.requestID = true then
      { st.setJob k { j with phase := .sending 0 } with
        mail := markRunning st.mail j.requestID c.now
        starts := st.starts ++ [j.requestID] }
    else st.setJob k { j with phase := .ended false }
  | .sending place =>
    match j.emails[place]? with
    | none => st.setJob k { j with phase := .finishing j.batchErr }
    | some email =>
      if c.cancelled then st.setJob k { j with phase := .finishing true }
      else
        let d : Delivery := ⟨j.requestID, place, email, c.success⟩
        { st.setJob k { j with phase := .delivered d } with attempts := st.attempts ++ [d] }
  | .delivered d =>
    if c.fails then
      st.setJob k { j with phase := .finishing true, lateResult := some (d, c.now) }
    else if ∃ row ∈ st.mail, row.counts j.requestID = true then
      let next := d.place + 1
      let phase : JobPhase :=
        if next < j.emails.length ∧ 0 < j.interval then .pausing next else .sending next
      { st.setJob k { j with phase, batchErr := j.batchErr || !d.success } with
        mail := countResult st.mail j.requestID d.success c.now
        recorded := st.recorded ++ [d] }
    else st.setJob k { j with phase := .finishing true }
  | .pausing place =>
    if c.cancelled then st.setJob k { j with phase := .finishing true }
    else st.setJob k { j with phase := .sending place }
  | .finishing failed =>
    if c.fails then st.setJob k { j with phase := .ended true, lateFinish := some c.now }
    else
      { st.setJob k { j with phase := .ended failed } with
        mail := finishTask st.mail j.requestID c.now }
  | .ended _ => st

/-- A statement of a job is carried out after it had failed. -/
inductive Late
  | start
  | result
  | finish
deriving DecidableEq

def carryOut (st : State) (k : Nat) (j : Job) : Late → State
  | .start =>
    match j.lateStart with
    | none => st
    | some now =>
      { st.setJob k { j with lateStart := none } with
        mail := markRunning st.mail j.requestID now }
  | .result =>
    match j.lateResult with
    | none => st
    | some (d, now) =>
      let st' := st.setJob k { j with lateResult := none }
      if ∃ row ∈ st.mail, row.counts j.requestID = true then
        { st' with
          mail := countResult st.mail j.requestID d.success now
          recorded := st.recorded ++ [d] }
      else st'
  | .finish =>
    match j.lateFinish with
    | none => st
    | some now =>
      { st.setJob k { j with lateFinish := none } with
        mail := finishTask st.mail j.requestID now }

/-- What may fail before the first statement of `SendMail`. -/
inductive Fault
  | ensureSchema
  | beginTx
deriving DecidableEq

def Fault.error : Fault → MailError
  | .ensureSchema => .unavailable
  | .beginTx => .targetWrite

/-- `imported` is the receipt an import commits. -/
inductive Act
  | imported (row : ReceiptRow)
  | submit (host : Nat) (actorID : Int) (req : MailRequest) (fault : Option Fault)
  | advance (n : Nat) (c : Conditions)
  | resolve (n : Nat) (commits : Bool)
  | lateMark (n : Nat)
  | work (k : Nat) (c : WorkConditions)
  | late (k : Nat) (which : Late)
  | crash (host : Nat) (now : Int)

/-- `sha256` is SHA-256 in hexadecimal digits. -/
def submit (sha256 : List Char → String) (st : State) (host : Nat) (actorID : Int)
    (req : MailRequest) (fault : Option Fault) : State :=
  let result : MailRequest × Phase :=
    match normalizeMailRequest actorID req with
    | .error e => (req, .answered (.error e))
    | .ok req =>
      match fault with
      | some fault => (req, .answered (.error fault.error))
      | none => (req, .begun)
  { st with
    submissions := st.submissions ++
      [⟨host, actorID, result.1, sha256 result.1.marshal, result.2, none⟩] }

def carryOutMark (st : State) (n : Nat) (s : Submission) : State :=
  match s.lateMark with
  | none => st
  | some now =>
    { st with
      submissions := st.submissions.set n { s with lateMark := none }
      mail := markQueueFailed st.mail s.req.requestID now }

def step (sha256 : List Char → String) (st : State) : Act → State
  | .imported row =>
    match st.receipts.insert? row with
    | none => st
    | some receipts => { st with receipts }
  | .submit host actorID req fault => submit sha256 st host actorID req fault
  | .advance n c =>
    match st.submissions[n]? with
    | none => st
    | some s => UserMigration.advance st n s c
  | .resolve n commits =>
    match st.submissions[n]? with
    | none => st
    | some s => UserMigration.resolve st n s commits
  | .lateMark n =>
    match st.submissions[n]? with
    | none => st
    | some s => carryOutMark st n s
  | .work k c =>
    match st.jobs[k]? with
    | none => st
    | some j => UserMigration.work st k j c
  | .late k which =>
    match st.jobs[k]? with
    | none => st
    | some j => carryOut st k j which
  | .crash host now =>
    { st with
      submissions := st.submissions.map fun s => if s.host = host then s.crash now else s
      jobs := st.jobs.map fun j => if j.host = host then j.crash now else j }

end ForestPanel.UserMigration
