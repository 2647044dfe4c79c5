import ForestPanel.Lib.Apart
import ForestPanel.UserMigration.Mail

/-!
# What migration mail keeps

Everything that is stored or known about one request id is its view. A statement changes the
view of one request id, and every other request, job and view is as before; what holds of a
job and of a stored task is an invariant of the view alone.
-/
namespace ForestPanel.UserMigration

open Places Relational Transition

/-! ## What a statement does to the table -/

inductive Changes : MailStatus → MailStatus → Prop
  | same (status : MailStatus) : Changes status status
  | started : Changes .queued .running
  | rejected : Changes .queued .queueFailed
  | interrupted : Changes .running .interrupted
  | partialFailed : Changes .running .partialFailed
  | completed : Changes .running .completed

/-- What no statement changes in a row, and how its status may change. -/
structure Keeps (old new : MailRow) : Prop where
  requestID : new.requestID = old.requestID
  previewID : new.previewID = old.previewID
  actorID : new.actorID = old.actorID
  contentHash : new.contentHash = old.contentHash
  recipients : new.recipients = old.recipients
  intervalSeconds : new.intervalSeconds = old.intervalSeconds
  createdAt : new.createdAt = old.createdAt
  status : Changes old.status new.status

theorem Keeps.refl (row : MailRow) : Keeps row row :=
  ⟨rfl, rfl, rfl, rfl, rfl, rfl, rfl, .same _⟩

theorem Changes.active {old new : MailStatus} (changes : Changes old new)
    (active : new.active = true) : old.active = true := by
  cases changes with
  | same => exact active
  | started => rfl
  | rejected => rfl
  | interrupted => rfl
  | partialFailed => rfl
  | completed => rfl

structure Moved (old new : MailTable) (requestID : String) : Prop where
  forth : ∀ row ∈ old, ∃ row' ∈ new, Keeps row row' ∧ (row.requestID ≠ requestID → row' = row)
  back : ∀ row' ∈ new, ∃ row ∈ old, Keeps row row' ∧ (row.requestID ≠ requestID → row' = row)

theorem Moved.refl (mail : MailTable) (requestID : String) : Moved mail mail requestID :=
  ⟨fun row member => ⟨row, member, .refl row, fun _ => rfl⟩,
    fun row member => ⟨row, member, .refl row, fun _ => rfl⟩⟩

private theorem moved_updateWhere (mail : MailTable) (requestID : String) {p : MailRow → Bool}
    {f : MailRow → MailRow} (hf : Preserves MailRow.requestID MailRow.requestID f)
    (keeps : ∀ row, p row = true → row.requestID = requestID ∧ Keeps row (f row)) :
    Moved mail (mail.updateWhere p f hf) requestID := by
  have one : ∀ row, Keeps row (if p row then f row else row) ∧
      (row.requestID ≠ requestID → (if p row then f row else row) = row) := by
    intro row
    split
    next chosen =>
      obtain ⟨own, kept⟩ := keeps row chosen
      exact ⟨kept, fun other => absurd own other⟩
    next => exact ⟨.refl row, fun _ => rfl⟩
  constructor
  · intro row member
    exact ⟨_, (mail.mem_updateWhere p f hf _).mpr ⟨row, member, rfl⟩, one row⟩
  · intro row' member
    obtain ⟨row, old, rfl⟩ := (mail.mem_updateWhere p f hf _).mp member
    exact ⟨row, old, one row⟩

section Statements

variable (mail : MailTable) (requestID : String) (now : Int)

private theorem isQueued_iff (row : MailRow) :
    row.isQueued requestID = true ↔ row.requestID = requestID ∧ row.status = .queued := by
  simp [MailRow.isQueued]

private theorem isRunning_iff (row : MailRow) :
    row.isRunning requestID = true ↔ row.requestID = requestID ∧ row.status = .running := by
  simp [MailRow.isRunning]

private theorem counts_iff (row : MailRow) :
    row.counts requestID = true ↔
      (row.requestID = requestID ∧ row.status = .running) ∧
        row.sent + row.failed < row.recipients := by
  simp [MailRow.counts, isRunning_iff]

theorem moved_markQueueFailed : Moved mail (markQueueFailed mail requestID now) requestID := by
  apply moved_updateWhere
  intro row chosen
  obtain ⟨own, queued⟩ := (isQueued_iff requestID row).mp chosen
  exact ⟨own, rfl, rfl, rfl, rfl, rfl, rfl, rfl, queued ▸ .rejected⟩

theorem moved_markRunning : Moved mail (markRunning mail requestID now) requestID := by
  apply moved_updateWhere
  intro row chosen
  obtain ⟨own, queued⟩ := (isQueued_iff requestID row).mp chosen
  exact ⟨own, rfl, rfl, rfl, rfl, rfl, rfl, rfl, queued ▸ .started⟩

theorem moved_countResult (success : Bool) :
    Moved mail (countResult mail requestID success now) requestID := by
  apply moved_updateWhere
  intro row chosen
  exact ⟨((counts_iff requestID row).mp chosen).1.1, rfl, rfl, rfl, rfl, rfl, rfl, rfl, .same _⟩

theorem moved_finishTask : Moved mail (finishTask mail requestID now) requestID := by
  apply moved_updateWhere
  intro row chosen
  obtain ⟨own, running⟩ := (isRunning_iff requestID row).mp chosen
  refine ⟨own, rfl, rfl, rfl, rfl, rfl, rfl, rfl, ?_⟩
  dsimp only
  rw [running, MailRow.finalStatus]
  split
  · exact .interrupted
  · split
    · exact .partialFailed
    · exact .completed

end Statements

/-! ## The view of a request id -/

@[ext] structure View where
  row : Option MailRow
  mailing : Option Mailing
  recorded : List Delivery
  attempts : List Delivery
  starts : Nat

def State.view (st : State) (requestID : String) : View where
  row := st.mail.find? requestID
  mailing := st.mailings.find? (·.req.requestID = requestID)
  recorded := st.recorded.filter (·.requestID = requestID)
  attempts := st.attempts.filter (·.requestID = requestID)
  starts := st.starts.count requestID

structure Accounts (sha256 : List Char → String) (v : View) (row : MailRow) (m : Mailing) :
    Prop where
  found : v.mailing = some m
  previewID : row.previewID = m.req.previewID
  contentHash : row.contentHash = sha256 m.req.marshal
  total : row.recipients = m.recipients.length
  addressed : v.recorded.map Delivery.email =
    (normalizeUserMailRecipients m.recipients).take (row.sent + row.failed)
  bounded : row.sent + row.failed ≤ (normalizeUserMailRecipients m.recipients).length
  sent : row.sent = v.recorded.countP (·.success)
  failed : row.failed = v.recorded.countP (!·.success)
  completed : row.status = .completed → row.failed = 0 ∧ row.sent = row.recipients
  unstarted : row.status = .queued ∨ row.status = .queueFailed → v.starts = 0
  once : v.starts ≤ 1
  untried : v.starts = 0 → v.attempts = []
  places : (v.attempts.map Delivery.place).Nodup
  attempted : ∀ d ∈ v.recorded, d ∈ v.attempts

def View.Stands (sha256 : List Char → String) (v : View) : Prop :=
  match v.row with
  | none => v.mailing = none ∧ v.recorded = [] ∧ v.attempts = [] ∧ v.starts = 0
  | some row => ∃ m, Accounts sha256 v row m

/-! ## Jobs -/

/-- The result that is still to be counted is that of the next address. -/
def Due (v : View) (row : MailRow) (emails : List String) (d : Delivery) : Prop :=
  d ∈ v.attempts ∧ (row.status = .running →
    row.sent + row.failed = d.place ∧ emails[d.place]? = some d.email)

/-- No statement of the job may still be carried out. -/
def Job.settled (j : Job) : Prop :=
  j.lateStart = none ∧ j.lateResult = none ∧ j.lateFinish = none

structure Sends (v : View) (row : MailRow) (j : Job) (place : Nat) : Prop where
  running : row.status = .running
  started : v.starts = 1
  counted : row.sent + row.failed = place
  tried : ∀ d ∈ v.attempts, d.place < place
  settled : j.settled

structure Counts (v : View) (row : MailRow) (j : Job) (d : Delivery) : Prop where
  running : row.status = .running
  started : v.starts = 1
  due : Due v row j.emails d
  tried : ∀ e ∈ v.attempts, e.place ≤ d.place
  settled : j.settled

/-- The statements that may still be carried out. -/
structure Lingers (v : View) (row : MailRow) (j : Job) : Prop where
  start : ∀ now, j.lateStart = some now → v.starts = 0 ∧ j.lateResult = none
  result : ∀ d now, j.lateResult = some (d, now) → Due v row j.emails d

def JobPhase.Stands (v : View) (row : MailRow) (j : Job) : JobPhase → Prop
  | .waiting => row.status = .queued ∧ j.settled
  | .sending place | .pausing place => Sends v row j place
  | .delivered d => Counts v row j d
  | .finishing _ | .ended _ => Lingers v row j

def Job.Stands (v : View) (j : Job) : Prop :=
  ∃ row m, v.row = some row ∧ v.mailing = some m ∧
    j.emails = normalizeUserMailRecipients m.recipients ∧ j.phase.Stands v row j

/-! ## Requests -/

/-- The import is `actorID`'s, and mail may be sent for it. -/
def Authorized (st : State) (previewID : String) (actorID : Int) : Prop :=
  ∃ row, st.receipts.find? previewID = some row ∧ row.actorID = actorID ∧
    ∀ req : MailRequest, req.previewID = previewID → checkReceipt req row = .ok ()

def Phase.looked : Phase → Bool
  | .unseen | .idle | .prepared .. | .inserted .. | .doubt .. => true
  | .begun | .locked | .committed .. | .rejected .. | .answered .. | .crashed => false

def Phase.free : Phase → Bool
  | .idle | .prepared .. | .inserted .. | .doubt .. => true
  | .begun | .locked | .unseen | .committed .. | .rejected .. | .answered .. | .crashed => false

/-- The task of the request is stored, and the job is not yet accepted. -/
def Phase.task : Phase → Option MailTask
  | .committed task _ | .rejected task => some task
  | .begun | .locked | .unseen | .idle | .prepared .. | .inserted .. | .doubt .. | .answered ..
  | .crashed => none

/-- The recipients and the addresses of a task that is not yet stored. -/
def Phase.lists : Phase → Option (List String × List String)
  | .prepared recipients _ emails | .inserted _ recipients emails
  | .doubt _ recipients emails _ => some (recipients, emails)
  | .begun | .locked | .unseen | .idle | .committed .. | .rejected .. | .answered ..
  | .crashed => none

def Phase.ended : Phase → Bool
  | .answered _ | .crashed => true
  | .begun | .locked | .unseen | .idle | .prepared .. | .inserted .. | .doubt .. | .committed ..
  | .rejected .. => false

/-- The request may still reject its task. -/
def Submission.owns (s : Submission) : Prop := s.phase.task ≠ none ∨ s.lateMark ≠ none

structure Submission.Stored (s : Submission) (row : MailRow) : Prop where
  requestID : row.requestID = s.req.requestID
  previewID : row.previewID = s.req.previewID
  actorID : row.actorID = s.actorID
  contentHash : row.contentHash = s.hash

structure Submission.Stands (sha256 : List Char → String) (st : State) (s : Submission) :
    Prop where
  hashed : s.hash = sha256 s.req.marshal
  marked : s.lateMark ≠ none → s.phase.ended = true
  authorized : s.phase.holds = true → Authorized st s.req.previewID s.actorID
  unseen : s.phase.looked = true → ∀ row ∈ st.mail, row.requestID = s.req.requestID →
    row.previewID ≠ s.req.previewID
  quiet : s.phase.free = true → ∀ row ∈ st.mail, row.previewID = s.req.previewID →
    row.status.active = false
  lists : ∀ recipients emails, s.phase.lists = some (recipients, emails) →
    emails = normalizeUserMailRecipients recipients
  pending : ∀ row, s.phase.pending = some row →
    (∀ stored ∈ st.mail, stored.requestID ≠ s.req.requestID) ∧
      ∃ recipients emails interval now, s.phase.lists = some (recipients, emails) ∧
        row = s.row recipients interval now
  owned : s.owns → (∀ j ∈ st.jobs, j.requestID ≠ s.req.requestID) ∧
    ∃ row ∈ st.mail, row.requestID = s.req.requestID ∧
      (row.status = .queued ∨ row.status = .queueFailed)
  fresh : ∀ task, s.phase.task = some task →
    ∃ row ∈ st.mail, s.Stored row ∧ row.status = .queued ∧ row.task = task
  mailed : ∀ task emails, s.phase = .committed task emails →
    ∃ m, st.mailings.find? (·.req.requestID = s.req.requestID) = some m ∧
      emails = normalizeUserMailRecipients m.recipients
  answered : ∀ task, s.phase = .answered (.ok task) → ∃ row ∈ st.mail, s.Stored row
  conflict : s.phase = .answered (.error .mailConflict) →
    ∃ row ∈ st.mail, row.requestID = s.req.requestID ∧
      (row.previewID ≠ s.req.previewID ∨ row.contentHash ≠ s.hash)

/-! ## The invariant -/

def Excludes (a b : Submission) : Prop :=
  a.phase.holds = true → b.phase.holds = true → a.req.previewID ≠ b.req.previewID

def Disjoint (a b : Submission) : Prop :=
  ∀ row row', a.phase.pending = some row → b.phase.pending = some row' →
    row.requestID ≠ row'.requestID

def Owns (a b : Submission) : Prop := a.owns → b.owns → a.req.requestID ≠ b.req.requestID

structure Inv (sha256 : List Char → String) (st : State) : Prop where
  locks : Apart Excludes st.submissions
  pendings : Apart Disjoint st.submissions
  owners : Apart Owns st.submissions
  distinct : Apart (fun a b : Job => a.requestID ≠ b.requestID) st.jobs
  submissions : ∀ s ∈ st.submissions, s.Stands sha256 st
  jobs : ∀ j ∈ st.jobs, j.Stands (st.view j.requestID)
  views : ∀ requestID, (st.view requestID).Stands sha256
  active : ∀ a ∈ st.mail, ∀ b ∈ st.mail, a.status.active = true → b.status.active = true →
    a.previewID = b.previewID → a = b
  actors : ∀ row ∈ st.mail, Authorized st row.previewID row.actorID

variable {sha256 : List Char → String} {st st' : State}

/-! ## What the others do to a request -/

/-- What a step of another process leaves of all that a request relies on. -/
structure Around (st st' : State) (s : Submission) : Prop where
  receipts : ∀ previewID actorID, Authorized st previewID actorID →
    Authorized st' previewID actorID
  forth : ∀ row ∈ st.mail, ∃ row' ∈ st'.mail, Keeps row row' ∧
    (s.owns → row.requestID = s.req.requestID → row' = row)
  back : ∀ row' ∈ st'.mail, (∃ row ∈ st.mail, Keeps row row') ∨
    (s.phase.holds = true → row'.previewID ≠ s.req.previewID) ∧
      ∀ row, s.phase.pending = some row → row'.requestID ≠ s.req.requestID
  jobs : s.owns → ∀ j' ∈ st'.jobs, j'.requestID = s.req.requestID →
    ∃ j ∈ st.jobs, j.requestID = s.req.requestID
  mailings : s.owns → st'.mailings.find? (·.req.requestID = s.req.requestID) =
    st.mailings.find? (·.req.requestID = s.req.requestID)

variable {phase : Phase} {a b : Submission} {k : Nat} {j : Job} {d : Delivery}
  {recipients emails : List String}

private theorem holds_of_looked (looked : phase.looked = true) : phase.holds = true := by
  cases phase <;> first | rfl | cases looked

private theorem holds_of_free (free : phase.free = true) : phase.holds = true := by
  cases phase <;> first | rfl | cases free

private theorem Submission.Stored.keeps {s : Submission} {row row' : MailRow}
    (stored : s.Stored row) (keeps : Keeps row row') : s.Stored row' where
  requestID := keeps.requestID.trans stored.requestID
  previewID := keeps.previewID.trans stored.previewID
  actorID := keeps.actorID.trans stored.actorID
  contentHash := keeps.contentHash.trans stored.contentHash

theorem Submission.Stands.frame {s : Submission} (stands : s.Stands sha256 st)
    (around : Around st st' s) : s.Stands sha256 st' where
  hashed := stands.hashed
  marked := stands.marked
  authorized holds := around.receipts _ _ (stands.authorized holds)
  unseen looked row' member same := by
    rcases around.back row' member with ⟨row, old, keeps⟩ | ⟨other, -⟩
    · rw [keeps.previewID]
      exact stands.unseen looked row old (keeps.requestID ▸ same)
    · exact other (holds_of_looked looked)
  quiet free row' member same := by
    rcases around.back row' member with ⟨row, old, keeps⟩ | ⟨other, -⟩
    · have before := stands.quiet free row old (keeps.previewID ▸ same)
      rw [Bool.eq_false_iff] at before ⊢
      exact fun active => before (keeps.status.active active)
    · exact absurd same (other (holds_of_free free))
  lists := stands.lists
  pending row pending := by
    obtain ⟨absent, built⟩ := stands.pending row pending
    refine ⟨?_, built⟩
    intro row' member
    rcases around.back row' member with ⟨old, stored, keeps⟩ | ⟨-, other⟩
    · rw [keeps.requestID]
      exact absent old stored
    · exact other row pending
  owned owns := by
    obtain ⟨free, row, stored, same, status⟩ := stands.owned owns
    obtain ⟨row', member, -, unchanged⟩ := around.forth row stored
    obtain rfl := unchanged owns same
    refine ⟨?_, row', member, same, status⟩
    intro j' listed clash
    obtain ⟨j, old, job⟩ := around.jobs owns j' listed clash
    exact free j old job
  fresh task waits := by
    obtain ⟨row, stored, own, rest⟩ := stands.fresh task waits
    obtain ⟨row', member, -, unchanged⟩ := around.forth row stored
    obtain rfl := unchanged (Or.inl (by rw [waits]; exact Option.some_ne_none _)) own.requestID
    exact ⟨row', member, own, rest⟩
  mailed task emails phase := by
    have owns : s.owns := Or.inl (by rw [phase]; exact Option.some_ne_none _)
    rw [around.mailings owns]
    exact stands.mailed task emails phase
  answered task phase := by
    obtain ⟨row, stored, own⟩ := stands.answered task phase
    obtain ⟨row', member, keeps, -⟩ := around.forth row stored
    exact ⟨row', member, own.keeps keeps⟩
  conflict phase := by
    obtain ⟨row, stored, same, differs⟩ := stands.conflict phase
    obtain ⟨row', member, keeps, -⟩ := around.forth row stored
    rw [← keeps.previewID, ← keeps.contentHash] at differs
    exact ⟨row', member, keeps.requestID.trans same, differs⟩

theorem Around.same {s : Submission} (receipts : st'.receipts = st.receipts)
    (mail : st'.mail = st.mail) (mailings : st'.mailings = st.mailings)
    (jobs : s.owns → ∀ j' ∈ st'.jobs, j'.requestID = s.req.requestID →
      ∃ j ∈ st.jobs, j.requestID = s.req.requestID) : Around st st' s where
  receipts previewID actorID := by
    unfold Authorized
    rw [receipts]
    exact id
  forth row member := ⟨row, mail ▸ member, .refl row, fun _ _ => rfl⟩
  back row member := Or.inl ⟨row, mail ▸ member, .refl row⟩
  jobs := jobs
  mailings _ := by rw [mailings]

theorem Around.moved {s : Submission} {requestID : String}
    (moved : Moved st.mail st'.mail requestID) (receipts : st'.receipts = st.receipts)
    (mailings : st'.mailings = st.mailings) (other : s.owns → s.req.requestID ≠ requestID)
    (jobs : s.owns → ∀ j' ∈ st'.jobs, j'.requestID = s.req.requestID →
      ∃ j ∈ st.jobs, j.requestID = s.req.requestID) : Around st st' s where
  receipts previewID actorID := by
    unfold Authorized
    rw [receipts]
    exact id
  forth row member := by
    obtain ⟨row', stored, keeps, unchanged⟩ := moved.forth row member
    exact ⟨row', stored, keeps, fun owns same => unchanged (same ▸ other owns)⟩
  back row' member := by
    obtain ⟨row, stored, keeps, -⟩ := moved.back row' member
    exact Or.inl ⟨row, stored, keeps⟩
  jobs := jobs
  mailings _ := by rw [mailings]

/-! ## One request is replaced -/

private theorem Excludes.symm (excludes : Excludes a b) : Excludes b a :=
  fun holds holds' same => excludes holds' holds same.symm

private theorem Disjoint.symm (disjoint : Disjoint a b) : Disjoint b a :=
  fun row row' pending pending' same => disjoint row' row pending' pending same.symm

private theorem Owns.symm (owns : Owns a b) : Owns b a :=
  fun owned owned' same => owns owned' owned same.symm

/-- What a request may become, as far as the others are concerned. -/
structure Follows (st : State) (s s' : Submission) : Prop where
  req : s'.req = s.req
  locks : s'.phase.holds = true →
    s.phase.holds = true ∨ st.locked s.req.previewID = false
  pendings : ∀ row, s'.phase.pending = some row →
    s.phase.pending = some row ∨ st.awaits row.requestID = false
  owners : s'.owns → s.owns ∨ ∃ row, s.phase.pending = some row

section Replaced

variable (inv : Inv sha256 st) {n : Nat} {s s' : Submission}
  (found : st.submissions[n]? = some s) (follows : Follows st s s')

include inv found follows

private theorem Inv.locks_set : Apart Excludes (st.submissions.set n s') := by
  refine inv.locks.set (fun _ _ => .symm) ?_
  intro b other holds holds'
  rw [follows.req]
  rcases follows.locks holds with held | free
  · exact inv.locks.others found other held holds'
  · intro same
    have locked : st.locked s.req.previewID = true := by
      refine List.any_eq_true.mpr ⟨b, List.mem_of_mem_eraseIdx other, ?_⟩
      simp [holds', same]
    rw [free] at locked
    cases locked

private theorem Inv.pendings_set : Apart Disjoint (st.submissions.set n s') := by
  refine inv.pendings.set (fun _ _ => .symm) ?_
  intro b other row row' pending pending'
  rcases follows.pendings row pending with held | free
  · exact inv.pendings.others found other row row' held pending'
  · intro same
    have awaits : st.awaits row.requestID = true := by
      refine List.any_eq_true.mpr ⟨b, List.mem_of_mem_eraseIdx other, ?_⟩
      simp [pending', same]
    rw [free] at awaits
    cases awaits

private theorem Inv.owners_set : Apart Owns (st.submissions.set n s') := by
  refine inv.owners.set (fun _ _ => .symm) ?_
  intro b other owns owns'
  rw [follows.req]
  rcases follows.owners owns with held | ⟨row, pending⟩
  · exact inv.owners.others found other held owns'
  · -- no task is stored under a request id that is still to be stored
    obtain ⟨-, row', stored, same, -⟩ :=
      (inv.submissions b (List.mem_of_mem_eraseIdx other)).owned owns'
    have absent := ((inv.submissions s (List.mem_of_getElem? found)).pending row pending).1
    exact fun clash => absent row' stored (same.trans clash.symm)

end Replaced

theorem Inv.phased (inv : Inv sha256 st) {n : Nat} {s s' : Submission}
    (found : st.submissions[n]? = some s) (follows : Follows st s s')
    (stands : s'.Stands sha256 st) :
    Inv sha256 { st with submissions := st.submissions.set n s' } where
  locks := inv.locks_set found follows
  pendings := inv.pendings_set found follows
  owners := inv.owners_set found follows
  distinct := inv.distinct
  submissions b listed := by
    have around : Around st { st with submissions := st.submissions.set n s' } b :=
      .same rfl rfl rfl fun _ j listed same => ⟨j, listed, same⟩
    rcases mem_set_cases listed with rfl | other
    · exact stands.frame around
    · exact (inv.submissions b (List.mem_of_mem_eraseIdx other)).frame around
  jobs := inv.jobs
  views := inv.views
  active := inv.active
  actors := inv.actors

/-! ## The rows of one request id are updated -/

theorem Moved.find?_other {mail mail' : MailTable} {requestID k : String}
    (moved : Moved mail mail' requestID) (other : k ≠ requestID) :
    mail'.find? k = mail.find? k := by
  apply Option.ext
  intro row
  rw [Table.find?_eq_some, Table.find?_eq_some]
  constructor
  · rintro ⟨member, same⟩
    obtain ⟨old, stored, keeps, unchanged⟩ := moved.back row member
    obtain rfl := unchanged (by rw [← keeps.requestID, same]; exact other)
    exact ⟨stored, same⟩
  · rintro ⟨member, same⟩
    obtain ⟨new, stored, -, unchanged⟩ := moved.forth row member
    obtain rfl := unchanged (by rw [same]; exact other)
    exact ⟨stored, same⟩

private theorem Inv.active_moved (inv : Inv sha256 st) {mail : MailTable} {requestID : String}
    (moved : Moved st.mail mail requestID) : ∀ a ∈ mail, ∀ b ∈ mail,
    a.status.active = true → b.status.active = true → a.previewID = b.previewID → a = b := by
  intro a first b second active active' same
  obtain ⟨a', old, keeps, -⟩ := moved.back a first
  obtain ⟨b', old', keeps', -⟩ := moved.back b second
  have equal := inv.active a' old b' old' (keeps.status.active active)
    (keeps'.status.active active') (by rw [← keeps.previewID, ← keeps'.previewID, same])
  subst equal
  exact mail.eq_of_key first second (keeps.requestID.trans keeps'.requestID.symm)

private theorem Inv.actors_moved (inv : Inv sha256 st) {mail : MailTable} {requestID : String}
    (moved : Moved st.mail mail requestID) :
    ∀ row ∈ mail, Authorized st row.previewID row.actorID := by
  intro row member
  obtain ⟨old, stored, keeps, -⟩ := moved.back row member
  rw [keeps.previewID, keeps.actorID]
  exact inv.actors old stored

theorem Inv.worked (inv : Inv sha256 st) {j' : Job} (found : st.jobs[k]? = some j)
    (same : j'.requestID = j.requestID) (receipts : st'.receipts = st.receipts)
    (mailings : st'.mailings = st.mailings) (submissions : st'.submissions = st.submissions)
    (jobs : st'.jobs = st.jobs.set k j') (moved : Moved st.mail st'.mail j.requestID)
    (apart : ∀ r, r ≠ j.requestID → st'.view r = st.view r)
    (view : (st'.view j.requestID).Stands sha256) (job : j'.Stands (st'.view j.requestID)) :
    Inv sha256 st' where
  locks := submissions ▸ inv.locks
  pendings := submissions ▸ inv.pendings
  owners := submissions ▸ inv.owners
  distinct := by
    rw [jobs]
    refine inv.distinct.set (fun _ _ => Ne.symm) ?_
    intro b other
    rw [same]
    exact inv.distinct.others found other
  submissions s listed := by
    rw [submissions] at listed
    have stands := inv.submissions s listed
    have place := List.mem_of_getElem? found
    refine stands.frame (.moved moved receipts mailings ?_ ?_)
    · intro owns clash
      exact (stands.owned owns).1 j place clash.symm
    · intro _ b member own
      rw [jobs] at member
      rcases mem_set_cases member with rfl | other
      · exact ⟨j, place, same.symm.trans own⟩
      · exact ⟨b, List.mem_of_mem_eraseIdx other, own⟩
  jobs b member := by
    rw [jobs] at member
    rcases mem_set_cases member with rfl | other
    · rw [same]
      exact job
    · rw [apart b.requestID (Ne.symm (inv.distinct.others found other))]
      exact inv.jobs b (List.mem_of_mem_eraseIdx other)
  views r := by
    by_cases own : r = j.requestID
    · rw [own]
      exact view
    · rw [apart r own]
      exact inv.views r
  active := inv.active_moved moved
  actors := by
    have before := inv.actors_moved moved
    unfold Authorized at before ⊢
    rw [receipts]
    exact before

/-! ## The accounts of a task -/

section Accounting

variable {v : View} {row : MailRow} {m : Mailing}

private theorem Accounts.status (accounts : Accounts sha256 v row m) (status : MailStatus)
    (now : Int) (completed : status = .completed → row.failed = 0 ∧ row.sent = row.recipients)
    (unstarted : status = .queued ∨ status = .queueFailed → v.starts = 0) :
    Accounts sha256 v { row with status, updatedAt := now } m :=
  { accounts with completed, unstarted }

private theorem Accounts.begun (accounts : Accounts sha256 v row m)
    (queued : row.status = .queued) (now : Int) :
    Accounts sha256 { v with starts := v.starts + 1 }
      { row with status := .running, updatedAt := now } m :=
  { accounts with
    completed := nofun
    unstarted := nofun
    once := by
      dsimp only
      rw [accounts.unstarted (Or.inl queued)]
    untried := nofun }

private theorem Accounts.tried (accounts : Accounts sha256 v row m) (started : v.starts = 1)
    (later : ∀ e ∈ v.attempts, e.place < d.place) :
    Accounts sha256 { v with attempts := v.attempts ++ [d] } row m :=
  { accounts with
    untried := by
      intro none
      rw [started] at none
      cases none
    places := by
      rw [List.map_append, List.nodup_append]
      refine ⟨accounts.places, by simp, ?_⟩
      intro place old place' new
      obtain ⟨e, member, rfl⟩ := List.mem_map.mp old
      rw [List.map_singleton, List.mem_singleton] at new
      have before := later e member
      omega
    attempted := fun e member => List.mem_append_left _ (accounts.attempted e member) }

private theorem Accounts.counted (accounts : Accounts sha256 v row m) (now : Int)
    (running : row.status = .running) (due : Due v row (normalizeUserMailRecipients m.recipients) d)
    :
    Accounts sha256 { v with recorded := v.recorded ++ [d] } (row.counted d.success now) m := by
  obtain ⟨attempted, next⟩ := due
  obtain ⟨counted, address⟩ := next running
  obtain ⟨short, -⟩ := List.getElem?_eq_some_iff.mp address
  have total : row.sent + (if d.success then 1 else 0) +
      (row.failed + if d.success then 0 else 1) = d.place + 1 := by
    split <;> omega
  exact
    { accounts with
      addressed := by
        dsimp only [MailRow.counted]
        rw [total, List.map_append, accounts.addressed, counted, List.take_add_one, address]
        rfl
      bounded := by
        dsimp only [MailRow.counted]
        rw [total]
        exact short
      sent := by
        dsimp only [MailRow.counted]
        rw [List.countP_append, ← accounts.sent, List.countP_singleton]
      failed := by
        dsimp only [MailRow.counted]
        rw [List.countP_append, ← accounts.failed, List.countP_singleton]
        cases d.success <;> rfl
      completed := by
        intro completed
        dsimp only [MailRow.counted] at completed
        rw [running] at completed
        cases completed
      attempted := by
        intro e member
        rcases List.mem_append.mp member with old | new
        · exact accounts.attempted e old
        · rw [List.mem_singleton.mp new]
          exact attempted }

private theorem Accounts.untouched (accounts : Accounts sha256 v row m) (zero : v.starts = 0) :
    row.sent + row.failed = 0 := by
  have recorded : v.recorded = [] := by
    apply List.eq_nil_iff_forall_not_mem.mpr
    intro d member
    have attempted := accounts.attempted d member
    rw [accounts.untried zero] at attempted
    cases attempted
  rw [accounts.sent, accounts.failed, recorded]
  rfl

private theorem Accounts.finished (accounts : Accounts sha256 v row m) (now : Int) :
    Accounts sha256 v { row with status := row.finalStatus, updatedAt := now } m := by
  refine accounts.status row.finalStatus now ?_ ?_
  · intro completed
    unfold MailRow.finalStatus at completed
    split at completed
    next => cases completed
    next all =>
      split at completed
      next => cases completed
      next none =>
        -- every recipient is counted, and none of them as failed
        have short : (normalizeUserMailRecipients m.recipients).length ≤ m.recipients.length :=
          (List.length_filter_le _ _).trans (List.length_map _).le
        have bounded := accounts.bounded
        have total := accounts.total
        omega
  · intro back
    unfold MailRow.finalStatus at back
    split at back
    · simp at back
    · split at back <;> simp at back

end Accounting

/-! ## The steps of a job -/

private theorem Inv.jobPhased (inv : Inv sha256 st) (j' : Job) (found : st.jobs[k]? = some j)
    (same : j'.requestID = j.requestID) (job : j'.Stands (st.view j.requestID)) :
    Inv sha256 (st.setJob k j') :=
  inv.worked found same rfl rfl rfl rfl (.refl _ _) (fun _ _ => rfl) (inv.views _) job

private theorem Inv.accounts (inv : Inv sha256 st) {requestID : String} {row : MailRow}
    {m : Mailing} (stored : (st.view requestID).row = some row)
    (mailing : (st.view requestID).mailing = some m) :
    Accounts sha256 (st.view requestID) row m := by
  have view := inv.views requestID
  unfold View.Stands at view
  rw [stored] at view
  obtain ⟨m', accounts⟩ := view
  obtain rfl : m = m' := Option.some.inj (mailing.symm.trans accounts.found)
  exact accounts

private theorem Job.settled.lingers {v : View} {row : MailRow} (settled : j.settled) :
    Lingers v row j := by
  obtain ⟨start, result, -⟩ := settled
  constructor
  · intro now some
    rw [start] at some
    cases some
  · intro d now some
    rw [result] at some
    cases some

section Rows

variable {mail : MailTable} {requestID : String} {row : MailRow} (now : Int)
  (found : mail.find? requestID = some row)

include found

private theorem find?_markRunning : (markRunning mail requestID now).find? requestID =
    some (if row.status = .queued then { row with status := .running, updatedAt := now }
      else row) := by
  rw [markRunning, Table.find?_updateWhere, found]
  simp [MailRow.isQueued, Table.key_of_find? found]

private theorem find?_markQueueFailed : (markQueueFailed mail requestID now).find? requestID =
    some (if row.status = .queued then { row with status := .queueFailed, updatedAt := now }
      else row) := by
  rw [markQueueFailed, Table.find?_updateWhere, found]
  simp [MailRow.isQueued, Table.key_of_find? found]

private theorem find?_finishTask : (finishTask mail requestID now).find? requestID =
    some (if row.status = .running then { row with status := row.finalStatus, updatedAt := now }
      else row) := by
  rw [finishTask, Table.find?_updateWhere, found]
  simp [MailRow.isRunning, Table.key_of_find? found]

private theorem find?_countResult (success : Bool) (counts : row.counts requestID = true) :
    (countResult mail requestID success now).find? requestID =
      some (row.counted success now) := by
  rw [countResult, Table.find?_updateWhere, found]
  simp [counts]

private theorem exists_counts :
    (∃ r ∈ mail, r.counts requestID = true) ↔ row.counts requestID = true := by
  constructor
  · rintro ⟨r, member, counts⟩
    have key := ((counts_iff requestID r).mp counts).1.1
    have same : mail.find? requestID = some r := (mail.find?_eq_some requestID r).mpr ⟨member, key⟩
    rw [found] at same
    rwa [Option.some.inj same]
  · intro counts
    exact ⟨row, Table.mem_of_find? found, counts⟩

end Rows

private theorem Inv.counted (inv : Inv sha256 st) {row : MailRow} {m : Mailing} (j' : Job)
    (now : Int) (found : st.jobs[k]? = some j) (same : j'.requestID = j.requestID)
    (emails : j'.emails = j.emails) (stored : (st.view j.requestID).row = some row)
    (mailing : (st.view j.requestID).mailing = some m)
    (list : j.emails = normalizeUserMailRecipients m.recipients)
    (due : Due (st.view j.requestID) row j.emails d) (counts : row.counts j.requestID = true)
    (phase : j'.phase.Stands
      { st.view j.requestID with
        row := some (row.counted d.success now)
        recorded := (st.view j.requestID).recorded ++ [d] } (row.counted d.success now) j') :
    Inv sha256
      { st.setJob k j' with
        mail := countResult st.mail j.requestID d.success now
        recorded := st.recorded ++ [d] } := by
  have running := ((counts_iff _ row).mp counts).1.2
  have own : d.requestID = j.requestID :=
    of_decide_eq_true (List.mem_filter.mp due.1).2
  have moved := moved_countResult st.mail j.requestID now d.success
  have row' := find?_countResult now stored d.success counts
  have recorded : (st.recorded ++ [d]).filter (·.requestID = j.requestID) =
      (st.view j.requestID).recorded ++ [d] := by
    rw [List.filter_append]
    simp [own, State.view]
  apply inv.worked found same
  case receipts => rfl
  case mailings => rfl
  case submissions => rfl
  case jobs => rfl
  case moved => exact moved
  case apart =>
    intro r other
    simp [State.view, State.setJob, moved.find?_other other, own, Ne.symm other]
  case view =>
    unfold View.Stands State.view State.setJob
    dsimp only
    rw [row', recorded]
    have accounts := inv.accounts stored mailing
    have counted := accounts.counted now running (list ▸ due)
    exact ⟨m, { counted with }⟩
  case job =>
    unfold State.view State.setJob
    dsimp only
    rw [row', recorded]
    exact ⟨_, m, rfl, mailing, emails.trans list, phase⟩

private theorem Inv.updated (inv : Inv sha256 st) {row : MailRow} {m : Mailing} {mail : MailTable}
    (j' : Job) (starts : List String) (found : st.jobs[k]? = some j)
    (same : j'.requestID = j.requestID) (emails : j'.emails = j.emails)
    (mailing : (st.view j.requestID).mailing = some m)
    (list : j.emails = normalizeUserMailRecipients m.recipients)
    (moved : Moved st.mail mail j.requestID) (stored : mail.find? j.requestID = some row)
    (others : ∀ r, r ≠ j.requestID → starts.count r = st.starts.count r) (accounts : Accounts sha256
      { st.view j.requestID with starts := starts.count j.requestID } row m)
    (phase : j'.phase.Stands
      { st.view j.requestID with row := some row, starts := starts.count j.requestID } row j') :
    Inv sha256 { st.setJob k j' with mail, starts } := by
  apply inv.worked found same
  case receipts => rfl
  case mailings => rfl
  case submissions => rfl
  case jobs => rfl
  case moved => exact moved
  case apart =>
    intro r other
    simp [State.view, State.setJob, moved.find?_other other, others r other]
  case view =>
    unfold View.Stands State.view State.setJob
    dsimp only
    rw [stored]
    exact ⟨m, { accounts with }⟩
  case job =>
    unfold State.view State.setJob
    dsimp only
    rw [stored]
    exact ⟨row, m, rfl, mailing, emails.trans list, phase⟩

private theorem Inv.sent (inv : Inv sha256 st) (found : st.jobs[k]? = some j)
    (phase : j.phase = .sending d.place) (own : d.requestID = j.requestID)
    (address : j.emails[d.place]? = some d.email) :
    Inv sha256
      { st.setJob k { j with phase := .delivered d } with attempts := st.attempts ++ [d] } := by
  obtain ⟨row, m, stored, mailing, list, sends⟩ :=
    inv.jobs j (List.mem_of_getElem? found)
  rw [phase] at sends
  obtain ⟨running, started, counted, tried, settled⟩ := sends
  have attempts : (st.attempts ++ [d]).filter (·.requestID = j.requestID) =
      (st.view j.requestID).attempts ++ [d] := by
    rw [List.filter_append]
    simp [State.view, own]
  apply inv.worked found
  case jobs => rfl
  case same => rfl
  case receipts => rfl
  case mailings => rfl
  case submissions => rfl
  case moved => exact .refl _ _
  case apart =>
    intro r other
    simp [State.view, State.setJob, own, Ne.symm other]
  case view =>
    have accounts := (inv.accounts stored mailing).tried started tried
    unfold View.Stands State.view State.setJob
    dsimp only
    rw [attempts, show st.mail.find? j.requestID = some row from stored]
    exact ⟨m, { accounts with }⟩
  case job =>
    unfold State.view State.setJob
    dsimp only
    rw [attempts]
    refine ⟨row, m, stored, mailing, list, running, started, ?_, ?_, settled⟩
    · exact ⟨by simp, fun _ => ⟨counted, address⟩⟩
    · intro e member
      rcases List.mem_append.mp member with old | new
      · exact (tried e old).le
      · rw [List.mem_singleton.mp new]

private theorem Inv.stopped (inv : Inv sha256 st) {row : MailRow} {m : Mailing} (phase : JobPhase)
    (found : st.jobs[k]? = some j) (stored : (st.view j.requestID).row = some row)
    (mailing : (st.view j.requestID).mailing = some m)
    (list : j.emails = normalizeUserMailRecipients m.recipients) (settled : j.settled)
    (stops : ∃ failed, phase = .finishing failed ∨ phase = .ended failed) :
    Inv sha256 (st.setJob k { j with phase }) := by
  have lingers : Lingers (st.view j.requestID) row { j with phase } :=
    { settled.lingers (j := j) with }
  obtain ⟨failed, rfl | rfl⟩ := stops
  · exact inv.jobPhased _ found rfl ⟨row, m, stored, mailing, list, lingers⟩
  · exact inv.jobPhased _ found rfl ⟨row, m, stored, mailing, list, lingers⟩

private theorem Inv.finished (inv : Inv sha256 st) {j' : Job} {row : MailRow} {m : Mailing}
    (now : Int) (found : st.jobs[k]? = some j) (same : j'.requestID = j.requestID)
    (emails : j'.emails = j.emails) (start : j'.lateStart = j.lateStart)
    (result : j'.lateResult = j.lateResult) (stored : (st.view j.requestID).row = some row)
    (mailing : (st.view j.requestID).mailing = some m)
    (list : j.emails = normalizeUserMailRecipients m.recipients)
    (lingers : Lingers (st.view j.requestID) row j)
    (stops : ∃ failed, j'.phase = .finishing failed ∨ j'.phase = .ended failed) :
    Inv sha256 { st.setJob k j' with mail := finishTask st.mail j.requestID now } := by
  have accounts := inv.accounts stored mailing
  have row' := find?_finishTask now stored
  have kept : Lingers
      { st.view j.requestID with
        row := some (if row.status = .running then
          { row with status := row.finalStatus, updatedAt := now } else row) }
      (if row.status = .running then { row with status := row.finalStatus, updatedAt := now }
        else row) j' := by
    constructor
    · intro time late
      rw [result]
      exact lingers.start time (start ▸ late)
    · intro d time late
      rw [result] at late
      refine ⟨(lingers.result d time late).1, ?_⟩
      intro running
      split at running
      next =>
        -- the final status is not `running`
        unfold MailRow.finalStatus at running
        split at running
        · cases running
        · split at running <;> cases running
      next stopped => exact absurd running stopped
  apply inv.updated j' st.starts found same emails mailing list (moved_finishTask _ _ _)
    row' (fun _ _ => rfl)
  case accounts =>
    split
    · exact { accounts.finished now with }
    · exact { accounts with }
  case phase =>
    obtain ⟨failed, ends | ends⟩ := stops
    · rw [ends]
      exact { kept with }
    · rw [ends]
      exact { kept with }

private theorem Inv.work (inv : Inv sha256 st) (found : st.jobs[k]? = some j) (c : WorkConditions) :
    Inv sha256 (UserMigration.work st k j c) := by
  obtain ⟨row, m, stored, mailing, list, stands⟩ := inv.jobs j (List.mem_of_getElem? found)
  have accounts := inv.accounts stored mailing
  unfold UserMigration.work
  cases phase : j.phase with
  | waiting =>
    rw [phase] at stands
    obtain ⟨queued, settled⟩ := stands
    dsimp only
    split
    · refine inv.jobPhased _ found rfl ⟨row, m, stored, mailing, list, ?_⟩
      refine ⟨fun _ _ => ⟨accounts.unstarted (Or.inl queued), settled.2.1⟩, ?_⟩
      intro d now some
      rw [settled.2.1] at some
      cases some
    · split
      next =>
        have row' := find?_markRunning c.now stored
        rw [if_pos queued] at row'
        have count : (st.starts ++ [j.requestID]).count j.requestID =
            (st.view j.requestID).starts + 1 := by
          simp [State.view]
        refine inv.updated _ _ found rfl rfl mailing list (moved_markRunning _ _ _) row' ?_ ?_ ?_
        · intro r other
          simp [List.count_append, Ne.symm other]
        · rw [count]
          exact accounts.begun queued c.now
        · rw [count]
          have zero := accounts.unstarted (Or.inl queued)
          have none := accounts.untried zero
          refine ⟨rfl, by rw [zero], accounts.untouched zero, ?_, settled⟩
          intro d member
          rw [none] at member
          cases member
      next =>
        exact inv.stopped _ found stored mailing list settled ⟨_, .inr rfl⟩
  | sending place =>
    rw [phase] at stands
    dsimp only
    split
    next none =>
      exact inv.stopped _ found stored mailing list stands.settled ⟨_, .inl rfl⟩
    next email address =>
      split
      · exact inv.stopped _ found stored mailing list stands.settled ⟨_, .inl rfl⟩
      · exact inv.sent found phase rfl address
  | delivered d =>
    rw [phase] at stands
    dsimp only
    split
    · refine inv.jobPhased _ found rfl ⟨row, m, stored, mailing, list, ?_⟩
      constructor
      · intro now some
        rw [stands.settled.1] at some
        cases some
      · intro d' now same
        obtain ⟨rfl, -⟩ := Prod.mk.inj (Option.some.inj same)
        exact stands.due
    · split
      next counts =>
        have counts := (exists_counts stored).mp counts
        refine inv.counted _ c.now found rfl rfl stored mailing list stands.due counts ?_
        have next : Sends
            { st.view j.requestID with
              row := some (row.counted d.success c.now)
              recorded := (st.view j.requestID).recorded ++ [d] }
            (row.counted d.success c.now) j (d.place + 1) := by
          have counted := (stands.due.2 stands.running).1
          refine ⟨stands.running, stands.started, ?_, ?_, stands.settled⟩
          · dsimp only [MailRow.counted]
            split <;> omega
          · intro e member
            exact Nat.lt_succ_of_le (stands.tried e member)
        dsimp only
        split
        · exact { next with }
        · exact { next with }
      next =>
        exact inv.stopped _ found stored mailing list stands.settled ⟨_, .inl rfl⟩
  | pausing place =>
    rw [phase] at stands
    dsimp only
    split
    · exact inv.stopped _ found stored mailing list stands.settled ⟨_, .inl rfl⟩
    · exact inv.jobPhased _ found rfl ⟨row, m, stored, mailing, list, { stands with }⟩
  | finishing failed =>
    rw [phase] at stands
    dsimp only
    split
    · exact inv.jobPhased _ found rfl ⟨row, m, stored, mailing, list, { stands with }⟩
    · exact inv.finished c.now found rfl rfl rfl rfl stored mailing list stands ⟨_, .inr rfl⟩
  | ended failed => exact inv

private theorem JobPhase.Stands.unsettled {v : View} {row : MailRow}
    (stands : j.phase.Stands v row j) (late : ¬j.settled) :
    (∃ failed, j.phase = .finishing failed ∨ j.phase = .ended failed) ∧ Lingers v row j := by
  cases phase : j.phase with
  | waiting =>
    rw [phase] at stands
    exact absurd stands.2 late
  | sending place =>
    rw [phase] at stands
    exact absurd stands.settled late
  | delivered d =>
    rw [phase] at stands
    exact absurd stands.settled late
  | pausing place =>
    rw [phase] at stands
    exact absurd stands.settled late
  | finishing failed =>
    rw [phase] at stands
    exact ⟨⟨failed, .inl rfl⟩, stands⟩
  | ended failed =>
    rw [phase] at stands
    exact ⟨⟨failed, .inr rfl⟩, stands⟩

private theorem JobPhase.stands_of_stops {v : View} {row : MailRow} {phase : JobPhase}
    (stops : ∃ failed, phase = .finishing failed ∨ phase = .ended failed)
    (lingers : Lingers v row j) : phase.Stands v row j := by
  obtain ⟨failed, rfl | rfl⟩ := stops
  · exact lingers
  · exact lingers

private theorem Inv.carryOut (inv : Inv sha256 st) (found : st.jobs[k]? = some j) (which : Late) :
    Inv sha256 (UserMigration.carryOut st k j which) := by
  obtain ⟨row, m, stored, mailing, list, stands⟩ := inv.jobs j (List.mem_of_getElem? found)
  have accounts := inv.accounts stored mailing
  unfold UserMigration.carryOut
  cases which with
  | start =>
    dsimp only
    split
    next => exact inv
    next now late =>
      obtain ⟨stops, lingers⟩ := stands.unsettled fun settled => by
        rw [settled.1] at late
        cases late
      have row' := find?_markRunning now stored
      apply inv.updated { j with lateStart := none } st.starts found rfl rfl
        mailing list (moved_markRunning _ _ _) row' (fun _ _ => rfl)
      case accounts =>
        split
        · exact { accounts.status .running now nofun nofun with }
        · exact { accounts with }
      case phase =>
        apply JobPhase.stands_of_stops stops
        constructor
        · exact nofun
        · intro d time some
          rw [show j.lateResult = none from (lingers.start now late).2] at some
          cases some
  | result =>
    dsimp only
    split
    next => exact inv
    next d now late =>
      obtain ⟨stops, lingers⟩ := stands.unsettled fun settled => by
        rw [settled.2.1] at late
        cases late
      have due := lingers.result d now late
      have unstarted : j.lateStart = none := by
        cases start : j.lateStart with
        | none => rfl
        | some time =>
          rw [(lingers.start time start).2] at late
          cases late
      split
      next counts =>
        have counts := (exists_counts stored).mp counts
        refine inv.counted { j with lateResult := none } now found rfl rfl stored mailing
          list due counts (JobPhase.stands_of_stops stops ⟨?_, nofun⟩)
        intro time start
        rw [show j.lateStart = none from unstarted] at start
        cases start
      next =>
        refine inv.jobPhased { j with lateResult := none } found rfl
          ⟨row, m, stored, mailing, list, JobPhase.stands_of_stops stops ⟨?_, nofun⟩⟩
        intro time start
        rw [show j.lateStart = none from unstarted] at start
        cases start
  | finish =>
    dsimp only
    split
    next => exact inv
    next now late =>
      obtain ⟨stops, lingers⟩ := stands.unsettled fun settled => by
        rw [settled.2.2] at late
        cases late
      exact inv.finished now found rfl rfl rfl rfl stored mailing list lingers stops

/-! ## The steps of a request -/

private theorem Submission.concluded {s : Submission} (hashed : s.hash = sha256 s.req.marshal)
    (ended : s.phase.ended = true)
    (owned : s.owns → (∀ j ∈ st.jobs, j.requestID ≠ s.req.requestID) ∧
      ∃ row ∈ st.mail, row.requestID = s.req.requestID ∧
        (row.status = .queued ∨ row.status = .queueFailed))
    (answered : ∀ task, s.phase = .answered (.ok task) → ∃ row ∈ st.mail, s.Stored row)
    (conflict : s.phase = .answered (.error .mailConflict) →
      ∃ row ∈ st.mail, row.requestID = s.req.requestID ∧
        (row.previewID ≠ s.req.previewID ∨ row.contentHash ≠ s.hash)) :
    s.Stands sha256 st := by
  have rest : s.phase.holds = false ∧ s.phase.looked = false ∧ s.phase.free = false ∧
      s.phase.lists = none ∧ s.phase.pending = none ∧ s.phase.task = none := by
    cases phase : s.phase <;> simp_all [Phase.ended, Phase.holds, Phase.looked, Phase.free,
      Phase.lists, Phase.pending, Phase.task]
  obtain ⟨holds, looked, free, lists, pending, task⟩ := rest
  constructor
  case hashed => exact hashed
  case marked => exact fun _ => ended
  case authorized => simp [holds]
  case unseen => simp [looked]
  case quiet => simp [free]
  case lists => simp [lists]
  case pending => simp [pending]
  case owned => exact owned
  case fresh => simp [task]
  case mailed =>
    intro task' emails phase
    rw [phase] at ended
    cases ended
  case answered => exact answered
  case conflict => exact conflict

private theorem Inv.answered (inv : Inv sha256 st) {n : Nat} {s : Submission}
    {result : Except MailError MailTask} (found : st.submissions[n]? = some s)
    (ok : ∀ task, result = .ok task → ∃ row ∈ st.mail, s.Stored row)
    (conflict : result = .error .mailConflict →
      ∃ row ∈ st.mail, row.requestID = s.req.requestID ∧
        (row.previewID ≠ s.req.previewID ∨ row.contentHash ≠ s.hash)) :
    Inv sha256 (st.answer n s result) := by
  have stands := inv.submissions s (List.mem_of_getElem? found)
  have owns : Submission.owns { s with phase := .answered result } → s.owns := by
    rintro (task | late)
    · exact absurd rfl task
    · exact Or.inr late
  refine inv.phased found ⟨rfl, nofun, nofun, fun owned => Or.inl (owns owned)⟩
    (Submission.concluded stands.hashed rfl (fun owned => stands.owned (owns owned)) ?_ ?_)
  · intro task same
    injection same with same
    obtain ⟨row, member, stored⟩ := ok task same
    exact ⟨row, member, { stored with }⟩
  · intro same
    injection same with same
    exact conflict same

private theorem Inv.refused (inv : Inv sha256 st) {n : Nat} {s : Submission} {e : MailError}
    (found : st.submissions[n]? = some s) (other : e ≠ .mailConflict) :
    Inv sha256 (st.answer n s (.error e)) := by
  refine inv.answered found nofun ?_
  intro same
  injection same with same
  exact absurd same other

private theorem Submission.Stands.unmarked {s : Submission} (stands : s.Stands sha256 st)
    (going : s.phase.ended = false) : s.lateMark = none := by
  by_contra late
  rw [stands.marked late] at going
  cases going

private theorem Submission.Stands.waiting {s : Submission} (stands : s.Stands sha256 st)
    (going : s.phase.ended = false) (task : phase.task = none) (ended : phase.ended = false)
    (authorized : Authorized st s.req.previewID s.actorID)
    (unseen : phase.looked = true → ∀ row ∈ st.mail, row.requestID = s.req.requestID →
      row.previewID ≠ s.req.previewID)
    (quiet : phase.free = true → ∀ row ∈ st.mail, row.previewID = s.req.previewID →
      row.status.active = false)
    (lists : ∀ recipients emails, phase.lists = some (recipients, emails) →
      emails = normalizeUserMailRecipients recipients) (pending : ∀ row, phase.pending = some row →
      (∀ stored ∈ st.mail, stored.requestID ≠ s.req.requestID) ∧
        ∃ recipients emails interval now, phase.lists = some (recipients, emails) ∧
          row = s.row recipients interval now) :
    Submission.Stands sha256 st { s with phase } ∧ ¬Submission.owns { s with phase } := by
  have unmarked := stands.unmarked going
  have free : ¬Submission.owns { s with phase } := by
    rintro (some | late)
    · exact some task
    · exact late unmarked
  refine ⟨?_, free⟩
  constructor
  case hashed => exact stands.hashed
  case marked => exact fun late => absurd unmarked late
  case authorized => exact fun _ => authorized
  case unseen => exact unseen
  case quiet => exact quiet
  case lists => exact lists
  case pending => exact pending
  case owned => exact fun owns => absurd owns free
  case fresh => simp [task]
  case mailed =>
    intro task' emails same
    rw [show phase = .committed task' emails from same] at task
    cases task
  case answered =>
    intro task' same
    rw [show phase = .answered (.ok task') from same] at ended
    cases ended
  case conflict =>
    intro same
    rw [show phase = .answered (.error .mailConflict) from same] at ended
    cases ended

private theorem Submission.Stands.doubted {s : Submission} {row : MailRow}
    (stands : s.Stands sha256 st) (pending : s.phase.pending = some row)
    (lists : s.phase.lists = some (recipients, emails)) (told : Bool) :
    Submission.Stands sha256 st { s with phase := .doubt row recipients emails told } ∧
      ¬Submission.owns { s with phase := .doubt row recipients emails told } := by
  have held : s.phase.holds = true ∧ s.phase.looked = true ∧ s.phase.free = true ∧
      s.phase.ended = false := by
    cases phase : s.phase <;> simp_all [Phase.pending, Phase.holds, Phase.looked, Phase.free,
      Phase.ended]
  obtain ⟨holds, looked, free, going⟩ := held
  refine stands.waiting going rfl rfl (stands.authorized holds) (fun _ => stands.unseen looked)
    (fun _ => stands.quiet free) (fun _ _ same => stands.lists _ _ (lists.trans same)) ?_
  intro row' same
  obtain rfl := Option.some.inj same
  rw [show Phase.lists (.doubt row recipients emails told) = s.phase.lists from lists.symm]
  exact stands.pending row pending

private theorem Inv.waits (inv : Inv sha256 st) {n : Nat} {s : Submission}
    (found : st.submissions[n]? = some s)
    (locks : s.phase.holds = true ∨ st.locked s.req.previewID = false)
    (pendings : ∀ row, phase.pending = some row →
      s.phase.pending = some row ∨ st.awaits row.requestID = false)
    (waiting : Submission.Stands sha256 st { s with phase } ∧ ¬Submission.owns { s with phase }) :
    Inv sha256 (st.setPhase n s phase) :=
  inv.phased found ⟨rfl, fun _ => locks, pendings, fun owns => absurd owns waiting.2⟩ waiting.1

private theorem Inv.unstored (inv : Inv sha256 st) {requestID : String}
    (absent : ∀ row ∈ st.mail, row.requestID ≠ requestID) :
    st.view requestID = ⟨none, none, [], [], 0⟩ := by
  have none : st.mail.find? requestID = none := (st.mail.find?_eq_none requestID).mpr absent
  have view := inv.views requestID
  unfold View.Stands at view
  rw [show (st.view requestID).row = Option.none from none] at view
  obtain ⟨mailing, recorded, attempts, starts⟩ := view
  exact View.ext none mailing recorded attempts starts

private theorem Inv.jobless (inv : Inv sha256 st) {requestID : String}
    (absent : ∀ row ∈ st.mail, row.requestID ≠ requestID) :
    ∀ j ∈ st.jobs, j.requestID ≠ requestID := by
  intro j listed same
  obtain ⟨row, m, stored, -⟩ := inv.jobs j listed
  rw [same, inv.unstored absent] at stored
  cases stored

section Stored

variable {row : MailRow} {mail : MailTable} {m : Mailing}
  (inserted : st.mail.insert? row = some mail) (same : m.req.requestID = row.requestID)

include inserted same

private theorem view_store_other {k : String} (other : k ≠ row.requestID) :
    (st.store mail m).view k = st.view k := by
  have found : mail.find? k = st.mail.find? k := Table.find?_insert? inserted (Ne.symm other)
  simp [State.view, State.store, found, List.find?_append, same, Ne.symm other]

private theorem view_store_own (unstored : st.view row.requestID = ⟨none, none, [], [], 0⟩) :
    (st.store mail m).view row.requestID = ⟨some row, some m, [], [], 0⟩ := by
  obtain ⟨-, mailing, recorded, attempts, starts⟩ := View.mk.inj unstored
  have found : mail.find? row.requestID = some row :=
    (mail.find?_eq_some _ _).mpr ⟨(Table.mem_of_insert? inserted row).mpr (.inr rfl), rfl⟩
  apply View.ext
  case row => exact found
  case mailing => simp [State.view, State.store, List.find?_append, mailing, same]
  case recorded => exact recorded
  case attempts => exact attempts
  case starts => exact starts

end Stored

private theorem accounts_stored {s : Submission} (hashed : s.hash = sha256 s.req.marshal)
    (recipients : List String) (interval now : Int) :
    Accounts sha256 ⟨some (s.row recipients interval now), some ⟨s.req, recipients⟩, [], [], 0⟩
      (s.row recipients interval now) ⟨s.req, recipients⟩ where
  found := rfl
  previewID := rfl
  contentHash := hashed
  total := rfl
  addressed := rfl
  bounded := Nat.zero_le _
  sent := rfl
  failed := rfl
  completed := nofun
  unstarted _ := rfl
  once := Nat.zero_le _
  untried _ := rfl
  places := List.nodup_nil
  attempted := nofun

private theorem Around.stored {row : MailRow} {mail : MailTable} {m : Mailing}
    (inserted : st.mail.insert? row = some mail) (same : m.req.requestID = row.requestID)
    (stands : b.Stands sha256 st) (locks : b.phase.holds = true → row.previewID ≠ b.req.previewID)
    (pendings : ∀ r, b.phase.pending = some r → row.requestID ≠ r.requestID) :
    Around st (st.store mail m) b := by
  have members := Table.mem_of_insert? inserted
  obtain ⟨-, absent, -⟩ := (st.mail.insert?_eq_some mail row).mp inserted
  constructor
  case receipts => exact fun _ _ => id
  case forth => exact fun r old => ⟨r, (members r).mpr (.inl old), .refl r, fun _ _ => rfl⟩
  case back =>
    intro r member
    rcases (members r).mp member with old | rfl
    · exact Or.inl ⟨r, old, .refl r⟩
    · refine Or.inr ⟨locks, ?_⟩
      intro r' pending
      have differs := pendings r' pending
      obtain ⟨-, _, _, _, _, -, rfl⟩ := stands.pending r' pending
      exact differs
  case jobs => exact fun _ j listed same => ⟨j, listed, same⟩
  case mailings =>
    intro owns
    obtain ⟨-, r, old, own, -⟩ := stands.owned owns
    have differs : row.requestID ≠ b.req.requestID := fun clash =>
      absent r old (own.trans clash.symm)
    simp [State.store, List.find?_append, same, differs]

private theorem Submission.Stands.built {s : Submission} {row : MailRow}
    (stands : s.Stands sha256 st) (pending : s.phase.pending = some row)
    (lists : s.phase.lists = some (recipients, emails)) :
    s.phase.holds = true ∧ s.phase.free = true ∧ s.lateMark = none ∧
      ∃ interval now, row = s.row recipients interval now := by
  have active : s.phase.holds = true ∧ s.phase.free = true ∧ s.phase.ended = false := by
    cases phase : s.phase <;> simp_all [Phase.pending, Phase.holds, Phase.free, Phase.ended]
  obtain ⟨holds, free, going⟩ := active
  obtain ⟨-, recipients', emails', interval, now, lists', built⟩ := stands.pending row pending
  obtain ⟨rfl, rfl⟩ : recipients = recipients' ∧ emails = emails' := by
    rw [lists] at lists'
    exact Prod.mk.inj (Option.some.inj lists')
  exact ⟨holds, free, stands.unmarked going, interval, now, built⟩

private theorem Inv.committed (inv : Inv sha256 st) {n : Nat} {s : Submission} {row : MailRow}
    {mail : MailTable} (found : st.submissions[n]? = some s) (pending : s.phase.pending = some row)
    (lists : s.phase.lists = some (recipients, emails)) (inserted : st.mail.insert? row = some mail)
    (next : phase = .committed row.task emails ∨ phase = .answered (.error .commitUnknown) ∨
      phase = .crashed) : Inv sha256 ((st.setPhase n s phase).store mail ⟨s.req, recipients⟩) := by
  have stands := inv.submissions s (List.mem_of_getElem? found)
  have absent := (stands.pending row pending).1
  have unstored := inv.unstored absent
  obtain ⟨holds, free, unmarked, interval, now, rfl⟩ := stands.built pending lists
  have members := Table.mem_of_insert? inserted
  have stored : s.row recipients interval now ∈ mail := (members _).mpr (.inr rfl)
  have follows : Follows st s { s with phase } := by
    refine ⟨rfl, ?_, ?_, fun _ => Or.inr ⟨_, pending⟩⟩
    · obtain rfl | rfl | rfl := next <;> exact nofun
    · obtain rfl | rfl | rfl := next <;> exact nofun
  have mine : ((st.setPhase n s phase).store mail ⟨s.req, recipients⟩).view s.req.requestID = _ :=
    view_store_own inserted rfl unstored
  constructor
  case locks => exact inv.locks_set found follows
  case pendings => exact inv.pendings_set found follows
  case owners => exact inv.owners_set found follows
  case distinct => exact inv.distinct
  case submissions =>
    intro b listed
    rcases mem_set_cases listed with rfl | other
    · rcases next with rfl | next
      · constructor
        case hashed => exact stands.hashed
        case marked => exact fun late => absurd unmarked late
        case authorized => exact nofun
        case unseen => exact nofun
        case quiet => exact nofun
        case lists => exact nofun
        case pending => exact nofun
        case owned => exact fun _ => ⟨inv.jobless absent, _, stored, rfl, .inl rfl⟩
        case fresh =>
          intro task same
          exact ⟨_, stored, ⟨rfl, rfl, rfl, rfl⟩, rfl, Option.some.inj same⟩
        case mailed =>
          intro task list same
          injection same with _ same
          subst same
          exact ⟨_, congrArg View.mailing mine, stands.lists recipients _ lists⟩
        case answered => exact nofun
        case conflict => exact nofun
      · have free : ¬Submission.owns { s with phase } := by
          rintro (task | late)
          · obtain rfl | rfl := next <;> exact task rfl
          · exact late unmarked
        refine Submission.concluded stands.hashed ?_ (fun owns => absurd owns free) ?_ ?_
        · obtain rfl | rfl := next <;> rfl
        · obtain rfl | rfl := next <;> exact nofun
        · obtain rfl | rfl := next <;> exact nofun
    · have stands' := inv.submissions b (List.mem_of_mem_eraseIdx other)
      have around := Around.stored (m := ⟨s.req, recipients⟩) inserted rfl stands'
        (inv.locks.others found other holds) fun r pending' =>
          inv.pendings.others found other _ r pending pending'
      exact stands'.frame { around with }
  case jobs =>
    intro j listed
    have other := inv.jobless absent j listed
    have view := view_store_other (m := ⟨s.req, recipients⟩) inserted rfl other
    have before := inv.jobs j listed
    rw [← view] at before
    exact before
  case views =>
    intro k
    by_cases own : k = s.req.requestID
    · rw [own, mine]
      exact ⟨_, accounts_stored stands.hashed recipients interval now⟩
    · have view := view_store_other (m := ⟨s.req, recipients⟩) inserted rfl own
      have before := inv.views k
      rw [← view] at before
      exact before
  case active =>
    intro a first b second active active' same
    rcases (members a).mp first with old | rfl
    · rcases (members b).mp second with old' | rfl
      · exact inv.active a old b old' active active' same
      · rw [stands.quiet free a old same] at active
        cases active
    · rcases (members b).mp second with old' | rfl
      · rw [stands.quiet free b old' same.symm] at active'
        cases active'
      · rfl
  case actors =>
    intro r member
    rcases (members r).mp member with old | rfl
    · exact inv.actors r old
    · exact stands.authorized holds

private theorem Inv.enqueued (inv : Inv sha256 st) {n : Nat} {s : Submission} {task : MailTask}
    (found : st.submissions[n]? = some s) (phase : s.phase = .committed task emails)
    (interval : Int) :
    Inv sha256
      { st.answer n s (.ok task) with
        jobs := st.jobs ++
          [⟨s.host, s.req.requestID, emails, interval, .waiting, false, none, none, none⟩] } := by
  have stands := inv.submissions s (List.mem_of_getElem? found)
  have untold : s.phase.task = some task := by rw [phase]; rfl
  have owns : s.owns := Or.inl (by rw [untold]; exact Option.some_ne_none _)
  obtain ⟨row, stored, own, queued, -⟩ := stands.fresh task untold
  obtain ⟨m, mailing, addresses⟩ := stands.mailed task emails phase
  have jobless := (stands.owned owns).1
  have row' : st.mail.find? s.req.requestID = some row :=
    (st.mail.find?_eq_some _ _).mpr ⟨stored, own.requestID⟩
  -- the answered request is as any other, and then the job is added
  have answered : Inv sha256 (st.answer n s (.ok task)) :=
    inv.answered found (fun _ _ => ⟨row, stored, own⟩) nofun
  have unmarked := stands.unmarked (by rw [phase]; rfl)
  constructor
  case locks => exact answered.locks
  case pendings => exact answered.pendings
  case owners => exact answered.owners
  case distinct =>
    refine answered.distinct.append (fun _ _ => Ne.symm) ?_
    intro b listed
    exact (jobless b listed).symm
  case submissions =>
    intro b listed
    have before := answered.submissions b listed
    refine before.frame (.same rfl rfl rfl ?_)
    intro owned j listed' same
    rcases List.mem_append.mp listed' with old | new
    · exact ⟨j, old, same⟩
    · rw [List.mem_singleton.mp new] at same
      rcases mem_set_cases listed with rfl | other
      · rcases owned with some | late
        · exact absurd rfl some
        · exact absurd unmarked late
      · exact absurd same (inv.owners.others found other owns owned)
  case jobs =>
    intro j listed
    rcases List.mem_append.mp listed with old | new
    · exact answered.jobs j old
    · rw [List.mem_singleton.mp new]
      exact ⟨row, m, row', mailing, addresses, queued, rfl, rfl, rfl⟩
  case views => exact answered.views
  case active => exact answered.active
  case actors => exact answered.actors

private theorem Inv.rejected (inv : Inv sha256 st) {n : Nat} {s s' : Submission} (now : Int)
    (found : st.submissions[n]? = some s) (owns : s.owns) (req : s'.req = s.req)
    (hash : s'.hash = s.hash) (ended : s'.phase.ended = true) (unmarked : s'.lateMark = none)
    (answered : ∀ task, s'.phase = .answered (.ok task) → ∃ row ∈ st.mail, s'.Stored row)
    (conflict : s'.phase = .answered (.error .mailConflict) →
      ∃ row ∈ st.mail, row.requestID = s'.req.requestID ∧
        (row.previewID ≠ s'.req.previewID ∨ row.contentHash ≠ s'.hash)) :
    Inv sha256 { st with
      submissions := st.submissions.set n s'
      mail := markQueueFailed st.mail s.req.requestID now } := by
  have stands := inv.submissions s (List.mem_of_getElem? found)
  obtain ⟨jobless, row, stored, own, status⟩ := stands.owned owns
  have moved := moved_markQueueFailed st.mail s.req.requestID now
  have held : s'.phase.holds = false ∧ s'.phase.pending = none ∧ s'.phase.task = none := by
    cases phase : s'.phase <;> simp_all [Phase.ended, Phase.holds, Phase.pending, Phase.task]
  obtain ⟨unlocked, unpending, untasked⟩ := held
  have free : ¬s'.owns := by
    rintro (task | late)
    · exact task untasked
    · exact late unmarked
  have follows : Follows st s s' :=
    ⟨req, by simp [unlocked], by simp [unpending], fun owned => absurd owned free⟩
  have others : ∀ k, k ≠ s.req.requestID → State.view { st with
      submissions := st.submissions.set n s'
      mail := markQueueFailed st.mail s.req.requestID now } k = st.view k := by
    intro k other
    simp [State.view, moved.find?_other other]
  constructor
  case locks => exact inv.locks_set found follows
  case pendings => exact inv.pendings_set found follows
  case owners => exact inv.owners_set found follows
  case distinct => exact inv.distinct
  case submissions =>
    intro b listed
    rcases mem_set_cases listed with rfl | other
    · have concluded : b.Stands sha256 st :=
        Submission.concluded (by rw [hash, req, stands.hashed]) ended
          (fun owned => absurd owned free) answered conflict
      exact concluded.frame (.moved moved rfl rfl (fun owned => absurd owned free)
        fun owned => absurd owned free)
    · have stands' := inv.submissions b (List.mem_of_mem_eraseIdx other)
      refine stands'.frame (.moved moved rfl rfl ?_ fun _ j listed same => ⟨j, listed, same⟩)
      exact fun owned => (inv.owners.others found other owns owned).symm
  case jobs =>
    intro j listed
    rw [others _ (jobless j listed)]
    exact inv.jobs j listed
  case views =>
    intro k
    by_cases mine : k = s.req.requestID
    · have found : st.mail.find? s.req.requestID = some row :=
        (st.mail.find?_eq_some _ _).mpr ⟨stored, own⟩
      have row' := find?_markQueueFailed now found
      have view := inv.views s.req.requestID
      unfold View.Stands at view
      rw [show (st.view s.req.requestID).row = some row from found] at view
      obtain ⟨m, accounts⟩ := view
      rw [mine]
      unfold View.Stands State.view
      dsimp only
      rw [row']
      refine ⟨m, ?_⟩
      split
      next queued =>
        have unstarted := accounts.unstarted (Or.inl queued)
        exact { accounts.status .queueFailed now (by rintro ⟨⟩) fun _ => unstarted with }
      next => exact { accounts with }
    · rw [others k mine]
      exact inv.views k
  case active => exact inv.active_moved moved
  case actors => exact inv.actors_moved moved

private theorem Inv.carryOutMark (inv : Inv sha256 st) {n : Nat} {s : Submission}
    (found : st.submissions[n]? = some s) :
    Inv sha256 (UserMigration.carryOutMark st n s) := by
  have stands := inv.submissions s (List.mem_of_getElem? found)
  unfold UserMigration.carryOutMark
  split
  next => exact inv
  next now late =>
    have some : s.lateMark ≠ none := by simp [late]
    refine inv.rejected now found (Or.inr some) rfl rfl (stands.marked some) rfl ?_ ?_
    · intro task phase
      obtain ⟨row, stored, own⟩ := stands.answered task phase
      exact ⟨row, stored, { own with }⟩
    · exact stands.conflict

private theorem Inv.begun (inv : Inv sha256 st) {n : Nat} {s : Submission}
    (found : st.submissions[n]? = some s) (phase : s.phase = .begun) {row : ReceiptRow}
    (receipt : st.receipts.find? s.req.previewID = some row) (own : row.actorID = s.actorID)
    (free : st.locked s.req.previewID = false) (checked : checkReceipt s.req row = .ok ()) :
    Inv sha256 (st.setPhase n s .locked) := by
  have going : s.phase.ended = false := by rw [phase]; rfl
  have stands := inv.submissions s (List.mem_of_getElem? found)
  refine inv.waits found (.inr free) nofun
    (stands.waiting going rfl rfl ⟨row, receipt, own, ?_⟩ nofun nofun nofun nofun)
  intro req same
  unfold checkReceipt at checked ⊢
  rwa [same]

private theorem Inv.prepared (inv : Inv sha256 st) {n : Nat} {s : Submission} (interval : Int)
    (found : st.submissions[n]? = some s) (phase : s.phase = .idle)
    (prepared : emails = normalizeUserMailRecipients recipients) :
    Inv sha256 (st.setPhase n s (.prepared recipients interval emails)) := by
  have stands := inv.submissions s (List.mem_of_getElem? found)
  have held : s.phase.holds = true := by rw [phase]; rfl
  have looked : s.phase.looked = true := by rw [phase]; rfl
  have free : s.phase.free = true := by rw [phase]; rfl
  have going : s.phase.ended = false := by rw [phase]; rfl
  refine inv.waits found (.inl held) nofun (stands.waiting going rfl rfl (stands.authorized held)
    (fun _ => stands.unseen looked) (fun _ => stands.quiet free) ?_ nofun)
  intro recipients' emails' same
  obtain ⟨rfl, rfl⟩ := Prod.mk.inj (Option.some.inj same)
  exact prepared

private theorem prepareMigrationMail_emails {cfg : Option BulkMailConfig} {list : List String}
    {subject content : String} {interval : Int}
    (prepared : prepareMigrationMail cfg emails subject content = some (interval, list)) :
    list = normalizeUserMailRecipients emails := by
  unfold prepareMigrationMail at prepared
  dsimp only at prepared
  split at prepared
  next => cases prepared
  next =>
    split at prepared
    next => cases prepared
    next =>
      split at prepared
      next => cases prepared
      next =>
        split at prepared
        next => cases prepared
        next => exact (Prod.mk.inj (Option.some.inj prepared)).2.symm

private theorem Inv.advance (inv : Inv sha256 st) {n : Nat} {s : Submission}
    (found : st.submissions[n]? = some s) (c : Conditions) :
    Inv sha256 (UserMigration.advance st n s c) := by
  have stands := inv.submissions s (List.mem_of_getElem? found)
  unfold UserMigration.advance
  cases phase : s.phase with
  | begun =>
    dsimp only
    split
    · exact inv.refused found (by rintro ⟨⟩)
    · split
      next => exact inv.refused found (by rintro ⟨⟩)
      next row receipt =>
        split
        · exact inv.refused found (by rintro ⟨⟩)
        next own =>
          split
          · exact inv
          next free =>
            split
            next e refused =>
              refine inv.refused found ?_
              rintro rfl
              unfold checkReceipt at refused
              split at refused
              · cases refused
              · split at refused
                · cases refused
                · split at refused <;> cases refused
            next checked =>
              exact inv.begun found phase receipt (not_not.mp own) (Bool.eq_false_iff.mpr free)
                checked
  | locked =>
    have held : s.phase.holds = true := by rw [phase]; rfl
    have going : s.phase.ended = false := by rw [phase]; rfl
    have authorized := stands.authorized held
    -- a row of this import has the actor of its receipt
    have unseen : (∀ row ∈ st.mail, row.requestID = s.req.requestID →
        row.previewID ≠ s.req.previewID) → Inv sha256 (st.setPhase n s .unseen) :=
      fun other => inv.waits found (.inl held) (by rintro _ ⟨⟩)
        (stands.waiting going rfl rfl authorized (fun _ => other) (by rintro ⟨⟩)
          (by rintro _ _ ⟨⟩) (by rintro _ ⟨⟩))
    dsimp only
    split
    · exact inv.refused found (by rintro ⟨⟩)
    · split
      next absent =>
        apply unseen
        intro row member same
        exact absurd same ((st.mail.find?_eq_none _).mp absent row member)
      next row stored =>
        have member := Table.mem_of_find? stored
        have key : row.requestID = s.req.requestID := Table.key_of_find? stored
        split
        next other =>
          apply unseen
          intro row' member' same import'
          obtain rfl := st.mail.eq_of_key member' member (same.trans key.symm)
          obtain ⟨receipt, first, owner, -⟩ := inv.actors row' member
          obtain ⟨receipt', second, owner', -⟩ := authorized
          rw [import', second] at first
          obtain rfl := Option.some.inj first
          rcases other with other | other
          · exact other import'
          · exact other (owner.symm.trans owner')
        next same =>
          push Not at same
          split
          next differs =>
            refine inv.answered found (by rintro _ ⟨⟩) fun _ => ?_
            exact ⟨row, member, key, .inr differs⟩
          next equal =>
            refine inv.answered found (fun _ _ => ?_) (by rintro ⟨⟩)
            exact ⟨row, member, key, same.1, same.2, not_not.mp equal⟩
  | unseen =>
    have held : s.phase.holds = true := by rw [phase]; rfl
    have looked : s.phase.looked = true := by rw [phase]; rfl
    have going : s.phase.ended = false := by rw [phase]; rfl
    dsimp only
    split
    · exact inv.refused found (by rintro ⟨⟩)
    · split
      · exact inv.refused found (by rintro ⟨⟩)
      next none =>
        refine inv.waits found (.inl held) (by rintro _ ⟨⟩) (stands.waiting going rfl rfl
          (stands.authorized held) (fun _ => stands.unseen looked)
          (fun _ row member same => ?_) (by rintro _ _ ⟨⟩) (by rintro _ ⟨⟩))
        rw [Bool.eq_false_iff]
        exact fun active => none ⟨row, member, same, active⟩
  | idle =>
    dsimp only
    split
    · exact inv.refused found (by rintro ⟨⟩)
    · split
      · exact inv.refused found (by rintro ⟨⟩)
      · split
        · exact inv.refused found (by rintro ⟨⟩)
        · split
          · exact inv.refused found (by rintro ⟨⟩)
          · split
            next => exact inv.refused found (by rintro ⟨⟩)
            next interval emails prepared =>
              split
              · exact inv.refused found (by rintro ⟨⟩)
              · exact inv.prepared interval found phase (prepareMigrationMail_emails prepared)
  | prepared recipients interval emails =>
    have held : s.phase.holds = true := by rw [phase]; rfl
    have looked : s.phase.looked = true := by rw [phase]; rfl
    have free : s.phase.free = true := by rw [phase]; rfl
    have going : s.phase.ended = false := by rw [phase]; rfl
    dsimp only
    split
    · exact inv.refused found (by rintro ⟨⟩)
    · split
      · exact inv
      next alone =>
        split
        next row stored =>
          have member := Table.mem_of_find? stored
          have key : row.requestID = s.req.requestID := Table.key_of_find? stored
          refine inv.answered found (by rintro _ ⟨⟩) fun _ => ?_
          exact ⟨row, member, key, .inl (stands.unseen looked row member key)⟩
        next absent =>
          split
          · exact inv.refused found (by rintro ⟨⟩)
          · refine inv.waits found (.inl held) ?_ (stands.waiting going rfl rfl
              (stands.authorized held) (fun _ => stands.unseen looked)
              (fun _ => stands.quiet free) ?_ ?_)
            · intro row same
              rw [← Option.some.inj same]
              exact Or.inr (Bool.eq_false_iff.mpr alone)
            · intro recipients' emails' same
              obtain ⟨rfl, rfl⟩ := Prod.mk.inj (Option.some.inj same)
              exact stands.lists recipients emails (by rw [phase]; rfl)
            · intro row same
              refine ⟨(st.mail.find?_eq_none _).mp absent, recipients, emails, interval, c.now,
                rfl, ?_⟩
              exact (Option.some.inj same).symm
  | inserted row recipients emails =>
    have held : s.phase.holds = true := by rw [phase]; rfl
    have pending : s.phase.pending = some row := by rw [phase]; rfl
    have lists : s.phase.lists = some (recipients, emails) := by rw [phase]; rfl
    dsimp only
    split
    · exact inv.waits found (.inl held) (fun _ same => .inl (pending.trans same))
        (stands.doubted pending lists true)
    · split
      next => exact inv.refused found (by rintro ⟨⟩)
      next mail inserted => exact inv.committed found pending lists inserted (.inl rfl)
  | doubt row recipients emails told => exact inv
  | committed task emails =>
    have untold : s.phase.task = some task := by rw [phase]; rfl
    have owns : s.owns := Or.inl (by rw [untold]; exact Option.some_ne_none _)
    have going : s.phase.ended = false := by rw [phase]; rfl
    dsimp only
    split
    · exact inv.enqueued found phase task.intervalSeconds
    · refine inv.phased found ⟨rfl, (by rintro ⟨⟩), (by rintro _ ⟨⟩), fun _ => .inl owns⟩ ?_
      constructor
      case hashed => exact stands.hashed
      case marked => exact fun late => absurd (stands.unmarked going) late
      case authorized => rintro ⟨⟩
      case unseen => rintro ⟨⟩
      case quiet => rintro ⟨⟩
      case lists => rintro _ _ ⟨⟩
      case pending => rintro _ ⟨⟩
      case owned => exact fun _ => stands.owned owns
      case fresh =>
        intro task' same
        obtain ⟨row, stored, own, rest⟩ := stands.fresh task' (untold.trans same)
        exact ⟨row, stored, { own with }, rest⟩
      case mailed => rintro _ _ ⟨⟩
      case answered => rintro _ ⟨⟩
      case conflict => rintro ⟨⟩
  | rejected task =>
    have untold : s.phase.task = some task := by rw [phase]; rfl
    have owns : s.owns := Or.inl (by rw [untold]; exact Option.some_ne_none _)
    have going : s.phase.ended = false := by rw [phase]; rfl
    dsimp only
    split
    · exact inv.phased found ⟨rfl, (by rintro ⟨⟩), (by rintro _ ⟨⟩), fun _ => .inl owns⟩
        (Submission.concluded stands.hashed rfl (fun _ => stands.owned owns) (by rintro _ ⟨⟩)
          (by rintro ⟨⟩))
    · split
      next =>
        refine inv.rejected c.now found owns rfl rfl rfl (stands.unmarked going) ?_ (by rintro ⟨⟩)
        · intro _ _
          obtain ⟨row, stored, own, -⟩ := stands.fresh task untold
          exact ⟨row, stored, { own with }⟩
      next => exact inv.refused found (by rintro ⟨⟩)
  | answered result => exact inv
  | crashed => exact inv

private theorem Inv.resolve (inv : Inv sha256 st) {n : Nat} {s : Submission}
    (found : st.submissions[n]? = some s) (commits : Bool) :
    Inv sha256 (UserMigration.resolve st n s commits) := by
  have stands := inv.submissions s (List.mem_of_getElem? found)
  unfold UserMigration.resolve
  split
  next row recipients emails told phase =>
    have pending : s.phase.pending = some row := by rw [phase]; rfl
    have lists : s.phase.lists = some (recipients, emails) := by rw [phase]; rfl
    have unmarked := (stands.built pending lists).2.2.1
    -- the transaction is rolled back
    have ended : Inv sha256
        (st.setPhase n s (if told then .answered (.error .commitUnknown) else .crashed)) := by
      have free : ∀ phase : Phase, phase.task = none →
          ¬Submission.owns { s with phase } := by
        rintro phase none (task | late)
        · exact task none
        · exact late unmarked
      split
      · exact inv.refused found nofun
      · exact inv.phased found ⟨rfl, nofun, nofun, fun owns => absurd owns (free _ rfl)⟩
          (Submission.concluded stands.hashed rfl (fun owns => absurd owns (free _ rfl)) nofun
            nofun)
    dsimp only
    split
    · split
      next => exact ended
      next mail inserted =>
        apply inv.committed found pending lists inserted
        split
        · exact .inr (.inl rfl)
        · exact .inr (.inr rfl)
    · exact ended
  next => exact inv

/-! ## Crashes -/

private theorem crash_follows (now : Int) (s : Submission) :
    (s.crash now).req = s.req ∧ (s.crash now).hash = s.hash ∧
      (s.crash now).phase.pending = s.phase.pending ∧
      ((s.crash now).phase.holds = true → s.phase.holds = true) ∧
      ((s.crash now).owns → s.owns) := by
  unfold Submission.crash
  cases phase : s.phase <;>
    simp [Submission.owns, Phase.pending, Phase.holds, Phase.task, phase]

private theorem Submission.Stands.crash {s : Submission} (stands : s.Stands sha256 st)
    (now : Int) : (s.crash now).Stands sha256 st := by
  obtain ⟨req, hash, -, -, owns⟩ := crash_follows now s
  have stopped : (s.crash now).phase = .crashed → (s.crash now).Stands sha256 st := by
    intro phase
    refine Submission.concluded ?_ (by rw [phase]; rfl) ?_ (by rw [phase]; exact nofun)
      (by rw [phase]; exact nofun)
    · rw [hash, req, stands.hashed]
    · rw [req]
      exact fun owned => stands.owned (owns owned)
  cases phase : s.phase with
  | inserted row recipients emails =>
    have same : s.crash now = { s with phase := .doubt row recipients emails false } := by
      rw [Submission.crash, phase]
    rw [same]
    exact (stands.doubted (by rw [phase]; rfl) (by rw [phase]; rfl) false).1
  | doubt row recipients emails told =>
    have same : s.crash now = { s with phase := .doubt row recipients emails false } := by
      rw [Submission.crash, phase]
    rw [same]
    exact (stands.doubted (by rw [phase]; rfl) (by rw [phase]; rfl) false).1
  | answered result =>
    have same : s.crash now = s := by rw [Submission.crash, phase]
    rw [same]
    exact stands
  | begun => exact stopped (by rw [Submission.crash, phase])
  | locked => exact stopped (by rw [Submission.crash, phase])
  | unseen => exact stopped (by rw [Submission.crash, phase])
  | idle => exact stopped (by rw [Submission.crash, phase])
  | prepared recipients interval emails => exact stopped (by rw [Submission.crash, phase])
  | committed task emails => exact stopped (by rw [Submission.crash, phase])
  | rejected task => exact stopped (by rw [Submission.crash, phase])
  | crashed => exact stopped (by rw [Submission.crash, phase])

private theorem Job.Stands.crash {v : View} (stands : j.Stands v)
    (accounts : ∀ row m, v.row = some row → v.mailing = some m → Accounts sha256 v row m)
    (now : Int) : (j.crash now).Stands v := by
  obtain ⟨row, m, stored, mailing, list, standing⟩ := stands
  have accounts := accounts row m stored mailing
  have settled : j.settled → ∀ failed : Bool,
      Lingers v row { j with phase := .ended failed } := fun settled _ =>
    { settled.lingers (j := j) with }
  unfold Job.crash
  cases phase : j.phase with
  | waiting =>
    rw [phase] at standing
    obtain ⟨queued, unsettled⟩ := standing
    refine ⟨row, m, stored, mailing, list, ?_, ?_⟩
    · exact fun _ _ => ⟨accounts.unstarted (.inl queued), unsettled.2.1⟩
    · exact (settled unsettled true).result
  | sending place =>
    rw [phase] at standing
    exact ⟨row, m, stored, mailing, list, settled standing.settled true⟩
  | delivered d =>
    rw [phase] at standing
    refine ⟨row, m, stored, mailing, list, ?_, ?_⟩
    · intro time late
      rw [show j.lateStart = none from standing.settled.1] at late
      cases late
    · intro d' time same
      obtain ⟨rfl, -⟩ := Prod.mk.inj (Option.some.inj same)
      exact standing.due
  | pausing place =>
    rw [phase] at standing
    exact ⟨row, m, stored, mailing, list, settled standing.settled true⟩
  | finishing failed =>
    rw [phase] at standing
    exact ⟨row, m, stored, mailing, list, { standing with }⟩
  | ended failed =>
    refine ⟨row, m, stored, mailing, list, ?_⟩
    rw [phase] at standing
    simpa [phase] using standing

private theorem crash_requestID (now : Int) (j : Job) : (j.crash now).requestID = j.requestID := by
  unfold Job.crash
  cases j.phase <;> rfl

private theorem Inv.crash (inv : Inv sha256 st) (host : Nat) (now : Int) :
    Inv sha256 { st with
      submissions := st.submissions.map fun s => if s.host = host then s.crash now else s
      jobs := st.jobs.map fun j => if j.host = host then j.crash now else j } := by
  have follows : ∀ s : Submission, ∃ s', (if s.host = host then s.crash now else s) = s' ∧
      s'.req = s.req ∧ s'.phase.pending = s.phase.pending ∧
      (s'.phase.holds = true → s.phase.holds = true) ∧ (s'.owns → s.owns) := by
    intro s
    refine ⟨_, rfl, ?_⟩
    split
    · obtain ⟨req, -, pending, holds, owns⟩ := crash_follows now s
      exact ⟨req, pending, holds, owns⟩
    · exact ⟨rfl, rfl, id, id⟩
  have sameJob : ∀ j : Job, (if j.host = host then j.crash now else j).requestID = j.requestID := by
    intro j
    split
    · exact crash_requestID now j
    · rfl
  constructor
  case locks =>
    refine Apart.map (S := Excludes) inv.locks ?_
    intro a b excludes
    obtain ⟨a', rfl, req, -, holds, -⟩ := follows a
    obtain ⟨b', rfl, req', -, holds', -⟩ := follows b
    intro held held'
    rw [req, req']
    exact excludes (holds held) (holds' held')
  case pendings =>
    refine Apart.map (S := Disjoint) inv.pendings ?_
    intro a b disjoint
    obtain ⟨a', rfl, -, pending, -, -⟩ := follows a
    obtain ⟨b', rfl, -, pending', -, -⟩ := follows b
    intro row row' first second
    exact disjoint row row' (pending ▸ first) (pending' ▸ second)
  case owners =>
    refine Apart.map (S := Owns) inv.owners ?_
    intro a b apart
    obtain ⟨a', rfl, req, -, -, owns⟩ := follows a
    obtain ⟨b', rfl, req', -, -, owns'⟩ := follows b
    intro owned owned'
    rw [req, req']
    exact apart (owns owned) (owns' owned')
  case distinct =>
    refine Apart.map (S := fun a b : Job => a.requestID ≠ b.requestID) inv.distinct ?_
    intro a b other
    rwa [sameJob, sameJob]
  case submissions =>
    intro s' listed
    obtain ⟨s, member, rfl⟩ := List.mem_map.mp listed
    have stands := inv.submissions s member
    have crashed : (if s.host = host then s.crash now else s).Stands sha256 st := by
      split
      · exact stands.crash now
      · exact stands
    refine crashed.frame (.same rfl rfl rfl ?_)
    intro _ j' listed' same
    obtain ⟨j, member', rfl⟩ := List.mem_map.mp listed'
    exact ⟨j, member', (sameJob j).symm.trans same⟩
  case jobs =>
    intro j' listed
    obtain ⟨j, member, rfl⟩ := List.mem_map.mp listed
    rw [sameJob]
    have stands := inv.jobs j member
    show Job.Stands (st.view j.requestID) (if j.host = host then j.crash now else j)
    split
    · exact stands.crash (fun row m stored mailing => inv.accounts stored mailing) now
    · exact stands
  case views => exact inv.views
  case active => exact inv.active
  case actors => exact inv.actors

/-! ## Runs -/

private theorem normalizeMailRequest_error {actorID : Int} {req : MailRequest} {e : MailError}
    (refused : normalizeMailRequest actorID req = .error e) : e = .invalidParameter := by
  unfold normalizeMailRequest at refused
  dsimp only at refused
  split at refused
  · exact (Except.error.inj refused).symm
  · split at refused
    · exact (Except.error.inj refused).symm
    · cases refused

private theorem Inv.submit (inv : Inv sha256 st) (host : Nat) (actorID : Int) (req : MailRequest)
    (fault : Option Fault) :
    Inv sha256 (UserMigration.submit sha256 st host actorID req fault) := by
  obtain ⟨result, known, same⟩ : ∃ result : MailRequest × Phase,
      (result.2 = .begun ∨ ∃ e, e ≠ .mailConflict ∧ result.2 = .answered (.error e)) ∧
      UserMigration.submit sha256 st host actorID req fault = { st with
        submissions := st.submissions ++
          [⟨host, actorID, result.1, sha256 result.1.marshal, result.2, none⟩] } := by
    refine ⟨_, ?_, rfl⟩
    split
    next e refused =>
      obtain rfl := normalizeMailRequest_error refused
      exact .inr ⟨.invalidParameter, nofun, rfl⟩
    next req accepted =>
      split
      next fault =>
        refine .inr ⟨fault.error, ?_, rfl⟩
        cases fault <;> exact nofun
      next => exact .inl rfl
  rw [same]
  obtain ⟨req', phase⟩ := result
  have still : phase.holds = false ∧ phase.pending = none ∧ phase.task = none := by
    rcases known with rfl | ⟨e, -, rfl⟩ <;> exact ⟨rfl, rfl, rfl⟩
  obtain ⟨holds, pending, task⟩ := still
  have free : ¬Submission.owns ⟨host, actorID, req', sha256 req'.marshal, phase, none⟩ := by
    rintro (some | late)
    · exact some task
    · exact late rfl
  constructor
  case locks =>
    refine inv.locks.append (fun _ _ => .symm) ?_
    intro b _ held
    rw [show phase.holds = true from held] at holds
    cases holds
  case pendings =>
    refine inv.pendings.append (fun _ _ => .symm) ?_
    intro b _ row row' first
    rw [show phase.pending = some row from first] at pending
    cases pending
  case owners => exact inv.owners.append (fun _ _ => .symm) fun b _ owns => absurd owns free
  case distinct => exact inv.distinct
  case submissions =>
    intro s listed
    rcases List.mem_append.mp listed with old | new
    · exact (inv.submissions s old).frame
        (.same rfl rfl rfl fun _ j listed same => ⟨j, listed, same⟩)
    · rw [List.mem_singleton.mp new]
      rcases known with rfl | ⟨e, other, rfl⟩
      · exact ⟨rfl, nofun, nofun, nofun, nofun, nofun, nofun, fun owns => absurd owns free, nofun,
          nofun, nofun, nofun⟩
      · refine Submission.concluded rfl rfl (fun owns => absurd owns free) nofun ?_
        intro same
        injection same with same
        injection same with same
        exact absurd same other
  case jobs => exact inv.jobs
  case views => exact inv.views
  case active => exact inv.active
  case actors => exact inv.actors

private theorem Inv.imported (inv : Inv sha256 st) {row : ReceiptRow} {receipts : ReceiptTable}
    (inserted : st.receipts.insert? row = some receipts) : Inv sha256 { st with receipts } := by
  have authorized : ∀ previewID actorID, Authorized st previewID actorID →
      Authorized { st with receipts } previewID actorID := by
    rintro previewID actorID ⟨r, stored, own, usable⟩
    refine ⟨r, ?_, own, usable⟩
    obtain ⟨member, key⟩ := (st.receipts.find?_eq_some previewID r).mp stored
    exact (receipts.find?_eq_some previewID r).mpr
      ⟨(Table.mem_of_insert? inserted r).mpr (.inl member), key⟩
  constructor
  case locks => exact inv.locks
  case pendings => exact inv.pendings
  case owners => exact inv.owners
  case distinct => exact inv.distinct
  case submissions =>
    intro s listed
    refine (inv.submissions s listed).frame ⟨authorized, ?_, ?_, ?_, fun _ => rfl⟩
    · exact fun row member => ⟨row, member, .refl row, fun _ _ => rfl⟩
    · exact fun row member => .inl ⟨row, member, .refl row⟩
    · exact fun _ j listed same => ⟨j, listed, same⟩
  case jobs => exact inv.jobs
  case views => exact inv.views
  case active => exact inv.active
  case actors => exact fun r member => authorized _ _ (inv.actors r member)

theorem Inv.initial (sha256 : List Char → String) : Inv sha256 .initial := by
  constructor
  case locks => exact apart_nil
  case pendings => exact apart_nil
  case owners => exact apart_nil
  case distinct => exact apart_nil
  case submissions =>
    intro s listed
    cases listed
  case jobs =>
    intro j listed
    cases listed
  case views => exact fun _ => ⟨rfl, rfl, rfl, rfl⟩
  case active =>
    intro a member
    cases member
  case actors =>
    intro row member
    cases member

theorem Inv.step (inv : Inv sha256 st) (act : Act) :
    Inv sha256 (UserMigration.step sha256 st act) := by
  cases act with
  | imported row =>
    dsimp only [UserMigration.step]
    split
    next => exact inv
    next receipts inserted => exact inv.imported inserted
  | submit host actorID req fault => exact inv.submit host actorID req fault
  | advance n c =>
    dsimp only [UserMigration.step]
    split
    next => exact inv
    next s found => exact inv.advance found c
  | resolve n commits =>
    dsimp only [UserMigration.step]
    split
    next => exact inv
    next s found => exact inv.resolve found commits
  | lateMark n =>
    dsimp only [UserMigration.step]
    split
    next => exact inv
    next s found => exact inv.carryOutMark found
  | work k c =>
    dsimp only [UserMigration.step]
    split
    next => exact inv
    next j found => exact inv.work found c
  | late k which =>
    dsimp only [UserMigration.step]
    split
    next => exact inv
    next j found => exact inv.carryOut found which
  | crash host now => exact inv.crash host now

end ForestPanel.UserMigration
