import ForestPanel.AIOps.Requests
import ForestPanel.AIOps.Sessions
import ForestPanel.Lib.Outcome
import ForestPanel.Lib.Transition
import ForestPanel.Store.Text

/-!
# Messages, turns and what ends them

Every call that writes sessions or turns is a transaction of several statements,
and between any two of them other calls go on as far as the locks let them:
`SendMessage`, `finishTurn`, the sweep of expired turns (alone, or as a part of
`SendMessage`), `StopSession`, `SetAccessMode` and `deleteData`. What a transaction
has written is seen by others when it commits; until then it is a part of the call.
A call whose answer is lost, or that fails at any statement, is `fail`; a commit may
take effect although its acknowledgement is lost.
-/
namespace ForestPanel

namespace AIOps

open Relational Outcome

inductive Failure
  | forbidden
  | validation
  | notFound
  | conflict
  | busy
  | unavailable
  /-- An error of the database or of the connection. -/
  | database
deriving Repr, DecidableEq

/-- An operator who is not banned. -/
inductive Role
  | admin
  | staff
deriving Repr, DecidableEq

def validReasoningEffort (value : String) : Bool :=
  value ∈ ["auto", "none", "minimal", "low", "medium", "high", "xhigh"]

def validReasoningSelection (value : String) : Bool :=
  value = "default" || validReasoningEffort value

def validAccessMode (mode : String) : Bool := mode = "standard" || mode = "full"

private def isAlphanumeric (c : Char) : Bool := c.isAlpha || c.isDigit

/-- `^[A-Za-z0-9][A-Za-z0-9._:-]{7,79}$`. -/
def validRequestID (text : String) : Bool :=
  match text.toList with
  | [] => false
  | c :: rest =>
    isAlphanumeric c && 7 ≤ rest.length && rest.length ≤ 79 &&
      rest.all fun d => isAlphanumeric d || d ∈ ['.', '_', ':', '-']

def maxContentBytes : Nat := 16000
def maxSessions : Nat := 200
def turnLifetime : Int := 150
def fullAccessLease : Int := 120

/-- What a request finds outside the two tables. -/
structure Circumstances where
  /-- Of the actor, when it is an operator. -/
  role : Option Role
  models : List String
  enabled : Bool
  /-- `cfg.modelReady` of the requested model. -/
  modelReady : Bool
  /-- `cfg.ReasoningEfforts` of the requested model. -/
  effort : String
  closed : Bool
deriving Repr, DecidableEq

/-- Only an administrator selects another effort than the default. -/
def requireReasoningAccess (role : Option Role) (selection : String) : Except Failure Role :=
  match role with
  | none => .error .forbidden
  | some .admin => .ok .admin
  | some .staff =>
    if selection ≠ "" ∧ selection ≠ "default" then .error .forbidden else .ok .staff

/-- A new conversation has full access unless the operator selects standard. -/
def SendMessageRequest.withMode (req : SendMessageRequest) : SendMessageRequest :=
  if req.sessionID = 0 ∧ req.accessMode = "" then { req with accessMode := "full" } else req

def SendMessageRequest.valid (req : SendMessageRequest) : Prop :=
  (req.accessMode = "" ∨ validAccessMode req.accessMode = true) ∧ 0 ≤ req.sessionID ∧
    trimSpace req.content ≠ "" ∧ req.content.utf8ByteSize ≤ maxContentBytes ∧
    validRequestID req.requestID = true

instance (req : SendMessageRequest) : Decidable req.valid :=
  inferInstanceAs (Decidable (_ ∧ _ ∧ _ ∧ _ ∧ _))

/-- `SendMessage` up to `BeginTx`. -/
def admitMessage (req : SendMessageRequest) (c : Circumstances) : Except Failure SendMessageRequest := do
  ensure (req.reasoningEffort = "" ∨ validReasoningSelection req.reasoningEffort = true)
    .validation
  let moded := req.withMode
  ensure moded.valid .validation
  let _ ← requireReasoningAccess c.role moded.reasoningEffort
  ensure (moded.model ∈ c.models) .validation
  ensure (c.enabled = true ∧ c.modelReady = true) .unavailable
  ensure (c.closed = false) .unavailable
  return moded

/-- `expireTurns`: what its snapshot holds, and the sessions it has locked. -/
structure Sweep where
  now : Int
  candidates : List (Int × Int)
  locked : List Int
deriving Repr, DecidableEq

/-- A message on its way: as it came, and with its access mode filled in. -/
structure Send where
  actor : Int
  original : SendMessageRequest
  req : SendMessageRequest
  /-- `cfg.ReasoningEfforts` of the model, read before the transaction. -/
  effort : String
deriving Repr, DecidableEq

/-- What a message has read and written when it has swept the expired turns. -/
structure Swept where
  role : Role
  now : Int
  found : List (Int × Int)
  locked : List Int
deriving Repr, DecidableEq

/-- Where a call stands, with what it has read and not yet committed. -/
inductive Call
  | send (s : Send)
  /-- The lock of its key is held, and no turn has the key. -/
  | keyed (s : Send) (role : Role)
  | sweeping (s : Send) (role : Role) (sweep : Sweep)
  | swept (s : Send) (done : Swept)
  /-- The session's row is locked, or is inserted and not committed yet. -/
  | holding (s : Send) (done : Swept) (session : Session) (fresh : Bool)
  | written (s : Send) (done : Swept) (session : Session) (fresh : Bool) (turn : Turn)
      (selection : String)
  | finish (session turn : Int) (status : TurnStatus) (error : String)
  | finishing (session turn : Int) (status : TurnStatus) (error : String)
  | ended (session turn : Int) (status : TurnStatus) (error : String) (now : Int)
  | sweep (alone : Sweep)
  | sweptAlone (now : Int) (found : List (Int × Int)) (locked : List Int)
  | stop (session : Int)
  | stopping (session : Int)
  | access (actor session : Int) (mode : String) (expected : Int)
  | changing (actor session : Int) (mode : String) (expected : Int)
  | changed (actor session : Int) (mode : String) (now : Int)
  | delete (session : Int) (locked : List Int)
  | returned
deriving Repr, DecidableEq

def Send.key (s : Send) : Int × String := (s.actor, s.req.requestID)

namespace Call

def rows : Call → List Int
  | sweeping _ _ progress => progress.locked
  | swept _ done => done.locked
  | holding _ done session _ => session.id :: done.locked
  | written _ done session _ _ _ => session.id :: done.locked
  | finishing session _ _ _ => [session]
  | ended session _ _ _ _ => [session]
  | sweep alone => alone.locked
  | sweptAlone _ _ locked => locked
  | stopping session => [session]
  | changing _ session _ _ => [session]
  | changed _ session _ _ => [session]
  | delete _ locked => locked
  | _ => []

def turnRows : Call → List Int
  | swept _ done => done.found.map (·.1)
  | holding _ done _ _ => done.found.map (·.1)
  | written _ done _ _ _ _ => done.found.map (·.1)
  | ended _ turn _ _ _ => [turn]
  | sweptAlone _ found _ => found.map (·.1)
  | _ => []

def key? : Call → Option (Int × String)
  | keyed s _ => some s.key
  | sweeping s _ _ => some s.key
  | swept s _ => some s.key
  | holding s _ _ _ => some s.key
  | written s _ _ _ _ _ => some s.key
  | _ => none

/-- The lock of the state is shared by all calls but the sweeps of the lists. -/
def shares : Call → Bool
  | sweep _ => false
  | sweptAlone _ _ _ => false
  | delete _ _ => false
  | returned => false
  | _ => true

def excludes : Call → Bool
  | delete _ _ => true
  | _ => false

def targets (db : Store) (session : Int) : List Int :=
  (db.sessions.rows.filter fun s => session = 0 || s.id = session).map (·.id)

def commit? (db : Store) : Call → Option Store
  | written _ done session fresh turn selection =>
    let swept := db.interrupt done.found done.now
    (if fresh then swept.insertSession? session else some swept).bind fun opened =>
      opened.startTurn? turn selection turn.createdAt
  | ended session turn status error now => some (db.finish session turn status error now)
  | sweptAlone now found _ => some (db.interrupt found now)
  | stopping session => some (db.requestStop fun t => t.sessionID = session)
  | changed actor session mode now =>
    if mode = "full" then some (db.setAccess session mode actor now)
    else some ((db.setAccess session mode 0 now).requestStop fun t =>
      t.sessionID = session && t.accessMode = "full")
  | delete session locked =>
    if ∀ sid ∈ targets db session, sid ∈ locked then
      some (db.deleteSessions (targets db session)) else none
  | _ => none

end Call

structure Answer where
  actor : Int
  original : SendMessageRequest
  result : Except Failure (Session × Turn)
deriving DecidableEq

structure World where
  store : Store
  calls : List Call
  answers : List Answer

inductive Act
  | sendMessage (actor : Int) (req : SendMessageRequest) (c : Circumstances)
  /-- The checks of the role and the session, and the turn under the locked key. -/
  | lookup (n : Nat) (role : Option Role) (visible : Bool)
  /-- The snapshot of the statement of `expireTurns`, and its row locks, one by one. -/
  | snapshot (n : Nat) (now : Int)
  | lockExpired (n : Nat) (session : Int)
  | interrupt (n : Nat)
  | lockSession (n : Nat) (now : Int)
  | write (n : Nat) (now : Int) (actionInFlight : Bool) (messages : Nat)
  | commit (n : Nat) (acknowledged : Bool)
  | fail (n : Nat) (failure : Failure)
  | createSession (actor : Int) (model effort : String) (now : Int)
  | finishTurn (session turn : Int) (status : TurnStatus) (error : String)
  | listSessions (now : Int)
  | stopSession (session : Int)
  | setAccessMode (actor session : Int) (mode : String) (expected : Int)
  | deleteData (session : Int)
  | lockDeleted (n : Nat) (session : Int)
  /-- The stop marks that the Telegram bridge sets without a session's lock. -/
  | requestStop (turns : List Int)
  /-- `permitted`: the actor's role, the session's grant and the configuration allow it. -/
  | renewFullAccessTurn (turn now : Int) (permitted : Bool)
deriving DecidableEq

namespace World

def empty : World := ⟨.empty, [], []⟩

variable (w : World)

/-- No call but `n` has the row of the session. -/
def rowFree (n : Nat) (session : Int) : Prop := ∀ c ∈ w.calls.eraseIdx n, session ∉ c.rows

instance (n : Nat) (session : Int) : Decidable (w.rowFree n session) :=
  inferInstanceAs (Decidable (∀ c ∈ w.calls.eraseIdx n, session ∉ c.rows))

def keyFree (n : Nat) (key : Int × String) : Prop := ∀ c ∈ w.calls.eraseIdx n, c.key? ≠ some key

instance (n : Nat) (key : Int × String) : Decidable (w.keyFree n key) :=
  inferInstanceAs (Decidable (∀ c ∈ w.calls.eraseIdx n, c.key? ≠ some key))

def setCall (n : Nat) (c : Call) : World := { w with calls := w.calls.set n c }

def begin (c : Call) : World :=
  if ∀ d ∈ w.calls, d.excludes = false then { w with calls := w.calls ++ [c] } else w

def answer (n : Nat) (s : Send) (result : Except Failure (Session × Turn)) : World :=
  { w with
    calls := w.calls.set n .returned
    answers := w.answers ++ [⟨s.actor, s.original, result⟩] }

/-- A call that fails is rolled back; a message is answered with the error. -/
def refuse (n : Nat) (c : Call) (failure : Failure) : World :=
  match c with
  | .send s => w.answer n s (.error failure)
  | .keyed s _ => w.answer n s (.error failure)
  | .sweeping s _ _ => w.answer n s (.error failure)
  | .swept s _ => w.answer n s (.error failure)
  | .holding s _ _ _ => w.answer n s (.error failure)
  | .written s _ _ _ _ _ => w.answer n s (.error failure)
  | _ => w.setCall n .returned

end World

/-! ### `SendMessage` -/

section

variable (sha256 : List Char → String)

/-- The checks in the transaction, the lock of the key, and the turn under it. -/
def lookup (w : World) (n : Nat) (s : Send) (role : Option Role) (visible : Bool) : World :=
  match requireReasoningAccess role s.req.reasoningEffort with
  | .error failure => w.answer n s (.error failure)
  | .ok role =>
    if 0 < s.req.sessionID ∧ visible = false then w.answer n s (.error .notFound)
    else if w.keyFree n s.key then
      match w.store.turns.findUniq? s.key with
      | none => w.setCall n (.keyed s role)
      | some turn =>
        if turn.requestHash ≠ requestHash sha256 s.original then w.answer n s (.error .conflict)
        else
          match w.store.sessions.find? turn.sessionID with
          | none => w.answer n s (.error .notFound)
          | some session =>
            if visible then w.answer n s (.ok (session, turn))
            else w.answer n s (.error .notFound)
    else w

/-- The turns that `expireTurns` finds: running, and at their end. -/
def expired (db : Store) (now : Int) : List (Int × Int) :=
  (db.turns.rows.filter fun t => t.status = .running && t.expiresAt ≤ now).map
    fun t => (t.id, t.sessionID)

/-- The candidates whose session is locked and whose row still qualifies. -/
def Sweep.found (sweep : Sweep) (db : Store) : List (Int × Int) :=
  sweep.candidates.filter fun c => c.2 ∈ sweep.locked && c ∈ expired db sweep.now

def newSession (id : Int) (s : Send) (now : Int) : Session where
  id
  model := s.req.model
  createdBy := s.actor
  status := .idle
  createdAt := now
  updatedAt := now
  accessMode := "full"
  fullAccessBy := s.actor
  accessVersion := 1
  reasoningEffort := "default"

/-- `FOR UPDATE NOWAIT`, or a new session; the row is read as the sweep has left it. -/
def holdSession (w : World) (n : Nat) (s : Send) (done : Swept) (now : Int) : World :=
  if s.req.sessionID = 0 then
    if maxSessions ≤ w.store.sessions.rows.length then w.answer n s (.error .busy)
    else
      { w with
        store := { w.store with nextSession := w.store.nextSession + 1 }
        calls := w.calls.set n (.holding s done (newSession w.store.nextSession s now) true) }
  else if w.rowFree n s.req.sessionID then
    match (w.store.interrupt done.found done.now).sessions.find? s.req.sessionID with
    | none => w.answer n s (.error .notFound)
    | some session => w.setCall n (.holding s done session false)
  else w.answer n s (.error .busy)

def maxSessionMessages : Nat := 4000

def resolveReasoningEffort (selection configured : String) : Except Failure String :=
  if selection = "" ∨ selection = "default" then
    let value := if configured = "" then "auto" else configured
    if validReasoningEffort value then .ok value else .error .validation
  else if validReasoningEffort selection then .ok selection
  else .error .validation

def checkAccess (s : Send) (session : Session) (fresh : Bool) : Except Failure Unit :=
  if fresh then .ok () else do
  ensure (s.req.accessMode = "" ∨ s.req.accessMode = session.accessMode) .conflict
  ensure (∀ version ∈ s.req.accessVersion, version = session.accessVersion) .conflict
  ensure (s.req.accessMode ≠ "full" ∨
    (s.req.accessVersion ≠ none ∧ session.fullAccessBy = s.actor)) .forbidden

/-- The access mode that the message gives to its new session. -/
def grantAccess (s : Send) (session : Session) (now : Int) : Session :=
  if s.req.accessMode = "" then session
  else { session with
    accessMode := s.req.accessMode
    fullAccessBy := if s.req.accessMode = "full" then s.actor else 0
    accessVersion := session.accessVersion + 1
    updatedAt := now }

/-- Staff follow the default; an administrator without a selection keeps the session's. -/
def selectReasoning (role : Role) (s : Send) (session : Session) : String :=
  match role with
  | .staff => "default"
  | .admin =>
    let selection :=
      if s.req.reasoningEffort = "" then session.reasoningEffort else s.req.reasoningEffort
    if selection = "" then "default" else selection

/-- The session and the turn that a message writes, with its reasoning selection. -/
def writeTurn (id : Int) (s : Send) (role : Role) (session : Session) (fresh : Bool) (now : Int)
    (actionInFlight : Bool) (messages : Nat) : Except Failure (Session × Turn × String) := do
  ensure (session.status ≠ .running) .busy
  ensure (actionInFlight = false) .busy
  checkAccess s session fresh
  let opened := if fresh then grantAccess s session now else session
  let full := decide (s.req.accessMode = "full" ∧ opened.accessMode = "full" ∧
    opened.fullAccessBy = s.actor)
  let selection := selectReasoning role s opened
  ensure (validReasoningSelection selection = true) .validation
  let effort ← resolveReasoningEffort selection s.effort
  ensure (full = true ∨ messages ≤ maxSessionMessages - 64) .validation
  let turn : Turn :=
    { id
      sessionID := opened.id
      actorID := s.actor
      requestID := s.req.requestID
      requestHash := requestHash sha256 s.original
      model := s.req.model
      status := .running
      error := ""
      createdAt := now
      expiresAt := now + if full then fullAccessLease else turnLifetime
      completedAt := 0
      accessMode := if full then "full" else "standard"
      stopRequested := false
      reasoningEffort := effort }
  return (opened, turn, selection)

/-- The row of the session as the committed message shows it. -/
def startedSession (session : Session) (turn : Turn) (selection : String) : Session :=
  { session with
    status := .running
    model := turn.model
    updatedAt := turn.createdAt
    reasoningEffort := selection }

/-- The checks of `SetAccessMode` on the locked session; a grant waits for the turn's end. -/
def checkMode (db : Store) (session : Int) (mode : String) (expected : Int)
    (actionInFlight : Bool) : Except Failure Unit := do
  let row ← require (db.sessions.find? session) .notFound
  ensure (row.accessVersion = expected) .conflict
  ensure (mode ≠ "full" ∨ (db.runningTurns session = [] ∧ actionInFlight = false)) .busy

/-! ### The steps -/

def lockSession (w : World) (n : Nat) (now : Int) : Call → World
  | .swept s done => holdSession w n s done now
  | .finish session turn status error =>
    -- `FOR UPDATE` waits.
    if w.rowFree n session then
      if (w.store.sessions.find? session).isSome then
        w.setCall n (.finishing session turn status error)
      else w.setCall n .returned
    else w
  | .stop session =>
    if w.rowFree n session then
      if (w.store.sessions.find? session).isSome then w.setCall n (.stopping session)
      else w.setCall n .returned
    else w.setCall n .returned
  | .access actor session mode expected =>
    if w.rowFree n session then
      if (w.store.sessions.find? session).isSome then
        w.setCall n (.changing actor session mode expected)
      else w.setCall n .returned
    else w.setCall n .returned
  | _ => w

def write (w : World) (n : Nat) (now : Int) (actionInFlight : Bool) (messages : Nat) :
    Call → World
  | .holding s done session fresh =>
    match writeTurn sha256 w.store.nextTurn s done.role session fresh now actionInFlight
        messages with
    | .error failure => w.answer n s (.error failure)
    | .ok (opened, turn, selection) =>
      { w with
        store := { w.store with nextTurn := w.store.nextTurn + 1 }
        calls := w.calls.set n (.written s done opened fresh turn selection) }
  | .finishing session turn status error =>
    if w.store.isRunning turn session then w.setCall n (.ended session turn status error now)
    else w.setCall n .returned
  | .changing actor session mode expected =>
    match checkMode w.store session mode expected actionInFlight with
    | .error _ => w.setCall n .returned
    | .ok () => w.setCall n (.changed actor session mode now)
  | _ => w

/-- The commit of a call. A message is answered with its turn when it is acknowledged. -/
def commitCall (w : World) (n : Nat) (c : Call) (acknowledged : Bool) : World :=
  match c.commit? w.store with
  | none => w
  | some store =>
    match c with
    | .written s _ session _ turn selection =>
      { w with store }.answer n s
        (if acknowledged then .ok (startedSession session turn selection, turn)
        else .error .database)
    | _ => { w with store }.setCall n .returned

def lockExpired (w : World) (n : Nat) (session : Int) : Call → World
  | .sweeping s role sweep =>
    if session ∈ sweep.candidates.map (·.2) ∧ w.rowFree n session ∧
        (w.store.sessions.find? session).isSome then
      w.setCall n (.sweeping s role { sweep with locked := session :: sweep.locked })
    else w
  | .sweep alone =>
    if session ∈ alone.candidates.map (·.2) ∧ w.rowFree n session ∧
        (w.store.sessions.find? session).isSome then
      w.setCall n (.sweep { alone with locked := session :: alone.locked })
    else w
  | _ => w

def interruptFound (w : World) (n : Nat) : Call → World
  | .sweeping s role sweep =>
    w.setCall n (.swept s ⟨role, sweep.now, sweep.found w.store, sweep.locked⟩)
  | .sweep alone => w.setCall n (.sweptAlone alone.now (alone.found w.store) alone.locked)
  | _ => w

def step (w : World) : Act → World
  | .sendMessage actor req c =>
    match admitMessage req c with
    | .error failure => { w with answers := w.answers ++ [⟨actor, req, .error failure⟩] }
    | .ok moded => w.begin (.send ⟨actor, req, moded, c.effort⟩)
  | .lookup n role visible =>
    match w.calls[n]? with
    | some (.send s) => lookup sha256 w n s role visible
    | _ => w
  | .snapshot n now =>
    match w.calls[n]? with
    | some (.keyed s role) => w.setCall n (.sweeping s role ⟨now, expired w.store now, []⟩)
    | _ => w
  | .lockExpired n session =>
    match w.calls[n]? with
    | some c => lockExpired w n session c
    | none => w
  | .interrupt n =>
    match w.calls[n]? with
    | some c => interruptFound w n c
    | none => w
  | .lockSession n now =>
    match w.calls[n]? with
    | some c => lockSession w n now c
    | none => w
  | .write n now actionInFlight messages =>
    match w.calls[n]? with
    | some c => write sha256 w n now actionInFlight messages c
    | none => w
  | .commit n acknowledged =>
    match w.calls[n]? with
    | some c => commitCall w n c acknowledged
    | none => w
  | .fail n failure =>
    match w.calls[n]? with
    | some c => w.refuse n c failure
    | none => w
  | .createSession actor model effort now =>
    -- One insert and its commit; the lock of the state must be free for it.
    if (∀ c ∈ w.calls, c.excludes = false) ∧ w.store.sessions.rows.length < maxSessions then
      let row : Session :=
        ⟨w.store.nextSession, model, actor, .idle, now, now, "full", actor, 1,
          if effort = "" then "default" else effort⟩
      match w.store.insertSession? row with
      | none => w
      | some store => { w with store := { store with nextSession := store.nextSession + 1 } }
    else w
  | .finishTurn session turn status error =>
    if status ≠ .running then w.begin (.finish session turn status error) else w
  | .listSessions now =>
    { w with calls := w.calls ++ [.sweep ⟨now, expired w.store now, []⟩] }
  | .stopSession session => w.begin (.stop session)
  | .setAccessMode actor session mode expected =>
    if validAccessMode mode then w.begin (.access actor session mode expected) else w
  | .deleteData session =>
    if ∀ c ∈ w.calls, c.shares = false ∧ c.excludes = false then
      { w with calls := w.calls ++ [.delete session []] } else w
  | .lockDeleted n session =>
    match w.calls[n]? with
    | some (.delete id locked) =>
      if session ∈ Call.targets w.store id ∧ w.rowFree n session then
        w.setCall n (.delete id (session :: locked)) else w
    | _ => w
  | .requestStop turns =>
    if ∀ c ∈ w.calls, ∀ turn ∈ c.turnRows, turn ∉ turns then
      { w with store := w.store.requestStop fun t => t.id ∈ turns } else w
  | .renewFullAccessTurn turn now permitted =>
    match w.store.turns.find? turn with
    | none => w
    | some t =>
      if permitted = true ∧ t.status = .running ∧ t.accessMode = "full" ∧ t.stopRequested = false ∧
          now < t.expiresAt ∧ ∀ c ∈ w.calls, turn ∉ c.turnRows then
        { w with store := w.store.renew turn (now + fullAccessLease) }
      else w

end

end AIOps

end ForestPanel
