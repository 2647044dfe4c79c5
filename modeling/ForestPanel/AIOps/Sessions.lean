import ForestPanel.Lib.Table

/-!
# Sessions and turns of the assistant

The two tables that the requests, the workers, the sweep of expired turns and the
deletions write, and the statements they write them with. What the tables say of a
session is its `View`: its status, and the turns of it that are running.
-/
namespace ForestPanel

namespace AIOps

open Relational

inductive SessionStatus
  | idle
  | running
deriving Repr, DecidableEq

inductive TurnStatus
  | running
  | completed
  | pending
  | failed
  | interrupted
deriving Repr, DecidableEq

/-- A row of `v2_ai_session`. -/
structure Session where
  id : Int
  model : String
  createdBy : Int
  status : SessionStatus
  createdAt : Int
  updatedAt : Int
  accessMode : String
  fullAccessBy : Int
  accessVersion : Int
  reasoningEffort : String
deriving Repr, DecidableEq

/-- A row of `v2_ai_turn`. -/
structure Turn where
  id : Int
  sessionID : Int
  actorID : Int
  requestID : String
  requestHash : String
  model : String
  status : TurnStatus
  error : String
  createdAt : Int
  expiresAt : Int
  completedAt : Int
  accessMode : String
  stopRequested : Bool
  reasoningEffort : String
deriving Repr, DecidableEq

/-- `UNIQUE(actor_id, request_id)`. -/
def Turn.key (t : Turn) : Int × String := (t.actorID, t.requestID)

/-- The committed rows, and the next numbers of the two sequences. -/
structure Store where
  sessions : Table Session.id Session.id
  turns : Table Turn.id Turn.key
  nextSession : Int
  nextTurn : Int

/-- What the tables say of one session. -/
@[ext] structure View where
  status : Option SessionStatus
  running : List Int
deriving Repr, DecidableEq

/-- A session is running iff exactly one of its turns is, and never more than one is. -/
structure View.Sound (v : View) : Prop where
  single : v.running.length ≤ 1
  agree : v.status = some .running ↔ v.running.length = 1

namespace Store

variable (db : Store)

def runningTurns (sid : Int) : List Turn :=
  db.turns.rows.filter fun t => t.sessionID = sid && t.status = .running

def view (sid : Int) : View where
  status := (db.sessions.find? sid).map (·.status)
  running := (db.runningTurns sid).map (·.id)

def empty : Store where
  sessions := .empty
  turns := .empty
  nextSession := 1
  nextTurn := 1

/-- The updates of `expireTurns` for the turns and their sessions that it has found. -/
def interrupt (found : List (Int × Int)) (now : Int) : Store :=
  { db with
    turns := db.turns.updateWhere (fun t => t.id ∈ found.map (·.1))
      (fun t => { t with
        status := .interrupted
        error := "处理已中断，请检查结果后使用新请求继续"
        completedAt := now }) (fun _ => ⟨rfl, rfl⟩)
    sessions := db.sessions.updateWhere (fun s => s.id ∈ found.map (·.2))
      (fun s => { s with
        status := .idle
        updatedAt := now }) (fun _ => ⟨rfl, rfl⟩) }

/-- `WHERE id = $1 AND session_id = $5 AND status = 'running'`. -/
def isRunning (turn session : Int) : Bool :=
  (db.turns.find? turn).any fun t => t.sessionID = session && t.status = .running

/-- The two updates of `finishTurn`. -/
def finish (session turn : Int) (status : TurnStatus) (error : String) (now : Int) : Store :=
  { db with
    turns := db.turns.updateWhere
      (fun t => t.id = turn && t.sessionID = session && t.status = .running)
      (fun t => { t with
        status
        error
        completedAt := now }) (fun _ => ⟨rfl, rfl⟩)
    sessions := db.sessions.updateWhere (fun s => s.id = session)
      (fun s => { s with
        status := .idle
        updatedAt := now }) (fun _ => ⟨rfl, rfl⟩) }

def insertSession? (s : Session) : Option Store :=
  (db.sessions.insert? s).map fun sessions => { db with sessions }

/-- `access_mode = $2, full_access_by = $3, access_version = access_version + 1`. -/
def setAccess (session : Int) (mode : String) (fullAccessBy now : Int) : Store :=
  { db with
    sessions := db.sessions.updateWhere (fun s => s.id = session)
      (fun s => { s with
        accessMode := mode
        fullAccessBy
        accessVersion := s.accessVersion + 1
        updatedAt := now }) (fun _ => ⟨rfl, rfl⟩) }

/-- The turn's row, and its session set to running. -/
def startTurn? (t : Turn) (selection : String) (now : Int) : Option Store :=
  (db.turns.insert? t).map fun turns =>
    { db with
      turns
      sessions := db.sessions.updateWhere (fun s => s.id = t.sessionID)
        (fun s => { s with
          status := .running
          model := t.model
          updatedAt := now
          reasoningEffort := selection }) (fun _ => ⟨rfl, rfl⟩) }

/-- `stop_requested = TRUE` for running turns. -/
def requestStop (chosen : Turn → Bool) : Store :=
  { db with
    turns := db.turns.updateWhere (fun t => chosen t && t.status = .running)
      (fun t => { t with stopRequested := true }) (fun _ => ⟨rfl, rfl⟩) }

def renew (turn expiresAt : Int) : Store :=
  { db with
    turns := db.turns.updateWhere (fun t => t.id = turn)
      (fun t => { t with expiresAt }) (fun _ => ⟨rfl, rfl⟩) }

/-- A deletion takes the turns of the sessions with it. -/
def deleteSessions (gone : List Int) : Store :=
  { db with
    sessions := db.sessions.deleteWhere fun s => s.id ∈ gone
    turns := db.turns.deleteWhere fun t => t.sessionID ∈ gone }

variable {db}

variable {turn sid : Int} {db' : Store}

theorem mem_running : turn ∈ (db.view sid).running ↔
    ∃ t ∈ db.turns, t.id = turn ∧ t.sessionID = sid ∧ t.status = .running := by
  simp only [view, runningTurns, List.mem_map, List.mem_filter, Bool.and_eq_true,
    decide_eq_true_eq]
  constructor
  · rintro ⟨t, ⟨listed, same, running⟩, rfl⟩
    exact ⟨t, listed, rfl, same, running⟩
  · rintro ⟨t, listed, rfl, same, running⟩
    exact ⟨t, ⟨listed, same, running⟩, rfl⟩

theorem session_unique {sid' : Int} (here : turn ∈ (db.view sid).running)
    (there : turn ∈ (db.view sid').running) : sid = sid' := by
  obtain ⟨t, listed, named, rfl, -⟩ := mem_running.mp here
  obtain ⟨u, listed', named', rfl, -⟩ := mem_running.mp there
  rw [db.turns.eq_of_key listed listed' (named.trans named'.symm)]

theorem isRunning_iff : db.isRunning turn sid = true ↔ turn ∈ (db.view sid).running := by
  rw [mem_running, isRunning, Option.any_eq_true]
  constructor
  · rintro ⟨t, found, running⟩
    obtain ⟨listed, named⟩ := (db.turns.find?_eq_some _ _).mp found
    simp only [Bool.and_eq_true, decide_eq_true_eq] at running
    exact ⟨t, listed, named, running⟩
  · rintro ⟨t, listed, named, same, running⟩
    exact ⟨t, (db.turns.find?_eq_some _ _).mpr ⟨listed, named⟩, by simp [same, running]⟩

private theorem running_updateWhere (db : Store) (p : Turn → Bool) (f : Turn → Turn)
    (hf : Preserves Turn.id Turn.key f) (sid : Int) (q : Int → Bool)
    (moved : ∀ t, (f t).sessionID = t.sessionID)
    (still : ∀ t ∈ db.turns, t.sessionID = sid → t.status = .running →
      (decide ((if p t then f t else t).status = .running) = q t.id))
    (ended : ∀ t ∈ db.turns, t.status ≠ .running → (if p t then f t else t).status ≠ .running) :
    (({ db with turns := db.turns.updateWhere p f hf } : Store).view sid).running =
      (db.view sid).running.filter q := by
  simp only [view, runningTurns, Table.rows_updateWhere, List.filter_map, List.map_map,
    List.filter_filter]
  have ids : (fun t : Turn => t.id) ∘ (fun t => if p t then f t else t) = fun t => t.id := by
    funext t
    simp only [Function.comp_apply]
    split
    · exact (hf t).1
    · rfl
  rw [ids]
  congr 1
  apply List.filter_congr
  intro t listed
  have session : (if p t then f t else t).sessionID = t.sessionID := by
    split
    · exact moved t
    · rfl
  simp only [Function.comp_apply, session]
  by_cases here : t.sessionID = sid
  · by_cases running : t.status = .running
    · have same := still t listed here running
      simp [here, running, same]
    · have stopped := ended t listed running
      simp [here, running, stopped]
  · simp [here]

@[simp] theorem view_interrupt (found : List (Int × Int)) (now sid : Int) :
    (db.interrupt found now).view sid =
      { status := if sid ∈ found.map (·.2) then (db.view sid).status.map fun _ => .idle
          else (db.view sid).status
        running := (db.view sid).running.filter fun t => t ∉ found.map (·.1) } := by
  apply View.ext
  · simp only [interrupt, view, Table.find?_updateWhere]
    cases stored : db.sessions.find? sid with
    | none => simp
    | some s =>
      obtain rfl := Table.key_of_find? stored
      simp only [Option.map_some, decide_eq_true_eq]
      split <;> rfl
  · refine running_updateWhere _ _ _ _ sid _ (fun _ => rfl) ?_ ?_
    · intro t _ _ running
      by_cases chosen : t.id ∈ found.map (·.1)
      · simp [chosen]
      · simp [chosen, running]
    · intro t _ stopped
      by_cases chosen : t.id ∈ found.map (·.1)
      · simp [chosen]
      · simp [chosen, stopped]

@[simp] theorem view_finish {status : TurnStatus} (ending : status ≠ .running)
    (session turn : Int) (error : String) (now sid : Int) :
    (db.finish session turn status error now).view sid =
      if sid = session then
        { status := (db.view sid).status.map fun _ => .idle
          running := (db.view sid).running.filter fun t => t ≠ turn }
      else db.view sid := by
  have running : ((db.finish session turn status error now).view sid).running =
      (db.view sid).running.filter fun t => sid ≠ session ∨ t ≠ turn := by
    refine running_updateWhere _ _ _ _ sid _ (fun _ => rfl) ?_ ?_
    · rintro t _ rfl running
      by_cases named : t.id = turn
      · by_cases inside : t.sessionID = session
        · simp [named, inside, running, ending]
        · simp [inside, running]
      · simp [named, running]
    · intro t _ stopped
      simp [stopped]
  apply View.ext
  · simp only [finish, view, Table.find?_updateWhere]
    cases stored : db.sessions.find? sid with
    | none => split <;> rfl
    | some s =>
      obtain rfl := Table.key_of_find? stored
      simp only [Option.map_some, decide_eq_true_eq]
      split <;> rfl
  · rw [running]
    split
    next here => simp [here]
    next other => simp [other]

theorem view_congr
    (sessions : (db'.sessions.find? sid).map (·.status) = (db.sessions.find? sid).map (·.status))
    (turns : db'.turns.rows = db.turns.rows) : db'.view sid = db.view sid := by
  simp only [view, runningTurns, sessions, turns]

@[simp] theorem view_insertSession {s : Session} (inserted : db.insertSession? s = some db')
    (sid : Int) :
    db'.view sid = if sid = s.id then ⟨some s.status, (db.view sid).running⟩ else db.view sid := by
  obtain ⟨sessions, added, rfl⟩ := Option.map_eq_some_iff.mp inserted
  split
  next here =>
    have found : sessions.find? sid = some s :=
      (Table.find?_eq_some ..).mpr ⟨(Table.mem_of_insert? added s).mpr (Or.inr rfl), here.symm⟩
    simp [view, runningTurns, found]
  next other => exact view_congr (by rw [Table.find?_insert? added (Ne.symm other)]) rfl

@[simp] theorem view_setAccess (session : Int) (mode : String) (by' now sid : Int) :
    (db.setAccess session mode by' now).view sid = db.view sid := by
  refine view_congr ?_ rfl
  rw [setAccess, Table.find?_updateWhere, Option.map_map]
  congr 1
  funext s
  simp only [Function.comp_apply]
  split <;> rfl

theorem view_startTurn {t : Turn} {selection : String} {now : Int}
    (started : db.startTurn? t selection now = some db') (running : t.status = .running) (sid : Int)
    :
    db'.view sid = if sid = t.sessionID then
      { status := (db.view sid).status.map fun _ => .running
        running := (db.view sid).running ++ [t.id] } else db.view sid := by
  obtain ⟨turns, added, rfl⟩ := Option.map_eq_some_iff.mp started
  have rows := ((Table.insert?_eq_some ..).mp added).1
  apply View.ext
  · simp only [view, Table.find?_updateWhere]
    cases stored : db.sessions.find? sid with
    | none => split <;> rfl
    | some s =>
      obtain rfl := Table.key_of_find? stored
      simp only [Option.map_some, decide_eq_true_eq]
      split <;> rfl
  · simp only [view, runningTurns, rows, List.filter_append, List.map_append]
    split
    next here => simp [here, running]
    next other => simp [Ne.symm other]

@[simp] theorem view_requestStop (chosen : Turn → Bool) (sid : Int) :
    (db.requestStop chosen).view sid = db.view sid := by
  apply View.ext
  · rfl
  · have kept := running_updateWhere db (fun t => chosen t && t.status = .running)
      (fun t => { t with stopRequested := true }) (fun _ => ⟨rfl, rfl⟩) sid (fun _ => true)
      (fun _ => rfl) (by intro t _ _ running; split <;> simp [running])
      (by intro t _ stopped; simp [stopped])
    rw [List.filter_true] at kept
    exact kept

@[simp] theorem view_renew (turn expiresAt sid : Int) :
    (db.renew turn expiresAt).view sid = db.view sid := by
  apply View.ext
  · rfl
  · have kept := running_updateWhere db (fun t => t.id = turn)
      (fun t => { t with expiresAt }) (fun _ => ⟨rfl, rfl⟩) sid (fun _ => true)
      (fun _ => rfl) (by intro t _ _ running; split <;> simp [running])
      (by intro t _ stopped; split <;> exact stopped)
    rw [List.filter_true] at kept
    exact kept

@[simp] theorem view_deleteSessions (gone : List Int) (sid : Int) :
    (db.deleteSessions gone).view sid =
      if sid ∈ gone then { status := none, running := [] } else db.view sid := by
  apply View.ext
  · split
    next taken =>
      have absent : (db.deleteSessions gone).sessions.find? sid = none := by
        rw [Table.find?_eq_none]
        intro s listed same
        have left := ((Table.mem_deleteWhere ..).mp listed).2
        rw [decide_eq_false_iff_not] at left
        exact left (same ▸ taken)
      simp [view, absent]
    next left =>
      simp only [view, deleteSessions]
      rw [Table.find?_deleteWhere]
      rintro s - rfl
      simpa using left
  · split
    next taken =>
      simp [view, runningTurns, deleteSessions, Table.deleteWhere, List.filter_filter]
      rintro t - rfl -
      exact taken
    next left =>
      simp only [view, runningTurns, deleteSessions, Table.deleteWhere, List.filter_filter]
      congr 1
      apply List.filter_congr
      intro t _
      by_cases here : t.sessionID = sid
      · simp [here, left]
      · simp [here]

end Store

end AIOps

end ForestPanel
