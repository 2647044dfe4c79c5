import Mathlib.Logic.Relation
import ForestPanel.AIOps.Chat
import ForestPanel.Lib.Apart

/-!
# One running turn a session, one turn a request

`Knows` is what a call relies on between its statements. It speaks only of the
sessions whose rows the call has locked, and of its key, so that what the others
commit cannot spoil it. `Change` says what a step can do to the tables and the
calls, and every law follows from it.
-/
namespace ForestPanel

namespace AIOps

open Relational Outcome Transition Places

variable {sha256 : List Char → String}

/-! ## What a call relies on -/

def Call.turn? : Call → Option Turn
  | .written _ _ _ _ turn _ => some turn
  | _ => none

def Call.fresh? : Call → Option Int
  | .holding _ _ session true => some session.id
  | .written _ _ session true _ _ => some session.id
  | _ => none

def KeyFree (db : Store) (key : Int × String) : Prop := ∀ t ∈ db.turns, t.key ≠ key

/-- What a sweep has found is running, in sessions whose rows are locked. -/
def FoundRunning (db : Store) (found : List (Int × Int)) (locked : List Int) : Prop :=
  ∀ f ∈ found, f.2 ∈ locked ∧ f.1 ∈ (db.view f.2).running

/-- The session as a message has read it behind its sweep. -/
def SeenAs (db : Store) (done : Swept) (session : Session) (fresh : Bool)
    (status : SessionStatus) : Prop :=
  ((db.interrupt done.found done.now).view session.id).status =
    if fresh then none else some status

structure Written (sha256 : List Char → String) (s : Send) (session : Session) (turn : Turn) :
    Prop where
  idle : session.status = .idle
  inside : turn.sessionID = session.id
  key : turn.key = s.key
  running : turn.status = .running
  hash : turn.requestHash = requestHash sha256 s.original

/-- The identity of the message is the one it came with. -/
def Send.Same (s : Send) : Prop := s.req.requestID = s.original.requestID

def Knows (sha256 : List Char → String) (db : Store) : Call → Prop
  | .send s => s.Same
  | .keyed s _ => s.Same ∧ KeyFree db s.key
  | .sweeping s _ _ => s.Same ∧ KeyFree db s.key
  | .swept s done => s.Same ∧ KeyFree db s.key ∧ FoundRunning db done.found done.locked
  | .holding s done session fresh =>
    s.Same ∧ KeyFree db s.key ∧ FoundRunning db done.found done.locked ∧
      SeenAs db done session fresh session.status
  | .written s done session fresh turn _ =>
    s.Same ∧ KeyFree db s.key ∧ FoundRunning db done.found done.locked ∧
      SeenAs db done session fresh .idle ∧ Written sha256 s session turn
  | .finish _ _ status _ => status ≠ .running
  | .finishing _ _ status _ => status ≠ .running
  | .ended session turn status _ _ => status ≠ .running ∧ turn ∈ (db.view session).running
  | .sweptAlone _ found locked => FoundRunning db found locked
  | _ => True

variable {found : List (Int × Int)} {locked : List Int} {v : View} {now : Int} {s : Send}
  {done : Swept} {session : Session} {fresh : Bool} {selection : String} {t : Turn}

private theorem FoundRunning.transfer {db db' : Store} {rows : List Int}
    (h : FoundRunning db found locked) (inside : ∀ sid ∈ locked, sid ∈ rows)
    (views : ∀ sid ∈ rows, db'.view sid = db.view sid) : FoundRunning db' found locked := by
  intro f listed
  obtain ⟨held, running⟩ := h f listed
  rw [views _ (inside _ held)]
  exact ⟨held, running⟩

theorem Knows.transfer {db db' : Store} {c : Call} (h : Knows sha256 db c)
    (views : ∀ sid ∈ c.rows, db'.view sid = db.view sid)
    (keys : ∀ key, c.key? = some key → KeyFree db key → KeyFree db' key) :
    Knows sha256 db' c := by
  cases c with
  | keyed s _ => exact ⟨h.1, keys _ rfl h.2⟩
  | sweeping s _ _ => exact ⟨h.1, keys _ rfl h.2⟩
  | swept s done => exact ⟨h.1, keys _ rfl h.2.1, h.2.2.transfer (fun _ held => held) views⟩
  | holding s done session fresh =>
    obtain ⟨same, free, found, seen⟩ := h
    refine ⟨same, keys _ rfl free,
      found.transfer (fun _ held => List.mem_cons_of_mem _ held) views, ?_⟩
    rw [SeenAs, Store.view_interrupt, views _ List.mem_cons_self, ← Store.view_interrupt]
    exact seen
  | written s done session fresh turn selection =>
    obtain ⟨same, free, found, seen, written⟩ := h
    refine ⟨same, keys _ rfl free,
      found.transfer (fun _ held => List.mem_cons_of_mem _ held) views, ?_, written⟩
    rw [SeenAs, Store.view_interrupt, views _ List.mem_cons_self, ← Store.view_interrupt]
    exact seen
  | ended session turn status error now =>
    refine ⟨h.1, ?_⟩
    rw [views _ List.mem_cons_self]
    exact h.2
  | sweptAlone now found locked => exact FoundRunning.transfer h (fun _ held => held) views
  | _ => exact h

/-! ## The invariant -/

structure Inv (sha256 : List Char → String) (db : Store) (calls : List Call) : Prop where
  sound : ∀ sid, (db.view sid).Sound
  parents : ∀ t ∈ db.turns, (db.view t.sessionID).status ≠ none
  turnIDs : ∀ t ∈ db.turns, t.id < db.nextTurn
  sessionIDs : ∀ sid, (db.view sid).status ≠ none → sid < db.nextSession
  hashes : ∀ t ∈ db.turns, ∃ req : SendMessageRequest,
    t.requestID = req.requestID ∧ t.requestHash = requestHash sha256 req
  knows : ∀ c ∈ calls, Knows sha256 db c
  bound : ∀ c ∈ calls, ∀ sid ∈ c.rows, sid < db.nextSession
  pending : ∀ c ∈ calls, ∀ t ∈ c.turn?, t.id < db.nextTurn ∧ ∀ u ∈ db.turns, u.id ≠ t.id
  apart : Apart (fun c d : Call => ∀ sid ∈ c.rows, sid ∉ d.rows) calls
  keys : Apart (fun c d : Call => ∀ key, c.key? = some key → d.key? ≠ some key) calls
  distinct : Apart (fun c d : Call => ∀ t ∈ c.turn?, ∀ u ∈ d.turn?, t.id ≠ u.id) calls

theorem Inv.empty : Inv sha256 Store.empty [] where
  sound _ := ⟨Nat.zero_le _, by simp [Store.view, Store.runningTurns, Store.empty, Table.empty, Table.find?]⟩
  parents t listed := by cases listed
  turnIDs t listed := by cases listed
  sessionIDs sid found := absurd rfl found
  hashes t listed := by cases listed
  knows c listed := by cases listed
  bound c listed := by cases listed
  pending c listed := by cases listed
  apart := apart_nil
  keys := apart_nil
  distinct := apart_nil

/-! ## What a step can do -/

/-- A call moves on: it may take free rows, a free key, and new numbers. -/
structure Moves (sha256 : List Char → String) (db db' : Store) (calls : List Call) (n : Nat)
    (c c' : Call) : Prop where
  sessions : db'.sessions = db.sessions
  turns : db'.turns = db.turns
  nextSession : db.nextSession ≤ db'.nextSession
  nextTurn : db.nextTurn ≤ db'.nextTurn
  rows : ∀ sid ∈ c'.rows, sid ∈ c.rows ∨
    (∀ d ∈ calls.eraseIdx n, sid ∉ d.rows) ∧ sid < db'.nextSession
  key : ∀ key, c'.key? = some key → c.key? = some key ∨ ∀ d ∈ calls.eraseIdx n, d.key? ≠ some key
  turn : ∀ t ∈ c'.turn?, (∃ u ∈ c.turn?, u.id = t.id) ∨ db.nextTurn ≤ t.id ∧ t.id < db'.nextTurn
  fresh : ∀ sid ∈ c'.fresh?, sid ∈ c.fresh? ∨ db.nextSession ≤ sid
  knows : Knows sha256 db c'

def Stored (db : Store) (t : Turn) : Prop :=
  ∃ u ∈ db.turns, u.id = t.id ∧ u.key = t.key ∧ u.requestHash = t.requestHash

/-- What a call commits is in the rows that it has locked. -/
structure Commits (sha256 : List Char → String) (db db' : Store) (c : Call) : Prop where
  nextSession : db'.nextSession = db.nextSession
  nextTurn : db'.nextTurn = db.nextTurn
  views : ∀ sid, sid ∉ c.rows → db'.view sid = db.view sid
  sound : ∀ sid ∈ c.rows, (db'.view sid).Sound
  status : ∀ sid, (db'.view sid).status ≠ none →
    (db.view sid).status ≠ none ∨ sid ∈ c.rows ∧ sid ∈ c.fresh?
  runs : ∀ sid, ∀ turn ∈ (db'.view sid).running,
    turn ∈ (db.view sid).running ∨ ∃ t ∈ c.turn?, t.id = turn
  starts : ∀ sid, (db'.view sid).status = some .running →
    (db.view sid).status = some .running ∨ c.turn? ≠ none
  turns : ∀ t ∈ db'.turns, Stored db t ∨ t ∈ c.turn? ∧ c.key? = some t.key ∧
    ∃ req : SendMessageRequest, t.requestID = req.requestID ∧ t.requestHash = requestHash sha256 req
  parents : ∀ t ∈ db'.turns, (db'.view t.sessionID).status ≠ none

/-- A statement of its own that starts no turn. -/
structure Updates (db db' : Store) : Prop where
  nextSession : db.nextSession ≤ db'.nextSession
  nextTurn : db'.nextTurn = db.nextTurn
  views : ∀ sid, db'.view sid = db.view sid ∨
    sid = db.nextSession ∧ db.nextSession < db'.nextSession ∧
      db'.view sid = ⟨some .idle, (db.view sid).running⟩
  turns : ∀ t ∈ db'.turns, ∃ u ∈ db.turns, u.id = t.id ∧ u.key = t.key ∧
    u.requestHash = t.requestHash ∧ u.sessionID = t.sessionID

inductive Change (sha256 : List Char → String) : Store → List Call → Store → List Call → Prop
  | refl (db : Store) (calls : List Call) : Change sha256 db calls db calls
  | move {db db' : Store} {calls : List Call} {n : Nat} {c c' : Call}
      (known : calls[n]? = some c) (moves : Moves sha256 db db' calls n c c') :
      Change sha256 db calls db' (calls.set n c')
  | begin {db : Store} {calls : List Call} {c : Call} (rows : c.rows = []) (key : c.key? = none)
      (turn : c.turn? = none) (fresh : c.fresh? = none) (knows : Knows sha256 db c) :
      Change sha256 db calls db (calls ++ [c])
  | commit {db db' : Store} {calls : List Call} {n : Nat} {c : Call}
      (known : calls[n]? = some c) (commits : Commits sha256 db db' c) :
      Change sha256 db calls db' (calls.set n .returned)
  | update {db db' : Store} {calls : List Call} (updates : Updates db db') :
      Change sha256 db calls db' calls

section

variable {db db' : Store} {calls : List Call} {n : Nat} {c c' : Call}

private theorem knows_of_move (h : Inv sha256 db calls) (moves : Moves sha256 db db' calls n c c')
    (views : ∀ sid, db'.view sid = db.view sid) :
    ∀ d ∈ calls.set n c', Knows sha256 db' d := by
  have keys : ∀ key, KeyFree db key → KeyFree db' key := by
    intro key free
    rw [KeyFree, moves.turns]
    exact free
  intro d listed
  rcases mem_set_cases listed with rfl | old
  · exact moves.knows.transfer (fun sid _ => views sid) fun key _ => keys key
  · exact (h.knows d (List.mem_of_mem_eraseIdx old)).transfer (fun sid _ => views sid)
      fun key _ => keys key

theorem Moves.view (moves : Moves sha256 db db' calls n c c') (sid : Int) :
    db'.view sid = db.view sid :=
  Store.view_congr (by rw [moves.sessions]) (by rw [moves.turns])

theorem Inv.move (h : Inv sha256 db calls) (known : calls[n]? = some c)
    (moves : Moves sha256 db db' calls n c c') : Inv sha256 db' (calls.set n c') := by
  have views := moves.view
  have member : c ∈ calls := List.mem_of_getElem? known
  have lower : ∀ sid, sid < db.nextSession → sid < db'.nextSession := fun sid small => by
    have := moves.nextSession
    omega
  constructor
  case sound => exact fun sid => views sid ▸ h.sound sid
  case parents =>
    intro t listed
    rw [moves.turns] at listed
    rw [views]
    exact h.parents t listed
  case turnIDs =>
    intro t listed
    rw [moves.turns] at listed
    have small := h.turnIDs t listed
    have := moves.nextTurn
    omega
  case sessionIDs =>
    intro sid found
    rw [views] at found
    exact lower sid (h.sessionIDs sid found)
  case hashes =>
    intro t listed
    rw [moves.turns] at listed
    exact h.hashes t listed
  case knows => exact knows_of_move h moves views
  case bound =>
    intro d listed sid held
    rcases mem_set_cases listed with rfl | old
    · rcases moves.rows sid held with before | ⟨-, small⟩
      · exact lower sid (h.bound c member sid before)
      · exact small
    · exact lower sid (h.bound d (List.mem_of_mem_eraseIdx old) sid held)
  case pending =>
    have grown := moves.nextTurn
    intro d listed t written
    rw [moves.turns]
    rcases mem_set_cases listed with rfl | old
    · rcases moves.turn t written with ⟨u, before, same⟩ | ⟨new, small⟩
      · obtain ⟨small, other⟩ := h.pending c member u before
        exact ⟨by omega, fun v stored => same ▸ other v stored⟩
      · refine ⟨small, fun v stored same => ?_⟩
        have := h.turnIDs v stored
        omega
    · obtain ⟨small, other⟩ := h.pending d (List.mem_of_mem_eraseIdx old) t written
      exact ⟨by omega, other⟩
  case apart =>
    refine h.apart.set (fun a b apart sid mine theirs => apart sid theirs mine) ?_
    intro d other sid mine
    rcases moves.rows sid mine with before | ⟨free, -⟩
    · exact h.apart.others known other sid before
    · exact free d other
  case keys =>
    refine h.keys.set (fun a b apart key mine theirs => apart key theirs mine) ?_
    intro d other key mine
    rcases moves.key key mine with before | free
    · exact h.keys.others known other key before
    · exact free d other
  case distinct =>
    refine h.distinct.set (fun a b apart t mine u theirs => (apart u theirs t mine).symm) ?_
    intro d other t mine u theirs
    rcases moves.turn t mine with ⟨v, before, same⟩ | ⟨new, -⟩
    · exact same ▸ h.distinct.others known other v before u theirs
    · have small := (h.pending d (List.mem_of_mem_eraseIdx other) u theirs).1
      omega

private theorem moves_returned : Moves sha256 db db calls n c .returned where
  sessions := rfl
  turns := rfl
  nextSession := Int.le_refl _
  nextTurn := Int.le_refl _
  rows sid held := by cases held
  key key held := by cases held
  turn t held := by cases held
  fresh sid held := by cases held
  knows := trivial

theorem Inv.begin (h : Inv sha256 db calls) (rows : c.rows = []) (key : c.key? = none)
    (turn : c.turn? = none) (knows : Knows sha256 db c) : Inv sha256 db (calls ++ [c]) := by
  have cases : ∀ d ∈ calls ++ [c], d ∈ calls ∨ d = c := fun d listed => by
    simpa using listed
  constructor
  case sound => exact h.sound
  case parents => exact h.parents
  case turnIDs => exact h.turnIDs
  case sessionIDs => exact h.sessionIDs
  case hashes => exact h.hashes
  case knows =>
    intro d listed
    rcases cases d listed with old | rfl
    · exact h.knows d old
    · exact knows
  case bound =>
    intro d listed sid held
    rcases cases d listed with old | rfl
    · exact h.bound d old sid held
    · rw [rows] at held
      cases held
  case pending =>
    intro d listed t written
    rcases cases d listed with old | rfl
    · exact h.pending d old t written
    · rw [turn] at written
      cases written
  case apart =>
    refine h.apart.append (fun a b apart sid mine theirs => apart sid theirs mine) ?_
    intro d _ sid mine
    rw [rows] at mine
    cases mine
  case keys =>
    refine h.keys.append (fun a b apart key mine theirs => apart key theirs mine) ?_
    intro d _ k mine
    rw [key] at mine
    cases mine
  case distinct =>
    refine h.distinct.append (fun a b apart t mine u theirs => (apart u theirs t mine).symm) ?_
    intro d _ t mine
    rw [turn] at mine
    cases mine

theorem Inv.commit (h : Inv sha256 db calls) (known : calls[n]? = some c)
    (commits : Commits sha256 db db' c) : Inv sha256 db' (calls.set n .returned) := by
  have member : c ∈ calls := List.mem_of_getElem? known
  have freed := h.move known moves_returned
  have others : ∀ d ∈ calls.set n .returned, d = .returned ∨ d ∈ calls.eraseIdx n :=
    fun d listed => mem_set_cases listed
  -- A row of the table is an old one with its identity, or the turn of the call.
  have rows : ∀ t ∈ db'.turns, Stored db t ∨ t ∈ c.turn? ∧ c.key? = some t.key := by
    intro t listed
    rcases commits.turns t listed with old | ⟨new, key, -⟩
    · exact Or.inl old
    · exact Or.inr ⟨new, key⟩
  constructor
  case sound =>
    intro sid
    by_cases held : sid ∈ c.rows
    · exact commits.sound sid held
    · exact commits.views sid held ▸ h.sound sid
  case parents => exact commits.parents
  case turnIDs =>
    intro t listed
    rw [commits.nextTurn]
    rcases rows t listed with ⟨u, stored, same, -⟩ | ⟨new, -⟩
    · exact same ▸ h.turnIDs u stored
    · exact (h.pending c member t new).1
  case sessionIDs =>
    intro sid found
    rw [commits.nextSession]
    rcases commits.status sid found with before | ⟨held, -⟩
    · exact h.sessionIDs sid before
    · exact h.bound c member sid held
  case hashes =>
    intro t listed
    rcases commits.turns t listed with ⟨u, stored, -, key, hash⟩ | ⟨-, -, made⟩
    · obtain ⟨req, named, hashed⟩ := h.hashes u stored
      exact ⟨req, (Prod.mk.inj key).2 ▸ named, hash ▸ hashed⟩
    · exact made
  case knows =>
    intro d listed
    rcases others d listed with rfl | other
    · trivial
    · refine (h.knows d (List.mem_of_mem_eraseIdx other)).transfer ?_ ?_
      · intro sid theirs
        refine commits.views sid fun mine => ?_
        exact h.apart.others known other sid mine theirs
      · intro key theirs free t listed'
        rcases rows t listed' with ⟨u, stored, -, same, -⟩ | ⟨-, mine⟩
        · exact same ▸ free u stored
        · rintro rfl
          exact h.keys.others known other _ mine theirs
  case bound => exact fun d listed sid held => commits.nextSession ▸ freed.bound d listed sid held
  case pending =>
    intro d listed t written
    rw [commits.nextTurn]
    refine ⟨(freed.pending d listed t written).1, fun u stored => ?_⟩
    rcases others d listed with rfl | other
    · cases written
    · rcases rows u stored with ⟨v, old, same, -⟩ | ⟨new, -⟩
      · exact same ▸ (freed.pending d listed t written).2 v old
      · exact h.distinct.others known other u new t written
  case apart => exact freed.apart
  case keys => exact freed.keys
  case distinct => exact freed.distinct

theorem Inv.update (h : Inv sha256 db calls) (updates : Updates db db') :
    Inv sha256 db' calls := by
  have running : ∀ sid, (db'.view sid).running = (db.view sid).running := by
    intro sid
    rcases updates.views sid with same | ⟨-, -, new⟩
    · rw [same]
    · rw [new]
  have absent : (db.view db.nextSession).status = none := by
    by_contra found
    exact Int.lt_irrefl _ (h.sessionIDs _ found)
  have kept : ∀ sid, (db.view sid).status ≠ none → db'.view sid = db.view sid := by
    intro sid found
    rcases updates.views sid with same | ⟨rfl, -, -⟩
    · exact same
    · exact absurd absent found
  constructor
  case sound =>
    intro sid
    rcases updates.views sid with same | ⟨rfl, -, new⟩
    · exact same ▸ h.sound sid
    · have before := h.sound db.nextSession
      have short := before.single
      have none_running : (db.view db.nextSession).running.length ≠ 1 := fun one => by
        have := before.agree.mpr one
        rw [absent] at this
        cases this
      rw [new]
      exact ⟨short, by simp [none_running]⟩
  case parents =>
    intro t listed
    obtain ⟨u, stored, -, -, -, same⟩ := updates.turns t listed
    have found := h.parents u stored
    rw [← same, kept _ found]
    exact found
  case turnIDs =>
    intro t listed
    obtain ⟨u, stored, same, -⟩ := updates.turns t listed
    rw [updates.nextTurn]
    exact same ▸ h.turnIDs u stored
  case sessionIDs =>
    intro sid found
    have grown := updates.nextSession
    rcases updates.views sid with same | ⟨rfl, more, -⟩
    · rw [same] at found
      have := h.sessionIDs sid found
      omega
    · exact more
  case hashes =>
    intro t listed
    obtain ⟨u, stored, -, key, hash, -⟩ := updates.turns t listed
    obtain ⟨req, named, hashed⟩ := h.hashes u stored
    exact ⟨req, (Prod.mk.inj key).2 ▸ named, hash ▸ hashed⟩
  case knows =>
    intro c listed
    refine (h.knows c listed).transfer ?_ ?_
    · intro sid held
      rcases updates.views sid with same | ⟨rfl, -, -⟩
      · exact same
      · exact absurd (h.bound c listed _ held) (Int.lt_irrefl _)
    · intro key _ free t listed'
      obtain ⟨u, stored, -, same, -⟩ := updates.turns t listed'
      exact same ▸ free u stored
  case bound =>
    intro c listed sid held
    have := h.bound c listed sid held
    have := updates.nextSession
    omega
  case pending =>
    intro c listed t written
    obtain ⟨small, other⟩ := h.pending c listed t written
    refine ⟨updates.nextTurn ▸ small, fun u stored => ?_⟩
    obtain ⟨v, old, same, -⟩ := updates.turns u stored
    exact same ▸ other v old
  case apart => exact h.apart
  case keys => exact h.keys
  case distinct => exact h.distinct

theorem Inv.change {calls' : List Call} (h : Inv sha256 db calls)
    (change : Change sha256 db calls db' calls') : Inv sha256 db' calls' := by
  cases change with
  | refl => exact h
  | move known moves => exact h.move known moves
  | begin rows key turn fresh knows => exact h.begin rows key turn knows
  | commit known commits => exact h.commit known commits
  | update updates => exact h.update updates

end

/-! ## What the calls commit -/

section

variable {db : Store} {calls : List Call}

private theorem kept_updateWhere {p : Turn → Bool} {f : Turn → Turn}
    (hf : Preserves Turn.id Turn.key f) (session : ∀ t, (f t).sessionID = t.sessionID)
    (hash : ∀ t, (f t).requestHash = t.requestHash) :
    ∀ t ∈ db.turns.updateWhere p f hf, ∃ u ∈ db.turns, u.id = t.id ∧ u.key = t.key ∧
      u.requestHash = t.requestHash ∧ u.sessionID = t.sessionID := by
  intro t listed
  obtain ⟨u, stored, rfl⟩ := (Table.mem_updateWhere ..).mp listed
  refine ⟨u, stored, ?_⟩
  split
  · exact ⟨(hf u).1.symm, (hf u).2.symm, (hash u).symm, (session u).symm⟩
  · exact ⟨rfl, rfl, rfl, rfl⟩

private theorem kept_interrupt (found : List (Int × Int)) (now : Int) :
    ∀ t ∈ (db.interrupt found now).turns, ∃ u ∈ db.turns, u.id = t.id ∧ u.key = t.key ∧
      u.requestHash = t.requestHash ∧ u.sessionID = t.sessionID := by
  intro t listed
  exact @kept_updateWhere db _ _ (by intro; exact ⟨rfl, rfl⟩) (by intro; rfl) (by intro; rfl) t
    listed

private theorem kept_finish (session turn : Int) (status : TurnStatus) (error : String) (now : Int) :
    ∀ t ∈ (db.finish session turn status error now).turns, ∃ u ∈ db.turns, u.id = t.id ∧
      u.key = t.key ∧ u.requestHash = t.requestHash ∧ u.sessionID = t.sessionID := by
  intro t listed
  exact @kept_updateWhere db _ _ (by intro; exact ⟨rfl, rfl⟩) (by intro; rfl) (by intro; rfl) t
    listed

private theorem running_eq_singleton (sound : v.Sound) {turn : Int} (running : turn ∈ v.running) :
    v.running = [turn] := by
  have positive := List.length_pos_of_mem running
  have one : v.running.length = 1 := by
    have := sound.single
    omega
  obtain ⟨u, same⟩ := List.length_eq_one_iff.mp one
  rw [same, List.mem_singleton] at running
  rw [same, running]

private theorem sound_of_stopped (none_running : v.running = []) (status : v.status ≠ some .running)
    :
    v.Sound :=
  ⟨by simp [none_running], by simp [none_running, status]⟩

private theorem view_interrupt_other (h : FoundRunning db found locked) (now : Int) {sid : Int}
    (other : sid ∉ found.map (·.2)) : (db.interrupt found now).view sid = db.view sid := by
  have running : (db.view sid).running.filter (fun t => decide (t ∉ found.map (·.1))) =
      (db.view sid).running := by
    refine List.filter_eq_self.mpr fun t here => ?_
    rw [decide_eq_true_eq]
    intro chosen
    obtain ⟨f, listed, rfl⟩ := List.mem_map.mp chosen
    have same := Store.session_unique here (h f listed).2
    exact other (List.mem_map.mpr ⟨f, listed, same.symm⟩)
  rw [Store.view_interrupt, if_neg other, running]

private theorem view_interrupt_found (sound : ∀ sid, (db.view sid).Sound)
    (h : FoundRunning db found locked) (now : Int) {sid : Int} (chosen : sid ∈ found.map (·.2)) :
    (db.interrupt found now).view sid = ⟨(db.view sid).status.map fun _ => .idle, []⟩ := by
  obtain ⟨f, listed, rfl⟩ := List.mem_map.mp chosen
  have only := running_eq_singleton (sound f.2) (h f listed).2
  have swept : f.1 ∈ found.map (·.1) := List.mem_map_of_mem listed
  rw [Store.view_interrupt, if_pos chosen, only]
  simp [swept]

private theorem status_interrupt (found : List (Int × Int)) (now sid : Int) :
    ((db.interrupt found now).view sid).status ≠ none ↔ (db.view sid).status ≠ none := by
  rw [Store.view_interrupt]
  dsimp only
  split <;> simp

theorem sound_interrupt (sound : ∀ sid, (db.view sid).Sound) (h : FoundRunning db found locked)
    (now sid : Int) : ((db.interrupt found now).view sid).Sound := by
  by_cases chosen : sid ∈ found.map (·.2)
  · rw [view_interrupt_found sound h now chosen]
    exact sound_of_stopped rfl (by simp)
  · rw [view_interrupt_other h now chosen]
    exact sound sid

private theorem runs_interrupt {sid turn : Int}
    (running : turn ∈ ((db.interrupt found now).view sid).running) :
    turn ∈ (db.view sid).running := by
  rw [Store.view_interrupt] at running
  exact List.mem_of_mem_filter running

private theorem starts_interrupt {sid : Int}
    (running : ((db.interrupt found now).view sid).status = some .running) :
    (db.view sid).status = some .running := by
  rw [Store.view_interrupt] at running
  dsimp only at running
  split at running
  · simp at running
  · exact running

private theorem parents_interrupt (h : Inv sha256 db calls) (found : List (Int × Int)) (now : Int) :
    ∀ t ∈ (db.interrupt found now).turns,
      ((db.interrupt found now).view t.sessionID).status ≠ none := by
  intro t listed
  obtain ⟨u, stored, -, -, -, session⟩ := kept_interrupt found now t listed
  rw [status_interrupt, ← session]
  exact h.parents u stored

theorem commits_interrupt (h : Inv sha256 db calls) (knows : FoundRunning db found locked) :
    Commits sha256 db (db.interrupt found now) (.sweptAlone now found locked) where
  nextSession := rfl
  nextTurn := rfl
  views sid free := by
    refine view_interrupt_other knows now fun chosen => free ?_
    obtain ⟨f, listed, rfl⟩ := List.mem_map.mp chosen
    exact (knows f listed).1
  sound sid _ := sound_interrupt h.sound knows now sid
  status sid found := Or.inl ((status_interrupt _ now sid).mp found)
  runs sid turn running := Or.inl (runs_interrupt running)
  starts sid running := Or.inl (starts_interrupt running)
  turns t listed := by
    obtain ⟨u, stored, id, key, hash, -⟩ := kept_interrupt found now t listed
    exact Or.inl ⟨u, stored, id, key, hash⟩
  parents := parents_interrupt h found now

theorem commits_finish (h : Inv sha256 db calls) {session turn : Int} {status : TurnStatus}
    {error : String} (ending : status ≠ .running) (running : turn ∈ (db.view session).running) :
    Commits sha256 db (db.finish session turn status error now)
      (.ended session turn status error now) where
  nextSession := rfl
  nextTurn := rfl
  views sid free := by
    rw [Store.view_finish ending, if_neg]
    rintro rfl
    exact free List.mem_cons_self
  sound sid held := by
    obtain rfl := List.mem_singleton.mp held
    rw [Store.view_finish ending, if_pos rfl, running_eq_singleton (h.sound sid) running]
    exact sound_of_stopped (by simp) (by simp)
  status sid found := by
    rw [Store.view_finish ending] at found
    refine Or.inl fun absent => found ?_
    split
    · simp [absent]
    · exact absent
  runs sid t running := by
    rw [Store.view_finish ending] at running
    split at running
    · exact Or.inl (List.mem_of_mem_filter running)
    · exact Or.inl running
  starts sid running := by
    rw [Store.view_finish ending] at running
    split at running
    · simp at running
    · exact Or.inl running
  turns t listed := by
    obtain ⟨u, stored, id, key, hash, -⟩ := kept_finish session turn status error now t listed
    exact Or.inl ⟨u, stored, id, key, hash⟩
  parents t listed := by
    obtain ⟨u, stored, -, -, -, same⟩ := kept_finish session turn status error now t listed
    have found := h.parents u stored
    rw [Store.view_finish ending, ← same]
    split
    · simpa using found
    · exact found

private theorem running_of_not_running (sound : v.Sound) (status : v.status ≠ some .running) :
    v.running = [] := by
  have short := sound.single
  have other : v.running.length ≠ 1 := fun one => status (sound.agree.mpr one)
  exact List.length_eq_zero_iff.mp (by omega)

private theorem opened_cases {turn : Turn} {db' : Store}
    (committed : (Call.written s done session fresh turn selection).commit? db = some db') :
    ∃ opened : Store, opened.startTurn? turn selection turn.createdAt = some db' ∧
      (fresh = true ∧ (db.interrupt done.found done.now).insertSession? session = some opened ∨
        fresh = false ∧ opened = db.interrupt done.found done.now) := by
  obtain ⟨opened, first, started⟩ := Option.bind_eq_some_iff.mp committed
  refine ⟨opened, started, ?_⟩
  cases fresh with
  | true => exact Or.inl ⟨rfl, first⟩
  | false => exact Or.inr ⟨rfl, (Option.some.inj first).symm⟩

private theorem view_written (h : Inv sha256 db calls) {turn : Turn} {db' : Store}
    (found : FoundRunning db done.found done.locked) (seen : SeenAs db done session fresh .idle)
    (written : Written sha256 s session turn)
    (committed : (Call.written s done session fresh turn selection).commit? db = some db')
    (sid : Int) :
    db'.view sid = if sid = session.id then ⟨some .running, [turn.id]⟩
      else (db.interrupt done.found done.now).view sid := by
  obtain ⟨opened, started, how⟩ := opened_cases committed
  have sound := sound_interrupt h.sound found done.now session.id
  have stopped : ((db.interrupt done.found done.now).view session.id).running = [] := by
    refine running_of_not_running sound ?_
    rw [seen]
    cases fresh <;> simp
  have behind : opened.view sid = if sid = session.id then ⟨some .idle, []⟩
      else (db.interrupt done.found done.now).view sid := by
    rcases how with ⟨rfl, inserted⟩ | ⟨rfl, rfl⟩
    · rw [Store.view_insertSession inserted]
      split
      next here => rw [here, written.idle, stopped]
      next => rfl
    · split
      next here =>
        rw [here]
        exact View.ext seen stopped
      next => rfl
  rw [Store.view_startTurn started written.running, behind, written.inside]
  split <;> rfl

private theorem turns_written {turn : Turn} {db' : Store}
    (committed : (Call.written s done session fresh turn selection).commit? db = some db') :
    ∀ t ∈ db'.turns, t ∈ (db.interrupt done.found done.now).turns ∨ t = turn := by
  obtain ⟨opened, started, how⟩ := opened_cases committed
  have same : opened.turns = (db.interrupt done.found done.now).turns := by
    rcases how with ⟨-, inserted⟩ | ⟨-, rfl⟩
    · obtain ⟨sessions, -, rfl⟩ := Option.map_eq_some_iff.mp inserted
      rfl
    · rfl
  obtain ⟨turns, added, rfl⟩ := Option.map_eq_some_iff.mp started
  intro t listed
  rw [← same]
  exact (Table.mem_of_insert? added t).mp listed

private theorem counters_written {turn : Turn} {db' : Store}
    (committed : (Call.written s done session fresh turn selection).commit? db = some db') :
    db'.nextSession = db.nextSession ∧ db'.nextTurn = db.nextTurn := by
  obtain ⟨opened, started, how⟩ := opened_cases committed
  obtain ⟨turns, -, rfl⟩ := Option.map_eq_some_iff.mp started
  rcases how with ⟨-, inserted⟩ | ⟨-, rfl⟩
  · obtain ⟨sessions, -, rfl⟩ := Option.map_eq_some_iff.mp inserted
    exact ⟨rfl, rfl⟩
  · exact ⟨rfl, rfl⟩

theorem commits_written (h : Inv sha256 db calls) {turn : Turn} {db' : Store}
    (knows : Knows sha256 db (.written s done session fresh turn selection))
    (committed : (Call.written s done session fresh turn selection).commit? db = some db') :
    Commits sha256 db db' (.written s done session fresh turn selection) := by
  obtain ⟨same, free, found, seen, written⟩ := knows
  have views := view_written h found seen written committed
  constructor
  case nextSession => exact (counters_written committed).1
  case nextTurn => exact (counters_written committed).2
  case views =>
    intro sid free
    obtain ⟨other, unlocked⟩ := not_or.mp (mt List.mem_cons.mpr free)
    rw [views, if_neg other]
    refine view_interrupt_other found done.now fun chosen => unlocked ?_
    obtain ⟨f, listed, rfl⟩ := List.mem_map.mp chosen
    exact (found f listed).1
  case sound =>
    intro sid _
    rw [views]
    split
    · exact ⟨le_refl 1, by simp⟩
    · exact sound_interrupt h.sound found done.now sid
  case status =>
    intro sid shown
    rw [views] at shown
    split at shown
    next here =>
      cases fresh with
      | true => exact Or.inr ⟨here ▸ List.mem_cons_self, by simp [Call.fresh?, here]⟩
      | false =>
        refine Or.inl ((status_interrupt done.found done.now sid).mp ?_)
        rw [here, seen]
        simp
    next => exact Or.inl ((status_interrupt done.found done.now sid).mp shown)
  case runs =>
    intro sid t running
    rw [views] at running
    split at running
    next => exact Or.inr ⟨turn, rfl, (List.mem_singleton.mp running).symm⟩
    next => exact Or.inl (runs_interrupt running)
  case starts => exact fun sid _ => Or.inr (by simp [Call.turn?])
  case turns =>
    intro t listed
    rcases turns_written committed t listed with old | rfl
    · obtain ⟨u, stored, id, key, hash, -⟩ := kept_interrupt _ _ t old
      exact Or.inl ⟨u, stored, id, key, hash⟩
    · refine Or.inr ⟨rfl, congrArg some written.key.symm, s.original, ?_, written.hash⟩
      rw [← same]
      exact (Prod.mk.inj written.key).2
  case parents =>
    intro t listed
    rw [views]
    split
    · simp
    next other =>
      rcases turns_written committed t listed with old | rfl
      · exact parents_interrupt h _ _ t old
      · exact absurd written.inside other

theorem commits_delete (h : Inv sha256 db calls) {session : Int}
    (all : ∀ sid ∈ Call.targets db session, sid ∈ locked) :
    Commits sha256 db (db.deleteSessions (Call.targets db session)) (.delete session locked) := by
  have kept : ∀ t ∈ (db.deleteSessions (Call.targets db session)).turns,
      t ∈ db.turns ∧ t.sessionID ∉ Call.targets db session := by
    intro t listed
    obtain ⟨stored, left⟩ := (Table.mem_deleteWhere ..).mp listed
    exact ⟨stored, of_decide_eq_false left⟩
  constructor
  case nextSession => rfl
  case nextTurn => rfl
  case views =>
    intro sid free
    rw [Store.view_deleteSessions, if_neg fun taken => free (all sid taken)]
  case sound =>
    intro sid _
    rw [Store.view_deleteSessions]
    split
    · exact sound_of_stopped rfl (by simp)
    · exact h.sound sid
  case status =>
    intro sid shown
    rw [Store.view_deleteSessions] at shown
    split at shown
    · exact absurd rfl shown
    · exact Or.inl shown
  case runs =>
    intro sid t running
    rw [Store.view_deleteSessions] at running
    split at running
    · cases running
    · exact Or.inl running
  case starts =>
    intro sid running
    rw [Store.view_deleteSessions] at running
    split at running
    · cases running
    · exact Or.inl running
  case turns => exact fun t listed => Or.inl ⟨t, (kept t listed).1, rfl, rfl, rfl⟩
  case parents =>
    intro t listed
    obtain ⟨stored, left⟩ := kept t listed
    rw [Store.view_deleteSessions, if_neg left]
    exact h.parents t stored

private theorem commits_same (h : Inv sha256 db calls) {db' : Store} {c : Call}
    (views : ∀ sid, db'.view sid = db.view sid) (nextSession : db'.nextSession = db.nextSession)
    (nextTurn : db'.nextTurn = db.nextTurn)
    (turns : ∀ t ∈ db'.turns, ∃ u ∈ db.turns, u.id = t.id ∧ u.key = t.key ∧
      u.requestHash = t.requestHash ∧ u.sessionID = t.sessionID) : Commits sha256 db db' c where
  nextSession := nextSession
  nextTurn := nextTurn
  views sid _ := views sid
  sound sid _ := views sid ▸ h.sound sid
  status sid shown := Or.inl (views sid ▸ shown)
  runs sid t running := Or.inl (views sid ▸ running)
  starts sid running := Or.inl (views sid ▸ running)
  turns t listed := by
    obtain ⟨u, stored, id, key, hash, -⟩ := turns t listed
    exact Or.inl ⟨u, stored, id, key, hash⟩
  parents t listed := by
    obtain ⟨u, stored, -, -, -, same⟩ := turns t listed
    rw [views, ← same]
    exact h.parents u stored

private theorem kept_requestStop (chosen : Turn → Bool) :
    ∀ t ∈ (db.requestStop chosen).turns, ∃ u ∈ db.turns, u.id = t.id ∧ u.key = t.key ∧
      u.requestHash = t.requestHash ∧ u.sessionID = t.sessionID := by
  intro t listed
  exact @kept_updateWhere db _ _ (by intro; exact ⟨rfl, rfl⟩) (by intro; rfl) (by intro; rfl) t
    listed

private theorem kept_refl : ∀ t ∈ db.turns, ∃ u ∈ db.turns, u.id = t.id ∧ u.key = t.key ∧
    u.requestHash = t.requestHash ∧ u.sessionID = t.sessionID :=
  fun t listed => ⟨t, listed, rfl, rfl, rfl, rfl⟩

theorem commits_of_commit? (h : Inv sha256 db calls) {c : Call} {db' : Store}
    (knows : Knows sha256 db c) (committed : c.commit? db = some db') :
    Commits sha256 db db' c := by
  cases c with
  | written s done session fresh turn selection => exact commits_written h knows committed
  | ended session turn status error now =>
    obtain rfl := Option.some.inj committed
    exact commits_finish h knows.1 knows.2
  | sweptAlone now found locked =>
    obtain rfl := Option.some.inj committed
    exact commits_interrupt h knows
  | stopping session =>
    obtain rfl := Option.some.inj committed
    exact commits_same h (fun sid => Store.view_requestStop _ sid) rfl rfl (kept_requestStop _)
  | changed actor session mode now =>
    dsimp only [Call.commit?] at committed
    split at committed
    · obtain rfl := Option.some.inj committed
      exact commits_same h (fun sid => Store.view_setAccess _ _ _ _ sid) rfl rfl kept_refl
    · obtain rfl := Option.some.inj committed
      refine commits_same h (fun sid => ?_) rfl rfl (kept_requestStop _)
      rw [Store.view_requestStop, Store.view_setAccess]
  | delete session locked =>
    dsimp only [Call.commit?] at committed
    split at committed
    next all =>
      obtain rfl := Option.some.inj committed
      exact commits_delete h all
    next => cases committed
  | _ => cases committed

end

/-! ## Every step is a change -/

section

variable {w : World} {n : Nat}

/-- The change of the tables and of the calls between two worlds. -/
def Changes (sha256 : List Char → String) (w w' : World) : Prop :=
  Change sha256 w.store w.calls w'.store w'.calls

private theorem changes_refl : Changes sha256 w w := .refl _ _

private theorem changes_answer {c : Call} (known : w.calls[n]? = some c) (s : Send)
    (result : Except Failure (Session × Turn)) : Changes sha256 w (w.answer n s result) :=
  .move known moves_returned

private theorem changes_returned {c : Call} (known : w.calls[n]? = some c) :
    Changes sha256 w (w.setCall n .returned) :=
  .move known moves_returned

private theorem changes_setCall {c c' : Call} (known : w.calls[n]? = some c)
    (rows : ∀ sid ∈ c'.rows, sid ∈ c.rows ∨ w.rowFree n sid ∧ sid < w.store.nextSession)
    (key : c'.key? = c.key?) (turn : c'.turn? = c.turn?) (fresh : c'.fresh? = c.fresh?)
    (knows : Knows sha256 w.store c') : Changes sha256 w (w.setCall n c') := by
  refine .move known ?_
  constructor
  case sessions => rfl
  case turns => rfl
  case nextSession => exact Int.le_refl _
  case nextTurn => exact Int.le_refl _
  case rows => exact rows
  case key => exact fun k held => Or.inl (key ▸ held)
  case turn => exact fun t written => Or.inl ⟨t, turn ▸ written, rfl⟩
  case fresh => exact fun sid new => Or.inl (fresh ▸ new)
  case knows => exact knows

private theorem changes_begin {c : Call} (rows : c.rows = []) (key : c.key? = none)
    (turn : c.turn? = none) (fresh : c.fresh? = none) (knows : Knows sha256 w.store c) :
    Changes sha256 w (w.begin c) := by
  unfold World.begin
  split
  · exact .begin rows key turn fresh knows
  · exact changes_refl

private theorem shown_of_find {db : Store} {sid : Int} {s : Session}
    (found : db.sessions.find? sid = some s) : (db.view sid).status ≠ none := by
  simp [Store.view, found]

private theorem bound_of_isSome (h : Inv sha256 w.store w.calls) {sid : Int}
    (found : (w.store.sessions.find? sid).isSome = true) : sid < w.store.nextSession := by
  obtain ⟨s, stored⟩ := Option.isSome_iff_exists.mp found
  exact h.sessionIDs sid (shown_of_find stored)

private theorem foundRunning_found (sweep : Sweep) (db : Store) :
    FoundRunning db (sweep.found db) sweep.locked := by
  intro f listed
  simp only [Sweep.found, List.mem_filter, Bool.and_eq_true, decide_eq_true_eq] at listed
  obtain ⟨-, held, due⟩ := listed
  refine ⟨held, ?_⟩
  simp only [expired, List.mem_map, List.mem_filter, Bool.and_eq_true, decide_eq_true_eq] at due
  obtain ⟨t, ⟨stored, running, -⟩, rfl⟩ := due
  exact Store.mem_running.mpr ⟨t, stored, rfl, rfl, running⟩

private theorem changes_lookup (known : w.calls[n]? = some (.send s)) (same : s.Same)
    (role : Option Role) (visible : Bool) :
    Changes sha256 w (lookup sha256 w n s role visible) := by
  unfold lookup
  split
  next => exact changes_answer known s _
  next role _ =>
    split
    next => exact changes_answer known s _
    next =>
      split
      next free =>
        split
        next absent =>
          refine .move known ?_
          constructor
          case sessions => rfl
          case turns => rfl
          case nextSession => exact Int.le_refl _
          case nextTurn => exact Int.le_refl _
          case rows => exact fun sid held => absurd held List.not_mem_nil
          case key =>
            rintro key held
            obtain rfl := Option.some.inj held
            exact Or.inr free
          case turn => exact fun t written => by cases written
          case fresh => exact fun sid new => by cases new
          case knows => exact ⟨same, (Table.findUniq?_eq_none ..).mp absent⟩
        next turn _ =>
          split
          next => exact changes_answer known s _
          next =>
            split
            next => exact changes_answer known s _
            next =>
              split
              next => exact changes_answer known s _
              next => exact changes_answer known s _
      next => exact changes_refl

private theorem changes_hold (h : Inv sha256 w.store w.calls)
    (known : w.calls[n]? = some (.swept s done)) (now : Int) :
    Changes sha256 w (holdSession w n s done now) := by
  obtain ⟨same, free, found⟩ := h.knows _ (List.mem_of_getElem? known)
  unfold holdSession
  split
  next =>
    split
    next => exact changes_answer known s _
    next =>
      -- The number of the new session is nobody's yet.
      have unused : ∀ d ∈ w.calls.eraseIdx n, w.store.nextSession ∉ d.rows := fun d other held =>
        Int.lt_irrefl _ (h.bound d (List.mem_of_mem_eraseIdx other) _ held)
      refine .move known ?_
      constructor
      case sessions => rfl
      case turns => rfl
      case nextSession => exact Int.le_of_lt (Int.lt_succ _)
      case nextTurn => exact Int.le_refl _
      case rows =>
        intro sid held
        rcases List.mem_cons.mp held with rfl | before
        · exact Or.inr ⟨unused, Int.lt_succ _⟩
        · exact Or.inl before
      case key => exact fun key held => Or.inl held
      case turn => exact fun t written => by cases written
      case fresh =>
        intro sid new
        obtain rfl := Option.some.inj new
        exact Or.inr (Int.le_refl _)
      case knows =>
        refine ⟨same, free, found, ?_⟩
        by_contra shown
        exact Int.lt_irrefl _ (h.sessionIDs _ ((status_interrupt _ _ _).mp shown))
  next =>
    split
    next unlocked =>
      split
      next => exact changes_answer known s _
      next session stored =>
        have named : session.id = s.req.sessionID := Table.key_of_find? stored
        rw [← named] at unlocked stored
        have shown := (status_interrupt _ _ _).mp (shown_of_find stored)
        refine changes_setCall known ?_ rfl rfl rfl ⟨same, free, found, ?_⟩
        · intro sid held
          rcases List.mem_cons.mp held with rfl | before
          · exact Or.inr ⟨unlocked, h.sessionIDs _ shown⟩
          · exact Or.inl before
        · simp only [SeenAs, Store.view, stored, Option.map_some, Bool.false_eq_true, if_false]
    next => exact changes_answer known s _

private theorem grantAccess_keeps (s : Send) (session : Session) (now : Int) :
    (grantAccess s session now).id = session.id ∧
      (grantAccess s session now).status = session.status := by
  unfold grantAccess
  split <;> exact ⟨rfl, rfl⟩

private theorem writeTurn_ok {id : Int} {role : Role} {opened : Session} {actionInFlight : Bool}
    {messages : Nat} {turn : Turn}
    (written : writeTurn sha256 id s role session fresh now actionInFlight messages =
      .ok (opened, turn, selection)) :
    session.status = .idle ∧ opened.id = session.id ∧ turn.id = id ∧
      Written sha256 s opened turn := by
  unfold writeTurn at written
  simp only [bind_eq_ok, ensure_eq_ok, pure_eq_ok, Prod.mk.injEq] at written
  obtain ⟨-, idle, -, -, -, -, -, -, effort, -, -, -, rfl, rfl, rfl⟩ := written
  have still : session.status = .idle := by
    cases stands : session.status with
    | idle => rfl
    | running => exact absurd stands idle
  have keeps : (if fresh then grantAccess s session now else session).id = session.id ∧
      (if fresh then grantAccess s session now else session).status = session.status := by
    split
    · exact grantAccess_keeps s session now
    · exact ⟨rfl, rfl⟩
  exact ⟨still, keeps.1, rfl, keeps.2.trans still, rfl, rfl, rfl, rfl⟩

private theorem changes_write (h : Inv sha256 w.store w.calls) {c : Call}
    (known : w.calls[n]? = some c) (now : Int) (actionInFlight : Bool) (messages : Nat) :
    Changes sha256 w (write sha256 w n now actionInFlight messages c) := by
  have knows := h.knows c (List.mem_of_getElem? known)
  cases c with
  | holding s done session fresh =>
    dsimp only [write]
    split
    next => exact changes_answer known s _
    next opened turn selection written =>
      obtain ⟨same, free, found, seen⟩ := knows
      obtain ⟨idle, named, numbered, written⟩ := writeTurn_ok written
      refine .move known ?_
      constructor
      case sessions => rfl
      case turns => rfl
      case nextSession => exact Int.le_refl _
      case nextTurn => exact Int.le_of_lt (Int.lt_succ _)
      case rows =>
        intro sid held
        refine Or.inl ?_
        rw [Call.rows, ← named]
        exact held
      case key => exact fun key held => Or.inl held
      case turn =>
        intro t new
        obtain rfl := Option.some.inj new
        rw [numbered]
        exact Or.inr ⟨Int.le_refl _, Int.lt_succ _⟩
      case fresh =>
        intro sid new
        refine Or.inl ?_
        cases fresh with
        | true =>
          rw [Call.fresh?, ← named]
          exact new
        | false => exact new
      case knows =>
        refine ⟨same, free, found, ?_, written⟩
        rw [SeenAs, named, ← idle]
        exact seen
  | finishing session turn status error =>
    dsimp only [write]
    split
    next running =>
      exact changes_setCall known (fun sid held => Or.inl held) rfl rfl rfl
        ⟨knows, Store.isRunning_iff.mp running⟩
    next => exact changes_returned known
  | changing actor session mode expected =>
    dsimp only [write]
    split
    next => exact changes_returned known
    next => exact changes_setCall known (fun sid held => Or.inl held) rfl rfl rfl trivial
  | _ => exact changes_refl

private theorem changes_lockSession (h : Inv sha256 w.store w.calls) {c : Call}
    (known : w.calls[n]? = some c) (now : Int) :
    Changes sha256 w (lockSession w n now c) := by
  have knows := h.knows c (List.mem_of_getElem? known)
  have one : ∀ {session : Int}, w.rowFree n session →
      (w.store.sessions.find? session).isSome = true → ∀ sid ∈ [session], sid ∈ c.rows ∨
        w.rowFree n sid ∧ sid < w.store.nextSession := by
    intro session free stored sid held
    obtain rfl := List.mem_singleton.mp held
    exact Or.inr ⟨free, bound_of_isSome h stored⟩
  cases c with
  | swept s done => exact changes_hold h known now
  | finish session turn status error =>
    dsimp only [lockSession]
    split
    next free =>
      split
      next stored => exact changes_setCall known (one free stored) rfl rfl rfl knows
      next => exact changes_returned known
    next => exact changes_refl
  | stop session =>
    dsimp only [lockSession]
    split
    next free =>
      split
      next stored => exact changes_setCall known (one free stored) rfl rfl rfl trivial
      next => exact changes_returned known
    next => exact changes_returned known
  | access actor session mode expected =>
    dsimp only [lockSession]
    split
    next free =>
      split
      next stored => exact changes_setCall known (one free stored) rfl rfl rfl trivial
      next => exact changes_returned known
    next => exact changes_returned known
  | _ => exact changes_refl

private theorem changes_lockExpired (h : Inv sha256 w.store w.calls) {c : Call}
    (known : w.calls[n]? = some c) (session : Int) :
    Changes sha256 w (lockExpired w n session c) := by
  have knows := h.knows c (List.mem_of_getElem? known)
  have more : ∀ {locked : List Int}, w.rowFree n session →
      (w.store.sessions.find? session).isSome = true → ∀ sid ∈ session :: locked, sid ∈ locked ∨
        w.rowFree n sid ∧ sid < w.store.nextSession := by
    intro locked free stored sid held
    rcases List.mem_cons.mp held with rfl | before
    · exact Or.inr ⟨free, bound_of_isSome h stored⟩
    · exact Or.inl before
  cases c with
  | sweeping s role sweep =>
    dsimp only [lockExpired]
    split
    next can => exact changes_setCall known (more can.2.1 can.2.2) rfl rfl rfl knows
    next => exact changes_refl
  | sweep alone =>
    dsimp only [lockExpired]
    split
    next can => exact changes_setCall known (more can.2.1 can.2.2) rfl rfl rfl trivial
    next => exact changes_refl
  | _ => exact changes_refl

private theorem changes_interruptFound (h : Inv sha256 w.store w.calls) {c : Call}
    (known : w.calls[n]? = some c) : Changes sha256 w (interruptFound w n c) := by
  have knows := h.knows c (List.mem_of_getElem? known)
  cases c with
  | sweeping s role sweep =>
    exact changes_setCall known (fun sid held => Or.inl held) rfl rfl rfl
      ⟨knows.1, knows.2, foundRunning_found sweep w.store⟩
  | sweep alone =>
    exact changes_setCall known (fun sid held => Or.inl held) rfl rfl rfl
      (foundRunning_found alone w.store)
  | _ => exact changes_refl

private theorem changes_commit (h : Inv sha256 w.store w.calls) {c : Call}
    (known : w.calls[n]? = some c) (acknowledged : Bool) :
    Changes sha256 w (commitCall w n c acknowledged) := by
  unfold commitCall
  split
  next => exact changes_refl
  next store committed =>
    have commits := commits_of_commit? h (h.knows c (List.mem_of_getElem? known)) committed
    split <;> exact .commit known commits

private theorem changes_refuse {c : Call} (known : w.calls[n]? = some c) (failure : Failure) :
    Changes sha256 w (w.refuse n c failure) := by
  unfold World.refuse
  split
  all_goals first
    | exact changes_answer known _ _
    | exact changes_returned known

private theorem admit_same {req moded : SendMessageRequest} {c : Circumstances}
    (admitted : admitMessage req c = .ok moded) : moded = req.withMode := by
  unfold admitMessage at admitted
  simp only [bind_eq_ok, ensure_eq_ok, pure_eq_ok] at admitted
  obtain ⟨-, -, -, -, -, -, -, -, -, -, -, -, rfl⟩ := admitted
  rfl

theorem changes_step (h : Inv sha256 w.store w.calls) (act : Act) :
    Changes sha256 w (step sha256 w act) := by
  cases act with
  | sendMessage actor req c =>
    dsimp only [step]
    split
    next => exact changes_refl
    next moded admitted =>
      refine changes_begin rfl rfl rfl rfl ?_
      have same := admit_same admitted
      show moded.requestID = req.requestID
      rw [same, SendMessageRequest.withMode]
      split <;> rfl
  | lookup n role visible =>
    dsimp only [step]
    split
    next s known => exact changes_lookup known (h.knows _ (List.mem_of_getElem? known)) role visible
    next => exact changes_refl
  | snapshot n now =>
    dsimp only [step]
    split
    next s role known =>
      have knows := h.knows _ (List.mem_of_getElem? known)
      exact changes_setCall known (fun sid held => by cases held) rfl rfl rfl knows
    next => exact changes_refl
  | lockExpired n session =>
    dsimp only [step]
    split
    next c known => exact changes_lockExpired h known session
    next => exact changes_refl
  | interrupt n =>
    dsimp only [step]
    split
    next c known => exact changes_interruptFound h known
    next => exact changes_refl
  | lockSession n now =>
    dsimp only [step]
    split
    next c known => exact changes_lockSession h known now
    next => exact changes_refl
  | write n now actionInFlight messages =>
    dsimp only [step]
    split
    next c known => exact changes_write h known now actionInFlight messages
    next => exact changes_refl
  | commit n acknowledged =>
    dsimp only [step]
    split
    next c known => exact changes_commit h known acknowledged
    next => exact changes_refl
  | fail n failure =>
    dsimp only [step]
    split
    next c known => exact changes_refuse known failure
    next => exact changes_refl
  | createSession actor model effort now =>
    dsimp only [step]
    split
    next =>
      split
      next => exact changes_refl
      next store inserted =>
        refine .update ?_
        have views := Store.view_insertSession inserted
        obtain ⟨sessions, -, rfl⟩ := Option.map_eq_some_iff.mp inserted
        constructor
        case nextSession => exact Int.le_of_lt (Int.lt_succ _)
        case nextTurn => rfl
        case views =>
          intro sid
          by_cases new : sid = w.store.nextSession
          · refine Or.inr ⟨new, Int.lt_succ _, ?_⟩
            exact (views sid).trans (if_pos new)
          · exact Or.inl ((views sid).trans (if_neg new))
        case turns => exact kept_refl
    next => exact changes_refl
  | finishTurn session turn status error =>
    dsimp only [step]
    split
    next ending => exact changes_begin rfl rfl rfl rfl ending
    next => exact changes_refl
  | listSessions now => exact .begin rfl rfl rfl rfl trivial
  | stopSession session => exact changes_begin rfl rfl rfl rfl trivial
  | setAccessMode actor session mode expected =>
    dsimp only [step]
    split
    next => exact changes_begin rfl rfl rfl rfl trivial
    next => exact changes_refl
  | deleteData session =>
    dsimp only [step]
    split
    next => exact .begin rfl rfl rfl rfl trivial
    next => exact changes_refl
  | lockDeleted n session =>
    dsimp only [step]
    split
    next id locked known =>
      split
      next can =>
        refine changes_setCall known ?_ rfl rfl rfl trivial
        intro sid held
        rcases List.mem_cons.mp held with rfl | before
        · refine Or.inr ⟨can.2, h.sessionIDs _ ?_⟩
          obtain ⟨s, listed, rfl⟩ := List.mem_map.mp can.1
          exact shown_of_find (Table.find?_key _ (List.mem_of_mem_filter listed))
        · exact Or.inl before
      next => exact changes_refl
    next => exact changes_refl
  | requestStop turns =>
    dsimp only [step]
    split
    next =>
      exact .update ⟨Int.le_refl _, rfl, fun sid => Or.inl (Store.view_requestStop _ sid),
        kept_requestStop _⟩
    next => exact changes_refl
  | renewFullAccessTurn turn now permitted =>
    dsimp only [step]
    split
    next => exact changes_refl
    next =>
      split
      next =>
        refine .update ⟨Int.le_refl _, rfl, fun sid => Or.inl (Store.view_renew _ _ sid), ?_⟩
        intro t listed
        exact @kept_updateWhere w.store _ _ (by intro; exact ⟨rfl, rfl⟩) (by intro; rfl)
          (by intro; rfl) t listed
      next => exact changes_refl

end

/-! ## Ended turns and deleted sessions -/

/-- The number of a turn that is not on its way any more. -/
def TurnKnown (db : Store) (calls : List Call) (turn : Int) : Prop :=
  turn < db.nextTurn ∧ ∀ c ∈ calls, ∀ t ∈ c.turn?, t.id ≠ turn

def SessionKnown (db : Store) (calls : List Call) (sid : Int) : Prop :=
  sid < db.nextSession ∧ ∀ c ∈ calls, sid ∉ c.fresh?

section

variable {db db' : Store} {calls calls' : List Call} {turn sid : Int}

theorem Change.turnKnown (change : Change sha256 db calls db' calls')
    (known : TurnKnown db calls turn) : TurnKnown db' calls' turn := by
  obtain ⟨small, absent⟩ := known
  cases change with
  | refl => exact ⟨small, absent⟩
  | move found moves =>
    have grown := moves.nextTurn
    refine ⟨by omega, fun d listed t written => ?_⟩
    rcases mem_set_cases listed with rfl | other
    · rcases moves.turn t written with ⟨u, before, same⟩ | ⟨new, -⟩
      · exact same ▸ absent _ (List.mem_of_getElem? found) u before
      · omega
    · exact absent d (List.mem_of_mem_eraseIdx other) t written
  | begin rows key none_written none_fresh knows =>
    refine ⟨small, fun d listed t written => ?_⟩
    rcases List.mem_append.mp listed with old | new
    · exact absent d old t written
    · obtain rfl := List.mem_singleton.mp new
      rw [none_written] at written
      cases written
  | commit found commits =>
    refine ⟨commits.nextTurn ▸ small, fun d listed t written => ?_⟩
    rcases mem_set_cases listed with rfl | other
    · cases written
    · exact absent d (List.mem_of_mem_eraseIdx other) t written
  | update updates => exact ⟨updates.nextTurn ▸ small, absent⟩

theorem Change.stopped (change : Change sha256 db calls db' calls')
    (known : TurnKnown db calls turn) (stopped : ∀ sid, turn ∉ (db.view sid).running) :
    ∀ sid, turn ∉ (db'.view sid).running := by
  intro sid running
  cases change with
  | refl => exact stopped sid running
  | move found moves =>
    rw [moves.view] at running
    exact stopped sid running
  | begin => exact stopped sid running
  | commit found commits =>
    rcases commits.runs sid turn running with before | ⟨t, written, same⟩
    · exact stopped sid before
    · exact known.2 _ (List.mem_of_getElem? found) t written same
  | update updates =>
    rcases updates.views sid with same | ⟨-, -, new⟩
    · exact stopped sid (same ▸ running)
    · rw [new] at running
      exact stopped sid running

theorem Change.sessionKnown (change : Change sha256 db calls db' calls')
    (known : SessionKnown db calls sid) : SessionKnown db' calls' sid := by
  obtain ⟨small, absent⟩ := known
  cases change with
  | refl => exact ⟨small, absent⟩
  | move found moves =>
    have grown := moves.nextSession
    refine ⟨by omega, fun d listed new => ?_⟩
    rcases mem_set_cases listed with rfl | other
    · rcases moves.fresh sid new with before | later
      · exact absent _ (List.mem_of_getElem? found) before
      · omega
    · exact absent d (List.mem_of_mem_eraseIdx other) new
  | begin rows key none_written none_fresh knows =>
    refine ⟨small, fun d listed new => ?_⟩
    rcases List.mem_append.mp listed with old | last
    · exact absent d old new
    · obtain rfl := List.mem_singleton.mp last
      rw [none_fresh] at new
      cases new
  | commit found commits =>
    refine ⟨commits.nextSession ▸ small, fun d listed new => ?_⟩
    rcases mem_set_cases listed with rfl | other
    · cases new
    · exact absent d (List.mem_of_mem_eraseIdx other) new
  | update updates =>
    have grown := updates.nextSession
    exact ⟨by omega, absent⟩

theorem Change.gone (change : Change sha256 db calls db' calls')
    (known : SessionKnown db calls sid) (gone : (db.view sid).status = none) :
    (db'.view sid).status = none := by
  cases change with
  | refl => exact gone
  | move found moves =>
    rw [moves.view]
    exact gone
  | begin => exact gone
  | commit found commits =>
    by_contra shown
    rcases commits.status sid shown with before | ⟨-, new⟩
    · exact before gone
    · exact known.2 _ (List.mem_of_getElem? found) new
  | update updates =>
    rcases updates.views sid with same | ⟨rfl, -, -⟩
    · rw [same]
      exact gone
    · exact absurd known.1 (Int.lt_irrefl _)

theorem Change.starts (change : Change sha256 db calls db' calls')
    (running : (db'.view sid).status = some .running) :
    (db.view sid).status = some .running ∨
      ∃ (n : Nat) (c : Call), calls[n]? = some c ∧ c.turn? ≠ none ∧
        calls' = calls.set n .returned := by
  cases change with
  | refl => exact Or.inl running
  | move found moves =>
    rw [moves.view] at running
    exact Or.inl running
  | begin => exact Or.inl running
  | commit found commits =>
    rcases commits.starts sid running with before | written
    · exact Or.inl before
    · exact Or.inr ⟨_, _, found, written, rfl⟩
  | update updates =>
    rcases updates.views sid with same | ⟨-, -, new⟩
    · exact Or.inl (same ▸ running)
    · rw [new] at running
      cases running

end

section

variable {w : World}

theorem inv_run (acts : List Act) :
    Inv sha256 (run (step sha256) .empty acts).store (run (step sha256) .empty acts).calls :=
  run_invariant (G := fun _ _ => True) (I := fun w : World => Inv sha256 w.store w.calls)
    (fun _ act h _ => h.change (changes_step h act)) _ acts Inv.empty (along_true _ _)

private theorem run_keeps (h : Inv sha256 w.store w.calls) (acts : List Act)
    {P : Store → List Call → Prop} (now : P w.store w.calls)
    (kept : ∀ db calls db' calls', Change sha256 db calls db' calls' → P db calls → P db' calls') :
    P (run (step sha256) w acts).store (run (step sha256) w acts).calls :=
  (run_invariant (G := fun _ _ => True)
    (I := fun w : World => Inv sha256 w.store w.calls ∧ P w.store w.calls)
    (fun _ act both _ => ⟨both.1.change (changes_step both.1 act),
      kept _ _ _ _ (changes_step both.1 act) both.2⟩) w acts ⟨h, now⟩ (along_true _ _)).2

private theorem inv_later (h : Inv sha256 w.store w.calls) (acts : List Act) :
    Inv sha256 (run (step sha256) w acts).store (run (step sha256) w acts).calls :=
  run_invariant (G := fun _ _ => True) (I := fun w : World => Inv sha256 w.store w.calls)
    (fun _ act h _ => h.change (changes_step h act)) w acts h (along_true _ _)

private theorem turnKnown_of_stored (h : Inv sha256 w.store w.calls) (stored : t ∈ w.store.turns) :
    TurnKnown w.store w.calls t.id :=
  ⟨h.turnIDs t stored, fun c listed _ written => ((h.pending c listed _ written).2 t stored).symm⟩

private theorem sessionKnown_of_stored (h : Inv sha256 w.store w.calls) {sid : Int}
    (shown : (w.store.view sid).status ≠ none) : SessionKnown w.store w.calls sid := by
  refine ⟨h.sessionIDs sid shown, fun c listed new => ?_⟩
  have knows := h.knows c listed
  cases c with
  | holding s done session fresh =>
    cases fresh with
    | false => cases new
    | true =>
      obtain rfl := Option.some.inj new
      exact (status_interrupt _ _ _).mpr shown knows.2.2.2
  | written s done session fresh turn selection =>
    cases fresh with
    | false => cases new
    | true =>
      obtain rfl := Option.some.inj new
      exact (status_interrupt _ _ _).mpr shown knows.2.2.2.1
  | _ => cases new

end

/-! ## The laws -/

def RunningTurn (db : Store) (turn : Int) : Prop :=
  ∃ t ∈ db.turns, t.id = turn ∧ t.status = .running

theorem runningTurn_iff {db : Store} {turn : Int} :
    RunningTurn db turn ↔ ∃ sid, turn ∈ (db.view sid).running := by
  constructor
  · rintro ⟨t, stored, named, running⟩
    exact ⟨t.sessionID, Store.mem_running.mpr ⟨t, stored, named, rfl, running⟩⟩
  · rintro ⟨sid, listed⟩
    obtain ⟨t, stored, named, -, running⟩ := Store.mem_running.mp listed
    exact ⟨t, stored, named, running⟩

/-- What a message finds that has the key of the stored turn `t`, made by `first`. -/
structure Repeats (sha256 : List Char → String) (w : World) (t : Turn)
    (first : SendMessageRequest) : Prop where
  named : t.requestID = first.requestID
  hash : t.requestHash = requestHash sha256 first
  /-- No message with this key is behind its lookup. -/
  waiting : ∀ c ∈ w.calls, c.key? ≠ some t.key
  /-- The same message is answered with the turn. -/
  same : ∀ n s role admitted, w.calls[n]? = some (.send s) → s.key = t.key →
    requireReasoningAccess role s.req.reasoningEffort = .ok admitted → s.original = first →
    ∃ session ∈ w.store.sessions, session.id = t.sessionID ∧
      step sha256 w (.lookup n role true) = w.answer n s (.ok (session, t))
  /-- Another message is refused, if SHA-256 tells the two texts apart. -/
  other : ∀ n s role admitted visible, w.calls[n]? = some (.send s) → s.key = t.key →
    requireReasoningAccess role s.req.reasoningEffort = .ok admitted →
    (0 < s.req.sessionID → visible = true) → s.original ≠ first →
    step sha256 w (.lookup n role visible) = w.answer n s (.error .conflict) ∨
      s.original.marshal ≠ first.marshal ∧ sha256 s.original.marshal = sha256 first.marshal

section

variable {w : World}

private theorem step_lookup {n : Nat} {role : Option Role} {admitted : Role} {visible : Bool}
    (known : w.calls[n]? = some (.send s))
    (access : requireReasoningAccess role s.req.reasoningEffort = .ok admitted)
    (seen : 0 < s.req.sessionID → visible = true) (waiting : ∀ c ∈ w.calls, c.key? ≠ some s.key)
    (stored : t ∈ w.store.turns) (key : s.key = t.key) :
    step sha256 w (.lookup n role visible) =
      if t.requestHash ≠ requestHash sha256 s.original then w.answer n s (.error .conflict)
      else
        match w.store.sessions.find? t.sessionID with
        | none => w.answer n s (.error .notFound)
        | some session =>
          if visible then w.answer n s (.ok (session, t)) else w.answer n s (.error .notFound) := by
  have free : w.keyFree n s.key := fun c other => waiting c (List.mem_of_mem_eraseIdx other)
  have found : w.store.turns.findUniq? s.key = some t :=
    (Table.findUniq?_eq_some ..).mpr ⟨stored, key.symm⟩
  have shown : ¬(0 < s.req.sessionID ∧ visible = false) := by
    rintro ⟨positive, hidden⟩
    rw [seen positive] at hidden
    cases hidden
  simp only [step, known, lookup, access, if_neg shown, if_pos free, found] <;> rfl

theorem repeats (h : Inv sha256 w.store w.calls) (stored : t ∈ w.store.turns) :
    ∃ first : SendMessageRequest, Repeats sha256 w t first := by
  obtain ⟨first, named, hash⟩ := h.hashes t stored
  have waiting : ∀ c ∈ w.calls, c.key? ≠ some t.key := by
    intro c listed held
    have knows := h.knows c listed
    have free : KeyFree w.store t.key := by
      cases c with
      | keyed s role => exact Option.some.inj held ▸ knows.2
      | sweeping s role sweep => exact Option.some.inj held ▸ knows.2
      | swept s done => exact Option.some.inj held ▸ knows.2.1
      | holding s done session fresh => exact Option.some.inj held ▸ knows.2.1
      | written s done session fresh turn selection => exact Option.some.inj held ▸ knows.2.1
      | _ => cases held
    exact free t stored rfl
  refine ⟨first, named, hash, waiting, ?_, ?_⟩
  · intro n s role admitted known key access same
    obtain ⟨session, found⟩ : ∃ session, w.store.sessions.find? t.sessionID = some session := by
      have parent := h.parents t stored
      cases found : w.store.sessions.find? t.sessionID with
      | none => exact absurd (by simp [Store.view, found]) parent
      | some session => exact ⟨session, rfl⟩
    refine ⟨session, Table.mem_of_find? found, Table.key_of_find? found, ?_⟩
    rw [step_lookup known access (fun _ => rfl) (fun c listed => key ▸ waiting c listed) stored key,
      if_neg (by rw [hash, same]; exact fun differ => differ rfl), found]
    rfl
  · intro n s role admitted visible known key access seen different
    rw [step_lookup known access seen (fun c listed => key ▸ waiting c listed) stored key]
    by_cases collides : t.requestHash = requestHash sha256 s.original
    · exact Or.inr ⟨fun same => different (SendMessageRequest.marshal_injective same),
        collides.symm.trans hash⟩
    · exact Or.inl (if_pos collides)

private theorem view_of_stored {s : Session} (stored : s ∈ w.store.sessions) :
    (w.store.view s.id).status = some s.status := by
  simp [Store.view, w.store.sessions.find?_key stored]

structure Lawful (sha256 : List Char → String) (w : World) : Prop where
  /-- A session is running iff exactly one of its turns is; two never are. -/
  agree : ∀ s ∈ w.store.sessions,
    (s.status = .running ↔ (w.store.runningTurns s.id).length = 1) ∧
      (w.store.runningTurns s.id).length ≤ 1
  once : ∀ t ∈ w.store.turns, ∀ u ∈ w.store.turns,
    t.actorID = u.actorID → t.requestID = u.requestID → t = u
  repeats : ∀ t ∈ w.store.turns, ∃ first : SendMessageRequest, Repeats sha256 w t first
  /-- A turn that has ended or is deleted is never running again, whatever comes late. -/
  ended : ∀ t ∈ w.store.turns, ∀ acts late,
    ¬RunningTurn (run (step sha256) w acts).store t.id →
      ¬RunningTurn (run (step sha256) w (acts ++ late)).store t.id
  /-- A session that is deleted does not come back. -/
  deleted : ∀ s ∈ w.store.sessions, ∀ acts late,
    (∀ r ∈ (run (step sha256) w acts).store.sessions, r.id ≠ s.id) →
      ∀ r ∈ (run (step sha256) w (acts ++ late)).store.sessions, r.id ≠ s.id
  /-- A session starts to run only in a step in which a message with its new turn returns. -/
  starts : ∀ act, ∀ r ∈ (step sha256 w act).store.sessions, r.status = .running →
    (∃ s ∈ w.store.sessions, s.id = r.id ∧ s.status = .running) ∨
      ∃ (n : Nat) (c : Call), w.calls[n]? = some c ∧ c.turn? ≠ none ∧
        (step sha256 w act).calls = w.calls.set n .returned

theorem lawful_of_inv (h : Inv sha256 w.store w.calls) : Lawful sha256 w := by
  constructor
  case agree =>
    intro s stored
    have sound := h.sound s.id
    have length : (w.store.view s.id).running.length = (w.store.runningTurns s.id).length := by
      simp [Store.view]
    have agree := sound.agree
    rw [view_of_stored stored, Option.some.injEq, length] at agree
    exact ⟨agree, length ▸ sound.single⟩
  case once =>
    intro t stored u stored' actor request
    exact w.store.turns.eq_of_uniq stored stored' (Prod.ext actor request)
  case repeats => exact fun t stored => AIOps.repeats h stored
  case ended =>
    intro t stored acts late stopped
    have known := run_keeps h acts (P := fun db calls => TurnKnown db calls t.id)
      (turnKnown_of_stored h stored) fun _ _ _ _ change => change.turnKnown
    rw [runningTurn_iff, not_exists] at stopped
    rw [run_append, runningTurn_iff, not_exists]
    exact (run_keeps (inv_later h acts) late
      (P := fun db calls => TurnKnown db calls t.id ∧ ∀ sid, t.id ∉ (db.view sid).running)
      ⟨known, stopped⟩ fun _ _ _ _ change both =>
        ⟨change.turnKnown both.1, change.stopped both.1 both.2⟩).2
  case deleted =>
    intro s stored acts late gone r listed same
    have known := run_keeps h acts (P := fun db calls => SessionKnown db calls s.id)
      (sessionKnown_of_stored h (by rw [view_of_stored stored]; simp))
      fun _ _ _ _ change => change.sessionKnown
    have absent : ((run (step sha256) w acts).store.view s.id).status = none := by
      simp only [Store.view, Option.map_eq_none_iff, Table.find?_eq_none]
      exact gone
    rw [run_append] at listed
    have never := (run_keeps (inv_later h acts) late
      (P := fun db calls => SessionKnown db calls s.id ∧ (db.view s.id).status = none)
      ⟨known, absent⟩ fun _ _ _ _ change both =>
        ⟨change.sessionKnown both.1, change.gone both.1 both.2⟩).2
    rw [← same, view_of_stored listed] at never
    cases never
  case starts =>
    intro act r listed running
    have shown : ((step sha256 w act).store.view r.id).status = some .running :=
      (view_of_stored listed).trans (congrArg some running)
    rcases (changes_step h act).starts shown with before | written
    · obtain ⟨s, found, status⟩ := Option.map_eq_some_iff.mp before
      exact Or.inl ⟨s, Table.mem_of_find? found, Table.key_of_find? found, status⟩
    · exact Or.inr written

/-- Whatever messages, completions, stops, sweeps and deletions interleave. -/
theorem sessions_and_turns_agree (acts : List Act) :
    Lawful sha256 (run (step sha256) .empty acts) :=
  lawful_of_inv (inv_run acts)

end

end AIOps

end ForestPanel
