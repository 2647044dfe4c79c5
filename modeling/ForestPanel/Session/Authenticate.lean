import ForestPanel.Lib.Transition
import ForestPanel.Session.Cache

/-!
# Authentication, step by step

One process authenticates tokens and removes sessions at the same time. A call of
`Authenticate` reads the cache and otherwise waits for the slow path of its token, which at
most one goroutine runs at a time; a removal deletes rows of the database and then
invalidates the cache. Each step holds one lock or is one statement, and the steps of all
parties come in any order.

`removed` and `Call.late` are observations that no step reads.
-/
namespace ForestPanel.Session

/-- What the slow path uses of the JWT library and the settings: the user and the session
that a token with a valid signature names. -/
structure Tokens.Library where
  claims : String → Option (Int × String)
  appKey : String
  ttl : Int

inductive AuthError
  | unauthorized
  | unavailable
deriving DecidableEq, Repr

structure UserRow where
  email : String
  isAdmin : Int
  isStaff : Int
  banned : Int
deriving DecidableEq, Repr

inductive Phase
  | reading
  | evicting
  | joining
  | waiting
  | done (result : Except AuthError Identity)

structure Call where
  token : String
  requireAdmin : Bool
  late : Bool
  phase : Phase

inductive Flight
  | reading
  | evicting
  | looking
  | storing (identity : Identity) (sessionId : String)
  | done (result : Except AuthError Identity)

/-- What a removal has deleted from the database and not yet from the cache. -/
inductive Removal
  | session (userId : Int) (sessionId : String)
  | user (userId : Int)

structure World where
  now : Int
  users : Int → Option UserRow
  /-- The end of each stored session, `0` for none. -/
  sessions : Int → String → Option Int
  issued : Int → String → Bool
  cache : AuthCache
  calls : Nat → Option Call
  flights : String → Option Flight
  logins : Nat → Option (String × String × Identity)
  removals : Nat → Option Removal
  removed : Int → String → Bool

def World.start : World where
  now := 0
  users := fun _ => none
  sessions := fun _ _ => none
  issued := fun _ _ => false
  cache := NewAuthCache
  calls := fun _ => none
  flights := fun _ => none
  logins := fun _ => none
  removals := fun _ => none
  removed := fun _ _ => false

/-- `strings.EqualFold(token[:7], "bearer ")`. -/
def bearer (token : String) : Bool :=
  (token.toList.take 7).map Char.toLower = "bearer ".toList

def cleanAuthToken (token : String) : String :=
  let token := trimSpace token
  if 7 < token.toList.length && bearer token then trimSpace (String.ofList (token.toList.drop 7))
  else token

theorem trimSpace_cleanAuthToken (token : String) :
    trimSpace (cleanAuthToken token) = cleanAuthToken token := by
  unfold cleanAuthToken
  dsimp only
  split <;> exact trimSpace_trimSpace _

/-- The read of `Get`: nothing, an entry that has expired, or the identity. -/
inductive Lookup
  | miss
  | expired
  | hit (identity : Identity)

def AuthCache.get (c : AuthCache) (now : Int) (token : String) : Lookup :=
  let token := trimSpace token
  if token = "" then .miss
  else
    match c.byToken token with
    | none => .miss
    | some entry => if entry.expiresAt < now then .expired else .hit entry.identity

section

variable (lib : Tokens.Library)

def asAdmin (requireAdmin : Bool) (identity : Identity) : Except AuthError Identity :=
  if requireAdmin = true ∧ identity.isAdmin = 0 then .error .unauthorized else .ok identity

def missed : Phase :=
  if trimSpace lib.appKey = "" then .done (.error .unauthorized) else .joining

/-- `findIdentityForAuthToken`; the statement may fail. -/
def findIdentityForAuthToken (w : World) (token : String) (failing : Bool) :
    Except AuthError (Identity × String) :=
  match lib.claims token with
  | none => .error .unauthorized
  | some (userId, sessionId) =>
    if trimSpace sessionId = "" then .error .unauthorized
    else if failing then .error .unavailable
    else
      match w.sessions userId sessionId, w.users userId with
      | some expireAt, some user =>
        if (expireAt = 0 ∨ w.now < expireAt) ∧ user.banned = 0 then
          .ok (⟨userId, user.email, user.isAdmin, user.isStaff⟩, sessionId)
        else .error .unauthorized
      | _, _ => .error .unauthorized

def World.isRemoved (w : World) (token : String) : Bool :=
  match lib.claims token with
  | none => false
  | some (userId, sessionId) => w.removed userId sessionId

def World.setCall (w : World) (call : Nat) (c : Call) (phase : Phase) : World :=
  { w with calls := Function.update w.calls call (some { c with phase }) }

def World.setFlight (w : World) (token : String) (flight : Option Flight) : World :=
  { w with flights := Function.update w.flights token flight }

/-- A step of the call of `Authenticate` number `call`. -/
def proceed (w : World) (call : Nat) (c : Call) : World :=
  match c.phase with
  | .reading =>
    match w.cache.get w.now c.token with
    | .hit identity => w.setCall call c (.done (asAdmin c.requireAdmin identity))
    | .expired => w.setCall call c .evicting
    | .miss => w.setCall call c (missed lib)
  | .evicting =>
    { w with cache := w.cache.deleteTokenLocked (trimSpace c.token) }.setCall call c (missed lib)
  | .joining =>
    let w := if (w.flights c.token).isSome then w else w.setFlight c.token (some .reading)
    w.setCall call c .waiting
  | _ => w

def deliver (calls : Nat → Option Call) (token : String) (result : Except AuthError Identity) :
    Nat → Option Call := fun call =>
  (calls call).map fun c =>
    match c.phase with
    | .waiting =>
      if c.token = token then { c with phase := .done (result.bind (asAdmin c.requireAdmin)) } else c
    | _ => c

def advance (w : World) (token : String) (failing : Bool) : Flight → World
  | .reading =>
    match w.cache.get w.now token with
    | .hit identity => w.setFlight token (some (.done (.ok identity)))
    | .expired => w.setFlight token (some .evicting)
    | .miss => w.setFlight token (some .looking)
  | .evicting =>
    { w with cache := w.cache.deleteTokenLocked (trimSpace token) }.setFlight token (some .looking)
  | .looking =>
    match findIdentityForAuthToken lib w token failing with
    | .ok (identity, sessionId) => w.setFlight token (some (.storing identity sessionId))
    | .error e => w.setFlight token (some (.done (.error e)))
  | .storing identity sessionId =>
    { w with cache := w.cache.store lib.ttl w.now token sessionId identity }.setFlight token
      (some (.done (.ok identity)))
  | .done result =>
    { w with calls := deliver w.calls token result }.setFlight token none

def Removal.covers (removal : Removal) (userId : Int) (sessionId : String) : Bool :=
  match removal with
  | .session u s => userId = u && sessionId = s
  | .user u => userId = u

/-- A session that there was and that a removal has deleted. -/
def World.takes (w : World) (removal : Removal) (userId : Int) (sessionId : String) : Bool :=
  removal.covers userId sessionId && w.issued userId sessionId &&
    (w.sessions userId sessionId).isNone

def invalidate (cache : AuthCache) : Removal → AuthCache
  | .session userId sessionId => cache.invalidateSession userId sessionId
  | .user userId => cache.invalidateUser userId

inductive Input
  | wait (seconds : Nat)
  | setUser (userId : Int) (user : Option UserRow)
  /-- `saveSession` of a login, under a random session id. -/
  | saveSession (login : Nat) (token : String) (userId : Int) (sessionId : String)
  /-- The login caches its token. -/
  | keepLogin (login : Nat)
  | authenticate (call : Nat) (authToken : String) (requireAdmin : Bool)
  | proceed (call : Nat)
  /-- The caller of a slow path gives up. -/
  | cancel (call : Nat)
  | advance (token : String) (failing : Bool)
  | deleteSession (removal : Nat) (userId : Int) (sessionId : String)
  | deleteSessions (removal : Nat) (userId : Int)
  /-- The removal invalidates the cache and returns. -/
  | invalidate (removal : Nat)

def step (w : World) : Input → World
  | .wait seconds => { w with now := w.now + seconds }
  | .setUser userId user => { w with users := Function.update w.users userId user }
  | .saveSession login token userId sessionId =>
    match w.users userId with
    | some user =>
      -- the token is signed for a session id that was not drawn before
      if trimSpace token = token ∧ lib.claims token = some (userId, sessionId) ∧
          w.issued userId sessionId = false ∧ (w.logins login).isNone then
        { w with
          sessions := Function.update w.sessions userId
            (Function.update (w.sessions userId) sessionId (some 0))
          issued := Function.update w.issued userId
            (Function.update (w.issued userId) sessionId true)
          logins := Function.update w.logins login
            (some (token, sessionId, ⟨userId, user.email, user.isAdmin, user.isStaff⟩)) }
      else w
    | none => w
  | .keepLogin login =>
    match w.logins login with
    | some (token, sessionId, identity) =>
      { w with
        cache := w.cache.store lib.ttl w.now token sessionId identity
        logins := Function.update w.logins login none }
    | none => w
  | .authenticate call authToken requireAdmin =>
    if (w.calls call).isNone then
      let token := cleanAuthToken authToken
      let c : Call := ⟨token, requireAdmin, w.isRemoved lib token, .reading⟩
      if token = "" then w.setCall call c (.done (.error .unauthorized))
      else w.setCall call c .reading
    else w
  | .proceed call =>
    match w.calls call with
    | some c => proceed lib w call c
    | none => w
  | .cancel call =>
    match w.calls call with
    | some c =>
      match c.phase with
      | .waiting => w.setCall call c (.done (.error .unauthorized))
      | _ => w
    | none => w
  | .advance token failing =>
    match w.flights token with
    | some flight => advance lib w token failing flight
    | none => w
  | .deleteSession removal userId sessionId =>
    if trimSpace sessionId = "" ∨ (w.removals removal).isSome then w
    else
      { w with
        sessions := Function.update w.sessions userId
          (Function.update (w.sessions userId) sessionId none)
        removals := Function.update w.removals removal (some (.session userId sessionId)) }
  | .deleteSessions removal userId =>
    if (w.removals removal).isSome then w
    else
      { w with
        sessions := Function.update w.sessions userId fun _ => none
        removals := Function.update w.removals removal (some (.user userId)) }
  | .invalidate removal =>
    match w.removals removal with
    | some r =>
      { w with
        cache := invalidate w.cache r
        removals := Function.update w.removals removal none
        removed := fun userId sessionId =>
          w.removed userId sessionId || w.takes r userId sessionId }
    | none => w

end

end ForestPanel.Session
