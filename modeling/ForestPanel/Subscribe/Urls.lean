import ForestPanel.Lib.Base64
import ForestPanel.Lib.Decimal
import ForestPanel.Store.Text

/-!
# Subscription URLs

The URL a user or an admin is shown, its token, and what `ResolveClientUserID` makes of a
token. Every statement on the key-value table and on the users is a step of its own, so
builds and resolutions interleave as they do in several API processes.
-/
namespace ForestPanel.Subscribe

/-- The fields of `config.Config` the builders and the resolver read. -/
structure Config where
  subscribeURL : String
  appURL : String
  subscribePath : String
  subscribeTokenInPath : Bool
  showSubscribeMethod : Int
  showSubscribeExpire : Int
deriving Repr, DecidableEq

/-- `strings.TrimRight(s, "/")`. -/
def trimRightSlash (s : String) : String := String.ofList (s.toList.rdropWhile (· = '/'))

def hexDigit (n : Nat) : Char := if n < 10 then Char.ofNat (48 + n) else Char.ofNat (55 + n)

/-- `url.escape`: bytes other than letters, digits and the `plain` marks are escaped. -/
def escape (plain : List Char) (s : String) : String :=
  String.ofList <| (s.toList.flatMap String.utf8EncodeChar).flatMap fun b =>
    let c := Char.ofNat b.toNat
    if b.toNat < 128 ∧ (c.isAlphanum ∨ c ∈ plain) then [c]
    else ['%', hexDigit (b.toNat / 16), hexDigit (b.toNat % 16)]

def pathEscape (s : String) : String :=
  escape ['-', '_', '.', '~', '$', '&', '+', ':', '=', '@'] s

def queryEscape (s : String) : String :=
  String.intercalate "+" ((s.toList.splitOn ' ').map fun part =>
    escape ['-', '_', '.', '~'] (String.ofList part))

def normalizeSubscribePath (raw : String) : String :=
  let path := trimSpace raw
  if path = "" then "/api/v1/client/subscribe"
  else
    let path := if path.toList.head? = some '/' then path else "/" ++ path
    let path := if 1 < path.utf8ByteSize then trimRightSlash path else path
    if path = "" then "/api/v1/client/subscribe" else path

def selectSubscribeBaseURL (raw : String) (pick : Nat) : String :=
  let parts := ((raw.toList.splitOn ',').map fun part => trimSpace (String.ofList part)).filter
    (· ≠ "")
  let urls := parts.map trimRightSlash
  (urls[pick % urls.length]?).getD ""

/-- `appendAdminTokenToURL` is the same function, with the path normalised in place. -/
def appendTokenToURL (baseURL path token : String) (tokenInPath : Bool) : String :=
  let path := normalizeSubscribePath path
  if tokenInPath then
    let path := trimRightSlash path ++ "/" ++ pathEscape token
    if baseURL = "" then path else trimRightSlash baseURL ++ path
  else if baseURL = "" then path ++ "?token=" ++ queryEscape token
  else trimRightSlash baseURL ++ path ++ "?token=" ++ queryEscape token

inductive Side | user | admin
deriving Repr, DecidableEq

/-- `buildSubscribeURL`, around its token. -/
def userURL (cfg : Config) (pick : Nat) (clientToken : String) : String :=
  let path := normalizeSubscribePath cfg.subscribePath
  let selected := selectSubscribeBaseURL cfg.subscribeURL pick
  let baseURL := if selected = "" then trimSpace cfg.appURL else selected
  appendTokenToURL baseURL path clientToken cfg.subscribeTokenInPath

/-- `buildAdminUserSubscribeURL`, around its token. -/
def adminURL (cfg : Config) (clientToken : String) : String :=
  let path := trimSpace cfg.subscribePath
  let path := if path = "" then "/api/v1/client/subscribe" else path
  appendTokenToURL (trimSpace cfg.subscribeURL) path clientToken cfg.subscribeTokenInPath

def urlFor (cfg : Config) (side : Side) (pick : Nat) (clientToken : String) : String :=
  match side with
  | .user => userURL cfg pick clientToken
  | .admin => adminURL cfg clientToken

/-- The hexadecimal HMAC-SHA1; different inputs have different values. -/
structure Mac where
  sum : String → List UInt8 → String
  distinct : ∀ {key key' : String} {message message' : List UInt8},
    sum key message = sum key' message' → key = key' ∧ message = message'
  nonempty : ∀ key message, sum key message ≠ ""
  visible : ∀ key message, ∀ c ∈ (sum key message).toList, isSpace c = false

def showSubscribeExpire (cfg : Config) : Int :=
  if cfg.showSubscribeExpire ≤ 0 then 5 else cfg.showSubscribeExpire

def counter (cfg : Config) (now : Int) : Int := now.tdiv (showSubscribeExpire cfg * 60)

def counterBytes (n : Int) : List UInt8 :=
  [0, 0, 0, 0, .ofInt (n >>> (24 : Nat)), .ofInt (n >>> (16 : Nat)), .ofInt (n >>> (8 : Nat)),
    .ofInt n]

def timedToken (cfg : Config) (mac : Mac) (now userID : Int) (token : String) : String :=
  let hashed := mac.sum token (counterBytes (counter cfg now))
  String.ofList (Base64.encode (Decimal.format userID ++ ':' :: hashed.toList))

/-- The user and the digest of a timed token, up to the query for the user's token. -/
def readTimedToken (clientToken : String) : Option (Int × String) :=
  match Base64.decode (trimSpace clientToken).toList with
  | none => none
  | some decoded =>
    match decoded.dropWhile (· ≠ ':') with
    | [] => none
    | _ :: rest =>
      match Decimal.parse (trimSpace (String.ofList (decoded.takeWhile (· ≠ ':')))).toList with
      | none => none
      | some userID =>
        let clientHash := trimSpace (String.ofList rest)
        if 0 < userID ∧ clientHash ≠ "" then some (userID, clientHash) else none

structure UserToken where
  id : Int
  token : String
deriving Repr, DecidableEq

/-- The keys of `v2_runtime_kv` that this code uses. -/
inductive Key
  | otp (token : String)
  | otpn (clientToken : String)
  | totp (clientToken : String)
deriving Repr, DecidableEq

def Key.text : Key → String
  | .otp token => "otp_" ++ token
  | .otpn clientToken => "otpn_" ++ clientToken
  | .totp clientToken => "totp_" ++ clientToken

structure Entry where
  v : String
  expireAt : Int
deriving Repr, DecidableEq

abbrev Store := Key → Option Entry

def kvSet (kv : Store) (key : Key) (entry : Entry) : Store :=
  fun k => if k = key then some entry else kv k

def kvDelete (kv : Store) (key : Key) : Store := fun k => if k = key then none else kv k

/-- `kvGet`, where a blank value counts as none. -/
def kvGet (kv : Store) (now : Int) (key : Key) : Option String :=
  ((kv key).filter fun entry => !(0 < entry.expireAt && entry.expireAt ≤ now) &&
    trimSpace entry.v ≠ "").map (·.v)

inductive BuildPhase
  | lookup
  /-- Before the write of `otp_`, and before that of `otpn_`. -/
  | storeToken (newToken : String)
  | storeClient (newToken : String)
  | returned (clientToken url : String) (time : Int)
  | failed
deriving Repr, DecidableEq

/-- A build, with the user's token as its caller read it. -/
structure Build where
  side : Side
  userID : Int
  token : String
  phase : BuildPhase
deriving Repr, DecidableEq

def finishBuild (cfg : Config) (now : Int) (b : Build) (pick : Nat) (clientToken : String) :
    BuildPhase :=
  .returned clientToken (urlFor cfg b.side pick clientToken) now

def advanceBuild (cfg : Config) (mac : Mac) (now : Int) (kv : Store) (b : Build) (fails : Bool)
    (pick : Nat) (fresh : String) : Store × BuildPhase :=
  match b.phase with
  | .lookup =>
    if cfg.showSubscribeMethod = 1 then
      match kvGet kv now (.otp b.token) with
      | some value => (kv, finishBuild cfg now b pick value)
      | none => (kv, .storeToken fresh)
    else if cfg.showSubscribeMethod = 2 then
      (kv, finishBuild cfg now b pick (timedToken cfg mac now b.userID b.token))
    else (kv, finishBuild cfg now b pick b.token)
  | .storeToken newToken =>
    if fails then (kv, .failed)
    else (kvSet kv (.otp b.token) ⟨newToken, now + 86400⟩, .storeClient newToken)
  | .storeClient newToken =>
    if fails then (kv, .failed)
    else (kvSet kv (.otpn newToken) ⟨b.token, now + 86400⟩, finishBuild cfg now b pick newToken)
  | phase => (kv, phase)

inductive ResolvePhase
  | reading
  | deletingClient (resolvedToken : String)
  | deletingToken (resolvedToken : String)
  /-- `findUserIDByToken` -/
  | selecting (resolvedToken : String)
  /-- `findUserTokenByID` and the comparison -/
  | checking (userID : Int) (clientHash : String)
  | caching (userID : Int) (canonicalToken : String)
  | accepted (userID : Int)
  | refused
  | failed
deriving Repr, DecidableEq

/-- A resolution, with the users' tokens that had been reset when it began. -/
structure Resolve where
  clientToken : String
  phase : ResolvePhase
  resetBefore : List UserToken
deriving Repr, DecidableEq

/-- The next statement of `ResolveClientUserID`. Only writes fail. -/
def advanceResolve (cfg : Config) (mac : Mac) (now : Int) (users : List UserToken) (kv : Store)
    (r : Resolve) (fails : Bool) : Store × ResolvePhase :=
  match r.phase with
  | .reading =>
    if r.clientToken = "" then (kv, .refused)
    else if cfg.showSubscribeMethod = 1 then
      match kvGet kv now (.otpn r.clientToken) with
      | some value => (kv, .deletingClient (trimSpace value))
      | none => (kv, .refused)
    else if cfg.showSubscribeMethod = 2 then
      match kvGet kv now (.totp r.clientToken) with
      | some cachedToken => (kv, .selecting (trimSpace cachedToken))
      | none =>
        match readTimedToken r.clientToken with
        | some (userID, clientHash) => (kv, .checking userID clientHash)
        | none => (kv, .refused)
    else (kv, .selecting r.clientToken)
  | .deletingClient resolvedToken =>
    if fails then (kv, .failed)
    else (kvDelete kv (.otpn r.clientToken), .deletingToken resolvedToken)
  | .deletingToken resolvedToken =>
    if fails then (kv, .failed)
    else (kvDelete kv (.otp resolvedToken), .selecting resolvedToken)
  | .selecting resolvedToken =>
    match users.find? (·.token = resolvedToken) with
    | some user => (kv, .accepted user.id)
    | none => (kv, .refused)
  | .checking userID clientHash =>
    match (users.find? (·.id = userID)).filter (trimSpace ·.token ≠ "") with
    | some user =>
      let canonicalToken := trimSpace user.token
      if mac.sum canonicalToken (counterBytes (counter cfg now)) = clientHash then
        (kv, .caching userID canonicalToken)
      else (kv, .refused)
    | none => (kv, .refused)
  | .caching userID canonicalToken =>
    if fails then (kv, .failed)
    else (kvSet kv (.totp r.clientToken) ⟨canonicalToken, now + showSubscribeExpire cfg * 60⟩,
      .accepted userID)
  | phase => (kv, phase)

/-- A one-time token that was drawn, the user token it stands for, and when. -/
structure Drawn where
  clientToken : String
  token : String
  time : Int
deriving Repr, DecidableEq

/-- `resets`, `drawn` and `taken` are records for the statements: the users' tokens that
were replaced, the one-time tokens drawn, and those whose entry a resolution deleted. -/
structure State where
  now : Int
  users : List UserToken
  kv : Store
  builds : List Build
  resolves : List Resolve
  resets : List UserToken
  drawn : List Drawn
  taken : List String

inductive Act
  | tick (now : Int)
  | reset (userID : Int) (token : String)
  /-- The caller of a builder reads the user's row. -/
  | startBuild (side : Side) (userID : Int)
  | build (n : Nat) (fails : Bool) (pick : Nat) (fresh : String)
  | startResolve (token : String)
  | resolve (n : Nat) (fails : Bool)
deriving Repr, DecidableEq

/-- A token as `v2_user` and the random source have it. -/
def Plain (token : String) : Prop := trimSpace token = token ∧ token ≠ ""

instance (token : String) : Decidable (Plain token) := by
  unfold Plain
  infer_instance

/-- The tokens that are or were in use, with their users. -/
def State.pairs (st : State) : List UserToken := st.users ++ st.resets

/-- `UPDATE v2_user SET token = $3 WHERE id = $1` -/
def reset (st : State) (userID : Int) (token : String) : State :=
  { st with
    users := st.users.map fun user => if user.id = userID then ⟨user.id, token⟩ else user
    resets := st.resets ++ st.users.filter (·.id = userID) }

def stepBuild (cfg : Config) (mac : Mac) (st : State) (n : Nat) (fails : Bool) (pick : Nat)
    (fresh : String) (b : Build) : State :=
  let next := advanceBuild cfg mac st.now st.kv b fails pick fresh
  { st with
    kv := next.1
    builds := st.builds.set n { b with phase := next.2 }
    drawn := if b.phase = .lookup ∧ next.2 = .storeToken fresh then
      st.drawn ++ [⟨fresh, b.token, st.now⟩] else st.drawn }

def stepResolve (cfg : Config) (mac : Mac) (st : State) (n : Nat) (fails : Bool) (r : Resolve) :
    State :=
  let next := advanceResolve cfg mac st.now st.users st.kv r fails
  let took : Bool := match r.phase, next.2 with
    | .deletingClient _, .deletingToken _ => true
    | _, _ => false
  { st with
    kv := next.1
    resolves := st.resolves.set n { r with phase := next.2 }
    taken := if took then st.taken ++ [r.clientToken] else st.taken }

/-- The clock does not go back, and random tokens are new; otherwise there is no step. -/
def step (cfg : Config) (mac : Mac) (st : State) : Act → State
  | .tick now => if st.now ≤ now then { st with now } else st
  | .reset userID token =>
    if Plain token ∧ ∀ p ∈ st.pairs, p.token ≠ token then reset st userID token else st
  | .startBuild side userID =>
    match st.users.find? (·.id = userID) with
    | some user => { st with builds := st.builds ++ [⟨side, userID, user.token, .lookup⟩] }
    | none => st
  | .build n fails pick fresh =>
    match st.builds[n]? with
    | some b =>
      if Plain fresh ∧ ∀ d ∈ st.drawn, d.clientToken ≠ fresh then
        stepBuild cfg mac st n fails pick fresh b
      else st
    | none => st
  | .startResolve token =>
    { st with resolves := st.resolves ++ [⟨trimSpace token, .reading, st.resets⟩] }
  | .resolve n fails =>
    match st.resolves[n]? with
    | some r => stepResolve cfg mac st n fails r
    | none => st

/-- Users with plain, different tokens, and nothing shown yet. -/
def State.Start (st : State) : Prop :=
  (st.users.map (·.id)).Nodup ∧ (st.users.map (·.token)).Nodup ∧
    (∀ user ∈ st.users, Plain user.token ∧ 0 < user.id ∧ Decimal.Fits user.id) ∧
    st.kv = (fun _ => none) ∧ st.builds = [] ∧ st.resolves = [] ∧ st.resets = [] ∧
    st.drawn = [] ∧ st.taken = []

/-- `ResolveClientUserID` on its own, without failures. -/
def resolveAlone (cfg : Config) (mac : Mac) (st : State) : Nat → Store → Resolve → ResolvePhase
  | 0, _, r => r.phase
  | fuel + 1, kv, r =>
    let next := advanceResolve cfg mac st.now st.users kv r false
    resolveAlone cfg mac st fuel next.1 { r with phase := next.2 }

/-- No path of `ResolveClientUserID` has more than four statements. -/
def resolveClientUserID (cfg : Config) (mac : Mac) (st : State) (token : String) : ResolvePhase :=
  resolveAlone cfg mac st 4 st.kv ⟨trimSpace token, .reading, st.resets⟩

end ForestPanel.Subscribe
