import ForestPanel.Session.Authenticate

/-!
# Removed sessions

While the cache holds one token of a session, and no removal returns between the database
read of a slow path and its end, the index finds every cached token and a call that starts
after a removal is refused. Two interleavings show that the code needs both conditions.
-/
namespace ForestPanel.Session

variable {sessionId : String} {identity : Identity}

section

variable (lib : Tokens.Library)

def Live (removed : Int → String → Bool) (token : String) : Prop :=
  ∀ userId sessionId, lib.claims token = some (userId, sessionId) → removed userId sessionId = false

/-- The slow path holds what it read in the database. -/
def Flight.holds : Flight → Bool
  | .storing _ _ => true
  | .done (.ok _) => true
  | _ => false

/-- The condition on a step: another token of the session is not cached when one is stored,
and no slow path and no login holds a session that a removal returns for. -/
def Orderly (w : World) : Input → Prop
  | .advance token _ => ∀ identity sessionId, w.flights token = some (.storing identity sessionId) →
      w.cache.Alone token sessionId identity
  | .keepLogin login => ∀ token sessionId identity,
      w.logins login = some (token, sessionId, identity) → w.cache.Alone token sessionId identity
  | .invalidate removal => ∀ r, w.removals removal = some r →
      (∀ token flight, w.flights token = some flight → flight.holds = true →
        Live lib (w.takes r) token) ∧
      ∀ login token sessionId identity, w.logins login = some (token, sessionId, identity) →
        w.takes r identity.id sessionId = false
  | _ => True

/-- A cached token belongs to a session that is not removed, and is found. -/
structure Cached (removed : Int → String → Bool) (c : AuthCache) : Prop where
  indexed : c.Indexed
  positive : ∀ token entry, c.byToken token = some entry → 0 < entry.userId
  named : ∀ token entry, c.byToken token = some entry → entry.sessionId ≠ "" ∧
    ∃ s, lib.claims token = some (entry.userId, s) ∧ trimSpace s = entry.sessionId
  live : ∀ token entry, c.byToken token = some entry → Live lib removed token

structure Flight.Sound (removed : Int → String → Bool) (token : String) (flight : Flight) :
    Prop where
  trimmed : trimSpace token = token
  named : ∀ identity sessionId, flight = .storing identity sessionId →
    lib.claims token = some (identity.id, sessionId)
  live : flight.holds = true → Live lib removed token

/-- A call that started after the removal of its session is not accepted. -/
structure Call.Sound (removed : Int → String → Bool) (c : Call) : Prop where
  trimmed : trimSpace c.token = c.token
  late : c.late = true → ¬Live lib removed c.token
  refused : c.late = true → ∀ identity, c.phase ≠ .done (.ok identity)

structure Safe (w : World) : Prop where
  cache : Cached lib w.removed w.cache
  flights : ∀ token flight, w.flights token = some flight → flight.Sound lib w.removed token
  logins : ∀ login token sessionId identity, w.logins login = some (token, sessionId, identity) →
    trimSpace token = token ∧ lib.claims token = some (identity.id, sessionId) ∧
      w.removed identity.id sessionId = false
  calls : ∀ call c, w.calls call = some c → c.Sound lib w.removed
  removed : ∀ userId sessionId, w.removed userId sessionId = true →
    w.issued userId sessionId = true ∧ w.sessions userId sessionId = none

theorem safe_start : Safe lib World.start := by
  constructor
  case cache =>
    exact ⟨AuthCache.indexed_new, nofun, nofun, nofun⟩
  case removed =>
    intro userId sessionId removed
    cases removed
  all_goals nofun

variable {lib} {w : World} {token : String} {c : AuthCache} {removed : Int → String → Bool}

theorem Cached.deleteTokenLocked (cached : Cached lib removed c) (token : String) :
    Cached lib removed (c.deleteTokenLocked token) := by
  have before : ∀ other entry, (c.deleteTokenLocked token).byToken other = some entry →
      c.byToken other = some entry := by
    intro other entry found
    rw [AuthCache.byToken_deleteTokenLocked] at found
    split at found
    · cases found
    · exact found
  refine ⟨cached.indexed.deleteTokenLocked token, ?_, ?_, ?_⟩
  · exact fun other entry found => cached.positive other entry (before other entry found)
  · exact fun other entry found => cached.named other entry (before other entry found)
  · exact fun other entry found => cached.live other entry (before other entry found)

theorem Cached.store (cached : Cached lib removed c) {ttl now : Int}
    (alone : c.Alone token sessionId identity) (trimmed : trimSpace token = token)
    (claims : lib.claims token = some (identity.id, sessionId)) (live : Live lib removed token) :
    Cached lib removed (c.store ttl now token sessionId identity) := by
  refine ⟨cached.indexed.store alone, ?_, ?_, ?_⟩
  · intro other entry found
    rcases AuthCache.byToken_store found with before | ⟨-, -, -, positive, -⟩
    · exact cached.positive other entry before
    · exact positive
  · intro other entry found
    rcases AuthCache.byToken_store found with before | ⟨same, user, session, -, nonempty⟩
    · exact cached.named other entry before
    · rw [same, trimmed, user]
      exact ⟨nonempty, sessionId, claims, session.symm⟩
  · intro other entry found
    rcases AuthCache.byToken_store found with before | ⟨same, -⟩
    · exact cached.live other entry before
    · rw [same, trimmed]
      exact live

theorem Cached.live_of_hit (cached : Cached lib removed c) (trimmed : trimSpace token = token)
    {now : Int} (hit : c.get now token = .hit identity) : Live lib removed token := by
  rw [AuthCache.get, trimmed] at hit
  split at hit
  · cases hit
  · split at hit
    · cases hit
    next entry found => exact cached.live token entry found

theorem Cached.after_removal (cached : Cached lib removed c) {r : Removal}
    {takes : Int → String → Bool}
    (covered : ∀ userId sessionId, takes userId sessionId = true →
      r.covers userId sessionId = true) :
    Cached lib (fun userId sessionId => removed userId sessionId || takes userId sessionId)
      (invalidate c r) := by
  have gone : (invalidate c r).Indexed ∧ ∀ other entry,
      (invalidate c r).byToken other = some entry → c.byToken other = some entry ∧
        ∀ s, lib.claims other = some (entry.userId, s) → r.covers entry.userId s = false := by
    cases r with
    | session userId sessionId =>
      refine ⟨cached.indexed.invalidateSession userId sessionId, ?_⟩
      intro other entry found
      obtain ⟨before, different⟩ :=
        AuthCache.byToken_invalidateSession cached.indexed cached.positive found
      refine ⟨before, fun s claims => ?_⟩
      obtain ⟨nonempty, s', claims', trimmed⟩ := cached.named other entry before
      rw [claims] at claims'
      obtain rfl : s = s' := (Prod.mk.inj (Option.some.inj claims')).2
      rw [Removal.covers, Bool.eq_false_iff]
      intro same
      rw [Bool.and_eq_true, decide_eq_true_eq, decide_eq_true_eq] at same
      obtain ⟨sameUser, rfl⟩ := same
      rcases different with empty | different
      · exact nonempty (trimmed.symm.trans empty)
      · exact different (Prod.ext sameUser trimmed.symm)
    | user userId =>
      refine ⟨cached.indexed.invalidateUser userId, ?_⟩
      intro other entry found
      obtain ⟨before, different⟩ :=
        AuthCache.byToken_invalidateUser cached.indexed cached.positive found
      exact ⟨before, fun s _ => decide_eq_false different⟩
  obtain ⟨indexed, before⟩ := gone
  refine ⟨indexed, ?_, ?_, ?_⟩
  · exact fun other entry found => cached.positive other entry (before other entry found).1
  · exact fun other entry found => cached.named other entry (before other entry found).1
  · intro other entry found userId sessionId claims
    obtain ⟨there, uncovered⟩ := before other entry found
    obtain ⟨-, s, claims', -⟩ := cached.named other entry there
    obtain rfl : entry.userId = userId :=
      (Prod.mk.inj (Option.some.inj (claims'.symm.trans claims))).1
    dsimp only
    rw [cached.live other entry there entry.userId sessionId claims, Bool.false_or,
      Bool.eq_false_iff]
    intro taken
    have outside := uncovered sessionId claims
    rw [covered entry.userId sessionId taken] at outside
    cases outside

theorem Safe.setCall (safe : Safe lib w) {call : Nat} {c : Call} {phase : Phase}
    (sound : Call.Sound lib w.removed { c with phase }) : Safe lib (w.setCall call c phase) := by
  refine { safe with calls := ?_ }
  intro other d listed
  rw [World.setCall] at listed
  dsimp only at listed
  rw [Function.update_apply] at listed
  split at listed
  · obtain rfl := Option.some.inj listed
    exact sound
  · exact safe.calls other d listed

theorem Safe.setFlight (safe : Safe lib w) {flight : Option Flight}
    (sound : ∀ f ∈ flight, f.Sound lib w.removed token) : Safe lib (w.setFlight token flight) := by
  refine { safe with flights := ?_ }
  intro other f listed
  rw [World.setFlight] at listed
  dsimp only at listed
  rw [Function.update_apply] at listed
  split at listed
  next same =>
    rw [same]
    exact sound f listed
  · exact safe.flights other f listed

theorem Call.Sound.step {c : Call} (sound : c.Sound lib removed) {phase : Phase}
    (accepts : ∀ identity, phase = .done (.ok identity) → Live lib removed c.token) :
    Call.Sound lib removed { c with phase } :=
  ⟨sound.trimmed, sound.late, fun late identity same =>
    sound.late late (accepts identity same)⟩

theorem missed_refuses (identity : Identity) : missed lib ≠ .done (.ok identity) := by
  unfold missed
  split <;> exact nofun

theorem proceed_safe (safe : Safe lib w) {call : Nat} {c : Call} (listed : w.calls call = some c) :
    Safe lib (proceed lib w call c) := by
  have sound := safe.calls call c listed
  unfold proceed
  split
  · split
    next identity hit =>
      exact safe.setCall (sound.step fun _ _ => safe.cache.live_of_hit sound.trimmed hit)
    next => exact safe.setCall (sound.step nofun)
    next => exact safe.setCall (sound.step fun _ same => absurd same (missed_refuses _))
  · have evicted : Safe lib { w with cache := w.cache.deleteTokenLocked (trimSpace c.token) } :=
      { safe with cache := safe.cache.deleteTokenLocked _ }
    exact evicted.setCall (sound.step fun _ same => absurd same (missed_refuses _))
  · dsimp only
    split
    · exact safe.setCall (sound.step nofun)
    · have started : Safe lib (w.setFlight c.token (some .reading)) := by
        apply safe.setFlight
        intro f same
        obtain rfl := Option.some.inj same
        exact ⟨sound.trimmed, nofun, nofun⟩
      exact started.setCall (sound.step nofun)
  · exact safe

theorem findIdentityForAuthToken_found {failing : Bool}
    (found : findIdentityForAuthToken lib w token failing = .ok (identity, sessionId)) :
    lib.claims token = some (identity.id, sessionId) ∧
      (w.sessions identity.id sessionId).isSome = true := by
  unfold findIdentityForAuthToken at found
  split at found
  · cases found
  next userId session claims =>
    split at found
    · cases found
    · split at found
      · cases found
      · split at found
        next expireAt user stored _ =>
          split at found
          · cases found
            exact ⟨claims, by rw [stored]; rfl⟩
          · cases found
        · cases found

theorem advance_safe (safe : Safe lib w) {failing : Bool} {flight : Flight}
    (listed : w.flights token = some flight)
    (orderly : ∀ identity sessionId, flight = .storing identity sessionId →
      w.cache.Alone token sessionId identity) : Safe lib (advance lib w token failing flight) := by
  have sound := safe.flights token flight listed
  have idle : ∀ f : Flight, (∀ identity sessionId, f ≠ .storing identity sessionId) →
      f.holds = false → ∀ g ∈ some f, g.Sound lib w.removed token := by
    intro f notStoring free g same
    obtain rfl := Option.some.inj same
    refine ⟨sound.trimmed, fun identity sessionId is => absurd is (notStoring _ _), fun holds => ?_⟩
    rw [free] at holds
    cases holds
  unfold advance
  split
  next =>
    split
    next identity hit =>
      apply safe.setFlight
      intro f same
      obtain rfl := Option.some.inj same
      exact ⟨sound.trimmed, nofun, fun _ => safe.cache.live_of_hit sound.trimmed hit⟩
    next => exact safe.setFlight (idle _ nofun rfl)
    next => exact safe.setFlight (idle _ nofun rfl)
  next =>
    have evicted : Safe lib { w with cache := w.cache.deleteTokenLocked (trimSpace token) } :=
      { safe with cache := safe.cache.deleteTokenLocked _ }
    exact evicted.setFlight (idle _ nofun rfl)
  next =>
    split
    next identity sessionId found =>
      obtain ⟨claims, stored⟩ := findIdentityForAuthToken_found found
      apply safe.setFlight
      intro f same
      obtain rfl := Option.some.inj same
      refine ⟨sound.trimmed, ?_, ?_⟩
      · rintro _ _ ⟨⟩
        exact claims
      · -- a removed session has no row, and this one has
        intro _ userId session claims'
        rw [claims] at claims'
        cases claims'
        rw [Bool.eq_false_iff]
        intro removed
        rw [(safe.removed _ _ removed).2] at stored
        cases stored
    next => exact safe.setFlight (idle _ nofun rfl)
  next identity sessionId =>
    have live := sound.live rfl
    have stored : Safe lib { w with
        cache := w.cache.store lib.ttl w.now token sessionId identity } :=
      { safe with
        cache := safe.cache.store (orderly _ _ rfl) sound.trimmed (sound.named _ _ rfl) live }
    apply stored.setFlight
    intro f same
    obtain rfl := Option.some.inj same
    exact ⟨sound.trimmed, nofun, fun _ => live⟩
  next result =>
    have delivered : Safe lib { w with calls := deliver w.calls token result } := by
      refine { safe with calls := ?_ }
      intro call d given
      obtain ⟨c, there, same⟩ := Option.map_eq_some_iff.mp given
      have before := safe.calls call c there
      split at same
      · split at same
        next sameToken =>
          rw [← same]
          refine before.step fun identity accepted => ?_
          rw [sameToken]
          cases result with
          | ok identity => exact sound.live rfl
          | error e => cases accepted
        next =>
          rw [← same]
          exact before
      next =>
        rw [← same]
        exact before
    exact delivered.setFlight nofun

theorem saveSession_safe (safe : Safe lib w) {login : Nat} {userId : Int} {user : UserRow}
    (trimmed : trimSpace token = token) (claims : lib.claims token = some (userId, sessionId))
    (fresh : w.issued userId sessionId = false) :
    Safe lib { w with
      sessions := Function.update w.sessions userId
        (Function.update (w.sessions userId) sessionId (some 0))
      issued := Function.update w.issued userId
        (Function.update (w.issued userId) sessionId true)
      logins := Function.update w.logins login
        (some (token, sessionId, ⟨userId, user.email, user.isAdmin, user.isStaff⟩)) } := by
  have unremoved : w.removed userId sessionId = false := by
    rw [Bool.eq_false_iff]
    intro removed
    rw [(safe.removed _ _ removed).1] at fresh
    cases fresh
  refine { safe with logins := ?_, removed := ?_ }
  · intro other t s identity listed
    dsimp only at listed
    rw [Function.update_apply] at listed
    split at listed
    · cases listed
      exact ⟨trimmed, claims, unremoved⟩
    · exact safe.logins other t s identity listed
  · intro u s removed
    have before := safe.removed u s removed
    by_cases sameUser : u = userId
    · subst sameUser
      by_cases sameSession : s = sessionId
      · subst sameSession
        rw [unremoved] at removed
        cases removed
      · simpa [Function.update_apply, sameSession] using before
    · simpa [Function.update_apply, sameUser] using before

theorem removal_safe (safe : Safe lib w) {sessions : Int → String → Option Int}
    {removals : Nat → Option Removal}
    (fewer : ∀ u s, w.sessions u s = none → sessions u s = none) :
    Safe lib { w with sessions, removals } :=
  { safe with
    removed := fun u s removed =>
      ⟨(safe.removed u s removed).1, fewer u s (safe.removed u s removed).2⟩ }

theorem invalidate_safe (safe : Safe lib w) {removals : Nat → Option Removal} {r : Removal}
    (flights : ∀ token flight, w.flights token = some flight → flight.holds = true →
      Live lib (w.takes r) token)
    (logins : ∀ login token sessionId identity,
      w.logins login = some (token, sessionId, identity) → w.takes r identity.id sessionId = false) :
    Safe lib { w with
      cache := invalidate w.cache r
      removals
      removed := fun userId sessionId =>
        w.removed userId sessionId || w.takes r userId sessionId } := by
  have covered : ∀ u s, w.takes r u s = true → r.covers u s = true := by
    intro u s taken
    rw [World.takes, Bool.and_eq_true, Bool.and_eq_true] at taken
    exact taken.1.1
  constructor
  case cache => exact safe.cache.after_removal covered
  case flights =>
    intro token flight listed
    obtain ⟨trimmed, named, live⟩ := safe.flights token flight listed
    refine ⟨trimmed, named, fun holds userId sessionId claims => ?_⟩
    exact Bool.or_eq_false_iff.mpr ⟨live holds userId sessionId claims,
      flights token flight listed holds userId sessionId claims⟩
  case logins =>
    intro login token sessionId identity listed
    obtain ⟨trimmed, claims, unremoved⟩ := safe.logins login token sessionId identity listed
    exact ⟨trimmed, claims, Bool.or_eq_false_iff.mpr
      ⟨unremoved, logins login token sessionId identity listed⟩⟩
  case calls =>
    intro call c listed
    obtain ⟨trimmed, late, refused⟩ := safe.calls call c listed
    refine ⟨trimmed, fun isLate live => late isLate fun userId sessionId claims => ?_, refused⟩
    exact (Bool.or_eq_false_iff.mp (live userId sessionId claims)).1
  case removed =>
    intro u s removed
    rcases Bool.or_eq_true_iff.mp removed with before | taken
    · exact safe.removed u s before
    · rw [World.takes, Bool.and_eq_true, Bool.and_eq_true] at taken
      exact ⟨taken.1.2, Option.isNone_iff_eq_none.mp taken.2⟩

theorem step_safe (safe : Safe lib w) {input : Input} (orderly : Orderly lib w input) :
    Safe lib (step lib w input) := by
  cases input with
  | wait => exact { safe with }
  | setUser => exact { safe with }
  | saveSession login token userId sessionId =>
    dsimp only [step]
    split
    · split
      next fresh => exact saveSession_safe safe fresh.1 fresh.2.1 fresh.2.2.1
      next => exact safe
    · exact safe
  | keepLogin login =>
    dsimp only [step]
    split
    next token sessionId identity listed =>
      obtain ⟨trimmed, claims, unremoved⟩ := safe.logins login token sessionId identity listed
      have live : Live lib w.removed token := by
        intro userId session claims'
        rw [claims] at claims'
        cases claims'
        exact unremoved
      refine { safe with
        cache := safe.cache.store (orderly token sessionId identity listed) trimmed claims live
        logins := ?_ }
      intro other t s i there
      dsimp only at there
      rw [Function.update_apply] at there
      split at there
      · cases there
      · exact safe.logins other t s i there
    · exact safe
  | authenticate call authToken requireAdmin =>
    have trimmed := trimSpace_cleanAuthToken authToken
    dsimp only [step]
    generalize cleanAuthToken authToken = token at trimmed ⊢
    split
    · -- a call is late exactly when its session is removed
      have late : w.isRemoved lib token = true → ¬Live lib w.removed token := by
        intro removed live
        unfold World.isRemoved at removed
        split at removed
        · cases removed
        next userId sessionId claims =>
          rw [live userId sessionId claims] at removed
          cases removed
      split
      · exact safe.setCall ⟨trimmed, late, nofun⟩
      · exact safe.setCall ⟨trimmed, late, nofun⟩
    · exact safe
  | proceed call =>
    dsimp only [step]
    split
    next c listed => exact proceed_safe safe listed
    · exact safe
  | cancel call =>
    dsimp only [step]
    split
    next c listed =>
      split
      · exact safe.setCall ((safe.calls call c listed).step nofun)
      · exact safe
    · exact safe
  | advance token failing =>
    dsimp only [step]
    split
    next flight listed =>
      refine advance_safe safe listed fun identity sessionId storing => ?_
      exact orderly identity sessionId (storing ▸ listed)
    · exact safe
  | deleteSession removal userId sessionId =>
    dsimp only [step]
    split
    · exact safe
    · apply removal_safe safe
      intro u s absent
      by_cases sameUser : u = userId
      · subst sameUser
        by_cases sameSession : s = sessionId
        · simp [sameSession]
        · simpa [Function.update_apply, sameSession] using absent
      · simpa [Function.update_apply, sameUser] using absent
  | deleteSessions removal userId =>
    dsimp only [step]
    split
    · exact safe
    · apply removal_safe safe
      intro u s absent
      by_cases sameUser : u = userId
      · simp [sameUser]
      · simpa [Function.update_apply, sameUser] using absent
  | invalidate removal =>
    dsimp only [step]
    split
    next r listed =>
      obtain ⟨flights, logins⟩ := orderly r listed
      exact invalidate_safe safe flights logins
    · exact safe

variable (lib)

/-- No call that started after the removal of its session is accepted, and the second map
finds every cached token. -/
def Revoked (w : World) : Prop :=
  (∀ call c, w.calls call = some c → c.late = true → ∀ identity, c.phase ≠ .done (.ok identity)) ∧
    w.cache.Indexed

/-- In every run whose steps are orderly, removed sessions stay removed. -/
theorem removed_sessions_stay_removed (inputs : List Input)
    (orderly : Transition.Along (step lib) (Orderly lib) World.start inputs) :
    Revoked (Transition.run (step lib) World.start inputs) := by
  have safe := Transition.run_invariant (I := Safe lib) (G := Orderly lib)
    (fun _ _ safe orderly => step_safe safe orderly) World.start inputs (safe_start lib) orderly
  exact ⟨fun call c listed => (safe.calls call c listed).refused, safe.cache.indexed⟩

end

private def twoSpellings : Tokens.Library where
  claims token := if token = "first" ∨ token = "second" then some (7, "s") else none
  appKey := "key"
  ttl := 30

private def loggedIn : List Input :=
  [.setUser 7 (some ⟨"", 0, 0, 0⟩), .saveSession 0 "first" 7 "s", .keepLogin 0]

theorem orderly_removal_refuses :
    Revoked (Transition.run (step twoSpellings) World.start
      (loggedIn ++ [.deleteSession 0 7 "s", .invalidate 0, .authenticate 0 "first" false,
        .proceed 0])) := by
  apply removed_sessions_stay_removed
  refine ⟨trivial, trivial, ?_, trivial, ?_, trivial, trivial, trivial⟩
  · intro token sessionId identity _ other found
    simp +decide [step, World.start, NewAuthCache] at found
  · intro r _
    constructor
    · intro token flight listed
      simp +decide [step, World.start] at listed
    · intro login token sessionId identity listed
      simp +decide [step, World.start] at listed

/-- The removal returns while a slow path holds the session, which is cached afterwards. -/
private def overtaken : List Input :=
  loggedIn ++ [.wait 31, .authenticate 0 "first" false, .proceed 0, .proceed 0, .proceed 0,
    .advance "first" false, .advance "first" false, .deleteSession 0 7 "s", .invalidate 0,
    .advance "first" false, .authenticate 1 "first" false, .proceed 1]

/-- The second spelling takes the place of the first in the index. -/
private def respelled : List Input :=
  loggedIn ++ [.authenticate 0 "second" false, .proceed 0, .proceed 0, .advance "second" false,
    .advance "second" false, .advance "second" false]

private def Call.lateAccepted (c : Call) : Bool :=
  match c.phase with
  | .done (.ok _) => c.late
  | _ => false

theorem removed_session_accepted :
    ¬Revoked (Transition.run (step twoSpellings) World.start overtaken) ∧
      ¬(Transition.run (step twoSpellings) World.start respelled).cache.Indexed := by
  constructor
  · have accepted : ((Transition.run (step twoSpellings) World.start overtaken).calls 1).any
        Call.lateAccepted = true := by decide +kernel
    rintro ⟨refused, -⟩
    obtain ⟨c, listed, late⟩ := (Option.any_eq_true _ _).mp accepted
    unfold Call.lateAccepted at late
    split at late
    next identity phase => exact refused 1 c listed late identity phase
    next => cases late
  · have lost : ((Transition.run (step twoSpellings) World.start respelled).cache.byToken
        "first").any (fun entry => (((Transition.run (step twoSpellings) World.start
          respelled).cache.tokensByUser entry.userId).lookup entry.sessionId) ≠
            some "first") = true := by decide +kernel
    intro indexed
    obtain ⟨entry, cached, different⟩ := (Option.any_eq_true _ _).mp lost
    exact of_decide_eq_true different (indexed "first" entry cached)

end ForestPanel.Session
