import ForestPanel.Subscribe.UrlLaws
import Mathlib.Data.List.Nodup

/-!
# Whom a token stands for

Every entry of the key-value table, every URL and every resolution is about a token that
stands for one user's token, and no step changes for which. A token is accepted only for
that user, and never by a resolution that began after the user's token was reset.
-/
namespace ForestPanel.Subscribe

open Places

/-- No two users, and no two times, have one token. -/
structure Pairs (st : State) : Prop where
  ids : (st.users.map (·.id)).Nodup
  tokens : (st.pairs.map (·.token)).Nodup
  plain : ∀ p ∈ st.pairs, Plain p.token ∧ 0 < p.id ∧ Decimal.Fits p.id

namespace Pairs

variable {st : State}

theorem unique (pairs : Pairs st) {p q : UserToken} (first : p ∈ st.pairs) (second : q ∈ st.pairs)
    (same : p.token = q.token) : p = q :=
  List.inj_on_of_nodup_map pairs.tokens first second same

theorem find_token (pairs : Pairs st) {p : UserToken} (member : p ∈ st.users) :
    st.users.find? (·.token = p.token) = some p := by
  cases found : st.users.find? (·.token = p.token) with
  | none => simpa using List.find?_eq_none.mp found p member
  | some q =>
    have same : q.token = p.token := by simpa using List.find?_some found
    have listed := List.mem_of_find?_eq_some found
    rw [pairs.unique (List.mem_append_left _ listed) (List.mem_append_left _ member) same]

theorem find_id (pairs : Pairs st) {p : UserToken} (member : p ∈ st.users) :
    st.users.find? (·.id = p.id) = some p := by
  cases found : st.users.find? (·.id = p.id) with
  | none => simpa using List.find?_eq_none.mp found p member
  | some q =>
    have same : q.id = p.id := by simpa using List.find?_some found
    have listed := List.mem_of_find?_eq_some found
    rw [List.inj_on_of_nodup_map pairs.ids listed member same]

theorem not_reset (pairs : Pairs st) {p : UserToken} (member : p ∈ st.users) : p ∉ st.resets := by
  intro old
  have split := pairs.tokens
  rw [State.pairs, List.map_append, List.nodup_append] at split
  exact split.2.2 p.token (List.mem_map_of_mem member) p.token (List.mem_map_of_mem old) rfl

end Pairs

theorem mem_reset {st : State} {userID : Int} {token : String} {p : UserToken}
    (member : p ∈ st.pairs) : p ∈ (reset st userID token).pairs := by
  rcases List.mem_append.mp member with current | old
  · by_cases same : p.id = userID
    · exact List.mem_append_right _ (List.mem_append_right _
        (List.mem_filter.mpr ⟨current, decide_eq_true same⟩))
    · exact List.mem_append_left _ (List.mem_map.mpr ⟨p, current, if_neg same⟩)
  · exact List.mem_append_right _ (List.mem_append_left _ old)

theorem mem_of_reset {st : State} {userID : Int} {token : String} {p : UserToken}
    (member : p ∈ (reset st userID token).pairs) :
    p ∈ st.pairs ∨ p.token = token ∧ ∃ q ∈ st.pairs, q.id = p.id := by
  rcases List.mem_append.mp member with current | old
  · obtain ⟨q, known, rfl⟩ := List.mem_map.mp current
    have listed : q ∈ st.pairs := List.mem_append_left _ known
    split
    · exact Or.inr ⟨rfl, q, listed, rfl⟩
    · exact Or.inl listed
  · rcases List.mem_append.mp old with older | replaced
    · exact Or.inl (List.mem_append_right _ older)
    · exact Or.inl (List.mem_append_left _ (List.mem_filter.mp replaced).1)

theorem Pairs.reset {st : State} (pairs : Pairs st) (userID : Int) {token : String}
    (plain : Plain token) (fresh : ∀ p ∈ st.pairs, p.token ≠ token) :
    Pairs (reset st userID token) where
  ids := by
    have same : ((Subscribe.reset st userID token).users.map (·.id)) = st.users.map (·.id) := by
      simp only [Subscribe.reset, List.map_map]
      apply List.map_congr_left
      intro p _
      simp only [Function.comp]
      split <;> rfl
    rw [same]
    exact pairs.ids
  tokens := by
    have split := pairs.tokens
    rw [State.pairs, List.map_append, List.nodup_append] at split
    obtain ⟨current, old, apart⟩ := split
    have inj : ∀ p ∈ st.users, ∀ q ∈ st.users, p.token = q.token → p = q :=
      fun p hp q hq same => List.inj_on_of_nodup_map current hp hq same
    have fresh' : ∀ p ∈ st.users, p.token ≠ token := fun p hp =>
      fresh p (List.mem_append_left _ hp)
    rw [State.pairs, List.map_append, List.nodup_append]
    refine ⟨?_, ?_, ?_⟩
    · simp only [Subscribe.reset, List.map_map]
      apply List.Nodup.map_on _ (List.Nodup.of_map _ current)
      intro p hp q hq same
      simp only [Function.comp] at same
      split at same <;> split at same
      next one two => exact List.inj_on_of_nodup_map pairs.ids hp hq (one.trans two.symm)
      next => exact absurd same.symm (fresh' q hq)
      next => exact absurd same (fresh' p hp)
      next => exact inj p hp q hq same
    · simp only [Subscribe.reset, List.map_append, List.nodup_append]
      refine ⟨old, (current.sublist (List.filter_sublist.map _)), ?_⟩
      intro t ht t' ht'
      obtain ⟨q, member, rfl⟩ := List.mem_map.mp ht'
      exact (apart _ (List.mem_map_of_mem (List.mem_filter.mp member).1) t ht).symm
    · intro t ht t' ht'
      simp only [Subscribe.reset, List.map_map] at ht
      obtain ⟨p, hp, rfl⟩ := List.mem_map.mp ht
      obtain ⟨q, hq, rfl⟩ := List.mem_map.mp ht'
      have known : q ∈ st.pairs := by
        rcases List.mem_append.mp hq with older | replaced
        · exact List.mem_append_right _ older
        · exact List.mem_append_left _ (List.mem_filter.mp replaced).1
      simp only [Function.comp]
      split
      next => exact (fresh q known).symm
      next other =>
        rcases List.mem_append.mp hq with older | replaced
        · exact apart _ (List.mem_map_of_mem hp) _ (List.mem_map_of_mem older)
        · obtain ⟨listed, same⟩ := List.mem_filter.mp replaced
          intro equal
          rw [inj p hp q listed equal] at other
          exact other (of_decide_eq_true same)
  plain := by
    intro p member
    rcases mem_of_reset member with known | ⟨same, q, known, id⟩
    · exact pairs.plain p known
    · rw [same, ← id]
      exact ⟨plain, (pairs.plain q known).2⟩

def Build.pair (b : Build) : UserToken := ⟨b.userID, b.token⟩

/-- The client token gives access as the owner of the user token. -/
def Stands (cfg : Config) (mac : Mac) (drawn : List Drawn) (clientToken : String)
    (p : UserToken) : Prop :=
  if cfg.showSubscribeMethod = 1 then
    ∃ d ∈ drawn, d.clientToken = clientToken ∧ d.token = p.token
  else if cfg.showSubscribeMethod = 2 then
    ∃ n, readTimedToken clientToken = some (p.id, mac.sum p.token (counterBytes n))
  else clientToken = p.token

/-- The client token stands for a user token that is or was in use. -/
def Stood (cfg : Config) (mac : Mac) (st : State) (clientToken token : String) : Prop :=
  ∃ p ∈ st.pairs, p.token = token ∧ Stands cfg mac st.drawn clientToken p

def EntryStands (cfg : Config) (mac : Mac) (st : State) (entry : Entry) : Key → Prop
  | .otp token => Stood cfg mac st entry.v token
  | .otpn clientToken => Stood cfg mac st clientToken entry.v
  | .totp clientToken => Stood cfg mac st clientToken entry.v

def BuildStands (cfg : Config) (mac : Mac) (st : State) (b : Build) : Prop :=
  match b.phase with
  | .storeToken newToken | .storeClient newToken =>
    cfg.showSubscribeMethod = 1 ∧ Stood cfg mac st newToken b.token
  | .returned clientToken url time =>
    Stands cfg mac st.drawn clientToken b.pair ∧ Composed cfg url clientToken ∧
      Plain clientToken ∧
      (cfg.showSubscribeMethod = 2 → clientToken = timedToken cfg mac time b.userID b.token)
  | .lookup | .failed => True

def ResolveStands (cfg : Config) (mac : Mac) (st : State) (r : Resolve) : Prop :=
  match r.phase with
  | .deletingClient token | .deletingToken token => Stood cfg mac st r.clientToken token
  | .selecting token => Stood cfg mac st r.clientToken token ∨
      cfg.showSubscribeMethod ≠ 1 ∧ cfg.showSubscribeMethod ≠ 2 ∧ token = r.clientToken
  | .checking userID clientHash =>
    cfg.showSubscribeMethod = 2 ∧ readTimedToken r.clientToken = some (userID, clientHash)
  | .caching userID token => cfg.showSubscribeMethod = 2 ∧
      ∃ p ∈ st.pairs, p = ⟨userID, token⟩ ∧ p ∉ r.resetBefore ∧
        Stands cfg mac st.drawn r.clientToken p
  | .accepted userID => ∃ p ∈ st.pairs, p.id = userID ∧ p ∉ r.resetBefore ∧
      Stands cfg mac st.drawn r.clientToken p
  | .reading | .refused | .failed => True

structure Standing (cfg : Config) (mac : Mac) (st : State) : Prop where
  pairs : Pairs st
  clients : (st.drawn.map (·.clientToken)).Nodup
  drawn : ∀ d ∈ st.drawn, Plain d.clientToken
  entries : ∀ key entry, st.kv key = some entry → EntryStands cfg mac st entry key
  builds : ∀ b ∈ st.builds, b.pair ∈ st.pairs ∧ (b.side = .admin → SingleURL cfg) ∧
    BuildStands cfg mac st b
  resolves : ∀ r ∈ st.resolves, (∀ p ∈ r.resetBefore, p ∈ st.resets) ∧ ResolveStands cfg mac st r

section

variable {cfg : Config} {mac : Mac} {st st' : State}

theorem Standing.unique (standing : Standing cfg mac st) {clientToken : String} {p q : UserToken}
    (first : p ∈ st.pairs) (second : q ∈ st.pairs)
    (one : Stands cfg mac st.drawn clientToken p) (two : Stands cfg mac st.drawn clientToken q) :
    p = q := by
  unfold Stands at one two
  split at one
  next once =>
    rw [if_pos once] at two
    obtain ⟨d, drawn, same, token⟩ := one
    obtain ⟨d', drawn', same', token'⟩ := two
    have equal : d = d' :=
      List.inj_on_of_nodup_map standing.clients drawn drawn' (same.trans same'.symm)
    exact standing.pairs.unique first second (token.symm.trans (equal ▸ token'))
  next other =>
    rw [if_neg other] at two
    split at one
    next timed =>
      rw [if_pos timed] at two
      obtain ⟨n, read⟩ := one
      obtain ⟨n', read'⟩ := two
      have both := Option.some.inj (read.symm.trans read')
      injection both with _ hash
      exact standing.pairs.unique first second (mac.distinct hash).1
    next plain =>
      rw [if_neg plain] at two
      exact standing.pairs.unique first second (one.symm.trans two)

/-! ### What grows keeps its meaning -/

structure Grows (st st' : State) : Prop where
  pairs : ∀ p ∈ st.pairs, p ∈ st'.pairs
  drawn : ∀ d ∈ st.drawn, d ∈ st'.drawn

theorem Stands.mono (grows : Grows st st') {clientToken : String} {p : UserToken}
    (stands : Stands cfg mac st.drawn clientToken p) : Stands cfg mac st'.drawn clientToken p := by
  unfold Stands at stands ⊢
  split at stands
  next once =>
    obtain ⟨d, drawn, same⟩ := stands
    rw [if_pos once]
    exact ⟨d, grows.drawn d drawn, same⟩
  next other =>
    rw [if_neg other]
    exact stands

theorem Stood.mono (grows : Grows st st') {clientToken token : String}
    (stood : Stood cfg mac st clientToken token) : Stood cfg mac st' clientToken token := by
  obtain ⟨p, member, same, stands⟩ := stood
  exact ⟨p, grows.pairs p member, same, stands.mono grows⟩

theorem EntryStands.mono (grows : Grows st st') {entry : Entry} {key : Key}
    (stands : EntryStands cfg mac st entry key) : EntryStands cfg mac st' entry key := by
  cases key <;> exact Stood.mono grows stands

theorem BuildStands.mono (grows : Grows st st') {b : Build} (stands : BuildStands cfg mac st b) :
    BuildStands cfg mac st' b := by
  unfold BuildStands at stands ⊢
  split at stands
  · exact ⟨stands.1, stands.2.mono grows⟩
  · exact ⟨stands.1, stands.2.mono grows⟩
  · exact ⟨stands.1.mono grows, stands.2⟩
  · trivial
  · trivial

theorem ResolveStands.mono (grows : Grows st st') {r : Resolve}
    (stands : ResolveStands cfg mac st r) : ResolveStands cfg mac st' r := by
  unfold ResolveStands at stands ⊢
  split at stands
  · exact stands.mono grows
  · exact stands.mono grows
  · exact stands.imp (Stood.mono grows) id
  · exact stands
  · obtain ⟨timed, p, member, same, never, stood⟩ := stands
    exact ⟨timed, p, grows.pairs p member, same, never, stood.mono grows⟩
  · obtain ⟨p, member, same, never, stood⟩ := stands
    exact ⟨p, grows.pairs p member, same, never, stood.mono grows⟩
  · trivial
  · trivial
  · trivial

/-! ### One step -/

theorem kvGet_some {kv : Store} {now : Int} {key : Key} {value : String}
    (read : kvGet kv now key = some value) :
    ∃ entry, kv key = some entry ∧ entry.v = value ∧ ¬(0 < entry.expireAt ∧ entry.expireAt ≤ now) ∧
      trimSpace value ≠ "" := by
  obtain ⟨entry, kept, rfl⟩ := Option.map_eq_some_iff.mp read
  obtain ⟨found, current⟩ := Option.filter_eq_some_iff.mp kept
  simp only [Bool.and_eq_true, Bool.not_eq_true', Bool.and_eq_false_iff, decide_eq_false_iff_not,
    decide_eq_true_eq] at current
  refine ⟨entry, found, rfl, ?_, current.2⟩
  rintro ⟨ends, past⟩
  rcases current.1 with never | later
  · exact never ends
  · exact later past

theorem kvSet_cases {kv : Store} {key k : Key} {entry e : Entry}
    (found : kvSet kv key entry k = some e) : k = key ∧ e = entry ∨ k ≠ key ∧ kv k = some e := by
  unfold kvSet at found
  split at found
  next same => exact Or.inl ⟨same, (Option.some.inj found).symm⟩
  next other => exact Or.inr ⟨other, found⟩

theorem kvDelete_some {kv : Store} {key k : Key} {e : Entry}
    (found : kvDelete kv key k = some e) : k ≠ key ∧ kv k = some e := by
  unfold kvDelete at found
  split at found
  next => cases found
  next other => exact ⟨other, found⟩

theorem Standing.trimmed (standing : Standing cfg mac st) {clientToken token : String}
    (stood : Stood cfg mac st clientToken token) : trimSpace token = token := by
  obtain ⟨p, member, rfl, -⟩ := stood
  exact (standing.pairs.plain p member).1.1

theorem stands_of_stood (standing : Standing cfg mac st) {clientToken : String} {p : UserToken}
    (member : p ∈ st.pairs) (stood : Stood cfg mac st clientToken p.token) :
    Stands cfg mac st.drawn clientToken p := by
  obtain ⟨q, known, same, stands⟩ := stood
  rw [← standing.pairs.unique known member same]
  exact stands

theorem urlFor_composed (allowed : Allowed cfg) {side : Side}
    (single : side = .admin → SingleURL cfg) (pick : Nat) (clientToken : String) :
    Composed cfg (urlFor cfg side pick clientToken) clientToken := by
  cases side with
  | user => exact userURL_composed allowed pick clientToken
  | admin => exact adminURL_composed allowed (single rfl) clientToken

theorem Standing.drawn_plain (standing : Standing cfg mac st)
    (once : cfg.showSubscribeMethod = 1) {clientToken token : String}
    (stood : Stood cfg mac st clientToken token) : Plain clientToken := by
  obtain ⟨p, -, -, stands⟩ := stood
  rw [Stands, if_pos once] at stands
  obtain ⟨d, drawn, rfl, -⟩ := stands
  exact standing.drawn d drawn

theorem Standing.advanceBuild (standing : Standing cfg mac st) (st' : State) (allowed : Allowed cfg)
    {b : Build} (member : b ∈ st.builds) (fails : Bool) (pick : Nat) {fresh : String}
    (drawn : st'.drawn = if b.phase = .lookup ∧
        (advanceBuild cfg mac st.now st.kv b fails pick fresh).2 = .storeToken fresh then
      st.drawn ++ [⟨fresh, b.token, st.now⟩] else st.drawn)
    (pairs : st'.pairs = st.pairs) :
    (∀ key entry, (advanceBuild cfg mac st.now st.kv b fails pick fresh).1 key = some entry →
      EntryStands cfg mac st' entry key) ∧
    BuildStands cfg mac st'
      { b with phase := (advanceBuild cfg mac st.now st.kv b fails pick fresh).2 } := by
  obtain ⟨listed, single, stands⟩ := standing.builds b member
  have grows : Grows st st' := by
    constructor
    · intro p known
      rw [pairs]
      exact known
    · intro d known
      rw [drawn]
      split
      · exact List.mem_append_left _ known
      · exact known
  have entries : ∀ key entry, st.kv key = some entry → EntryStands cfg mac st' entry key :=
    fun key entry found => (standing.entries key entry found).mono grows
  have composed := urlFor_composed allowed single pick
  obtain ⟨plain, positive, fits⟩ := standing.pairs.plain b.pair listed
  unfold BuildStands at stands
  unfold Subscribe.advanceBuild at drawn ⊢
  cases phase : b.phase with
  | lookup =>
    rw [phase] at drawn
    dsimp only at drawn ⊢
    by_cases once : cfg.showSubscribeMethod = 1
    · rw [if_pos once] at drawn ⊢
      cases read : kvGet st.kv st.now (.otp b.token) with
      | some value =>
        obtain ⟨entry, found, rfl, -⟩ := kvGet_some read
        have stood : Stood cfg mac st entry.v b.token := standing.entries _ _ found
        refine ⟨entries, ?_⟩
        have shown := (stands_of_stood (p := b.pair) standing listed stood).mono grows
        exact ⟨shown, composed entry.v, standing.drawn_plain once stood,
          fun timed => absurd (once.symm.trans timed) (by decide)⟩
      | none =>
        rw [read] at drawn
        simp only [and_self, if_true] at drawn
        refine ⟨entries, once, b.pair, grows.pairs _ listed, rfl, ?_⟩
        rw [Stands, if_pos once, drawn]
        exact ⟨_, List.mem_append_right _ (List.mem_singleton_self _), rfl, rfl⟩
    · rw [if_neg once] at drawn ⊢
      by_cases timed : cfg.showSubscribeMethod = 2
      · rw [if_pos timed] at drawn ⊢
        have read := readTimedToken_timedToken cfg mac st.now b.token positive fits
        refine ⟨entries, ?_, composed _, ⟨timedToken_plain _ _ _ _ _, ?_⟩, fun _ => rfl⟩
        · rw [Stands, if_neg once, if_pos timed]
          exact ⟨_, read⟩
        · intro blank
          rw [show b.pair.id = b.userID from rfl, blank, readTimedToken_empty] at read
          cases read
      · rw [if_neg timed] at drawn ⊢
        refine ⟨entries, ?_, composed _, plain, fun method => absurd method timed⟩
        rw [Stands, if_neg once, if_neg timed]
        rfl
  | storeToken newToken =>
    rw [phase] at stands
    obtain ⟨once, stood⟩ := stands
    cases fails with
    | true => exact ⟨entries, trivial⟩
    | false =>
      refine ⟨?_, once, stood.mono grows⟩
      intro key entry found
      rcases kvSet_cases found with ⟨rfl, rfl⟩ | ⟨-, old⟩
      · exact stood.mono grows
      · exact entries key entry old
  | storeClient newToken =>
    rw [phase] at stands
    obtain ⟨once, stood⟩ := stands
    cases fails with
    | true => exact ⟨entries, trivial⟩
    | false =>
      refine ⟨?_, ?_⟩
      · intro key entry found
        rcases kvSet_cases found with ⟨rfl, rfl⟩ | ⟨-, old⟩
        · exact stood.mono grows
        · exact entries key entry old
      · have shown := (stands_of_stood (p := b.pair) standing listed stood).mono grows
        exact ⟨shown, composed newToken, standing.drawn_plain once stood,
          fun timed => absurd (once.symm.trans timed) (by decide)⟩
  | returned clientToken url time =>
    rw [phase] at stands
    exact ⟨entries, stands.1.mono grows, stands.2⟩
  | failed => exact ⟨entries, trivial⟩

theorem kvDelete_stands (entries : ∀ key entry, st.kv key = some entry →
      EntryStands cfg mac st entry key) (key k : Key) (entry : Entry)
    (found : kvDelete st.kv key k = some entry) : EntryStands cfg mac st entry k :=
  entries k entry (kvDelete_some found).2

theorem Standing.still (standing : Standing cfg mac st) {r : Resolve} (member : r ∈ st.resolves)
    {p : UserToken} (current : p ∈ st.users) : p ∉ r.resetBefore := fun old =>
  standing.pairs.not_reset current ((standing.resolves r member).1 p old)

theorem Standing.advanceResolve (standing : Standing cfg mac st) {r : Resolve}
    (member : r ∈ st.resolves) (fails : Bool) :
    (∀ key entry, (advanceResolve cfg mac st.now st.users st.kv r fails).1 key = some entry →
      EntryStands cfg mac st entry key) ∧
    ResolveStands cfg mac st
      { r with phase := (advanceResolve cfg mac st.now st.users st.kv r fails).2 } := by
  obtain ⟨-, stands⟩ := standing.resolves r member
  have entries := standing.entries
  unfold ResolveStands at stands
  unfold Subscribe.advanceResolve
  cases phase : r.phase with
  | reading =>
    dsimp only
    by_cases blank : r.clientToken = ""
    · rw [if_pos blank]
      exact ⟨entries, trivial⟩
    · rw [if_neg blank]
      by_cases once : cfg.showSubscribeMethod = 1
      · rw [if_pos once]
        cases read : kvGet st.kv st.now (.otpn r.clientToken) with
        | some value =>
          obtain ⟨entry, found, rfl, -⟩ := kvGet_some read
          have stood : Stood cfg mac st r.clientToken entry.v := entries _ _ found
          refine ⟨entries, show Stood cfg mac st r.clientToken (trimSpace entry.v) from ?_⟩
          rw [standing.trimmed stood]
          exact stood
        | none => exact ⟨entries, trivial⟩
      · rw [if_neg once]
        by_cases timed : cfg.showSubscribeMethod = 2
        · rw [if_pos timed]
          cases read : kvGet st.kv st.now (.totp r.clientToken) with
          | some value =>
            obtain ⟨entry, found, rfl, -⟩ := kvGet_some read
            have stood : Stood cfg mac st r.clientToken entry.v := entries _ _ found
            refine ⟨entries, Or.inl ?_⟩
            rw [standing.trimmed stood]
            exact stood
          | none =>
            dsimp only
            cases parts : readTimedToken r.clientToken with
            | some named => exact ⟨entries, timed, parts⟩
            | none => exact ⟨entries, trivial⟩
        · rw [if_neg timed]
          exact ⟨entries, Or.inr ⟨once, timed, rfl⟩⟩
  | deletingClient token =>
    rw [phase] at stands
    cases fails with
    | true => exact ⟨entries, trivial⟩
    | false => exact ⟨kvDelete_stands entries _, stands⟩
  | deletingToken token =>
    rw [phase] at stands
    cases fails with
    | true => exact ⟨entries, trivial⟩
    | false => exact ⟨kvDelete_stands entries _, Or.inl stands⟩
  | selecting token =>
    rw [phase] at stands
    dsimp only
    cases found : st.users.find? (·.token = token) with
    | none => exact ⟨entries, trivial⟩
    | some user =>
      have same : user.token = token := by simpa using List.find?_some found
      have current := List.mem_of_find?_eq_some found
      have known : user ∈ st.pairs := List.mem_append_left _ current
      refine ⟨entries, user, known, rfl, standing.still member current, ?_⟩
      rcases stands with stood | ⟨once, timed, plain⟩
      · exact stands_of_stood standing known (same ▸ stood)
      · rw [Stands, if_neg once, if_neg timed, same, plain]
  | checking userID clientHash =>
    rw [phase] at stands
    obtain ⟨timed, parts⟩ := stands
    dsimp only
    cases found : (st.users.find? (·.id = userID)).filter (trimSpace ·.token ≠ "") with
    | none => exact ⟨entries, trivial⟩
    | some user =>
      obtain ⟨loaded, -⟩ := Option.filter_eq_some_iff.mp found
      have same : user.id = userID := by simpa using List.find?_some loaded
      have current := List.mem_of_find?_eq_some loaded
      have known : user ∈ st.pairs := List.mem_append_left _ current
      dsimp only
      rw [(standing.pairs.plain user known).1.1]
      split
      next equal =>
        refine ⟨entries, timed, user, known, by rw [← same], standing.still member current, ?_⟩
        rw [Stands, if_neg (by rw [timed]; decide), if_pos timed]
        exact ⟨_, by rw [parts, same, ← equal]⟩
      next => exact ⟨entries, trivial⟩
  | caching userID token =>
    rw [phase] at stands
    obtain ⟨-, p, known, rfl, never, shown⟩ := stands
    cases fails with
    | true => exact ⟨entries, trivial⟩
    | false =>
      refine ⟨?_, _, known, rfl, never, shown⟩
      intro key entry found
      rcases kvSet_cases found with ⟨rfl, rfl⟩ | ⟨-, old⟩
      · exact ⟨_, known, rfl, shown⟩
      · exact entries key entry old
  | accepted userID =>
    rw [phase] at stands
    exact ⟨entries, stands⟩
  | refused => exact ⟨entries, trivial⟩
  | failed => exact ⟨entries, trivial⟩

theorem Standing.start (start : st.Start) : Standing cfg mac st := by
  obtain ⟨ids, tokens, plain, kv, builds, resolves, resets, drawn, -⟩ := start
  have pairs : st.pairs = st.users := by rw [State.pairs, resets, List.append_nil]
  constructor
  case pairs => exact ⟨ids, by rw [pairs]; exact tokens, by rw [pairs]; exact plain⟩
  case clients =>
    rw [drawn]
    exact List.nodup_nil
  case drawn =>
    rw [drawn]
    exact fun _ none => (List.not_mem_nil none).elim
  case entries =>
    intro key entry found
    rw [kv] at found
    cases found
  case builds =>
    rw [builds]
    exact fun _ none => (List.not_mem_nil none).elim
  case resolves =>
    rw [resolves]
    exact fun _ none => (List.not_mem_nil none).elim

theorem Standing.grow (standing : Standing cfg mac st) (grows : Grows st st') (pairs : Pairs st')
    (kv : st'.kv = st.kv) (builds : st'.builds = st.builds) (drawn : st'.drawn = st.drawn)
    (resets : ∀ p ∈ st.resets, p ∈ st'.resets)
    (resolves : ∀ r ∈ st'.resolves, r ∈ st.resolves ∨
      r.phase = .reading ∧ r.resetBefore = st'.resets) : Standing cfg mac st' where
  pairs := pairs
  clients := drawn ▸ standing.clients
  drawn := drawn ▸ standing.drawn
  entries key entry found := (standing.entries key entry (kv ▸ found)).mono grows
  builds b member := by
    obtain ⟨known, single, stands⟩ := standing.builds b (builds ▸ member)
    exact ⟨grows.pairs _ known, single, stands.mono grows⟩
  resolves r member := by
    rcases resolves r member with old | ⟨phase, before⟩
    · obtain ⟨before, stands⟩ := standing.resolves r old
      exact ⟨fun p earlier => resets p (before p earlier), stands.mono grows⟩
    · refine ⟨fun p earlier => before ▸ earlier, ?_⟩
      rw [ResolveStands, phase]
      trivial

/-- What the statements ask of a step for the parts of a URL. -/
def AdminSingle (cfg : Config) : Act → Prop
  | .startBuild .admin _ => SingleURL cfg
  | _ => True

theorem Standing.step (standing : Standing cfg mac st) (allowed : Allowed cfg) {act : Act}
    (single : AdminSingle cfg act) : Standing cfg mac (step cfg mac st act) := by
  cases act with
  | tick now =>
    unfold Subscribe.step
    dsimp only
    split
    · exact standing.grow ⟨fun _ => id, fun _ => id⟩ ⟨standing.pairs.ids, standing.pairs.tokens,
        standing.pairs.plain⟩ rfl rfl rfl (fun _ => id) fun r member => Or.inl member
    · exact standing
  | reset userID token =>
    unfold Subscribe.step
    dsimp only
    split
    next fresh =>
      exact standing.grow ⟨fun p => mem_reset, fun _ => id⟩
        (standing.pairs.reset userID fresh.1 fresh.2) rfl rfl rfl
        (fun p old => List.mem_append_left _ old) fun r member => Or.inl member
    next => exact standing
  | startBuild side userID =>
    unfold Subscribe.step
    dsimp only
    split
    next user found =>
      have current := List.mem_of_find?_eq_some found
      constructor
      case pairs => exact ⟨standing.pairs.ids, standing.pairs.tokens, standing.pairs.plain⟩
      case clients => exact standing.clients
      case drawn => exact standing.drawn
      case entries => exact standing.entries
      case resolves => exact standing.resolves
      case builds =>
        intro b member
        rcases List.mem_append.mp member with old | new
        · exact standing.builds b old
        · obtain rfl := List.mem_singleton.mp new
          have same : user.id = userID := by simpa using List.find?_some found
          refine ⟨List.mem_append_left _ ?_, ?_, trivial⟩
          · rw [Build.pair, ← same]
            exact current
          · rintro rfl
            exact single
    next => exact standing
  | build n fails pick fresh =>
    unfold Subscribe.step
    dsimp only
    split
    next b found =>
      have member := List.mem_of_getElem? found
      split
      next new =>
        have left := standing.advanceBuild (stepBuild cfg mac st n fails pick fresh b)
          allowed member fails pick rfl rfl
        have grows : Grows st (stepBuild cfg mac st n fails pick fresh b) := by
          refine ⟨fun _ => id, fun d known => ?_⟩
          unfold stepBuild
          dsimp only
          split
          · exact List.mem_append_left _ known
          · exact known
        constructor
        case pairs => exact ⟨standing.pairs.ids, standing.pairs.tokens, standing.pairs.plain⟩
        case clients =>
          unfold stepBuild
          dsimp only
          split
          · rw [List.map_append, List.nodup_append]
            refine ⟨standing.clients, List.nodup_singleton _, ?_⟩
            intro t ht t' ht'
            obtain ⟨d, known, rfl⟩ := List.mem_map.mp ht
            obtain rfl := List.mem_singleton.mp ht'
            exact new.2 d known
          · exact standing.clients
        case drawn =>
          unfold stepBuild
          dsimp only
          split
          · intro d known
            rcases List.mem_append.mp known with old | last
            · exact standing.drawn d old
            · rw [List.mem_singleton.mp last]
              exact new.1
          · exact standing.drawn
        case entries => exact left.1
        case builds =>
          intro c listed
          rcases mem_set_cases listed with rfl | other
          · obtain ⟨known, single, -⟩ := standing.builds b member
            exact ⟨known, single, left.2⟩
          · obtain ⟨known, single, stands⟩ := standing.builds c (List.mem_of_mem_eraseIdx other)
            exact ⟨known, single, stands.mono grows⟩
        case resolves =>
          intro r listed
          obtain ⟨before, stands⟩ := standing.resolves r listed
          exact ⟨before, stands.mono grows⟩
      next => exact standing
    next => exact standing
  | startResolve token =>
    unfold Subscribe.step
    dsimp only
    refine standing.grow ⟨fun _ => id, fun _ => id⟩ ⟨standing.pairs.ids, standing.pairs.tokens,
      standing.pairs.plain⟩ rfl rfl rfl (fun _ => id) ?_
    intro r member
    rcases List.mem_append.mp member with old | new
    · exact Or.inl old
    · rw [List.mem_singleton.mp new]
      exact Or.inr ⟨rfl, rfl⟩
  | resolve n fails =>
    unfold Subscribe.step
    dsimp only
    split
    next r found =>
      have member := List.mem_of_getElem? found
      have left := standing.advanceResolve member fails
      constructor
      case pairs => exact ⟨standing.pairs.ids, standing.pairs.tokens, standing.pairs.plain⟩
      case clients => exact standing.clients
      case drawn => exact standing.drawn
      case entries => exact left.1
      case builds => exact standing.builds
      case resolves =>
        intro c listed
        rcases mem_set_cases listed with rfl | other
        · exact ⟨(standing.resolves r member).1, left.2⟩
        · exact standing.resolves c (List.mem_of_mem_eraseIdx other)
    next => exact standing

end

end ForestPanel.Subscribe
