import ForestPanel.Subscribe.Standing

/-!
# Shown URLs work

A one-time token is written in two statements and taken in three. Between them another
build can show it too early, another resolution can take it again, and a failed write
leaves an entry without the other. Runs that avoid these cases keep every URL working.
-/
namespace ForestPanel.Subscribe

open Places Transition

/-! ## One-time tokens -/

def Build.pending (b : Build) : Option String :=
  match b.phase with
  | .storeToken newToken | .storeClient newToken => some newToken
  | _ => none

/-- The resolution has deleted the token's entry and was not refused. -/
def ResolvePhase.took : ResolvePhase → Bool
  | .deletingToken _ | .selecting _ | .accepted _ => true
  | _ => false

def ResolvePhase.held : ResolvePhase → Bool
  | .deletingClient _ => true
  | phase => phase.took

theorem ResolvePhase.held_of_took {phase : ResolvePhase} (took : phase.took = true) :
    phase.held = true := by
  cases phase <;> first | rfl | cases took

def Exclusive (a b : Resolve) : Prop :=
  a.clientToken = b.clientToken → a.phase.held = true → b.phase.held = true → False

theorem Exclusive.symm {a b : Resolve} (exclusive : Exclusive a b) : Exclusive b a :=
  fun same first second => exclusive same.symm second first

def Separate (a b : Build) : Prop := ∀ newToken, a.pending = some newToken →
  b.pending = some newToken → False

variable {b a : Build} {n : Nat} {clientToken token : String} {entry : Entry} {r : Resolve}

theorem Separate.symm (separate : Separate a b) : Separate b a :=
  fun newToken first second => separate newToken second first

structure OneTime (st : State) : Prop where
  times : ∀ d ∈ st.drawn, d.time ≤ st.now
  separate : Apart Separate st.builds
  pending : ∀ b ∈ st.builds, ∀ newToken, b.pending = some newToken →
    (∃ d ∈ st.drawn, d.clientToken = newToken) ∧ newToken ∉ st.taken ∧
      st.kv (.otpn newToken) = none
  lasting : ∀ clientToken entry, st.kv (.otpn clientToken) = some entry →
    clientToken ∉ st.taken ∧
      ∀ d ∈ st.drawn, d.clientToken = clientToken → d.time + 86400 ≤ entry.expireAt
  shared : ∀ token entry, st.kv (.otp token) = some entry →
    (∃ b ∈ st.builds, b.phase = .storeClient entry.v) ∨ st.kv (.otpn entry.v) ≠ none ∨
      entry.v ∈ st.taken
  shown : ∀ b ∈ st.builds, ∀ clientToken url time, b.phase = .returned clientToken url time →
    st.kv (.otpn clientToken) ≠ none ∨ clientToken ∈ st.taken
  exclusive : Apart Exclusive st.resolves
  holding : ∀ r ∈ st.resolves, ∀ token, r.phase = .deletingClient token →
    st.kv (.otpn r.clientToken) ≠ none
  took : ∀ r ∈ st.resolves, r.phase.took = true → r.clientToken ∈ st.taken
  known : ∀ clientToken ∈ st.taken, ∃ d ∈ st.drawn, d.clientToken = clientToken
  taken : ∀ clientToken ∈ st.taken,
    (∃ r ∈ st.resolves, r.clientToken = clientToken ∧ r.phase.took = true) ∨
      ∃ p ∈ st.resets, ∃ d ∈ st.drawn, d.clientToken = clientToken ∧ d.token = p.token

/-! ## The steps that keep URLs working -/

/-- No second write of a token fails, and none is read that another build has yet to write. -/
def RegularBuild (st : State) (fails : Bool) (b : Build) : Prop :=
  match b.phase with
  | .storeClient _ => fails = false
  | .lookup => ∀ value ∈ kvGet st.kv st.now (.otp b.token),
    ∀ c ∈ st.builds, c.phase ≠ .storeClient value
  | _ => True

instance (st : State) (fails : Bool) (b : Build) : Decidable (RegularBuild st fails b) := by
  unfold RegularBuild
  split <;> infer_instance

/-- No second delete fails, and no token is read that another resolution has read and not yet
deleted. -/
def RegularResolve (st : State) (fails : Bool) (r : Resolve) : Prop :=
  match r.phase with
  | .deletingToken _ => fails = false
  | .reading => ∀ c ∈ st.resolves, c.clientToken = r.clientToken →
    c.phase.held = true → c.phase.took = true
  | _ => True

instance (st : State) (fails : Bool) (r : Resolve) : Decidable (RegularResolve st fails r) := by
  unfold RegularResolve
  split <;> infer_instance

/-- And the admin's builder finds one URL in the setting. -/
def Regular (cfg : Config) (st : State) : Act → Prop
  | .startBuild side _ => side = .admin → SingleURL cfg
  | .build n fails _ _ => ∀ b ∈ st.builds[n]?, RegularBuild st fails b
  | .resolve n fails => ∀ r ∈ st.resolves[n]?, RegularResolve st fails r
  | _ => True

instance (cfg : Config) (st : State) (act : Act) : Decidable (Regular cfg st act) := by
  unfold Regular
  split <;> infer_instance

section

variable {cfg : Config} {mac : Mac} {st st' : State}

theorem OneTime.start (start : st.Start) : OneTime st := by
  obtain ⟨-, -, -, kv, builds, resolves, -, drawn, taken⟩ := start
  constructor <;> simp [kv, builds, resolves, drawn, taken, apart_nil]

theorem OneTime.grow (once : OneTime st) (now : st.now ≤ st'.now) (kv : st'.kv = st.kv)
    (builds : st'.builds = st.builds) (resolves : st'.resolves = st.resolves)
    (drawn : st'.drawn = st.drawn) (taken : st'.taken = st.taken)
    (resets : ∀ p ∈ st.resets, p ∈ st'.resets) : OneTime st' where
  times d known := (once.times d (drawn ▸ known)).trans now
  separate := builds ▸ once.separate
  pending := by
    rw [builds, drawn, taken, kv]
    exact once.pending
  lasting := by
    rw [drawn, taken, kv]
    exact once.lasting
  shared := by
    rw [builds, taken, kv]
    exact once.shared
  shown := by
    rw [builds, taken, kv]
    exact once.shown
  exclusive := resolves ▸ once.exclusive
  holding := by
    rw [resolves, kv]
    exact once.holding
  took := by
    rw [resolves, taken]
    exact once.took
  known := by
    rw [taken, drawn]
    exact once.known
  taken := by
    intro clientToken known
    rw [resolves, drawn]
    rw [taken] at known
    refine (once.taken clientToken known).imp id ?_
    rintro ⟨p, old, rest⟩
    exact ⟨p, resets p old, rest⟩

theorem OneTime.built (once : OneTime st) (n : Nat) (b : Build) (kv : Store) (draws : List Drawn)
    (times : ∀ d ∈ draws, d.time ≤ st.now) (drawn : ∀ d ∈ st.drawn, d ∈ draws)
    (pending : ∀ newToken, b.pending = some newToken →
      (∃ d ∈ draws, d.clientToken = newToken) ∧ newToken ∉ st.taken ∧ kv (.otpn newToken) = none)
    (separate : ∀ c ∈ st.builds.eraseIdx n, Separate b c)
    (others : ∀ c ∈ st.builds.eraseIdx n, ∀ newToken, c.pending = some newToken →
      kv (.otpn newToken) = none)
    (kept : ∀ clientToken, st.kv (.otpn clientToken) ≠ none → kv (.otpn clientToken) ≠ none)
    (lasting : ∀ clientToken entry, kv (.otpn clientToken) = some entry →
      clientToken ∉ st.taken ∧
        ∀ d ∈ draws, d.clientToken = clientToken → d.time + 86400 ≤ entry.expireAt)
    (shared : ∀ token entry, kv (.otp token) = some entry →
      (∃ c ∈ st.builds.set n b, c.phase = .storeClient entry.v) ∨
        kv (.otpn entry.v) ≠ none ∨ entry.v ∈ st.taken)
    (shown : ∀ clientToken url time, b.phase = .returned clientToken url time →
      kv (.otpn clientToken) ≠ none ∨ clientToken ∈ st.taken) :
    OneTime { st with kv, builds := st.builds.set n b, drawn := draws } := by
  constructor
  case times => exact times
  case separate => exact once.separate.set (fun _ _ => Separate.symm) separate
  case pending =>
    intro c listed newToken writes
    rcases mem_set_cases listed with rfl | other
    · exact pending newToken writes
    · obtain ⟨⟨d, known, same⟩, free, -⟩ :=
        once.pending c (List.mem_of_mem_eraseIdx other) newToken writes
      exact ⟨⟨d, drawn d known, same⟩, free, others c other newToken writes⟩
  case lasting => exact lasting
  case shared => exact shared
  case shown =>
    intro c listed clientToken url time phase
    rcases mem_set_cases listed with rfl | other
    · exact shown clientToken url time phase
    · exact (once.shown c (List.mem_of_mem_eraseIdx other) clientToken url time phase).imp
        (kept clientToken) id
  case exclusive => exact once.exclusive
  case holding => exact fun r member token phase => kept _ (once.holding r member token phase)
  case took => exact once.took
  case known =>
    intro clientToken listed
    obtain ⟨d, old, same⟩ := once.known clientToken listed
    exact ⟨d, drawn d old, same⟩
  case taken =>
    intro clientToken known
    refine (once.taken clientToken known).imp id ?_
    rintro ⟨p, old, d, listed, rest⟩
    exact ⟨p, old, d, drawn d listed, rest⟩

theorem mem_set_other {α : Type} {a b c : α} {l : List α} (found : l[n]? = some a) (member : c ∈ l)
    (other : c ≠ a) : c ∈ l.set n b := by
  obtain ⟨m, place⟩ := List.mem_iff_getElem?.mp member
  have different : n ≠ m := by
    rintro rfl
    exact other (Option.some.inj (place.symm.trans found))
  rw [List.mem_iff_getElem?]
  exact ⟨m, by rw [List.getElem?_set_ne different, place]⟩

theorem set_same {α : Type} {a : α} {l : List α} (found : l[n]? = some a) : l.set n a = l := by
  obtain ⟨inside, rfl⟩ := List.getElem?_eq_some_iff.mp found
  exact List.set_getElem_self inside

theorem Standing.otpn_drawn (standing : Standing cfg mac st) (method : cfg.showSubscribeMethod = 1)
    (found : st.kv (.otpn clientToken) = some entry) :
    ∃ d ∈ st.drawn, d.clientToken = clientToken := by
  obtain ⟨p, -, -, stands⟩ := standing.entries _ _ found
  rw [Stands, if_pos method] at stands
  obtain ⟨d, listed, same, -⟩ := stands
  exact ⟨d, listed, same⟩

theorem OneTime.shared_of (once : OneTime st) (found : st.builds[n]? = some a)
    (other : ∀ newToken, a.phase ≠ .storeClient newToken) (stored : st.kv (.otp token) = some entry)
    :
    (∃ c ∈ st.builds.set n b, c.phase = .storeClient entry.v) ∨
      st.kv (.otpn entry.v) ≠ none ∨ entry.v ∈ st.taken := by
  refine (once.shared token entry stored).imp ?_ id
  rintro ⟨c, listed, writes⟩
  refine ⟨c, mem_set_other found listed ?_, writes⟩
  rintro rfl
  exact other _ writes

theorem OneTime.ended (once : OneTime st) (found : st.builds[n]? = some a)
    (other : ∀ newToken, a.phase ≠ .storeClient newToken) (ends : b.pending = none)
    (shown : ∀ clientToken url time, b.phase = .returned clientToken url time →
      st.kv (.otpn clientToken) ≠ none ∨ clientToken ∈ st.taken) :
    OneTime { st with builds := st.builds.set n b } := by
  apply once.built n b st.kv st.drawn once.times (fun _ => id)
  case pending =>
    intro newToken writes
    rw [ends] at writes
    cases writes
  case separate =>
    intro c _ newToken writes
    rw [ends] at writes
    cases writes
  case others => exact fun c other newToken writes =>
    (once.pending c (List.mem_of_mem_eraseIdx other) newToken writes).2.2
  case kept => exact fun _ => id
  case lasting => exact once.lasting
  case shared => exact fun token entry stored => once.shared_of found other stored
  case shown => exact shown

theorem OneTime.draw (once : OneTime st) (standing : Standing cfg mac st)
    (method : cfg.showSubscribeMethod = 1) {fresh : String} (found : st.builds[n]? = some a)
    (other : ∀ newToken, a.phase ≠ .storeClient newToken) (writes : b.phase = .storeToken fresh)
    (new : ∀ d ∈ st.drawn, d.clientToken ≠ fresh) :
    OneTime { st with
      builds := st.builds.set n b
      drawn := st.drawn ++ [⟨fresh, b.token, st.now⟩] } := by
  have unknown : st.kv (.otpn fresh) = none := by
    rw [Option.eq_none_iff_forall_ne_some]
    intro entry stored
    obtain ⟨d, listed, same⟩ := standing.otpn_drawn method stored
    exact new d listed same
  have pending : ∀ newToken, b.pending = some newToken → newToken = fresh := by
    intro newToken written
    rw [Build.pending, writes] at written
    exact (Option.some.inj written).symm
  apply once.built n b st.kv
  case times =>
    intro d listed
    rcases List.mem_append.mp listed with old | last
    · exact once.times d old
    · rw [List.mem_singleton.mp last]
  case drawn => exact fun d old => List.mem_append_left _ old
  case pending =>
    intro newToken written
    obtain rfl := pending newToken written
    refine ⟨⟨_, List.mem_append_right _ (List.mem_singleton_self _), rfl⟩, ?_, unknown⟩
    intro taken
    obtain ⟨d, listed, same⟩ := once.known _ taken
    exact new d listed same
  case separate =>
    intro c other newToken written written'
    obtain rfl := pending newToken written
    obtain ⟨⟨d, listed, same⟩, -⟩ := once.pending c (List.mem_of_mem_eraseIdx other) _ written'
    exact new d listed same
  case others => exact fun c other newToken written =>
    (once.pending c (List.mem_of_mem_eraseIdx other) newToken written).2.2
  case kept => exact fun _ => id
  case lasting =>
    intro clientToken entry stored
    obtain ⟨free, lasts⟩ := once.lasting clientToken entry stored
    refine ⟨free, fun d listed same => ?_⟩
    rcases List.mem_append.mp listed with old | last
    · exact lasts d old same
    · rw [List.mem_singleton.mp last] at same
      rw [← show fresh = clientToken from same, unknown] at stored
      cases stored
  case shared => exact fun token entry stored => once.shared_of found other stored
  case shown =>
    intro clientToken url time returned
    rw [writes] at returned
    cases returned

theorem OneTime.storeToken (once : OneTime st) {newToken : String} (found : st.builds[n]? = some b)
    (phase : b.phase = .storeToken newToken) (expireAt : Int) :
    OneTime { st with
      kv := kvSet st.kv (.otp b.token) ⟨newToken, expireAt⟩
      builds := st.builds.set n { b with phase := .storeClient newToken } } := by
  have same : ∀ clientToken, kvSet st.kv (.otp b.token) ⟨newToken, expireAt⟩ (.otpn clientToken) =
      st.kv (.otpn clientToken) := fun clientToken => if_neg (by rintro ⟨⟩)
  have writes : b.pending = some newToken := by rw [Build.pending, phase]
  have place : ({ b with phase := .storeClient newToken } : Build) ∈
      st.builds.set n { b with phase := .storeClient newToken } :=
    List.mem_set (List.getElem?_eq_some_iff.mp found).1 _
  apply once.built n { b with phase := .storeClient newToken } _ st.drawn once.times (fun _ => id)
  case pending =>
    intro token written
    rw [same]
    exact once.pending b (List.mem_of_getElem? found) token (writes.trans written)
  case separate =>
    intro c other token written
    exact once.separate.others found other token (writes.trans written)
  case others =>
    intro c other token written
    rw [same]
    exact (once.pending c (List.mem_of_mem_eraseIdx other) token written).2.2
  case kept =>
    intro clientToken kept
    rwa [same]
  case lasting =>
    intro clientToken entry stored
    rw [same] at stored
    exact once.lasting clientToken entry stored
  case shared =>
    intro token entry stored
    rw [same]
    rcases kvSet_cases stored with ⟨-, rfl⟩ | ⟨-, old⟩
    · exact Or.inl ⟨_, place, rfl⟩
    · refine once.shared_of found ?_ old
      intro other written
      rw [phase] at written
      cases written
  case shown =>
    intro clientToken url time returned
    cases returned

theorem OneTime.storeClient (once : OneTime st) {newToken : String} (url : String)
    (found : st.builds[n]? = some b) (phase : b.phase = .storeClient newToken) (time : Int) :
    OneTime { st with
      kv := kvSet st.kv (.otpn newToken) ⟨b.token, st.now + 86400⟩
      builds := st.builds.set n { b with phase := .returned newToken url time } } := by
  have writes : b.pending = some newToken := by rw [Build.pending, phase]
  have set : kvSet st.kv (.otpn newToken) ⟨b.token, st.now + 86400⟩ (.otpn newToken) ≠ none := by
    simp [kvSet]
  have kept : ∀ clientToken, st.kv (.otpn clientToken) ≠ none →
      kvSet st.kv (.otpn newToken) ⟨b.token, st.now + 86400⟩ (.otpn clientToken) ≠ none := by
    intro clientToken stored
    by_cases same : clientToken = newToken
    · rw [same]
      exact set
    · simpa [kvSet, same] using stored
  apply once.built n { b with phase := .returned newToken url time } _ st.drawn once.times
    (fun _ => id)
  case pending =>
    intro token written
    cases written
  case separate =>
    intro c _ token written
    cases written
  case others =>
    intro c other token written
    have different : token ≠ newToken := by
      rintro rfl
      exact once.separate.others found other token writes written
    have free := (once.pending c (List.mem_of_mem_eraseIdx other) token written).2.2
    simp [kvSet, different, free]
  case kept => exact kept
  case lasting =>
    intro clientToken entry stored
    rcases kvSet_cases stored with ⟨same, rfl⟩ | ⟨-, old⟩
    · injection same with same
      rw [same]
      refine ⟨(once.pending b (List.mem_of_getElem? found) newToken writes).2.1, ?_⟩
      intro d listed _
      have before := once.times d listed
      dsimp only
      omega
    · exact once.lasting clientToken entry old
  case shared =>
    intro token entry stored
    rcases kvSet_cases stored with ⟨⟨⟩, -⟩ | ⟨-, old⟩
    rcases once.shared token entry old with ⟨c, listed, written⟩ | stored | taken
    · by_cases own : c = b
      · rw [own, phase] at written
        injection written with same
        rw [← same]
        exact Or.inr (Or.inl set)
      · exact Or.inl ⟨c, mem_set_other found listed own, written⟩
    · exact Or.inr (Or.inl (kept _ stored))
    · exact Or.inr (Or.inr taken)
  case shown =>
    intro clientToken url' time' returned
    injection returned with same _ _
    rw [← same]
    exact Or.inl set

theorem OneTime.build (once : OneTime st) (standing : Standing cfg mac st)
    (method : cfg.showSubscribeMethod = 1) {fails : Bool} {pick : Nat} {fresh : String}
    (found : st.builds[n]? = some b) (regular : Regular cfg st (.build n fails pick fresh))
    (new : ∀ d ∈ st.drawn, d.clientToken ≠ fresh) :
    OneTime (stepBuild cfg mac st n fails pick fresh b) := by
  have regular : RegularBuild st fails b := regular b found
  unfold RegularBuild at regular
  have member := List.mem_of_getElem? found
  cases phase : b.phase with
  | lookup =>
    rw [phase] at regular
    have other : ∀ newToken, b.phase ≠ .storeClient newToken := by
      intro newToken writes
      rw [phase] at writes
      cases writes
    cases read : kvGet st.kv st.now (.otp b.token) with
    | some value =>
      obtain ⟨entry, stored, rfl, -⟩ := kvGet_some read
      have early := regular entry.v read
      have available : st.kv (.otpn entry.v) ≠ none ∨ entry.v ∈ st.taken := by
        rcases once.shared b.token entry stored with ⟨c, listed, writes⟩ | rest
        · exact absurd writes (early c listed)
        · exact rest
      have ended := once.ended
        (b := { b with phase := finishBuild cfg st.now b pick entry.v }) found other rfl
        (fun clientToken url time returned => by
          injection returned with same _ _
          exact same ▸ available)
      simpa [stepBuild, advanceBuild, phase, method, read, finishBuild] using ended
    | none =>
      have drew := once.draw (b := { b with phase := .storeToken fresh }) standing method found
        other rfl new
      simpa [stepBuild, advanceBuild, phase, method, read] using drew
  | storeToken newToken =>
    cases fails with
    | true =>
      have ended := once.ended (b := { b with phase := .failed }) found
        (fun other writes => by
          rw [phase] at writes
          cases writes) rfl (fun _ _ _ returned => by cases returned)
      simpa [stepBuild, advanceBuild, phase] using ended
    | false =>
      have stored := once.storeToken found phase (st.now + 86400)
      simpa [stepBuild, advanceBuild, phase] using stored
  | storeClient newToken =>
    rw [phase] at regular
    obtain rfl : fails = false := regular
    have stored := once.storeClient (urlFor cfg b.side pick newToken) found phase st.now
    simpa [stepBuild, advanceBuild, phase, finishBuild] using stored
  | returned clientToken url time =>
    have same : stepBuild cfg mac st n fails pick fresh b = st := by
      have whole : ({ b with phase := .returned clientToken url time } : Build) = b := by
        rw [← phase]
      simp [stepBuild, advanceBuild, phase, whole, set_same found]
    rw [same]
    exact once
  | failed =>
    have same : stepBuild cfg mac st n fails pick fresh b = st := by
      have whole : ({ b with phase := .failed } : Build) = b := by
        rw [← phase]
      simp [stepBuild, advanceBuild, phase, whole, set_same found]
    rw [same]
    exact once

/-! ### Resolutions -/

theorem OneTime.resolved (once : OneTime st) (n : Nat) (r : Resolve) (kv : Store)
    (takes : List String)
    (pending : ∀ b ∈ st.builds, ∀ newToken, b.pending = some newToken →
      newToken ∉ takes ∧ kv (.otpn newToken) = none)
    (lasting : ∀ clientToken entry, kv (.otpn clientToken) = some entry →
      st.kv (.otpn clientToken) = some entry ∧ clientToken ∉ takes)
    (shared : ∀ token entry, kv (.otp token) = some entry → st.kv (.otp token) = some entry)
    (shown : ∀ clientToken, st.kv (.otpn clientToken) ≠ none ∨ clientToken ∈ st.taken →
      kv (.otpn clientToken) ≠ none ∨ clientToken ∈ takes)
    (exclusive : ∀ c ∈ st.resolves.eraseIdx n, Exclusive r c)
    (holding : ∀ c ∈ st.resolves.set n r, ∀ token, c.phase = .deletingClient token →
      kv (.otpn c.clientToken) ≠ none)
    (took : ∀ c ∈ st.resolves.set n r, c.phase.took = true → c.clientToken ∈ takes)
    (known : ∀ clientToken ∈ takes, ∃ d ∈ st.drawn, d.clientToken = clientToken)
    (taken : ∀ clientToken ∈ takes,
      (∃ c ∈ st.resolves.set n r, c.clientToken = clientToken ∧ c.phase.took = true) ∨
        ∃ p ∈ st.resets, ∃ d ∈ st.drawn, d.clientToken = clientToken ∧ d.token = p.token) :
    OneTime { st with kv, resolves := st.resolves.set n r, taken := takes } := by
  constructor
  case times => exact once.times
  case separate => exact once.separate
  case pending =>
    intro b listed newToken writes
    exact ⟨(once.pending b listed newToken writes).1, pending b listed newToken writes⟩
  case lasting =>
    intro clientToken entry stored
    obtain ⟨old, free⟩ := lasting clientToken entry stored
    exact ⟨free, (once.lasting clientToken entry old).2⟩
  case shared =>
    intro token entry stored
    rcases once.shared token entry (shared token entry stored) with writes | rest
    · exact Or.inl writes
    · exact Or.inr (shown entry.v rest)
  case shown =>
    intro b listed clientToken url time phase
    exact shown clientToken (once.shown b listed clientToken url time phase)
  case exclusive => exact once.exclusive.set (fun _ _ => Exclusive.symm) exclusive
  case holding => exact holding
  case took => exact took
  case known => exact known
  case taken => exact taken

theorem OneTime.taken_of (once : OneTime st) {a b : Resolve} (found : st.resolves[n]? = some a)
    (free : a.phase.took = false) (clientToken : String) (listed : clientToken ∈ st.taken) :
    (∃ c ∈ st.resolves.set n b, c.clientToken = clientToken ∧ c.phase.took = true) ∨
      ∃ p ∈ st.resets, ∃ d ∈ st.drawn, d.clientToken = clientToken ∧ d.token = p.token := by
  refine (once.taken clientToken listed).imp ?_ id
  rintro ⟨c, member, same, took⟩
  refine ⟨c, mem_set_other found member ?_, same, took⟩
  rintro rfl
  rw [free] at took
  cases took

theorem OneTime.moved (once : OneTime st) {b : Resolve}
    (exclusive : ∀ c ∈ st.resolves.eraseIdx n, Exclusive b c)
    (holding : ∀ token, b.phase = .deletingClient token → st.kv (.otpn b.clientToken) ≠ none)
    (took : b.phase.took = true → b.clientToken ∈ st.taken) (taken : ∀ clientToken ∈ st.taken,
      (∃ c ∈ st.resolves.set n b, c.clientToken = clientToken ∧ c.phase.took = true) ∨
        ∃ p ∈ st.resets, ∃ d ∈ st.drawn, d.clientToken = clientToken ∧ d.token = p.token)
    (kv : Store) (same : ∀ clientToken, kv (.otpn clientToken) = st.kv (.otpn clientToken))
    (shared : ∀ token entry, kv (.otp token) = some entry → st.kv (.otp token) = some entry) :
    OneTime { st with kv, resolves := st.resolves.set n b } := by
  apply once.resolved n b kv st.taken
  case pending =>
    intro c listed newToken writes
    rw [same]
    exact (once.pending c listed newToken writes).2
  case lasting =>
    intro clientToken entry stored
    rw [same] at stored
    exact ⟨stored, (once.lasting clientToken entry stored).1⟩
  case shared => exact shared
  case shown =>
    intro clientToken
    rw [same]
    exact id
  case exclusive => exact exclusive
  case holding =>
    intro c listed token phase
    rw [same]
    rcases mem_set_cases listed with rfl | other
    · exact holding token phase
    · exact once.holding c (List.mem_of_mem_eraseIdx other) token phase
  case took =>
    intro c listed phase
    rcases mem_set_cases listed with rfl | other
    · exact took phase
    · exact once.took c (List.mem_of_mem_eraseIdx other) phase
  case known => exact once.known
  case taken => exact taken

theorem OneTime.take (once : OneTime st) (standing : Standing cfg mac st)
    (method : cfg.showSubscribeMethod = 1) (found : st.resolves[n]? = some r)
    (phase : r.phase = .deletingClient token) :
    OneTime { st with
      kv := kvDelete st.kv (.otpn r.clientToken)
      resolves := st.resolves.set n { r with phase := .deletingToken token }
      taken := st.taken ++ [r.clientToken] } := by
  have member := List.mem_of_getElem? found
  have present := once.holding r member token phase
  have place : ({ r with phase := .deletingToken token } : Resolve) ∈
      st.resolves.set n { r with phase := .deletingToken token } :=
    List.mem_set (List.getElem?_eq_some_iff.mp found).1 _
  have held : r.phase.held = true := by
    rw [phase]
    rfl
  have stays : ∀ clientToken, clientToken ≠ r.clientToken →
      kvDelete st.kv (.otpn r.clientToken) (.otpn clientToken) = st.kv (.otpn clientToken) := by
    intro clientToken other
    simp [kvDelete, other]
  apply once.resolved n { r with phase := .deletingToken token }
  case pending =>
    intro b listed newToken writes
    obtain ⟨-, free, none⟩ := once.pending b listed newToken writes
    have other : newToken ≠ r.clientToken := by
      rintro rfl
      exact present none
    constructor
    · intro listed'
      rcases List.mem_append.mp listed' with old | last
      · exact free old
      · exact other (List.mem_singleton.mp last)
    · rw [stays newToken other, none]
  case lasting =>
    intro clientToken entry stored
    obtain ⟨other, old⟩ := kvDelete_some stored
    refine ⟨old, fun listed => ?_⟩
    rcases List.mem_append.mp listed with earlier | last
    · exact (once.lasting clientToken entry old).1 earlier
    · rw [List.mem_singleton.mp last] at other
      exact other rfl
  case shared => exact fun token entry stored => (kvDelete_some stored).2
  case shown =>
    intro clientToken shown
    by_cases same : clientToken = r.clientToken
    · exact Or.inr (List.mem_append_right _ (List.mem_singleton.mpr same))
    · rw [stays clientToken same]
      exact shown.imp id (List.mem_append_left _)
  case exclusive =>
    intro c other same _ taken
    exact once.exclusive.others found other same held taken
  case holding =>
    intro c listed other writes
    rcases mem_set_cases listed with rfl | elsewhere
    · cases writes
    · have different : c.clientToken ≠ r.clientToken := by
        intro same
        refine once.exclusive.others found elsewhere same.symm held ?_
        rw [writes]
        rfl
      rw [stays _ different]
      exact once.holding c (List.mem_of_mem_eraseIdx elsewhere) other writes
  case took =>
    intro c listed took
    rcases mem_set_cases listed with rfl | elsewhere
    · exact List.mem_append_right _ (List.mem_singleton_self _)
    · exact List.mem_append_left _ (once.took c (List.mem_of_mem_eraseIdx elsewhere) took)
  case known =>
    intro clientToken listed
    rcases List.mem_append.mp listed with old | last
    · exact once.known clientToken old
    · rw [List.mem_singleton.mp last]
      obtain ⟨entry, stored⟩ := Option.ne_none_iff_exists'.mp present
      exact standing.otpn_drawn method stored
  case taken =>
    intro clientToken listed
    rcases List.mem_append.mp listed with old | last
    · exact once.taken_of found (by rw [phase]; rfl) clientToken old
    · exact Or.inl ⟨_, place, (List.mem_singleton.mp last).symm, rfl⟩

theorem OneTime.dropped (once : OneTime st) (phase : ResolvePhase)
    (found : st.resolves[n]? = some r) (free : r.phase.took = false) (drops : phase.held = false) :
    OneTime { st with resolves := st.resolves.set n { r with phase } } := by
  have untaken : phase.took ≠ true := fun took => by
    rw [ResolvePhase.held_of_took took] at drops
    cases drops
  apply once.moved
  case exclusive =>
    intro c _ _ held
    dsimp only at held
    rw [drops] at held
    cases held
  case holding =>
    intro token writes
    dsimp only at writes
    rw [writes] at drops
    cases drops
  case took => exact fun took => absurd took untaken
  case taken => exact once.taken_of found free
  case same => exact fun _ => rfl
  case shared => exact fun _ _ => id

theorem OneTime.carried (once : OneTime st) (phase : ResolvePhase)
    (found : st.resolves[n]? = some r) (took : r.phase.took = true) (keeps : phase.took = true)
    (kv : Store) (same : ∀ clientToken, kv (.otpn clientToken) = st.kv (.otpn clientToken))
    (shared : ∀ token entry, kv (.otp token) = some entry → st.kv (.otp token) = some entry) :
    OneTime { st with kv, resolves := st.resolves.set n { r with phase } } := by
  have place : ({ r with phase } : Resolve) ∈ st.resolves.set n { r with phase } :=
    List.mem_set (List.getElem?_eq_some_iff.mp found).1 _
  apply once.moved
  case exclusive =>
    intro c other client _ held
    exact once.exclusive.others found other client (ResolvePhase.held_of_took took) held
  case holding =>
    intro token writes
    dsimp only at writes
    rw [writes] at keeps
    cases keeps
  case took => exact fun _ => once.took r (List.mem_of_getElem? found) took
  case taken =>
    intro clientToken listed
    rcases once.taken clientToken listed with ⟨c, member, client, held⟩ | reset
    · by_cases own : c = r
      · exact Or.inl ⟨_, place, own ▸ client, keeps⟩
      · exact Or.inl ⟨c, mem_set_other found member own, client, held⟩
    · exact Or.inr reset
  case same => exact same
  case shared => exact shared

theorem OneTime.read (once : OneTime st) (token : String) (found : st.resolves[n]? = some r)
    (phase : r.phase = .reading) (stored : st.kv (.otpn r.clientToken) = some entry)
    (alone : ∀ c ∈ st.resolves, c.clientToken = r.clientToken →
      c.phase.held = true → c.phase.took = true) :
    OneTime { st with
      resolves := st.resolves.set n { r with phase := .deletingClient token } } := by
  apply once.moved
  case exclusive =>
    intro c other client _ held
    have member := List.mem_of_mem_eraseIdx other
    have taken := once.took c member (alone c member client.symm held)
    rw [show c.clientToken = r.clientToken from client.symm] at taken
    exact (once.lasting _ entry stored).1 taken
  case holding =>
    intro _ _
    dsimp only
    rw [stored]
    exact Option.some_ne_none entry
  case took => exact fun took => by cases took
  case taken => exact once.taken_of found (by rw [phase]; rfl)
  case same => exact fun _ => rfl
  case shared => exact fun _ _ => id

theorem OneTime.missed (once : OneTime st) (standing : Standing cfg mac st)
    (method : cfg.showSubscribeMethod = 1) (found : st.resolves[n]? = some r)
    (phase : r.phase = .selecting token) (missing : st.users.find? (·.token = token) = none) :
    OneTime { st with resolves := st.resolves.set n { r with phase := .refused } } := by
  apply once.moved
  case exclusive =>
    intro c _ _ held
    cases held
  case holding =>
    intro token writes
    cases writes
  case took => exact fun took => by cases took
  case taken =>
    intro clientToken listed
    rcases once.taken clientToken listed with ⟨c, member, client, held⟩ | reset
    · by_cases own : c = r
      · have stands := (standing.resolves r (List.mem_of_getElem? found)).2
        rw [ResolveStands, phase] at stands
        rcases stands with ⟨p, known, same, stood⟩ | ⟨other, -⟩
        · rw [Stands, if_pos method] at stood
          obtain ⟨d, drawn, named, user⟩ := stood
          rcases List.mem_append.mp known with current | old
          · have never := List.find?_eq_none.mp missing p current
            exact absurd same (by simpa using never)
          · exact Or.inr ⟨p, old, d, drawn, named.trans (own ▸ client), user⟩
        · exact absurd method other
      · exact Or.inl ⟨c, mem_set_other found member own, client, held⟩
    · exact Or.inr reset
  case same => exact fun _ => rfl
  case shared => exact fun _ _ => id

theorem OneTime.resolve (once : OneTime st) (standing : Standing cfg mac st)
    (method : cfg.showSubscribeMethod = 1) {fails : Bool} (found : st.resolves[n]? = some r)
    (regular : Regular cfg st (.resolve n fails)) : OneTime (stepResolve cfg mac st n fails r) := by
  have regular : RegularResolve st fails r := regular r found
  unfold RegularResolve at regular
  have member := List.mem_of_getElem? found
  have stands := (standing.resolves r member).2
  rw [ResolveStands] at stands
  cases phase : r.phase with
  | reading =>
    rw [phase] at regular
    have free : r.phase.took = false := by
      rw [phase]
      rfl
    by_cases blank : r.clientToken = ""
    · have dropped := once.dropped .refused found free rfl
      simpa [stepResolve, advanceResolve, phase, blank] using dropped
    · cases read : kvGet st.kv st.now (.otpn r.clientToken) with
      | some value =>
        obtain ⟨entry, stored, -⟩ := kvGet_some read
        have reading := once.read (trimSpace value) found phase stored regular
        simpa [stepResolve, advanceResolve, phase, blank, method, read] using reading
      | none =>
        have dropped := once.dropped .refused found free rfl
        simpa [stepResolve, advanceResolve, phase, blank, method, read] using dropped
  | deletingClient token =>
    cases fails with
    | true =>
      have dropped := once.dropped .failed found (by rw [phase]; rfl) rfl
      simpa [stepResolve, advanceResolve, phase] using dropped
    | false =>
      have taking := once.take standing method found phase
      simpa [stepResolve, advanceResolve, phase] using taking
  | deletingToken token =>
    rw [phase] at regular
    obtain rfl : fails = false := regular
    have carried := once.carried (.selecting token) found (by rw [phase]; rfl) rfl
      (kvDelete st.kv (.otp token)) (fun _ => by simp [kvDelete])
      fun _ _ stored => (kvDelete_some stored).2
    simpa [stepResolve, advanceResolve, phase] using carried
  | selecting token =>
    cases user : st.users.find? (·.token = token) with
    | some user' =>
      have carried := once.carried (.accepted user'.id) found (by rw [phase]; rfl) rfl
        st.kv (fun _ => rfl) fun _ _ => id
      simpa [stepResolve, advanceResolve, phase, user] using carried
    | none =>
      have missed := once.missed standing method found phase user
      simpa [stepResolve, advanceResolve, phase, user] using missed
  | checking userID clientHash =>
    rw [phase] at stands
    exact absurd (method.symm.trans stands.1) (by decide)
  | caching userID token =>
    rw [phase] at stands
    exact absurd (method.symm.trans stands.1) (by decide)
  | accepted userID =>
    have whole : ({ r with phase := .accepted userID } : Resolve) = r := by rw [← phase]
    have same : stepResolve cfg mac st n fails r = st := by
      simp [stepResolve, advanceResolve, phase, whole, set_same found]
    rw [same]
    exact once
  | refused =>
    have whole : ({ r with phase := .refused } : Resolve) = r := by rw [← phase]
    have same : stepResolve cfg mac st n fails r = st := by
      simp [stepResolve, advanceResolve, phase, whole, set_same found]
    rw [same]
    exact once
  | failed =>
    have whole : ({ r with phase := .failed } : Resolve) = r := by rw [← phase]
    have same : stepResolve cfg mac st n fails r = st := by
      simp [stepResolve, advanceResolve, phase, whole, set_same found]
    rw [same]
    exact once

theorem OneTime.step (once : OneTime st) (standing : Standing cfg mac st)
    (method : cfg.showSubscribeMethod = 1) {act : Act} (regular : Regular cfg st act) :
    OneTime (step cfg mac st act) := by
  cases act with
  | tick now =>
    unfold Subscribe.step
    dsimp only
    split
    next later => exact once.grow later rfl rfl rfl rfl rfl fun _ => id
    next => exact once
  | reset userID token =>
    unfold Subscribe.step
    dsimp only
    split
    · exact once.grow le_rfl rfl rfl rfl rfl rfl fun p old => List.mem_append_left _ old
    · exact once
  | startBuild side userID =>
    unfold Subscribe.step
    dsimp only
    split
    next user found =>
      constructor
      case times => exact once.times
      case separate =>
        exact once.separate.append (fun _ _ => Separate.symm) fun b _ newToken writes => by
          cases writes
      case pending =>
        intro b member newToken writes
        rcases List.mem_append.mp member with old | new
        · exact once.pending b old newToken writes
        · rw [List.mem_singleton.mp new] at writes
          cases writes
      case lasting => exact once.lasting
      case shared =>
        intro token entry stored
        refine (once.shared token entry stored).imp ?_ id
        rintro ⟨b, member, writes⟩
        exact ⟨b, List.mem_append_left _ member, writes⟩
      case shown =>
        intro b member clientToken url time returned
        rcases List.mem_append.mp member with old | new
        · exact once.shown b old clientToken url time returned
        · rw [List.mem_singleton.mp new] at returned
          cases returned
      case exclusive => exact once.exclusive
      case holding => exact once.holding
      case took => exact once.took
      case known => exact once.known
      case taken => exact once.taken
    next => exact once
  | build n fails pick fresh =>
    unfold Subscribe.step
    dsimp only
    split
    next b found =>
      split
      next new => exact once.build standing method found regular new.2
      next => exact once
    next => exact once
  | startResolve token =>
    unfold Subscribe.step
    dsimp only
    constructor
    case times => exact once.times
    case separate => exact once.separate
    case pending => exact once.pending
    case lasting => exact once.lasting
    case shared => exact once.shared
    case shown => exact once.shown
    case exclusive =>
      exact once.exclusive.append (fun _ _ => Exclusive.symm) fun r _ _ held => by cases held
    case holding =>
      intro r member token phase
      rcases List.mem_append.mp member with old | new
      · exact once.holding r old token phase
      · rw [List.mem_singleton.mp new] at phase
        cases phase
    case took =>
      intro r member phase
      rcases List.mem_append.mp member with old | new
      · exact once.took r old phase
      · rw [List.mem_singleton.mp new] at phase
        cases phase
    case known => exact once.known
    case taken =>
      intro clientToken listed
      refine (once.taken clientToken listed).imp ?_ id
      rintro ⟨r, member, held⟩
      exact ⟨r, List.mem_append_left _ member, held⟩
  | resolve n fails =>
    unfold Subscribe.step
    dsimp only
    split
    next r found => exact once.resolve standing method found regular
    next => exact once

/-! ## What is promised of a shown URL -/

/-- The user's token was not reset, and the client token is unconsumed and less than a day
old, or in its period. -/
def Usable (cfg : Config) (st : State) (b : Build) (clientToken : String) (time : Int) : Prop :=
  b.pair ∈ st.users ∧
    (cfg.showSubscribeMethod = 1 →
      (∀ d ∈ st.drawn, d.clientToken = clientToken → st.now < d.time + 86400) ∧
        ∀ r ∈ st.resolves, r.clientToken = clientToken → r.phase.held = false) ∧
    (cfg.showSubscribeMethod = 2 → counter cfg st.now = counter cfg time)

structure Works (cfg : Config) (mac : Mac) (st : State) : Prop where
  composed : ∀ b ∈ st.builds, ∀ clientToken url time,
    b.phase = .returned clientToken url time → Composed cfg url clientToken
  usable : ∀ b ∈ st.builds, ∀ clientToken url time,
    b.phase = .returned clientToken url time → Usable cfg st b clientToken time →
      resolveClientUserID cfg mac st clientToken = .accepted b.userID
  owned : ∀ b ∈ st.builds, ∀ clientToken url time,
    b.phase = .returned clientToken url time → ∀ r ∈ st.resolves, r.clientToken = clientToken →
      ∀ userID, r.phase = .accepted userID → userID = b.userID ∧ b.pair ∉ r.resetBefore
  once : cfg.showSubscribeMethod = 1 → Apart (fun r c => r.clientToken = c.clientToken →
    ∀ first second, r.phase = .accepted first → c.phase ≠ .accepted second) st.resolves

theorem Standing.usable (standing : Standing cfg mac st)
    (once : cfg.showSubscribeMethod = 1 → OneTime st) (member : b ∈ st.builds) {url : String}
    {time : Int} (phase : b.phase = .returned clientToken url time)
    (usable : Usable cfg st b clientToken time) :
    resolveClientUserID cfg mac st clientToken = .accepted b.userID := by
  obtain ⟨current, day, period⟩ := usable
  obtain ⟨known, -, stands⟩ := standing.builds b member
  rw [BuildStands, phase] at stands
  obtain ⟨stood, -, ⟨trimmed, nonblank⟩, timed⟩ := stands
  obtain ⟨⟨plain, some'⟩, positive, fits⟩ := standing.pairs.plain b.pair known
  have selected : st.users.find? (·.token = b.token) = some b.pair :=
    standing.pairs.find_token current
  by_cases method : cfg.showSubscribeMethod = 1
  · obtain ⟨fresh, free⟩ := day method
    have oneTime := once method
    rw [Stands, if_pos method] at stood
    obtain ⟨d, drawn, named, user⟩ := stood
    -- the entry is still there: what was taken is in someone's hands, or was reset
    have present : st.kv (.otpn clientToken) ≠ none := by
      rcases oneTime.shown b member clientToken url time phase with present | taken
      · exact present
      · rcases oneTime.taken clientToken taken with ⟨r, listed, same, took⟩ | ⟨p, reset, d', drawn',
          named', user'⟩
        · have held := ResolvePhase.held_of_took took
          rw [free r listed same] at held
          cases held
        · have one : d = d' := List.inj_on_of_nodup_map standing.clients drawn drawn'
            (named.trans named'.symm)
          have same : p = b.pair := standing.pairs.unique (List.mem_append_right _ reset) known
            (user'.symm.trans (one ▸ user))
          exact absurd (same ▸ reset) (standing.pairs.not_reset current)
    obtain ⟨entry, stored⟩ := Option.ne_none_iff_exists'.mp present
    have lasts := (oneTime.lasting clientToken entry stored).2 d drawn named
    have early := fresh d drawn named
    have value : entry.v = b.token := by
      obtain ⟨p, listed, same, names⟩ := standing.entries _ _ stored
      have own : Stands cfg mac st.drawn clientToken b.pair := by
        rw [Stands, if_pos method]
        exact ⟨d, drawn, named, user⟩
      rw [← same, standing.unique listed known names own]
      rfl
    have read : kvGet st.kv st.now (.otpn clientToken) = some b.token := by
      have later : st.now < entry.expireAt := by omega
      simp [kvGet, stored, value, show trimSpace b.token = b.token from plain,
        show b.token ≠ "" from some', later]
    simp [resolveClientUserID, resolveAlone, Subscribe.advanceResolve, trimmed, nonblank, method,
      read, show trimSpace b.token = b.token from plain, selected, Build.pair]
  · by_cases second : cfg.showSubscribeMethod = 2
    · have token := timed second
      have parts := readTimedToken_timedToken cfg mac time b.token positive fits
      rw [show b.pair.id = b.userID from rfl, ← token, ← period second] at parts
      have loaded : st.users.find? (·.id = b.userID) = some b.pair :=
        standing.pairs.find_id current
      cases read : kvGet st.kv st.now (.totp clientToken) with
      | some value =>
        obtain ⟨entry, stored, rfl, -⟩ := kvGet_some read
        obtain ⟨p, listed, same, names⟩ := standing.entries _ _ stored
        have value : entry.v = b.token := by
          rw [← same, standing.unique listed known names stood]
          rfl
        rw [value] at read
        simp [resolveClientUserID, resolveAlone, Subscribe.advanceResolve, trimmed, nonblank,
          second, read, show trimSpace b.token = b.token from plain, selected, Build.pair]
      | none =>
        have token' : trimSpace b.token = b.token := plain
        have some'' : b.token ≠ "" := some'
        simp [resolveClientUserID, resolveAlone, Subscribe.advanceResolve, trimmed, nonblank,
          second, read, parts, loaded, token', some'', Build.pair, Option.filter_some]
    · rw [Stands, if_neg method, if_neg second] at stood
      have token : clientToken = b.token := stood
      simp [resolveClientUserID, resolveAlone, Subscribe.advanceResolve, trimmed, nonblank, method,
        second, token ▸ selected, Build.pair]

theorem OneTime.accepted_once (once : OneTime st) :
    Apart (fun r c => r.clientToken = c.clientToken →
      ∀ first second, r.phase = .accepted first → c.phase ≠ .accepted second) st.resolves := by
  intro n m r c different found found' same first second one two
  refine once.exclusive n m r c different found found' same ?_ ?_
  · rw [one]
    rfl
  · rw [two]
    rfl

theorem Standing.owned (standing : Standing cfg mac st) (member : b ∈ st.builds) {url : String}
    {time : Int} (phase : b.phase = .returned clientToken url time) (listed : r ∈ st.resolves)
    (same : r.clientToken = clientToken) {userID : Int} (accepted : r.phase = .accepted userID) :
    userID = b.userID ∧ b.pair ∉ r.resetBefore := by
  obtain ⟨known, -, stands⟩ := standing.builds b member
  rw [BuildStands, phase] at stands
  have resolved := (standing.resolves r listed).2
  rw [ResolveStands, accepted] at resolved
  obtain ⟨p, known', rfl, never, names⟩ := resolved
  rw [same] at names
  obtain rfl := standing.unique known' known names stands.1
  exact ⟨rfl, never⟩

theorem Regular.single {act : Act} (regular : Regular cfg st act) : AdminSingle cfg act := by
  cases act with
  | startBuild side userID =>
    cases side with
    | user => trivial
    | admin => exact regular rfl
  | tick _ | reset _ _ | build _ _ _ _ | startResolve _ | resolve _ _ => trivial

/-- In a run of regular steps every shown URL is made of its parts and works for its user, a
one-time token once, and none after a reset. -/
theorem shown_urls_work (cfg : Config) (mac : Mac) (st : State) (acts : List Act)
    (allowed : Allowed cfg) (start : st.Start)
    (regular : Along (step cfg mac) (Regular cfg) st acts) :
    Works cfg mac (run (step cfg mac) st acts) := by
  obtain ⟨standing, once⟩ := run_invariant
    (I := fun s => Standing cfg mac s ∧ (cfg.showSubscribeMethod = 1 → OneTime s))
    (fun s act inv regular => ⟨inv.1.step allowed regular.single,
      fun method => (inv.2 method).step inv.1 method regular⟩)
    st acts ⟨Standing.start start, fun _ => OneTime.start start⟩ regular
  constructor
  case composed =>
    intro b member clientToken url time phase
    have stands := (standing.builds b member).2.2
    rw [BuildStands, phase] at stands
    exact stands.2.1
  case usable =>
    intro b member clientToken url time phase usable
    exact standing.usable once member phase usable
  case owned =>
    intro b member clientToken url time phase r listed same userID accepted
    exact standing.owned member phase listed same accepted
  case once => exact fun method => (once method).accepted_once

end

/-! ## Small runs -/

namespace Small

private theorem isSpace_of_visible {c : Char} (visible : 33 ≤ c.toNat ∧ c.toNat ≤ 122) :
    isSpace c = false := by
  simp [isSpace]
  omega

def mac : Mac where
  sum key message := String.ofList
    (Base64.encode key.toList ++ '!' :: (Base64.sextets message).map Base64.digit)
  distinct := by
    intro key key' message message' same
    have letters := congrArg String.toList same
    simp only [String.toList_ofList] at letters
    have text : ∀ letters : List Char, '!' ∉ Base64.encode letters := fun letters member =>
      absurd (Base64.mem_encode member).1 (by decide)
    have digits : ∀ l : List UInt8, '!' ∉ (Base64.sextets l).map Base64.digit := by
      intro l member
      obtain ⟨n, listed, equal⟩ := List.mem_map.mp member
      have visible := (Base64.digit_visible (Base64.sextets_lt l n listed)).1
      rw [equal] at visible
      exact absurd visible (by decide)
    obtain ⟨first, -, second⟩ :=
      (List.append_cons_inj_of_notMem (text key.toList) (digits message)).mp letters
    exact ⟨String.toList_inj.mp (Base64.encode_injective first), Base64.digits_injective second⟩
  nonempty := by
    intro key message blank
    have letters := congrArg String.toList blank
    simp at letters
  visible := by
    intro key message c member
    rw [String.toList_ofList] at member
    have between : 33 ≤ c.toNat ∧ c.toNat ≤ 122 := by
      rcases List.mem_append.mp member with letter | digit
      · obtain ⟨low, high⟩ := Base64.mem_encode letter
        exact ⟨(by decide : 33 ≤ ('-').toNat).trans (UInt32.le_iff_toNat_le.mp low),
          UInt32.le_iff_toNat_le.mp high⟩
      · rcases List.mem_cons.mp digit with rfl | digit
        · decide
        · obtain ⟨n, listed, rfl⟩ := List.mem_map.mp digit
          obtain ⟨low, high⟩ := Base64.digit_visible (Base64.sextets_lt message n listed)
          exact ⟨(by decide : 33 ≤ ('-').toNat).trans (UInt32.le_iff_toNat_le.mp low),
            UInt32.le_iff_toNat_le.mp high⟩
    exact isSpace_of_visible between

def config (subscribeURL : String) (method : Int) : Config where
  subscribeURL
  appURL := "https://app.test"
  subscribePath := "/s"
  subscribeTokenInPath := false
  showSubscribeMethod := method
  showSubscribeExpire := 5

def start : State where
  now := 100
  users := [⟨1, "alice"⟩]
  kv := fun _ => none
  builds := []
  resolves := []
  resets := []
  drawn := []
  taken := []

def looked : List Act := [.startBuild .admin 1, .build 0 false 0 "one"]

/-- The second write of a one-time token fails, and the user asks again. -/
def failed : List Act :=
  [.startBuild .user 1, .build 0 false 0 "one", .build 0 false 0 "two", .build 0 true 0 "two",
    .startBuild .user 1, .build 1 false 0 "two"]

def taken : List Act :=
  [.startBuild .user 1, .build 0 false 0 "one", .build 0 false 0 "two", .build 0 false 0 "two",
    .startResolve "one", .resolve 0 false, .resolve 0 false, .resolve 0 false, .resolve 0 false]

end Small

theorem Small.start_start : Small.start.Start :=
  ⟨by decide, by decide, by decide, rfl, rfl, rfl, rfl, rfl, rfl⟩

theorem shown_urls_work_taken :
    Works (Small.config "https://sub.test" 1) Small.mac
      (run (step (Small.config "https://sub.test" 1) Small.mac) Small.start Small.taken) :=
  shown_urls_work (Small.config "https://sub.test" 1) Small.mac Small.start Small.taken
    (by decide +kernel) Small.start_start (by decide +kernel)

/-- With two URLs in the setting, the admin's builder makes one base of both. -/
theorem list_shown_as_base :
    ¬∀ (cfg : Config) (mac : Mac) (st : State) (acts : List Act), Allowed cfg → st.Start →
      Works cfg mac (run (step cfg mac) st acts) := by
  intro works
  have work := works (Small.config "https://a.test,https://b.test" 0) Small.mac Small.start
    Small.looked (by decide +kernel) Small.start_start
  have composed := work.composed
    ⟨.admin, 1, "alice", .returned "alice" "https://a.test,https://b.test/s?token=alice" 100⟩
    (by decide +kernel) _ _ _ rfl
  unfold Composed at composed
  exact absurd composed (by decide +kernel)

/-- The second URL that is shown is dead. -/
example :
    let cfg := Small.config "https://sub.test" 1
    let st := run (step cfg Small.mac) Small.start Small.failed
    (st.builds.map (·.phase) = [.failed, .returned "one" "https://sub.test/s?token=one" 100]) ∧
      resolveClientUserID cfg Small.mac st "one" = .refused := by
  decide +kernel

end ForestPanel.Subscribe
