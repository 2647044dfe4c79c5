import ForestPanel.TrafficReset.CycleLaws

/-!
# A sweep a day

The marker of a user is the cycle that was seen last. As cycles go on from anchor to anchor,
a sweep finds another marker than its own on the day of an anchor and on no other day.
-/
namespace ForestPanel.TrafficReset

open Calendar Passport Relational

theorem trimSpace_cycleMarker (planID method start : Int) :
    trimSpace (cycleMarker planID method start) = cycleMarker planID method start := by
  apply trimSpace_of_visible
  have plan : ∀ c ∈ "plan:".toList, isSpace c = false := by decide
  have word : ∀ c ∈ "|method:".toList, isSpace c = false := by decide
  have word' : ∀ c ∈ "|start:".toList, isSpace c = false := by decide
  intro c member
  simp only [cycleMarker, String.toList_append, List.mem_append] at member
  rcases member with ((((here | here) | here) | here) | here) | here
  · exact plan c here
  · exact visible_formatInt planID c here
  · exact word c here
  · exact visible_formatInt method c here
  · exact word' c here
  · exact visible_formatInt start c here

private theorem formatInt_injective {a b : Int} (same : formatInt a = formatInt b) : a = b := by
  unfold formatInt at same
  exact Decimal.format_injective (by simpa using congrArg String.toList same)

theorem cycleMarker_inj {planID method start start' : Int}
    (same : cycleMarker planID method start = cycleMarker planID method start') :
    start = start' := by
  unfold cycleMarker at same
  exact formatInt_injective (String.append_right_inj _ |>.mp same)

theorem trafficResetCycleKVKey_inj {a b : Int}
    (same : trafficResetCycleKVKey a = trafficResetCycleKVKey b) : a = b := by
  unfold trafficResetCycleKVKey at same
  exact formatInt_injective (String.append_right_inj _ |>.mp same)

variable {item : TrafficResetCandidate} {cycle : TrafficResetCycle}

section

variable {zone : Zone} {resetTrafficMethod now : Int} {force : Bool}

private theorem kv_apply_of_ne (db : TrafficBase) {userID : Int} (other : userID ≠ item.userID) :
    (applyTrafficResetCandidate zone resetTrafficMethod db item now force).1.kv
      (trafficResetCycleKVKey userID) = db.kv (trafficResetCycleKVKey userID) := by
  have keys : trafficResetCycleKVKey userID ≠ trafficResetCycleKVKey item.userID :=
    fun same => other (trafficResetCycleKVKey_inj same)
  unfold applyTrafficResetCandidate
  dsimp only
  split
  · rfl
  · split
    · rfl
    · split
      · exact kvSet_of_ne keys
      · exact kvSet_of_ne keys

private theorem apply_congr {db db' : TrafficBase}
    (same : db'.kv (trafficResetCycleKVKey item.userID) =
      db.kv (trafficResetCycleKVKey item.userID)) :
    (applyTrafficResetCandidate zone resetTrafficMethod db' item now force).2 =
        (applyTrafficResetCandidate zone resetTrafficMethod db item now force).2 ∧
      (applyTrafficResetCandidate zone resetTrafficMethod db' item now force).1.kv
          (trafficResetCycleKVKey item.userID) =
        (applyTrafficResetCandidate zone resetTrafficMethod db item now force).1.kv
          (trafficResetCycleKVKey item.userID) := by
  have read : kvGet db'.kv now (trafficResetCycleKVKey item.userID) =
      kvGet db.kv now (trafficResetCycleKVKey item.userID) := kvGet_congr same
  unfold applyTrafficResetCandidate
  dsimp only
  rw [read]
  split
  · exact ⟨rfl, same⟩
  · split
    · exact ⟨rfl, same⟩
    · split
      · exact ⟨rfl, by simp [kvSet]⟩
      · exact ⟨rfl, by simp [kvSet]⟩

private theorem kv_applyAll_of_notMem (db : TrafficBase) {items : List TrafficResetCandidate}
    {userID : Int} (absent : userID ∉ items.map (·.userID)) :
    (applyAll zone resetTrafficMethod now force db items).1.kv (trafficResetCycleKVKey userID) =
      db.kv (trafficResetCycleKVKey userID) := by
  induction items generalizing db with
  | nil => rfl
  | cons item rest ih =>
    rw [List.map_cons, List.mem_cons, not_or] at absent
    rw [applyAll]
    dsimp only
    rw [ih _ absent.2, kv_apply_of_ne db absent.1]

private theorem applyAll_of_mem (db : TrafficBase) {items : List TrafficResetCandidate}
    (distinct : (items.map (·.userID)).Nodup) (member : item ∈ items) :
    (applyAll zone resetTrafficMethod now force db items).2.find?
        (fun p => p.1.userID = item.userID) =
      some (item, (applyTrafficResetCandidate zone resetTrafficMethod db item now force).2) ∧
    (applyAll zone resetTrafficMethod now force db items).1.kv
        (trafficResetCycleKVKey item.userID) =
      (applyTrafficResetCandidate zone resetTrafficMethod db item now force).1.kv
        (trafficResetCycleKVKey item.userID) := by
  induction items generalizing db with
  | nil => exact nomatch member
  | cons first rest ih =>
    rw [List.map_cons, List.nodup_cons] at distinct
    rw [applyAll]
    dsimp only
    by_cases same : first.userID = item.userID
    · have here : first = item := by
        rcases List.mem_cons.mp member with equal | later
        · exact equal.symm
        · exact absurd (List.mem_map.mpr ⟨item, later, same.symm⟩) distinct.1
      subst here
      rw [List.find?_cons_of_pos (by simp)]
      exact ⟨rfl, kv_applyAll_of_notMem _ distinct.1⟩
    · have later : item ∈ rest := by
        rcases List.mem_cons.mp member with rfl | later
        · exact absurd rfl same
        · exact later
      obtain ⟨found, marked⟩ := ih
        (applyTrafficResetCandidate zone resetTrafficMethod db first now force).1 distinct.2 later
      obtain ⟨result, marker⟩ := @apply_congr item zone resetTrafficMethod now force db
        (applyTrafficResetCandidate zone resetTrafficMethod db first now force).1
        (kv_apply_of_ne db fun equal => same equal.symm)
      rw [List.find?_cons_of_neg (by simpa using same), found, marked, result, marker]
      exact ⟨rfl, rfl⟩

end

private theorem userID_candidateOf {db : TrafficBase} {now : Int} {user : TrafficUser}
    (listed : candidateOf db now user = some item) : item.userID = user.id := by
  simp only [candidateOf, Option.bind_eq_bind, Option.bind_eq_some_iff, Option.some.injEq] at listed
  obtain ⟨planID, -, plan, -, expiredAt, -, rfl⟩ := listed
  rfl

theorem candidates_distinct (db : TrafficBase) (now : Int) :
    ((candidates db now).map (·.userID)).Nodup := by
  have same := (List.perm_insertionSort (fun a b : TrafficResetCandidate => a.userID ≤ b.userID)
    (db.users.rows.filterMap (candidateOf db now))).map (·.userID)
  refine (same.nodup_iff).mpr ?_
  refine db.users.keyed.sublist ?_
  generalize db.users.rows = rows
  induction rows with
  | nil => exact List.Sublist.refl _
  | cons user rows ih =>
    cases listed : candidateOf db now user with
    | none =>
      rw [List.filterMap_cons_none listed, List.map_cons]
      exact ih.cons _
    | some item =>
      rw [List.filterMap_cons_some listed, List.map_cons, List.map_cons, userID_candidateOf listed]
      exact ih.cons_cons _

/-- A sweep at the time `now`, with the database it finds. -/
structure Sweep where
  base : TrafficBase
  now : Int

structure Subscription where
  userID : Int
  planID : Int
  method : Int
  expiredAt : Int

section

variable (zone : Zone) (resetTrafficMethod : Int)

def Sweep.after (s : Sweep) : TrafficBase :=
  (runTrafficResetSweepAt zone resetTrafficMethod s.base s.now false).1

def Sweep.outcome (s : Sweep) (userID : Int) : Option TrafficResetApplyResult :=
  ((applyAll zone resetTrafficMethod s.now false s.base (candidates s.base s.now)).2.find?
    fun p => p.1.userID = userID).map (·.2)

/-- The sweep of the next day. In between the user's marker is left alone. -/
def NextDay (userID : Int) (s next : Sweep) : Prop :=
  zone.day next.now = zone.day s.now + 1 ∧
    next.base.kv (trafficResetCycleKVKey userID) =
      (s.after zone resetTrafficMethod).kv (trafficResetCycleKVKey userID)

/-- The user is there with this subscription. -/
def Subscription.Listed (sub : Subscription) (s : Sweep) : Prop :=
  ∃ item ∈ candidates s.base s.now, item.userID = sub.userID ∧ item.planID = sub.planID ∧
    item.planResetTrafficMethod.getD resetTrafficMethod = sub.method ∧
    item.expiredAt = sub.expiredAt

/-- There is traffic to reset, and the subscription is older than the cycle. -/
def TrafficResetCandidate.Due (item : TrafficResetCandidate) (start : Int) : Prop :=
  item.startedAt < start ∧ (0 < item.u ∨ 0 < item.d)

end

instance (item : TrafficResetCandidate) (start : Int) : Decidable (item.Due start) :=
  inferInstanceAs (Decidable (_ ∧ _))

private theorem start_isSome (zone : Zone) (method expiredAt now : Int) :
    (trafficResetStart zone method expiredAt now).isSome = true ↔
      method = 0 ∨ method = 1 ∨ method = 3 ∨ method = 4 := by
  unfold trafficResetStart
  split <;> simp_all

private theorem cycle_isSome (zone : Zone) (planID method expiredAt now now' : Int) :
    (trafficResetCurrentCycle zone planID method expiredAt now).isSome =
      (trafficResetCurrentCycle zone planID method expiredAt now').isSome := by
  unfold trafficResetCurrentCycle
  split
  · rfl
  · rw [Option.isSome_map, Option.isSome_map, Bool.eq_iff_iff, start_isSome, start_isSome]

private theorem cycle_eq_some {zone : Zone} {planID method expiredAt now : Int}
    (current : trafficResetCurrentCycle zone planID method expiredAt now = some cycle) :
    trafficResetStart zone method expiredAt now = some cycle.startAt ∧
      cycle.marker = cycleMarker planID method cycle.startAt := by
  unfold trafficResetCurrentCycle at current
  split at current
  · cases current
  · obtain ⟨start, started, rfl⟩ := Option.map_eq_some_iff.mp current
    exact ⟨started, rfl⟩

section

variable {zone : Zone} {resetTrafficMethod : Int} {sub : Subscription} {s : Sweep}

private theorem outcome_of_none (listed : sub.Listed resetTrafficMethod s)
    (never : trafficResetCurrentCycle zone sub.planID sub.method sub.expiredAt s.now = none) :
    s.outcome zone resetTrafficMethod sub.userID = some .skipped := by
  obtain ⟨item, member, user, plan, method, expiry⟩ := listed
  have found := (@applyAll_of_mem item zone resetTrafficMethod s.now false s.base _
    (candidates_distinct s.base s.now) member).1
  rw [Sweep.outcome, ← user, found, Option.map_some]
  unfold applyTrafficResetCandidate
  dsimp only
  rw [method, plan, expiry, never]

private theorem outcome_of_cycle (member : item ∈ candidates s.base s.now)
    (current : trafficResetCurrentCycle zone item.planID
      (item.planResetTrafficMethod.getD resetTrafficMethod) item.expiredAt s.now = some cycle) :
    if (kvGet s.base.kv s.now (trafficResetCycleKVKey item.userID)).map trimSpace =
        some cycle.marker then
      s.outcome zone resetTrafficMethod item.userID = some .skipped ∧
        (s.after zone resetTrafficMethod).kv (trafficResetCycleKVKey item.userID) =
          s.base.kv (trafficResetCycleKVKey item.userID)
    else
      s.outcome zone resetTrafficMethod item.userID =
          some (if item.Due cycle.startAt then .reset else .markedOnly) ∧
        (s.after zone resetTrafficMethod).kv (trafficResetCycleKVKey item.userID) =
          some ⟨cycle.marker, s.now + trafficResetMarkerTTLSeconds⟩ := by
  obtain ⟨found, marked⟩ := @applyAll_of_mem item zone resetTrafficMethod s.now false s.base _
    (candidates_distinct s.base s.now) member
  have after : (s.after zone resetTrafficMethod).kv (trafficResetCycleKVKey item.userID) = _ :=
    marked
  rw [after, Sweep.outcome, found, Option.map_some]
  unfold applyTrafficResetCandidate
  dsimp only
  rw [current]
  dsimp only
  split
  · exact ⟨rfl, rfl⟩
  · have due : (false = true ∨ item.startedAt < cycle.startAt) ∧ (0 < item.u ∨ 0 < item.d) ↔
        item.Due cycle.startAt := by simp [TrafficResetCandidate.Due]
    by_cases old : item.Due cycle.startAt
    · rw [if_pos (due.mpr old), if_pos old]
      exact ⟨rfl, kvSet_self (by decide)⟩
    · rw [if_neg fun h => old (due.mp h), if_neg old]
      exact ⟨rfl, kvSet_self (by decide)⟩

private def Marked (sub : Subscription) (kv : Kv) (start : Int) : Prop :=
  ∃ expireAt, kv (trafficResetCycleKVKey sub.userID) =
      some ⟨cycleMarker sub.planID sub.method start, expireAt⟩ ∧
    start + trafficResetMarkerTTLSeconds ≤ expireAt

private theorem marked_of_treated (listed : sub.Listed resetTrafficMethod s)
    (clear : ¬(sub.method = 1 ∧ PastFebruary zone sub.expiredAt s.now))
    (treated : s.outcome zone resetTrafficMethod sub.userID ≠ some .skipped) :
    ∃ k, anchorDay zone sub.method sub.expiredAt k ≤ zone.day s.now ∧
      zone.day s.now < anchorDay zone sub.method sub.expiredAt (k + 1) ∧
      Marked sub (s.after zone resetTrafficMethod).kv
        (zone.midnight (anchorDay zone sub.method sub.expiredAt k)) := by
  cases current : trafficResetCurrentCycle zone sub.planID sub.method sub.expiredAt s.now with
  | none => exact absurd (outcome_of_none listed current) treated
  | some cycle =>
    obtain ⟨item, member, user, plan, method, expiry⟩ := listed
    obtain ⟨started, marker⟩ := cycle_eq_some current
    obtain ⟨k, start, come, ahead⟩ := (start_brackets started).mpr clear
    have spec := outcome_of_cycle member (by rw [plan, method, expiry]; exact current)
    rw [user] at spec
    refine ⟨k, ?_, (zone.lt_midnight_iff _ _).mp ahead, ?_⟩
    · rw [start] at come
      exact (zone.midnight_le_iff _ _).mp come
    · split at spec
      · exact absurd spec.1 treated
      · refine ⟨s.now + trafficResetMarkerTTLSeconds, ?_, ?_⟩
        · rw [spec.2, marker, start]
        · rw [start] at come
          omega

private theorem kvGet_marked {kv : Kv} {k now : Int}
    (marked : Marked sub kv (zone.midnight (anchorDay zone sub.method sub.expiredAt k)))
    (ahead : zone.day now < anchorDay zone sub.method sub.expiredAt (k + 1)) :
    (kvGet kv now (trafficResetCycleKVKey sub.userID)).map trimSpace =
      some (cycleMarker sub.planID sub.method
        (zone.midnight (anchorDay zone sub.method sub.expiredAt k))) := by
  obtain ⟨expireAt, row, lasts⟩ := marked
  have near := (anchorDay_succ zone sub.method sub.expiredAt k).2
  have early := (zone.lt_midnight_iff _ _).mpr ahead
  have live : now < expireAt := by
    unfold Zone.midnight trafficResetMarkerTTLSeconds at *
    omega
  have read : kvGet kv now (trafficResetCycleKVKey sub.userID) =
      some (cycleMarker sub.planID sub.method
        (zone.midnight (anchorDay zone sub.method sub.expiredAt k))) := by
    rw [kvGet_eq_some]
    refine ⟨_, row, ?_, rfl⟩
    simp [KvRow.isLive, live]
  rw [read, Option.map_some, trimSpace_cycleMarker]

private theorem kvGet_other {kv : Kv} {start other now : Int} (marked : Marked sub kv start)
    (different : start ≠ other) :
    (kvGet kv now (trafficResetCycleKVKey sub.userID)).map trimSpace ≠
      some (cycleMarker sub.planID sub.method other) := by
  obtain ⟨expireAt, row, -⟩ := marked
  intro same
  obtain ⟨value, read, trimmed⟩ := Option.map_eq_some_iff.mp same
  obtain ⟨stored, found, -, rfl⟩ := kvGet_eq_some.mp read
  rw [row] at found
  obtain rfl := Option.some.inj found
  rw [trimSpace_cycleMarker] at trimmed
  exact different (cycleMarker_inj trimmed)

end

/-- In every cycle a user is treated by the sweep on the day of the anchor and by no other,
and reset by it when there is something to reset. -/
structure OncePerCycle (zone : Zone) (resetTrafficMethod : Int) (sub : Subscription)
    (s : Sweep) : Prop where
  once : ∀ k, anchorDay zone sub.method sub.expiredAt k ≤ zone.day s.now →
    zone.day s.now < anchorDay zone sub.method sub.expiredAt (k + 1) →
    (s.outcome zone resetTrafficMethod sub.userID ≠ some .skipped ↔
      zone.day s.now = anchorDay zone sub.method sub.expiredAt k)
  resets : ∀ item ∈ candidates s.base s.now, item.userID = sub.userID →
    (s.outcome zone resetTrafficMethod sub.userID = some .reset ↔
      s.outcome zone resetTrafficMethod sub.userID ≠ some .skipped ∧
        item.Due (zone.midnight (zone.day s.now)))

section

variable {zone : Zone} {resetTrafficMethod : Int} {sub : Subscription}

private theorem next_sweep {s next : Sweep} {k : Int}
    (follows : NextDay zone resetTrafficMethod sub.userID s next)
    (come : anchorDay zone sub.method sub.expiredAt k ≤ zone.day s.now)
    (ahead : zone.day s.now < anchorDay zone sub.method sub.expiredAt (k + 1))
    (marked : Marked sub (s.after zone resetTrafficMethod).kv
      (zone.midnight (anchorDay zone sub.method sub.expiredAt k)))
    (listed : sub.Listed resetTrafficMethod next)
    (clear : ¬(sub.method = 1 ∧ PastFebruary zone sub.expiredAt next.now))
    (current : trafficResetCurrentCycle zone sub.planID sub.method sub.expiredAt next.now =
      some cycle) :
    OncePerCycle zone resetTrafficMethod sub next ∧
      ∃ k, anchorDay zone sub.method sub.expiredAt k ≤ zone.day next.now ∧
        zone.day next.now < anchorDay zone sub.method sub.expiredAt (k + 1) ∧
        Marked sub (next.after zone resetTrafficMethod).kv
          (zone.midnight (anchorDay zone sub.method sub.expiredAt k)) := by
  obtain ⟨day, same⟩ := follows
  obtain ⟨item, member, user, plan, method, expiry⟩ := listed
  obtain ⟨started, marker⟩ := cycle_eq_some current
  obtain ⟨j, start, come', ahead'⟩ := (start_brackets started).mpr clear
  rw [start, zone.midnight_le_iff] at come'
  rw [zone.lt_midnight_iff] at ahead'
  have marked' : Marked sub next.base.kv
      (zone.midnight (anchorDay zone sub.method sub.expiredAt k)) := by
    unfold Marked
    rw [same]
    exact marked
  have spec := outcome_of_cycle member (by rw [plan, method, expiry]; exact current)
  have own : ∀ other ∈ candidates next.base next.now, other.userID = sub.userID →
      other = item := by
    intro other listed equal
    exact List.inj_on_of_nodup_map (candidates_distinct next.base next.now) listed member
      (equal.trans user.symm)
  rw [user] at spec
  by_cases later : zone.day next.now < anchorDay zone sub.method sub.expiredAt (k + 1)
  · -- the cycle goes on, and its marker is there
    have equal : j = k := anchor_unique come' ahead' (by omega) later
    subst equal
    rw [if_pos (by rw [kvGet_marked marked' later, marker, start])] at spec
    constructor
    · constructor
      case once =>
        intro i before after
        obtain rfl := anchor_unique before after come' ahead'
        simp only [spec.1, ne_eq, not_true_eq_false, false_iff]
        omega
      case resets =>
        intro other listed equal
        simp [spec.1]
    · refine ⟨j, come', ahead', ?_⟩
      unfold Marked
      rw [spec.2]
      exact marked'
  · -- the day of the next anchor
    have anchor : zone.day next.now = anchorDay zone sub.method sub.expiredAt (k + 1) := by omega
    have next' := (anchorDay_succ zone sub.method sub.expiredAt (k + 1)).1
    have equal : j = k + 1 := anchor_unique come' ahead' (by omega) (by omega)
    subst equal
    have moved : zone.midnight (anchorDay zone sub.method sub.expiredAt k) ≠
        zone.midnight (anchorDay zone sub.method sub.expiredAt (k + 1)) := by
      have order := (anchorDay_succ zone sub.method sub.expiredAt k).1
      unfold Zone.midnight
      omega
    rw [if_neg (by rw [marker, start]; exact kvGet_other marked' moved)] at spec
    constructor
    · constructor
      case once =>
        intro i before after
        obtain rfl := anchor_unique before after come' ahead'
        rw [spec.1]
        constructor
        · exact fun _ => anchor
        · intro _
          split <;> simp
      case resets =>
        intro other listed equal
        obtain rfl := own other listed equal
        rw [spec.1, anchor, ← start]
        split
        next due => simp [due]
        next early => simp [early]
    · refine ⟨k + 1, come', ahead', next.now + trafficResetMarkerTTLSeconds, ?_, ?_⟩
      · rw [spec.2, marker, start]
      · have begun := (zone.midnight_le_iff _ _).mpr come'
        omega

theorem sweeps_oncePerCycle {first : Sweep} {rest : List Sweep}
    (daily : (first :: rest).IsChain (NextDay zone resetTrafficMethod sub.userID))
    (listed : ∀ s ∈ first :: rest, sub.Listed resetTrafficMethod s)
    (clear : ∀ s ∈ first :: rest, ¬(sub.method = 1 ∧ PastFebruary zone sub.expiredAt s.now))
    (treated : first.outcome zone resetTrafficMethod sub.userID ≠ some .skipped) :
    ∀ s ∈ rest, OncePerCycle zone resetTrafficMethod sub s := by
  have current : ∀ now,
      (trafficResetCurrentCycle zone sub.planID sub.method sub.expiredAt now).isSome = true := by
    intro now
    rw [cycle_isSome zone sub.planID sub.method sub.expiredAt now first.now,
      Option.isSome_iff_ne_none]
    exact fun never => treated (outcome_of_none (listed first List.mem_cons_self) never)
  obtain ⟨k, come, ahead, marked⟩ := marked_of_treated (listed first List.mem_cons_self)
    (clear first List.mem_cons_self) treated
  clear treated
  induction rest generalizing first k with
  | nil => exact fun s member => nomatch member
  | cons next rest ih =>
    obtain ⟨follows, later⟩ := List.isChain_cons_cons.mp daily
    obtain ⟨cycle, found⟩ := Option.isSome_iff_exists.mp (current next.now)
    have here : next ∈ first :: next :: rest := List.mem_cons_of_mem _ List.mem_cons_self
    obtain ⟨once, k', come', ahead', marked'⟩ :=
      next_sweep follows come ahead marked (listed next here) (clear next here) found
    intro s member
    rcases List.mem_cons.mp member with rfl | after
    · exact once
    · exact ih later (fun s member => listed s (List.mem_cons_of_mem _ member))
        (fun s member => clear s (List.mem_cons_of_mem _ member)) k' come' ahead' marked' s after

end

end ForestPanel.TrafficReset
