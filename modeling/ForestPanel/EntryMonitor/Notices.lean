import ForestPanel.ClientEntry.Normal
import ForestPanel.Lib.Transition
import ForestPanel.EntryMonitor.Reports

/-!
# The notices of an address

The notices that heartbeats and reports of any probes leave about one address.
The invariant ties the last of them to the states: it says that the address is
down exactly when some probe holds one of its targets down.
-/
namespace ForestPanel.EntryMonitor

open Relational ClientEntry Outcome Transition

variable {lib : EntryLibrary} {key : String} {db : MonitorBase}

/-! ## Steps -/

inductive Act
  | heartbeat (probeID now offlineSec : Int)
  | report (probeID : Int) (results : List DNSProbeResult) (now : Int)

def step (lib : EntryLibrary) (db : MonitorBase) : Act → MonitorBase
  | .heartbeat probeID now offlineSec => commit db (heartbeatDNSProbe db probeID now offlineSec)
  | .report probeID results now =>
    commit db (Prod.snd <$> reportClientEntryProbeResults lib db probeID results now)

/-! ## What is claimed -/

/-- The notices about the availability of the address, the oldest first. -/
def notices (key : String) (db : MonitorBase) : List EventType :=
  (db.events.filter fun e => e.addressKey = some key && e.eventType.availability).map (·.eventType)

/-- Between two notices that the address is down there is one that it is back. -/
def Alternates (l : List EventType) : Prop :=
  ∀ before mid later, l = before ++ .down :: (mid ++ .down :: later) → .recovered ∈ mid

def onAddress (lib : EntryLibrary) (key : String) (db : MonitorBase) (targetID : Int) : Prop :=
  ∃ t ∈ db.targets, t.id = targetID ∧ t.address lib = some key

/-- Some probe has confirmed that a target of the address is down. -/
def Down (lib : EntryLibrary) (key : String) (db : MonitorBase) : Prop :=
  ∃ s ∈ db.states, s.lastSuccess = some false ∧ onAddress lib key db s.targetID

def OnlineAt (db : MonitorBase) (probeID now : Int) : Prop :=
  ∃ p ∈ db.probes, p.id = probeID ∧ p.enabled = 1 ∧
    dnsProbeHeartbeatFresh p.lastHeartbeatAt now defaultProbeOfflineSec = true

def FreshAt (db : MonitorBase) (s : State) (now : Int) : Prop :=
  ∃ t ∈ db.targets, t.id = s.targetID ∧ ∃ m ∈ db.monitors, m.id = t.monitorID ∧
    clientEntryMonitorStateFresh s.lastReportedAt now m.checkIntervalSec m.tcpTimeoutMS = true

/-- Every online probe has a fresh state that says up for every watched target of the
address. -/
def AllUp (lib : EntryLibrary) (key : String) (db : MonitorBase) (now : Int) : Prop :=
  ∀ p ∈ db.probes, OnlineAt db p.id now → ∀ t ∈ db.targets, t.address lib = some key →
    (watching db t).isSome → ∃ s ∈ db.states, s.key = (t.id, p.id) ∧
      s.lastSuccess = some true ∧ FreshAt db s now

/-- No probe that has confirmed the address down has fallen silent. -/
def Heard (lib : EntryLibrary) (key : String) (db : MonitorBase) (now : Int) : Prop :=
  ∀ s ∈ db.states, s.lastSuccess = some false → onAddress lib key db s.targetID →
    OnlineAt db s.probeID now ∧ FreshAt db s now

/-- A step that finds no probe silent that has confirmed the address down. -/
def Steady (lib : EntryLibrary) (key : String) (db : MonitorBase) : Act → Prop
  | .heartbeat probeID now offlineSec =>
    ∀ s ∈ db.states, s.lastSuccess = some false → onAddress lib key db s.targetID →
      s.probeID = probeID → ∀ p ∈ db.probes, p.id = probeID →
        dnsProbeHeartbeatFresh p.lastHeartbeatAt now offlineSec = true
  | .report _ _ now => Heard lib key db now

/-- The statement that looks for other targets of the address knows them by their hosts. -/
def Recognized (lib : EntryLibrary) (key : String) (db : MonitorBase) : Prop :=
  ∀ t ∈ db.targets, statementAddress lib t.host t.port = key ↔ t.address lib = some key

instance (targetID : Int) : Decidable (onAddress lib key db targetID) :=
  inferInstanceAs (Decidable (∃ t ∈ db.targets, _))

instance (probeID now : Int) : Decidable (OnlineAt db probeID now) :=
  inferInstanceAs (Decidable (∃ p ∈ db.probes, _))

instance (s : State) (now : Int) : Decidable (FreshAt db s now) :=
  inferInstanceAs (Decidable (∃ t ∈ db.targets, _))

instance (now : Int) : Decidable (AllUp lib key db now) :=
  inferInstanceAs (Decidable (∀ p ∈ db.probes, _))

instance (now : Int) : Decidable (Heard lib key db now) :=
  inferInstanceAs (Decidable (∀ s ∈ db.states, _))

instance (act : Act) : Decidable (Steady lib key db act) := by
  cases act with
  | heartbeat probeID now offlineSec => exact inferInstanceAs (Decidable (∀ s ∈ db.states, _))
  | report probeID results now => exact inferInstanceAs (Decidable (Heard lib key db now))

instance : Decidable (Recognized lib key db) :=
  inferInstanceAs (Decidable (∀ t ∈ db.targets, _))

/-! ## The invariant -/

def Watched (db : MonitorBase) (s : State) : Prop :=
  ∃ t ∈ db.targets, t.id = s.targetID ∧ (watching db t).isSome ∧
    ∃ p ∈ db.probes, p.id = s.probeID ∧ p.enabled = 1

structure Inv (lib : EntryLibrary) (key : String) (db : MonitorBase) : Prop where
  recognized : Recognized lib key db
  watched : ∀ s ∈ db.states, Watched db s
  standing : (notices key db).getLast? = some .down ↔ Down lib key db
  alternates : Alternates (notices key db)

/-! ### Lists of notices -/

theorem alternates_nil : Alternates [] := by
  intro before mid later same
  cases before <;> cases same

theorem notice_cases {e : EventType} (member : e ∈ notices key db) : e = .down ∨ e = .recovered := by
  obtain ⟨event, listed, rfl⟩ := List.mem_map.mp member
  have available := (List.mem_filter.mp listed).2
  rw [Bool.and_eq_true] at available
  cases type : event.eventType with
  | down => exact Or.inl rfl
  | recovered => exact Or.inr rfl
  | _ =>
    rw [type] at available
    cases available.2

theorem Alternates.snoc {l : List EventType} (h : Alternates l)
    (only : ∀ e ∈ l, e = .down ∨ e = .recovered) {e : EventType}
    (new : e = .down → l.getLast? ≠ some .down) : Alternates (l ++ [e]) := by
  intro before mid later same
  cases later using List.reverseRecOn with
  | nil =>
    -- the second of the two is the new one
    have split : l ++ [e] = (before ++ .down :: mid) ++ [.down] := by simpa using same
    obtain ⟨rfl, last⟩ := List.append_inj' split rfl
    have fresh := new (List.singleton_inj.mp last)
    cases mid using List.reverseRecOn with
    | nil => exact absurd (by simp) fresh
    | append_singleton start final _ =>
      have old : final = .down ∨ final = .recovered := only final (by simp)
      rcases old with rfl | rfl
      · exact absurd (by simp [List.getLast?_append, List.getLast?_cons]) fresh
      · exact List.mem_append_right _ (List.mem_singleton_self _)
  | append_singleton start final _ =>
    have split : l ++ [e] = (before ++ .down :: (mid ++ .down :: start)) ++ [final] := by
      simpa using same
    exact h before mid start (List.append_inj' split rfl).1

/-! ## One result -/

structure Frame (db db' : MonitorBase) : Prop where
  rules : db'.rules = db.rules
  probes : db'.probes = db.probes
  monitors : db'.monitors = db.monitors
  targets : db'.targets = db.targets

theorem Frame.refl (db : MonitorBase) : Frame db db := ⟨rfl, rfl, rfl, rfl⟩

theorem Frame.trans {a b c : MonitorBase} (first : Frame a b) (second : Frame b c) : Frame a c where
  rules := second.rules.trans first.rules
  probes := second.probes.trans first.probes
  monitors := second.monitors.trans first.monitors
  targets := second.targets.trans first.targets

variable {db' : MonitorBase} {probeID : Int}

theorem Frame.watching (frame : Frame db db') (t : Target) : watching db' t = watching db t := by
  unfold EntryMonitor.watching
  rw [frame.monitors, frame.rules]

/-- Operations come and go, and nothing else changes. -/
structure OperationsOnly (db db' : MonitorBase) : Prop extends Frame db db' where
  states : db'.states = db.states
  events : db'.events = db.events
  inbox : db'.inbox = db.inbox

theorem OperationsOnly.refl (db : MonitorBase) : OperationsOnly db db := ⟨.refl db, rfl, rfl, rfl⟩

theorem insertOperation_frame (db : MonitorBase) (new : Operation) :
    OperationsOnly db (insertOperation db new) := by
  unfold insertOperation
  split
  · split
    · exact .refl db
    · exact ⟨⟨rfl, rfl, rfl, rfl⟩, rfl, rfl, rfl⟩
  · split
    · exact ⟨⟨rfl, rfl, rfl, rfl⟩, rfl, rfl, rfl⟩
    · exact .refl db

theorem enqueue_frame (db : MonitorBase) (s : Snapshot) (probeID inboxID now : Int) :
    OperationsOnly db (enqueueClientEntryAutoSplit db s probeID inboxID now) := by
  unfold enqueueClientEntryAutoSplit
  split
  · exact .refl db
  split
  · exact .refl db
  split
  · exact .refl db
  · exact insertOperation_frame ..

theorem cancel_frame (db : MonitorBase) (s : Snapshot) (now : Int) :
    OperationsOnly db (cancelClientEntryAutoSplitOnRecovery db s now) := by
  unfold cancelClientEntryAutoSplitOnRecovery
  split
  · exact .refl db
  split
  · exact .refl db
  · exact ⟨⟨rfl, rfl, rfl, rfl⟩, rfl, rfl, rfl⟩

theorem otherDown_congr (frame : Frame db db') (states : db'.states = db.states) (address : String)
    (targetID probeID now offline : Int) :
    clientEntryMonitorAddressHasOtherDown lib db' address targetID probeID now offline =
      clientEntryMonitorAddressHasOtherDown lib db address targetID probeID now offline := by
  simp only [clientEntryMonitorAddressHasOtherDown, states, frame.probes, frame.targets,
    frame.watching]

theorem shouldEnqueue_congr (lib : EntryLibrary) (only : OperationsOnly db db') (s : Snapshot)
    (now : Int) : shouldEnqueue lib db' s now = shouldEnqueue lib db s now := by
  unfold shouldEnqueue
  cases s.target.address lib with
  | none => rfl
  | some address => exact congrArg (!·) (otherDown_congr only.toFrame only.states ..)

def noted (lib : EntryLibrary) (db : MonitorBase) (s : Snapshot) (now : Int) :
    Option AvailabilityTransition → List Event
  | none => db.events
  | some transition =>
    if shouldEnqueue lib db s now = true then db.events ++ [transitionEvent lib s transition now]
    else db.events

theorem handleTransition_spec (db : MonitorBase) (s : Snapshot) (inboxID now : Int)
    (change : Option AvailabilityTransition) :
    Frame db (handleTransition lib db s inboxID now change) ∧
      (handleTransition lib db s inboxID now change).states = db.states ∧
      (handleTransition lib db s inboxID now change).events = noted lib db s now change := by
  have told : ∀ transition, Frame db (announce lib db s transition now) ∧
      (announce lib db s transition now).states = db.states ∧
      (announce lib db s transition now).events =
        if shouldEnqueue lib db s now = true then
          db.events ++ [transitionEvent lib s transition now]
        else db.events := by
    intro transition
    unfold announce
    split <;> exact ⟨⟨rfl, rfl, rfl, rfl⟩, rfl, rfl⟩
  cases change with
  | none => exact ⟨.refl db, rfl, rfl⟩
  | some transition =>
    cases transition with
    | down =>
      have queued := enqueue_frame (announce lib db s .down now) s s.probe.id inboxID now
      obtain ⟨frame, states, events⟩ := told .down
      dsimp only [handleTransition, noted]
      generalize enqueueClientEntryAutoSplit _ s s.probe.id inboxID now = last at queued ⊢
      exact ⟨frame.trans queued.toFrame, queued.states.trans states, queued.events.trans events⟩
    | recovered =>
      have cancelled := cancel_frame db s now
      have same := shouldEnqueue_congr lib cancelled s now
      dsimp only [handleTransition, noted]
      generalize cancelClientEntryAutoSplitOnRecovery db s now = first at cancelled same ⊢
      unfold announce
      rw [same]
      split
      · exact ⟨⟨cancelled.rules, cancelled.probes, cancelled.monitors, cancelled.targets⟩,
          cancelled.states, congrArg (· ++ _) cancelled.events⟩
      · exact ⟨cancelled.toFrame, cancelled.states, cancelled.events⟩

theorem snapshot_rows {targetID : Int} {s : Snapshot}
    (loaded : loadClientEntryProbeTargetSnapshot db probeID targetID = some s) :
    s.target ∈ db.targets ∧ watching db s.target = some (s.monitor, s.policy) ∧
      s.probe ∈ db.probes ∧ s.probe.id = probeID ∧ s.probe.enabled = 1 := by
  simp only [loadClientEntryProbeTargetSnapshot, bind, Option.bind_eq_some_iff, pure,
    Option.some.injEq, Option.filter_eq_some_iff, decide_eq_true_eq, Prod.exists] at loaded
  obtain ⟨target, found, monitor, policy, watched, probe, ⟨known, enabled⟩, rfl⟩ := loaded
  exact ⟨Table.mem_of_find? found, watched, Table.mem_of_find? known, Table.key_of_find? known,
    enabled⟩

theorem watching_rows {t : Target} {m : Monitor} {p : PolicyRow}
    (watched : watching db t = some (m, p)) : m ∈ db.monitors ∧ m.id = t.monitorID := by
  simp only [watching, bind, Option.bind_eq_some_iff, pure, Option.some.injEq, Prod.mk.injEq,
    Option.filter_eq_some_iff, decide_eq_true_eq] at watched
  obtain ⟨monitor, ⟨found, -⟩, policy, -, rfl, rfl⟩ := watched
  exact ⟨Table.mem_of_find? found, Table.key_of_find? found⟩

/-- What a change says about the confirmed states before and after it. -/
def Confirms (previous confirmed : Option Bool) : Option AvailabilityTransition → Prop
  | none => confirmed = some false ↔ previous = some false
  | some .down => confirmed = some false ∧ previous ≠ some false
  | some .recovered => confirmed = some true ∧ previous = some false

theorem confirm_change (previous : Option Bool) (success : Bool)
    (successStreak failureStreak failureThreshold successThreshold : Int) :
    let next := confirmClientEntryMonitorAvailability previous success successStreak failureStreak
      failureThreshold successThreshold
    Confirms previous next.1 next.2 := by
  intro next
  unfold next confirmClientEntryMonitorAvailability
  cases success with
  | true =>
    simp only [if_true]
    split
    · exact Iff.rfl
    next early =>
      split
      next lost => exact ⟨rfl, lost⟩
      next held => exact ⟨nofun, fun lost => absurd lost held⟩
  | false =>
    simp only [Bool.false_eq_true, if_false]
    split
    · exact Iff.rfl
    · split
      next held =>
        refine ⟨rfl, ?_⟩
        rcases held with rfl | rfl <;> nofun
      next lost =>
        rcases previous with _ | _ | _
        · exact absurd (Or.inl rfl) lost
        · exact Iff.rfl
        · exact absurd (Or.inr rfl) lost

/-- The last confirmed state of a pair, which counts only while it is fresh. -/
def previousSuccess (old : Option State) (m : Monitor) (now : Int) : Option Bool :=
  (old.filter fun state => clientEntryMonitorStateFresh state.lastReportedAt now
    m.checkIntervalSec m.tcpTimeoutMS).bind (·.lastSuccess)

theorem nextState_change (old : Option State) (s : Snapshot) (r : DNSProbeResult) (now : Int) :
    Confirms (previousSuccess old s.monitor now) (nextState old s r now).1.lastSuccess
      (nextState old s r now).2 :=
  confirm_change ..

/-! ### Pairs of a target and a probe -/

/-- Another pair than that of `s` says that the address is down. -/
def OtherDown (lib : EntryLibrary) (key : String) (db : MonitorBase) (s : Snapshot) : Prop :=
  ∃ other ∈ db.states, other.lastSuccess = some false ∧
    ¬(other.targetID = s.target.id ∧ other.probeID = s.probe.id) ∧
      onAddress lib key db other.targetID

theorem otherDown_iff (recognized : Recognized lib key db) (watches : ∀ s ∈ db.states, Watched db s)
    {now : Int} (heard : Heard lib key db now) (s : Snapshot) :
    clientEntryMonitorAddressHasOtherDown lib db key s.target.id s.probe.id now
      defaultProbeOfflineSec = true ↔ OtherDown lib key db s := by
  simp only [clientEntryMonitorAddressHasOtherDown, List.any_eq_true, Bool.and_eq_true,
    decide_eq_true_eq, Option.any_eq_true]
  constructor
  · rintro ⟨other, stored, ⟨⟨down, different⟩, -⟩, t, found, written, -⟩
    have member := Table.mem_of_find? found
    exact ⟨other, stored, down, different, t, member, Table.key_of_find? found,
      (recognized t member).mp written⟩
  · rintro ⟨other, stored, down, different, placed⟩
    -- the pair is watched, online and fresh, so the statement counts it
    obtain ⟨⟨p, member, named, enabled, beating⟩, t, listed, aimed, m, known, owns, fresh⟩ :=
      heard other stored down placed
    obtain ⟨t', listed', aimed', watched, -⟩ := watches other stored
    obtain rfl : t' = t := db.targets.eq_of_key listed' listed (aimed'.trans aimed.symm)
    obtain ⟨t'', listed'', aimed'', address⟩ := placed
    obtain rfl : t'' = t' := db.targets.eq_of_key listed'' listed (aimed''.trans aimed.symm)
    obtain ⟨⟨m', policy⟩, joined⟩ := Option.isSome_iff_exists.mp watched
    obtain ⟨known', owns'⟩ := watching_rows joined
    obtain rfl : m' = m := db.monitors.eq_of_key known' known (owns'.trans owns.symm)
    refine ⟨other, stored, ⟨⟨down, different⟩, p, named ▸ db.probes.find?_key member, enabled,
      heartbeatBetween_of_fresh beating⟩, t'', aimed ▸ db.targets.find?_key listed,
      (recognized t'' listed).mpr address, ?_⟩
    exact ⟨(m', policy), joined, reportedBetween_of_fresh fresh⟩

/-- A snapshot whose rows are there, taken for a probe that is online. -/
structure Admitted (db : MonitorBase) (now : Int) (s : Snapshot) : Prop where
  target : s.target ∈ db.targets
  watched : watching db s.target = some (s.monitor, s.policy)
  probe : s.probe ∈ db.probes
  enabled : s.probe.enabled = 1
  online : dnsProbeHeartbeatFresh s.probe.lastHeartbeatAt now defaultProbeOfflineSec = true
  positive : 0 ≤ now

section Result

variable {now : Int} {s : Snapshot} {state : State}

theorem Admitted.onAddress_iff (admitted : Admitted db now s) :
    onAddress lib key db s.target.id ↔ s.target.address lib = some key := by
  constructor
  · rintro ⟨t, member, same, address⟩
    obtain rfl : t = s.target := db.targets.eq_of_key member admitted.target same
    exact address
  · exact fun address => ⟨s.target, admitted.target, rfl, address⟩

theorem Admitted.saved (admitted : Admitted db now s)
    (key : state.targetID = s.target.id ∧ state.probeID = s.probe.id)
    (reported : state.lastReportedAt = some now) :
    Watched db state ∧ OnlineAt db state.probeID now ∧ FreshAt db state now := by
  obtain ⟨aimed, tried⟩ := key
  obtain ⟨monitored, owns⟩ := watching_rows admitted.watched
  refine ⟨⟨s.target, admitted.target, aimed.symm, ?_, s.probe, admitted.probe, tried.symm,
    admitted.enabled⟩, ⟨s.probe, admitted.probe, tried.symm, admitted.enabled, admitted.online⟩,
    s.target, admitted.target, aimed.symm, s.monitor, monitored, owns, ?_⟩
  · rw [admitted.watched]
    rfl
  · rw [reported]
    exact fresh_now admitted.positive s.monitor.timing

theorem State.key_eq_iff {targetID : Int} :
    state.key = (targetID, probeID) ↔ state.targetID = targetID ∧ state.probeID = probeID := by
  simp [State.key]

theorem mem_saveState {other : State} : other ∈ (saveState db state).states ↔
    other = state ∨ other ∈ db.states ∧ other.key ≠ state.key :=
  Table.mem_upsert ..

theorem down_saveState (admitted : Admitted db now s)
    (pair : state.key = (s.target.id, s.probe.id)) :
    Down lib key (saveState db state) ↔
      state.lastSuccess = some false ∧ s.target.address lib = some key ∨
        OtherDown lib key db s := by
  have aimed := (State.key_eq_iff.mp pair).1
  constructor
  · rintro ⟨other, member, down, placed⟩
    rcases mem_saveState.mp member with rfl | ⟨stored, different⟩
    · exact Or.inl ⟨down, admitted.onAddress_iff.mp (aimed ▸ placed)⟩
    · refine Or.inr ⟨other, stored, down, fun same => different ?_, placed⟩
      exact (State.key_eq_iff.mpr same).trans pair.symm
  · rintro (⟨down, address⟩ | ⟨other, stored, down, different, placed⟩)
    · exact ⟨state, mem_saveState.mpr (Or.inl rfl), down,
        aimed ▸ admitted.onAddress_iff.mpr address⟩
    · refine ⟨other, mem_saveState.mpr (Or.inr ⟨stored, fun same => different ?_⟩), down, placed⟩
      exact State.key_eq_iff.mp (same.trans pair)

theorem down_before (admitted : Admitted db now s) (heard : Heard lib key db now) :
    Down lib key db ↔
      previousSuccess (db.states.find? (s.target.id, s.probe.id)) s.monitor now = some false ∧
        s.target.address lib = some key ∨ OtherDown lib key db s := by
  simp only [previousSuccess, Option.bind_eq_some_iff, Option.filter_eq_some_iff,
    Table.find?_eq_some]
  constructor
  · rintro ⟨other, stored, down, placed⟩
    by_cases same : other.targetID = s.target.id ∧ other.probeID = s.probe.id
    · left
      have address := admitted.onAddress_iff.mp (same.1 ▸ placed)
      obtain ⟨-, t, listed, aimed, m, known, owns, fresh⟩ := heard other stored down placed
      obtain rfl : t = s.target :=
        db.targets.eq_of_key listed admitted.target (aimed.trans same.1)
      obtain ⟨monitored, owner⟩ := watching_rows admitted.watched
      obtain rfl : m = s.monitor := db.monitors.eq_of_key known monitored (owns.trans owner.symm)
      exact ⟨⟨other, ⟨⟨stored, State.key_eq_iff.mpr same⟩, fresh⟩, down⟩, address⟩
    · exact Or.inr ⟨other, stored, down, same, placed⟩
  · rintro (⟨⟨other, ⟨⟨stored, pair⟩, -⟩, down⟩, address⟩ | ⟨other, stored, down, -, placed⟩)
    · have aimed := (State.key_eq_iff.mp pair).1
      exact ⟨other, stored, down, aimed ▸ admitted.onAddress_iff.mpr address⟩
    · exact ⟨other, stored, down, placed⟩

theorem otherDown_saveState (pair : state.key = (s.target.id, s.probe.id)) :
    OtherDown lib key (saveState db state) s ↔ OtherDown lib key db s := by
  constructor
  · rintro ⟨other, member, down, different, placed⟩
    rcases mem_saveState.mp member with rfl | ⟨stored, -⟩
    · exact absurd (State.key_eq_iff.mp pair) different
    · exact ⟨other, stored, down, different, placed⟩
  · rintro ⟨other, stored, down, different, placed⟩
    refine ⟨other, mem_saveState.mpr (Or.inr ⟨stored, fun same => different ?_⟩), down, different,
      placed⟩
    exact State.key_eq_iff.mp (same.trans pair)

end Result

theorem notices_append {e : Event} (events : db'.events = db.events ++ [e])
    (available : e.eventType.availability = true) :
    notices key db' =
      if e.addressKey = some key then notices key db ++ [e.eventType] else notices key db := by
  unfold notices
  rw [events, List.filter_append, List.map_append]
  split
  next named => simp [named, available]
  next other => simp [other]

theorem availability_eventType (change : AvailabilityTransition) :
    change.eventType.availability = true := by
  cases change <;> rfl

theorem notices_congr (events : db'.events = db.events) : notices key db' = notices key db := by
  unfold notices
  rw [events]

theorem told_down (s : Snapshot) (now : Int) :
    (transitionEvent lib s .down now).eventType = .down := rfl

theorem told_address (s : Snapshot) (change : AvailabilityTransition) (now : Int) :
    (transitionEvent lib s change now).addressKey = s.target.address lib := by
  simp only [transitionEvent]

theorem told_recovered (s : Snapshot) (now : Int) :
    (transitionEvent lib s .recovered now).eventType = .recovered := rfl

/-- The notices after a change, when the address was down before by the pair or by another,
and is so afterwards. -/
theorem notices_follow {s : Snapshot} {state : State} {now : Int} {previous : Option Bool}
    {change : Option AvailabilityTransition} {before other after : Prop}
    (standing : (notices key db).getLast? = some .down ↔ before)
    (alternates : Alternates (notices key db))
    (confirms : Confirms previous state.lastSuccess change)
    (was : before ↔ previous = some false ∧ s.target.address lib = some key ∨ other)
    (is : after ↔ state.lastSuccess = some false ∧ s.target.address lib = some key ∨ other)
    (asked : s.target.address lib = some key →
      (shouldEnqueue lib (saveState db state) s now = true ↔ ¬other))
    (events : db'.events = noted lib (saveState db state) s now change) :
    ((notices key db').getLast? = some .down ↔ after) ∧ Alternates (notices key db') := by
  cases change with
  | none =>
    have unchanged : state.lastSuccess = some false ↔ previous = some false := confirms
    have told : db'.events = db.events := events
    rw [notices_congr told, standing, was, is, unchanged]
    exact ⟨Iff.rfl, alternates⟩
  | some transition =>
    have told : db'.events =
        if shouldEnqueue lib (saveState db state) s now = true then
          db.events ++ [transitionEvent lib s transition now]
        else db.events := events
    have named : (transitionEvent lib s transition now).addressKey = s.target.address lib :=
      told_address s transition now
    by_cases address : s.target.address lib = some key
    · by_cases elsewhere : other
      · -- the address stays down by another pair, and nothing is told
        have quiet := mt (asked address).mp (not_not.mpr elsewhere)
        rw [if_neg quiet] at told
        rw [notices_congr told, standing, was, is]
        exact ⟨by simp [elsewhere], alternates⟩
      · rw [if_pos ((asked address).mpr elsewhere)] at told
        rw [notices_append told (availability_eventType transition), named, if_pos address, is,
          List.getLast?_append_of_ne_nil _ (List.cons_ne_nil _ _)]
        cases transition with
        | down =>
          obtain ⟨confirmed, different⟩ := confirms
          rw [told_down]
          refine ⟨by simp [confirmed, address], alternates.snoc (fun _ => notice_cases) fun _ => ?_⟩
          rw [Ne, standing, was]
          simp [different, elsewhere]
        | recovered =>
          rw [told_recovered]
          refine ⟨by simp [confirms.1, elsewhere], alternates.snoc (fun _ => notice_cases) nofun⟩
    · -- the notice, if there is one, is another address's
      have same : notices key db' = notices key db := by
        split at told
        · rw [notices_append told (availability_eventType transition), named, if_neg address]
        · exact notices_congr told
      rw [same, standing, was, is]
      exact ⟨by simp [address], alternates⟩

/-- A state is saved and its change handled: the states say whether the address is down,
and the notices go on to say the same. -/
theorem handled_inv (h : Inv lib key db) {now : Int} (heard : Heard lib key db now) {s : Snapshot}
    (admitted : Admitted db now s) {state : State} {change : Option AvailabilityTransition}
    (pair : state.key = (s.target.id, s.probe.id)) (reported : state.lastReportedAt = some now)
    (confirms : Confirms (previousSuccess (db.states.find? (s.target.id, s.probe.id)) s.monitor now)
      state.lastSuccess change) (inboxID : Int) :
    let last := handleTransition lib (saveState db state) s inboxID now change
    Inv lib key last ∧ Heard lib key last now ∧ Frame db last := by
  intro last
  obtain ⟨frame, states, events⟩ :=
    @handleTransition_spec lib (saveState db state) s inboxID now change
  change Frame (saveState db state) last at frame
  change last.states = _ at states
  change last.events = _ at events
  generalize last = last at frame states events ⊢
  have kept : Frame db last := ⟨frame.rules, frame.probes, frame.monitors, frame.targets⟩
  have recognized : Recognized lib key (saveState db state) := h.recognized
  obtain ⟨watches, online, fresh⟩ := admitted.saved (State.key_eq_iff.mp pair) reported
  have watched : ∀ other ∈ (saveState db state).states, Watched (saveState db state) other := by
    intro other member
    rcases mem_saveState.mp member with rfl | ⟨stored, -⟩
    · exact watches
    · exact h.watched other stored
  have still : Heard lib key (saveState db state) now := by
    intro other member down placed
    rcases mem_saveState.mp member with rfl | ⟨stored, -⟩
    · exact ⟨online, fresh⟩
    · exact heard other stored down placed
  have before := @down_before lib key _ _ _ admitted heard
  have after := @down_saveState lib key _ _ _ _ admitted pair
  have others := (otherDown_iff recognized watched still s).trans (otherDown_saveState pair)
  have asked : s.target.address lib = some key →
      (shouldEnqueue lib (saveState db state) s now = true ↔ ¬OtherDown lib key db s) := by
    intro address
    unfold shouldEnqueue
    rw [address, ← others]
    simp
  obtain ⟨standing, alternates⟩ :=
    notices_follow h.standing h.alternates confirms before after asked events
  refine ⟨⟨?_, ?_, ?_, alternates⟩, ?_, kept⟩
  · unfold Recognized
    rw [frame.targets]
    exact recognized
  · rw [states]
    intro other member
    unfold Watched
    simp only [frame.targets, frame.probes, frame.watching]
    exact watched other member
  · unfold Down onAddress
    rw [states, frame.targets]
    exact standing
  · unfold Heard onAddress OnlineAt FreshAt
    rw [states, frame.targets, frame.probes, frame.monitors]
    exact still

theorem observe_inv (h : Inv lib key db) {now : Int} (heard : Heard lib key db now) {s : Snapshot}
    (admitted : Admitted db now s) (r : DNSProbeResult) (inboxID : Int) :
    Inv lib key (observe lib db s r inboxID now) ∧
      Heard lib key (observe lib db s r inboxID now) now ∧
      Frame db (observe lib db s r inboxID now) :=
  handled_inv h heard admitted rfl rfl (nextState_change ..) inboxID

/-! ## Reports and heartbeats -/

theorem nonneg_of_beating {last : Option Int} {now offlineSec : Int}
    (fresh : dnsProbeHeartbeatFresh last now offlineSec = true) : 0 ≤ now := by
  cases last with
  | none => cases fresh
  | some last =>
    simp only [dnsProbeHeartbeatFresh] at fresh
    split at fresh
    · cases fresh
    · omega

theorem takeResult_inv {now : Int} {st : Reporting} (h : Inv lib key st.base)
    (heard : Heard lib key st.base now) (online : OnlineAt st.base probeID now) (r : DNSProbeResult)
    :
    Inv lib key (takeResult lib probeID now st r).base ∧
      Heard lib key (takeResult lib probeID now st r).base now ∧
      OnlineAt (takeResult lib probeID now st r).base probeID now := by
  unfold takeResult
  split
  · exact ⟨h, heard, online⟩
  dsimp only
  split
  · exact ⟨h, heard, online⟩
  next s loaded =>
    split
    · exact ⟨h, heard, online⟩
    split
    · exact ⟨h, heard, online⟩
    obtain ⟨targetID, -, loaded⟩ := Option.bind_eq_some_iff.mp loaded
    obtain ⟨target, watched, probe, named, enabled⟩ := snapshot_rows loaded
    obtain ⟨p, member, same, -, beating⟩ := online
    obtain rfl : p = s.probe := st.base.probes.eq_of_key member probe (same.trans named.symm)
    -- the inbox is not looked at by any of the three
    have taken : Inv lib key (remember st.base probeID r) :=
      ⟨h.recognized, h.watched, h.standing, h.alternates⟩
    have admitted : Admitted (remember st.base probeID r) now s :=
      ⟨target, watched, probe, enabled, beating, nonneg_of_beating beating⟩
    obtain ⟨kept, still, frame⟩ := observe_inv taken heard admitted r
      (remember st.base probeID r).inbox.length
    have again : s.probe ∈
        (observe lib (remember st.base probeID r) s r
          (remember st.base probeID r).inbox.length now).probes := by
      rw [frame.probes]
      exact probe
    exact ⟨kept, still, s.probe, again, same, enabled, beating⟩

theorem takeResults_inv {now : Int} {results : List DNSProbeResult} {st : Reporting}
    (h : Inv lib key st.base) (heard : Heard lib key st.base now)
    (online : OnlineAt st.base probeID now) :
    Inv lib key (results.foldl (takeResult lib probeID now) st).base := by
  induction results generalizing st with
  | nil => exact h
  | cons r rest ih =>
    obtain ⟨kept, still, again⟩ := takeResult_inv h heard online r
    exact ih kept still again

theorem report_inv (h : Inv lib key db) {now : Int} (heard : Heard lib key db now) (probeID : Int)
    (results : List DNSProbeResult) : Inv lib key (step lib db (.report probeID results now)) := by
  apply commit_cases (P := Inv lib key) db _ h
  intro db' written
  obtain ⟨⟨summary, base⟩, returned, rfl⟩ := (map_eq_ok _ _ _).mp written
  unfold reportClientEntryProbeResults at returned
  split at returned
  · cases returned
    exact h
  · simp only [admitReport, bind_eq_ok, require_eq_ok, ensure_eq_ok, exists_const, pure_eq_ok,
      Prod.mk.injEq] at returned
    obtain ⟨⟨p, found, enabled, beating⟩, -, rfl⟩ := returned
    exact takeResults_inv h heard
      ⟨p, Table.mem_of_find? found, Table.key_of_find? found, enabled, beating⟩

theorem beat_inv (h : Inv lib key db) (probeID now : Int) : Inv lib key (beat db probeID now) where
  recognized := h.recognized
  watched := by
    intro s stored
    obtain ⟨t, listed, aimed, watches, p, member, named, enabled⟩ := h.watched s stored
    have beaten : (if decide (p.id = probeID) = true then { p with lastHeartbeatAt := some now }
        else p) ∈ (beat db probeID now).probes := by
      unfold beat
      rw [Table.mem_updateWhere]
      exact ⟨p, member, rfl⟩
    refine ⟨t, listed, aimed, watches, _, beaten, ?_⟩
    split <;> exact ⟨named, enabled⟩
  standing := h.standing
  alternates := h.alternates

theorem forget_inv (h : Inv lib key db)
    (innocent : ∀ s ∈ db.states, s.lastSuccess = some false → onAddress lib key db s.targetID →
      s.probeID ≠ probeID) : Inv lib key (forget db probeID) where
  recognized := h.recognized
  watched := fun s member => h.watched s ((Table.mem_deleteWhere ..).mp member).1
  standing := by
    refine h.standing.trans ⟨?_, ?_⟩
    · rintro ⟨s, stored, down, placed⟩
      have other := decide_eq_false (innocent s stored down placed)
      exact ⟨s, (Table.mem_deleteWhere ..).mpr ⟨stored, other⟩, down, placed⟩
    · rintro ⟨s, member, down, placed⟩
      exact ⟨s, ((Table.mem_deleteWhere ..).mp member).1, down, placed⟩
  alternates := h.alternates

theorem heartbeat_inv (h : Inv lib key db) {now offlineSec : Int}
    (steady : Steady lib key db (.heartbeat probeID now offlineSec)) :
    Inv lib key (step lib db (.heartbeat probeID now offlineSec)) := by
  apply commit_cases (P := Inv lib key) db _ h
  intro db' returned
  simp only [heartbeatDNSProbe, bind_eq_ok, require_eq_ok, ensure_eq_ok, exists_const] at returned
  obtain ⟨p, found, -, returned⟩ := returned
  split at returned
  · cases returned
    exact beat_inv h probeID now
  next late =>
    cases returned
    refine beat_inv (forget_inv h ?_) probeID now
    -- a probe that holds the address down is not late
    intro s stored down placed same
    exact late (steady s stored down placed same p (Table.mem_of_find? found)
      (Table.key_of_find? found))

theorem step_inv (h : Inv lib key db) (act : Act) (steady : Steady lib key db act) :
    Inv lib key (step lib db act) := by
  cases act with
  | heartbeat probeID now offlineSec => exact heartbeat_inv h steady
  | report probeID results now => exact report_inv h steady probeID results

/-! ## Runs -/

structure Start (db : MonitorBase) : Prop where
  states : db.states.rows = []
  events : db.events = []

theorem Start.inv (start : Start db) (recognized : Recognized lib key db) : Inv lib key db := by
  have quiet : notices key db = [] := by
    unfold notices
    rw [start.events]
    rfl
  have empty : ∀ s, s ∉ db.states := by
    intro s member
    rw [Table.mem_def, start.states] at member
    cases member
  refine ⟨recognized, fun s member => absurd member (empty s), ?_, ?_⟩
  · rw [quiet]
    exact ⟨nofun, fun ⟨s, member, _⟩ => absurd member (empty s)⟩
  · rw [quiet]
    exact alternates_nil

theorem not_down (h : Inv lib key db) {now : Int} (heard : Heard lib key db now)
    (up : AllUp lib key db now) : ¬Down lib key db := by
  rintro ⟨s, stored, down, placed⟩
  obtain ⟨⟨p, member, tried, beats⟩, -⟩ := heard s stored down placed
  obtain ⟨t, listed, aimed, watches, -⟩ := h.watched s stored
  obtain ⟨t', listed', aimed', address⟩ := placed
  obtain rfl : t' = t := db.targets.eq_of_key listed' listed (aimed'.trans aimed.symm)
  obtain ⟨other, stored', pair, healthy, -⟩ :=
    up p member ⟨p, member, rfl, beats⟩ t' listed address watches
  have same : other.key = s.key :=
    pair.trans (State.key_eq_iff.mpr ⟨aimed.symm, tried.symm⟩).symm
  have one : other = s := db.states.eq_of_key stored' stored same
  rw [one, down] at healthy
  cases healthy

/-- A library that knows one IPv6 address, in two spellings. -/
def oneAddressLibrary : EntryLibrary where
  toStandardLibrary := asciiLibrary
  parseAddr s := if s ∈ ["2001:db8:0::1", "2001:db8::1"] then some "2001:db8::1" else none
  parseAddr_visible := by
    intro s address parsed
    rw [Option.ite_none_right_eq_some] at parsed
    obtain ⟨-, parsed⟩ := parsed
    obtain rfl := Option.some.inj parsed
    decide
  normalizeList := .ok

private def watchedRule : PolicyRow :=
  ⟨1, "rule", 10, .standard, .override, "[]", "", 0, [], 1, "", 1⟩

/-- One probe, and one monitor with two targets at the two hosts. -/
def twoTargets (hostA hostB : String) : MonitorBase where
  rules := { emptyRuleBase with policies := ⟨[watchedRule], by decide, by decide⟩ }
  probes := ⟨[⟨1, "probe", 1, none⟩], by decide, by decide⟩
  monitors := ⟨[⟨1, 1, 1, 30, 5000, 2, 2, by decide, by decide⟩], by simp, by simp⟩
  targets :=
    { rows := [⟨1, 1, "policy:1", "a", hostA, 443, 10, 1, 0, by decide⟩,
        ⟨2, 1, "policy:2", "b", hostB, 443, 20, 1, 0, by decide⟩]
      keyed := by simp
      unique := by simp [Target.source] }
  states := Table.empty
  events := []
  operations := Table.empty
  inbox := []
  operationSeq := 0

private def tried (id : String) (target : Int) (success : Bool) : DNSProbeResult :=
  ⟨id, clientEntryProbeTargetOffset + target, 1, some success, none, "", ""⟩

/-- The probe finds the first target down, is silent for longer than two cycles and finds
it up. -/
def silentGap : List Act :=
  [.heartbeat 1 100 90, .report 1 [tried "a" 1 false] 100, .report 1 [tried "b" 1 false] 110,
    .heartbeat 1 170 90, .heartbeat 1 250 90, .report 1 [tried "c" 1 true] 260]

def bothDown : List Act :=
  [.heartbeat 1 100 90, .report 1 [tried "a" 1 false, tried "b" 1 false, tried "c" 2 false,
    tried "d" 2 false] 100]

def afterGap : MonitorBase :=
  run (step oneAddressLibrary) (twoTargets "a.example" "b.example") silentGap

def afterBothDown : MonitorBase :=
  run (step oneAddressLibrary) (twoTargets "2001:db8:0::1" "2001:db8:0::1") bothDown

/-- Both targets of one host go down, and come back one after the other. -/
def lostAndBack : List Act :=
  bothDown ++ [.heartbeat 1 110 90, .report 1 [tried "e" 1 true, tried "f" 1 true] 120,
    .report 1 [tried "g" 2 true, tried "h" 2 true] 130]

end ForestPanel.EntryMonitor
