import ForestPanel.BackupIP.Status
import ForestPanel.ClientEntry.Normal

/-!
# Available is claimable

The two sides read times that are neither negative nor in the future alike. A probe has one state
for an address, so counting healthy probes and asking for one that is not come to the same.
-/
namespace ForestPanel.BackupIP

open Relational ClientEntry EntryMonitor

def Past (now : Int) (time : Option Int) : Prop := ∀ t ∈ time, 0 ≤ t ∧ t ≤ now

theorem heartbeatFresh_eq {last : Option Int} {now : Int} (past : Past now last) :
    dnsProbeHeartbeatFresh last now defaultProbeOfflineSec =
      heartbeatBetween last now defaultProbeOfflineSec := by
  cases last with
  | none => rfl
  | some t =>
    obtain ⟨natural, before⟩ := past t rfl
    have valid : ¬(defaultProbeOfflineSec ≤ 0 ∨ t < 0 ∨ now < t) := by
      unfold defaultProbeOfflineSec
      omega
    have room : minInt64 + defaultProbeOfflineSec ≤ now := by
      unfold minInt64 defaultProbeOfflineSec
      omega
    simp [dnsProbeHeartbeatFresh, heartbeatBetween, if_neg valid, if_pos room, before]

theorem stateFresh_iff {last : Option Int} {now checkIntervalSec tcpTimeoutMS : Int}
    (past : Past now last) (timing : 0 < checkIntervalSec ∧ 0 < tcpTimeoutMS) :
    dnsFailoverProbeStateFresh last now checkIntervalSec tcpTimeoutMS defaultProbeOfflineSec =
        true ↔
      ∃ t ∈ last, now - min defaultProbeOfflineSec
        (2 * (checkIntervalSec + (tcpTimeoutMS + 999) / 1000)) ≤ t := by
  cases last with
  | none =>
    constructor
    · rintro ⟨⟩
    · rintro ⟨t, ⟨⟩, -⟩
  | some t =>
    obtain ⟨natural, before⟩ := past t rfl
    have valid : ¬(t < 0 ∨ now < t ∨ checkIntervalSec ≤ 0 ∨ tcpTimeoutMS ≤ 0 ∨
        defaultProbeOfflineSec ≤ 0) := by
      unfold defaultProbeOfflineSec
      omega
    -- rounding up, once with the remainder and once in advance
    have rounded : tcpTimeoutMS / 1000 + (if tcpTimeoutMS % 1000 ≠ 0 then 1 else 0) =
        (tcpTimeoutMS + 999) / 1000 := by
      split <;> omega
    have only : (∃ t' ∈ some t, now - min defaultProbeOfflineSec
        (2 * (checkIntervalSec + (tcpTimeoutMS + 999) / 1000)) ≤ t') ↔
      now - min defaultProbeOfflineSec
        (2 * (checkIntervalSec + (tcpTimeoutMS + 999) / 1000)) ≤ t := by simp
    rw [only, dnsFailoverProbeStateFresh, if_neg valid]
    simp only [rounded, decide_eq_true_eq]
    unfold defaultProbeOfflineSec EntryMonitor.minInt64 EntryMonitor.maxInt64
    generalize (tcpTimeoutMS + 999) / 1000 = seconds
    split_ifs <;> omega

/-- `netip`: an address is written so that it is read back, and a text without a colon is the
address as it is written. -/
structure AddressLibrary extends EntryLibrary where
  parseAddr_again : ∀ s address, parseAddr s = some address → parseAddr address = some address
  parseAddr_plain : ∀ s address, ':' ∉ s.toList → parseAddr s = some address → address = s

/-- An entry host as it is saved: `NormalizeHost` has returned it, or there is none. -/
def SavedHost (lib : AddressLibrary) (host : String) : Prop :=
  host = "" ∨ ∃ value, normalizeHost lib.toEntryLibrary value = .ok host

theorem btrim_of_trimmed {s : String} (trimmed : trimSpace s = s) : btrim s = s := by
  obtain ⟨first, last⟩ := trimSpace_eq_self_iff.mp trimmed
  have blank : ∀ c, isSpace c = false → c ≠ ' ' := by
    rintro c visible rfl
    cases visible
  have front : s.toList.dropWhile (· = ' ') = s.toList := by
    cases chars : s.toList with
    | nil => rfl
    | cons c rest =>
      have visible := blank c (first c (by rw [chars]; rfl))
      simp [visible]
  have back : s.toList.rdropWhile (· = ' ') = s.toList := by
    rw [List.rdropWhile_eq_self_iff]
    intro nonempty
    have visible := blank _ (last _ (List.getLast?_eq_some_getLast nonempty))
    simpa using visible
  rw [btrim, front, back, String.ofList_toList]

variable {host : String} {probes : List Probe} {state : ProbeState} {probe : Probe}

theorem SavedHost.btrim_eq {lib : AddressLibrary} (saved : SavedHost lib host) :
    btrim host = host := by
  rcases saved with rfl | ⟨value, accepted⟩
  · rfl
  · exact btrim_of_trimmed (normalizeHost_shown lib.toEntryLibrary accepted).2

theorem SavedHost.parseAddr_eq {lib : AddressLibrary} {address : String}
    (saved : SavedHost lib host) (nonempty : host ≠ "") (read : lib.parseAddr host = some address) :
    address = host := by
  rcases saved with empty | ⟨value, accepted⟩
  · exact absurd empty nonempty
  · simp only [normalizeHost, Outcome.bind_eq_ok, Outcome.ensure_eq_ok, exists_const] at accepted
    obtain ⟨-, -, accepted⟩ := accepted
    split at accepted
    next canonical parsed =>
      rw [Outcome.pure_eq_ok] at accepted
      subst accepted
      rw [lib.parseAddr_again _ _ parsed] at read
      exact (Option.some.inj read).symm
    next =>
      simp only [Outcome.bind_eq_ok, Outcome.ensure_eq_ok, exists_const,
        Outcome.pure_eq_ok] at accepted
      obtain ⟨⟨-, -, plain⟩, -, rfl⟩ := accepted
      exact lib.parseAddr_plain _ _ plain read

theorem SavedHost.canonical_iff {lib : AddressLibrary} {ip : String} (saved : SavedHost lib host)
    (canonical : lib.parseAddr ip = some ip) (value : ip ≠ "") :
    (btrim host ≠ "" ∧ canonicalClientEntryBackupIPHost lib.toEntryLibrary host = some ip) ↔
      btrim host = ip := by
  rw [saved.btrim_eq]
  by_cases empty : host = ""
  · rw [empty]
    constructor
    · rintro ⟨none, -⟩
      exact absurd rfl none
    · intro same
      exact absurd same.symm value
  · have trimmed : trimSpace host = host := by
      rcases saved with none | ⟨text, accepted⟩
      · exact absurd none empty
      · exact (normalizeHost_shown lib.toEntryLibrary accepted).2
    rw [canonicalClientEntryBackupIPHost, trimmed]
    constructor
    · rintro ⟨-, read⟩
      exact (saved.parseAddr_eq empty read).symm
    · rintro rfl
      exact ⟨empty, canonical⟩

/-- What is stored: past times, saved hosts, and pool addresses as `netip` writes them. -/
structure Settled (lib : AddressLibrary) (db : PoolBase) (now : Int) : Prop where
  heartbeats : ∀ probe ∈ db.probes, Past now probe.lastHeartbeatAt
  reports : ∀ state ∈ db.states, Past now state.lastReportedAt
  policies : ∀ policy ∈ db.rules.policies, SavedHost lib policy.entryHost
  groups : ∀ group ∈ db.rules.groups, SavedHost lib group.entryHost
  addresses : ∀ backup ∈ db.backups, lib.parseAddr backup.ip = some backup.ip

section

variable {lib : AddressLibrary} {db : PoolBase} {now : Int} {backup : BackupRow}

private theorem value_ne (backup : BackupRow) : backup.ip ≠ "" := by
  intro empty
  apply backup.value
  rw [empty]
  rfl

theorem used_iff (settled : Settled lib db now) (member : backup ∈ db.backups) :
    (∃ usage, (backup.ip, usage) ∈ loadClientEntryBackupIPUsages lib.toEntryLibrary db) ↔
      (∃ policy ∈ db.rules.policies, btrim policy.entryHost = backup.ip) ∨
        ∃ group ∈ db.rules.groups, btrim group.entryHost = backup.ip := by
  have canonical := settled.addresses backup member
  have value := value_ne backup
  simp only [loadClientEntryBackupIPUsages, List.mem_append, List.mem_filterMap,
    (List.perm_insertionSort _ _).mem_iff, exists_or]
  apply or_congr
  · constructor
    · rintro ⟨usage, policy, listed, shown⟩
      rw [Option.ite_none_left_eq_some, Option.map_eq_some_iff] at shown
      obtain ⟨nonempty, ip, read, same⟩ := shown
      obtain rfl : ip = backup.ip := (Prod.mk.inj same).1
      exact ⟨policy, listed,
        ((settled.policies policy listed).canonical_iff canonical value).mp ⟨nonempty, read⟩⟩
    · rintro ⟨policy, listed, same⟩
      obtain ⟨nonempty, read⟩ :=
        ((settled.policies policy listed).canonical_iff canonical value).mpr same
      refine ⟨⟨"policy", policy.id, policy.name, 0, "", ""⟩, policy, listed, ?_⟩
      rw [if_neg nonempty, read]
      rfl
  · constructor
    · rintro ⟨usage, group, listed, shown⟩
      rw [Option.ite_none_left_eq_some] at shown
      obtain ⟨nonempty, shown⟩ := shown
      obtain ⟨policy, -, shown⟩ := Option.bind_eq_some_iff.mp shown
      obtain ⟨ip, read, same⟩ := Option.bind_eq_some_iff.mp shown
      obtain rfl : ip = backup.ip := (Prod.mk.inj (Option.some.inj same)).1
      exact ⟨group, listed,
        ((settled.groups group listed).canonical_iff canonical value).mp ⟨nonempty, read⟩⟩
    · rintro ⟨group, listed, same⟩
      obtain ⟨nonempty, read⟩ :=
        ((settled.groups group listed).canonical_iff canonical value).mpr same
      obtain ⟨policy, there, owner⟩ := db.owned group listed
      have found : db.rules.policies.find? group.policyId = some policy :=
        owner ▸ db.rules.policies.find?_key there
      refine ⟨⟨"split_group", policy.id, policy.name, group.id, group.name, group.path⟩, group,
        listed, ?_⟩
      rw [if_neg nonempty, found, read]
      rfl

private theorem foldl_map {α β : Type} (f : α → β → β) (rows : List α) (states : List β) :
    rows.foldl (fun states row => states.map (f row)) states =
      states.map fun state => rows.foldl (fun state row => f row state) state := by
  induction rows generalizing states with
  | nil => simp
  | cons row rows ih =>
    rw [List.foldl_cons, ih, List.map_map]
    rfl

def recordOne (now : Int) (backup : BackupRow) (probes : List Probe) (row : StateRow)
    (state : ProbeState) : ProbeState :=
  if row.backupIPID ≠ backup.id then state
  else
    match probes.find? fun probe => probe.id = row.probeID with
    | none => state
    | some probe =>
      if state.probeID = row.probeID then reportedState now backup probe row else state

private theorem recordState_eq (now : Int) (backup : BackupRow) (probes : List Probe)
    (states : List ProbeState) (row : StateRow) :
    recordState now backup probes states row =
      states.map (recordOne now backup probes row) := by
  unfold recordState recordOne
  by_cases other : row.backupIPID ≠ backup.id
  · simp [other]
  · cases found : probes.find? fun probe => probe.id = row.probeID with
    | none => simp [other]
    | some probe => simp [other]

private theorem recordOne_other {row : StateRow} (other : row.key ≠ (backup.id, state.probeID)) :
    recordOne now backup probes row state = state := by
  unfold recordOne
  split
  · rfl
  next same =>
    split
    · rfl
    · rw [if_neg]
      intro probe
      exact other (Prod.ext (not_not.mp same) probe.symm)

private theorem recordOne_own {row : StateRow}
    (found : probes.find? (fun p => p.id = probe.id) = some probe)
    (stands : state.probeID = probe.id) (own : row.key = (backup.id, probe.id)) :
    recordOne now backup probes row state = reportedState now backup probe row := by
  obtain ⟨address, tried⟩ := Prod.mk.inj own
  rw [recordOne, if_neg (not_not.mpr address), tried, found]
  exact if_pos (stands.trans rfl)

private theorem foldl_recordOne {rows : List StateRow}
    (found : probes.find? (fun p => p.id = probe.id) = some probe)
    (stands : state.probeID = probe.id) (distinct : (rows.map StateRow.key).Nodup) :
    rows.foldl (fun state row => recordOne now backup probes row state) state =
      match rows.find? fun row => row.key = (backup.id, probe.id) with
      | none => state
      | some row => reportedState now backup probe row := by
  induction rows generalizing state with
  | nil => rfl
  | cons row rows ih =>
    obtain ⟨fresh, distinct⟩ := List.nodup_cons.mp distinct
    rw [List.foldl_cons]
    by_cases own : row.key = (backup.id, probe.id)
    · have later : rows.find? (fun row => row.key = (backup.id, probe.id)) = none := by
        rw [List.find?_eq_none]
        intro other member same
        apply fresh
        rw [own, ← of_decide_eq_true same]
        exact List.mem_map_of_mem member
      have here : (row :: rows).find? (fun row => row.key = (backup.id, probe.id)) = some row :=
        List.find?_cons_of_pos (decide_eq_true own)
      have tried : (reportedState now backup probe row).probeID = probe.id :=
        (Prod.mk.inj own).2
      rw [recordOne_own found stands own, ih tried distinct, later, here]
    · have there : (row :: rows).find? (fun row => row.key = (backup.id, probe.id)) =
          rows.find? fun row => row.key = (backup.id, probe.id) :=
        List.find?_cons_of_neg (by simpa using own)
      rw [recordOne_other (stands ▸ own), ih stands distinct, there]

private theorem mem_probes :
    probe ∈ loadClientEntryBackupIPProbes db ↔ probe ∈ db.probes ∧ probe.enabled = 1 := by
  rw [loadClientEntryBackupIPProbes, (List.perm_insertionSort _ _).mem_iff, List.mem_filter,
    decide_eq_true_eq]
  rfl

private theorem find_probe (member : probe ∈ loadClientEntryBackupIPProbes db) :
    (loadClientEntryBackupIPProbes db).find? (fun p => p.id = probe.id) = some probe := by
  cases found : (loadClientEntryBackupIPProbes db).find? fun p => p.id = probe.id with
  | none => simpa using List.find?_eq_none.mp found probe member
  | some other =>
    have same : other.id = probe.id := by simpa using List.find?_some found
    have there := (mem_probes.mp (List.mem_of_find?_eq_some found)).1
    rw [db.probes.eq_of_key there (mem_probes.mp member).1 same]

def finalState (db : PoolBase) (now : Int) (backup : BackupRow) (probe : Probe) : ProbeState :=
  match (stateRows db).find? fun row => row.key = (backup.id, probe.id) with
  | none => initialState now probe
  | some row => reportedState now backup probe row

theorem hydrated_states (db : PoolBase) (now : Int) (backup : BackupRow) :
    (stateRows db).foldl (recordState now backup (loadClientEntryBackupIPProbes db))
        ((loadClientEntryBackupIPProbes db).map (initialState now)) =
      (loadClientEntryBackupIPProbes db).map (finalState db now backup) := by
  have steps : recordState now backup (loadClientEntryBackupIPProbes db) = fun states row =>
      states.map (recordOne now backup (loadClientEntryBackupIPProbes db) row) := by
    funext states row
    exact recordState_eq now backup _ states row
  have distinct : ((stateRows db).map StateRow.key).Nodup := by
    have rows := db.states.keyed.sublist (List.Sublist.map StateRow.key
      (List.filter_sublist (p := fun row : StateRow =>
        decide (∃ probe ∈ db.probes, probe.id = row.probeID ∧ probe.enabled = 1))))
    exact ((List.perm_insertionSort _ _).map StateRow.key).nodup_iff.mpr rows
  rw [steps, foldl_map, List.map_map]
  apply List.map_congr_left
  intro probe member
  rw [Function.comp_apply]
  exact foldl_recordOne (find_probe member) rfl distinct

theorem finalState_healthy (settled : Settled lib db now) (probe : Probe)
    (member : probe ∈ loadClientEntryBackupIPProbes db) :
    (finalState db now backup probe).healthy = true ↔
      dnsProbeHeartbeatFresh probe.lastHeartbeatAt now defaultProbeOfflineSec = true ∧
        ∃ state ∈ db.states, stateHealthy now backup probe state := by
  obtain ⟨listed, enabled⟩ := mem_probes.mp member
  have rows : ∀ row, row ∈ stateRows db ∧ row.key = (backup.id, probe.id) ↔
      row ∈ db.states ∧ row.key = (backup.id, probe.id) := by
    intro row
    rw [stateRows, (List.perm_insertionSort _ _).mem_iff, List.mem_filter, decide_eq_true_eq]
    constructor
    · rintro ⟨⟨there, -⟩, own⟩
      exact ⟨there, own⟩
    · rintro ⟨there, own⟩
      exact ⟨⟨there, probe, listed, (Prod.mk.inj own).2.symm, enabled⟩, own⟩
  have key_iff : ∀ row : StateRow, row.key = (backup.id, probe.id) ↔
      row.backupIPID = backup.id ∧ row.probeID = probe.id := fun row => Prod.mk.injEq _ _ _ _ ▸ .rfl
  unfold finalState
  cases found : (stateRows db).find? fun row => row.key = (backup.id, probe.id) with
  | none =>
    constructor
    · intro healthy
      simp [ProbeState.healthy, initialState] at healthy
    · rintro ⟨-, state, there, address, tried, -⟩
      obtain ⟨inside, own⟩ := (rows state).mpr ⟨there, (key_iff state).mpr ⟨address, tried⟩⟩
      exact absurd own (by simpa using List.find?_eq_none.mp found state inside)
  | some row =>
    have own : row.key = (backup.id, probe.id) := by simpa using List.find?_some found
    obtain ⟨there, -⟩ := (rows row).mp ⟨List.mem_of_find?_eq_some found, own⟩
    have only : (∃ state ∈ db.states, stateHealthy now backup probe state) ↔
        stateHealthy now backup probe row := by
      constructor
      · rintro ⟨state, inside, healthy⟩
        have same : state.key = row.key := by
          rw [own, key_iff]
          exact ⟨healthy.1, healthy.2.1⟩
        rwa [← db.states.eq_of_key inside there same]
      · exact fun healthy => ⟨row, there, healthy⟩
    have fresh := stateFresh_iff (settled.reports row there) backup.timing
    obtain ⟨address, tried⟩ := (key_iff row).mp own
    rw [only, stateHealthy, ← fresh]
    simp only [ProbeState.healthy, reportedState, Bool.and_eq_true, Bool.not_not,
      decide_eq_true_eq, address, tried, true_and]
    have success : row.lastSuccess.map (fun value => decide (value = 1)) = some true ↔
        row.lastSuccess = some 1 := by simp
    rw [success]
    tauto

private theorem countP_eq_iff {α : Type} {p q : α → Bool} {l : List α}
    (sub : ∀ a ∈ l, q a = true → p a = true) :
    l.countP q = l.countP p ↔ ∀ a ∈ l, p a = true → q a = true := by
  have inner : l.countP q = (l.filter p).countP q := by
    rw [List.countP_filter]
    apply List.countP_congr
    intro a member
    rw [Bool.and_eq_true]
    exact ⟨fun chosen => ⟨chosen, sub a member chosen⟩, And.left⟩
  rw [inner, List.countP_eq_length_filter (p := p), List.countP_eq_length]
  simp only [List.mem_filter, and_imp]

private theorem classify_available {item : Record} :
    (classifyClientEntryBackupIP item now).2 = true ↔ item.row.enabled = 1 ∧ item.used = false ∧
      item.row.quarantineUntil ≤ now ∧ item.enabledProbeCount ≠ 0 ∧ item.onlineProbeCount ≠ 0 ∧
        item.healthyProbeCount = item.onlineProbeCount := by
  unfold classifyClientEntryBackupIP
  split
  next disabled => simp [disabled]
  next enabled =>
    split
    next used => simp [used]
    next free =>
      split
      next resting => simp [resting]
      next rested =>
        split
        next none => simp [none]
        next probes =>
          split
          next offline => simp [offline]
          next online =>
            split
            next healthy =>
              simp [not_not.mp enabled, free, not_lt.mp rested, probes, online, healthy]
            next ill => split <;> simp [ill]

private theorem online_iff (settled : Settled lib db now)
    (member : probe ∈ loadClientEntryBackupIPProbes db) :
    dnsProbeHeartbeatFresh probe.lastHeartbeatAt now defaultProbeOfflineSec = true ↔
      probeOnline now probe := by
  obtain ⟨listed, enabled⟩ := mem_probes.mp member
  rw [heartbeatFresh_eq (settled.heartbeats probe listed), probeOnline]
  exact ⟨fun online => ⟨enabled, online⟩, And.right⟩

theorem available_iff_claimable (settled : Settled lib db now) (member : backup ∈ db.backups) :
    (hydrated lib.toEntryLibrary db now backup).available = true ↔ Claimable db now backup := by
  have used : decide ((((loadClientEntryBackupIPUsages lib.toEntryLibrary db).filter fun usage =>
      usage.1 = backup.ip).map Prod.snd) ≠ []) = false ↔
      ¬((∃ policy ∈ db.rules.policies, btrim policy.entryHost = backup.ip) ∨
        ∃ group ∈ db.rules.groups, btrim group.entryHost = backup.ip) := by
    rw [← used_iff settled member, decide_eq_false_iff_not, not_not, List.map_eq_nil_iff,
      List.filter_eq_nil_iff]
    constructor
    · rintro free ⟨usage, listed⟩
      exact free _ listed (decide_eq_true rfl)
    · rintro free ⟨ip, usage⟩ listed same
      exact free ⟨usage, of_decide_eq_true same ▸ listed⟩
  have some_online : (∃ probe ∈ db.probes, probeOnline now probe) ↔
      (loadClientEntryBackupIPProbes db).countP (fun probe =>
        dnsProbeHeartbeatFresh probe.lastHeartbeatAt now defaultProbeOfflineSec) ≠ 0 := by
    rw [ne_eq, List.countP_eq_zero, not_forall]
    constructor
    · rintro ⟨probe, listed, online⟩
      have inside := mem_probes.mpr ⟨listed, online.1⟩
      refine ⟨probe, fun offline => offline inside ((online_iff settled inside).mpr online)⟩
    · rintro ⟨probe, some⟩
      rw [Classical.not_imp, not_not] at some
      exact ⟨probe, (mem_probes.mp some.1).1, (online_iff settled some.1).mp some.2⟩
  have counts : ((loadClientEntryBackupIPProbes db).map (finalState db now backup)).countP
      ProbeState.healthy = (loadClientEntryBackupIPProbes db).countP (fun probe =>
        dnsProbeHeartbeatFresh probe.lastHeartbeatAt now defaultProbeOfflineSec) ↔
      ¬∃ probe ∈ db.probes, probeOnline now probe ∧
        ¬∃ state ∈ db.states, stateHealthy now backup probe state := by
    rw [List.countP_map, countP_eq_iff]
    · constructor
      · rintro all ⟨probe, listed, online, ill⟩
        have inside := mem_probes.mpr ⟨listed, online.1⟩
        have healthy := all probe inside ((online_iff settled inside).mpr online)
        exact ill ((finalState_healthy settled probe inside).mp healthy).2
      · intro none probe inside online
        refine (finalState_healthy settled probe inside).mpr ⟨online, ?_⟩
        by_contra ill
        exact none ⟨probe, (mem_probes.mp inside).1, (online_iff settled inside).mp online, ill⟩
    · intro probe inside healthy
      exact ((finalState_healthy settled probe inside).mp healthy).1
  have probes : (loadClientEntryBackupIPProbes db).countP (fun probe =>
      dnsProbeHeartbeatFresh probe.lastHeartbeatAt now defaultProbeOfflineSec) ≠ 0 →
      (loadClientEntryBackupIPProbes db).length ≠ 0 := by
    have fewer := List.countP_le_length (l := loadClientEntryBackupIPProbes db)
      (p := fun probe => dnsProbeHeartbeatFresh probe.lastHeartbeatAt now defaultProbeOfflineSec)
    omega
  rw [hydrated]
  dsimp only
  rw [classify_available]
  dsimp only
  rw [hydrated_states, used, Int.natCast_inj, counts]
  simp only [ne_eq, Int.natCast_eq_zero] at some_online probes ⊢
  constructor
  · rintro ⟨enabled, free, rested, -, online, healthy⟩
    rw [not_or] at free
    exact ⟨enabled, rested, free.1, free.2, some_online.mpr online, healthy⟩
  · rintro ⟨enabled, rested, noPolicy, noGroup, someProbe, everyProbe⟩
    have online := some_online.mp someProbe
    exact ⟨enabled, not_or.mpr ⟨noPolicy, noGroup⟩, rested, probes online, online, everyProbe⟩

/-- Every row that is listed is shown as available exactly when it can be claimed. -/
theorem listed_iff_claimable (settled : Settled lib db now) (items : List BackupRow)
    (stored : ∀ backup ∈ items, backup ∈ db.backups) :
    List.Forall₂ (fun backup record => record.row = backup ∧
        (record.available = true ↔ Claimable db now backup)) items
      (hydrateClientEntryBackupIPStatuses lib.toEntryLibrary db items now) := by
  induction items with
  | nil => exact .nil
  | cons backup items ih =>
    apply List.Forall₂.cons
    · exact ⟨rfl, available_iff_claimable settled (stored backup List.mem_cons_self)⟩
    · exact ih fun other member => stored other (List.mem_cons_of_mem backup member)

end

/-! ### Three pools of one row -/

def oneAddress : AddressLibrary where
  toStandardLibrary := asciiLibrary
  parseAddr s := if s = "203.0.113.7" then some s else none
  parseAddr_visible := by
    intro s address parsed
    rw [Option.ite_none_right_eq_some] at parsed
    obtain ⟨rfl, same⟩ := parsed
    obtain rfl := Option.some.inj same
    decide
  normalizeList := .ok
  parseAddr_again := by
    intro s address parsed
    rw [Option.ite_none_right_eq_some] at parsed
    obtain ⟨rfl, same⟩ := parsed
    obtain rfl := Option.some.inj same
    decide
  parseAddr_plain := by
    intro s address _ parsed
    rw [Option.ite_none_right_eq_some] at parsed
    exact (Option.some.inj parsed.2).symm

def oneRow (ip : String) (value : btrim ip ≠ "") : BackupRow :=
  ⟨1, "backup", ip, 443, 1, 30, 3000, 1, 0, 0, 1, 1, by decide, value⟩

private def hostRule (host : String) : PolicyRow :=
  ⟨1, "rule", 10, .standard, .override, "[]", host, 0, [], 1, "", 1⟩

/-- One address, one probe that has found it healthy, and one rule. -/
def onePool (ip : String) (value : btrim ip ≠ "") (heartbeat : Int) (host : String) : PoolBase where
  rules := { emptyRuleBase with policies := ⟨[hostRule host], by simp, by simp⟩ }
  probes := ⟨[⟨1, "probe", 1, some heartbeat⟩], by simp, by simp⟩
  backups := ⟨[oneRow ip value], by simp, by simp⟩
  states := ⟨[⟨1, 1, some 1, none, "", 2, 0, some 5⟩], by simp, by simp⟩
  owned := by
    intro g member
    exact (List.not_mem_nil member).elim

private theorem onePool_settled :
    Settled oneAddress (onePool "203.0.113.7" (by decide) 5 "") 10 := by
  constructor
  case heartbeats =>
    intro probe member t there
    obtain rfl := List.mem_singleton.mp member
    obtain rfl := Option.some.inj there
    decide
  case reports =>
    intro state member t there
    obtain rfl := List.mem_singleton.mp member
    obtain rfl := Option.some.inj there
    decide
  case policies =>
    intro policy member
    obtain rfl := List.mem_singleton.mp member
    exact .inl rfl
  case groups => exact fun group member => (List.not_mem_nil member).elim
  case addresses =>
    intro backup member
    obtain rfl := List.mem_singleton.mp member
    decide

theorem listed_one_row :
    List.Forall₂ (fun backup record => record.row = backup ∧
        (record.available = true ↔
          Claimable (onePool "203.0.113.7" (by decide) 5 "") 10 backup))
      [oneRow "203.0.113.7" (by decide)]
      (hydrateClientEntryBackupIPStatuses oneAddress.toEntryLibrary
        (onePool "203.0.113.7" (by decide) 5 "") [oneRow "203.0.113.7" (by decide)] 10) :=
  listed_iff_claimable onePool_settled _ fun _ only => only

/-- What the times and the hosts satisfy that are not in the future and that are saved. -/
structure AsSaved (lib : AddressLibrary) (db : PoolBase) (now : Int) : Prop where
  heartbeats : ∀ probe ∈ db.probes, ∀ t ∈ probe.lastHeartbeatAt, t ≤ now
  reports : ∀ state ∈ db.states, ∀ t ∈ state.lastReportedAt, t ≤ now
  policies : ∀ policy ∈ db.rules.policies, SavedHost lib policy.entryHost
  groups : ∀ group ∈ db.rules.groups, SavedHost lib group.entryHost

private theorem onePool_asSaved {ip : String} (value : btrim ip ≠ "") {heartbeat : Int}
    (before : heartbeat ≤ 10) (saved : SavedHost oneAddress host) :
    AsSaved oneAddress (onePool ip value heartbeat host) 10 := by
  constructor
  case heartbeats =>
    intro probe member t there
    obtain rfl := List.mem_singleton.mp member
    obtain rfl := Option.some.inj there
    exact before
  case reports =>
    intro state member t there
    obtain rfl := List.mem_singleton.mp member
    obtain rfl := Option.some.inj there
    decide
  case policies =>
    intro policy member
    obtain rfl := List.mem_singleton.mp member
    exact saved
  case groups => exact fun group member => (List.not_mem_nil member).elim

/-- A heartbeat before 1970 is one for the query alone, and a name in the pool is in use for the
query alone. -/
theorem not_available_as_claimable :
    (AsSaved oneAddress (onePool "203.0.113.7" (by decide) (-5) "") 10 ∧
      Claimable (onePool "203.0.113.7" (by decide) (-5) "") 10
        (oneRow "203.0.113.7" (by decide)) ∧
      (hydrated oneAddress.toEntryLibrary (onePool "203.0.113.7" (by decide) (-5) "") 10
        (oneRow "203.0.113.7" (by decide))).available = false) ∧
    AsSaved oneAddress (onePool "node.example" (by decide) 5 "node.example") 10 ∧
      ¬Claimable (onePool "node.example" (by decide) 5 "node.example") 10
        (oneRow "node.example" (by decide)) ∧
      (hydrated oneAddress.toEntryLibrary
        (onePool "node.example" (by decide) 5 "node.example") 10
        (oneRow "node.example" (by decide))).available = true := by
  refine ⟨⟨onePool_asSaved _ (by decide) (.inl rfl), ?_, by decide +kernel⟩,
    onePool_asSaved _ (by decide) (.inr ⟨"node.example", by decide +kernel⟩), ?_,
    by decide +kernel⟩
  · constructor
    case enabled => decide
    case rested => decide
    case noPolicy =>
      rintro ⟨policy, member, same⟩
      obtain rfl := List.mem_singleton.mp member
      exact absurd same (by decide)
    case noGroup =>
      rintro ⟨group, member, -⟩
      exact List.not_mem_nil member
    case someProbe => exact ⟨_, List.mem_singleton_self _, by decide⟩
    case everyProbe =>
      rintro ⟨probe, member, -, ill⟩
      obtain rfl := List.mem_singleton.mp member
      exact ill ⟨_, List.mem_singleton_self _, by decide⟩
  · intro claimable
    exact claimable.noPolicy ⟨_, List.mem_singleton_self _, by decide⟩

end ForestPanel.BackupIP
