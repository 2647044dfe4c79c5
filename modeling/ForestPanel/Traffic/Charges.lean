import Mathlib.Algebra.BigOperators.Group.List.Basic
import ForestPanel.ClientEntry.Normal
import ForestPanel.Traffic.Push

/-!
# Traffic is charged once

As long as no call fails after its traffic job was accepted, the users are the old ones
with the usages of the successful reports added, each report once and whole.
-/
namespace ForestPanel.Traffic

open ClientEntry Double Transition
open Decimal (Fits)

/-- The product fits, is not negative, and its double rounds to the same integer. -/
def Exact (value : Int) (rate : ℚ) : Prop :=
  0 ≤ roundAway (value * rate) ∧ roundAway (value * rate) ≤ 9223372036854775807 ∧
    roundAway (nearest (nearest value * rate)) = roundAway (value * rate)

instance (value : Int) (rate : ℚ) : Decidable (Exact value rate) :=
  inferInstanceAs (Decidable (_ ∧ _ ∧ _))

/-- Usage times rate, rounded, and never negative; nothing where the rate is no number. -/
def amount (value : Int) : Float64 → Int
  | .finite rate => max 0 (roundAway (value * rate))
  | _ => 0

def ExactAt (value : Int) : Float64 → Prop
  | .finite rate => 0 < rate ∧ Exact value rate
  | _ => value = 0

instance (value : Int) : ∀ rate, Decidable (ExactAt value rate)
  | .finite rate => inferInstanceAs (Decidable (0 < rate ∧ Exact value rate))
  | .nan => inferInstanceAs (Decidable (value = 0))
  | .infinity _ => inferInstanceAs (Decidable (value = 0))

theorem scaleTraffic_exact {value : Int} {rate : Float64} (fits : Fits value)
    (exact' : ExactAt value rate) : scaleTraffic value rate = amount value rate := by
  unfold scaleTraffic
  split
  next zero =>
    subst zero
    cases rate with
    | finite rate =>
      have none : roundAway 0 = 0 := by exact_mod_cast roundAway_int 0
      rw [amount, Int.cast_zero, zero_mul, none, max_self]
    | nan => rfl
    | infinity _ => rfl
  next nonzero =>
    cases rate with
    | nan => exact absurd exact' nonzero
    | infinity _ => exact absurd exact' nonzero
    | finite rate =>
      obtain ⟨positive, low, high, same⟩ := exact'
      have kept : (Float64.finite rate).nonpositive = false :=
        decide_eq_false (not_le.mpr positive)
      have near := abs_lt_of_roundAway (same ▸ low) (same ▸ high)
      have top : (9223372036854775807 : ℤ) + 1 < (2 : ℚ) ^ 1024 := by
        calc ((9223372036854775807 : ℤ) : ℚ) + 1 = 2 ^ 63 := by norm_num
          _ < 2 ^ 1024 := pow_lt_pow_right₀ (by norm_num) (by norm_num)
      dsimp only
      rw [kept, if_neg Bool.false_ne_true, ofInt_eq (abs_le.mpr ⟨fits.1, fits.2.trans (by norm_num)⟩), Float64.mul, Float64.ofRat,
        if_neg (not_le.mpr (near.trans top)), Float64.round, same,
        toInt64_int (by omega) high, amount, max_eq_right low]

def charge (report : TrafficReport) (id : Int) : TrafficUsage :=
  match report.traffic.entries.find? (·.1 = id) with
  | some entry => ⟨amount entry.2.u report.serverRate, amount entry.2.d report.serverRate⟩
  | none => ⟨0, 0⟩

def charged (report : TrafficReport) (entry : Int × TrafficUsage) : Bool :=
  decide (0 < entry.1 ∧
    ¬(amount entry.2.u report.serverRate = 0 ∧ amount entry.2.d report.serverRate = 0))

/-- The amounts are exact, and one statement takes them all. -/
structure Payable (report : TrafficReport) : Prop where
  exact' : ∀ entry ∈ report.traffic.entries, 0 < entry.1 →
    ExactAt entry.2.u report.serverRate ∧ ExactAt entry.2.d report.serverRate
  few : report.traffic.entries.countP (charged report) * 3 + 1 ≤ maxParameters

instance (report : TrafficReport) : Decidable (Payable report) :=
  decidable_of_iff
    ((∀ entry ∈ report.traffic.entries, 0 < entry.1 →
      ExactAt entry.2.u report.serverRate ∧ ExactAt entry.2.d report.serverRate) ∧
      report.traffic.entries.countP (charged report) * 3 + 1 ≤ maxParameters)
    ⟨fun h => ⟨h.1, h.2⟩, fun h => ⟨h.exact', h.few⟩⟩

section

variable {report : TrafficReport}

def change (report : TrafficReport) (entry : Int × TrafficUsage) : Int × TrafficUsage :=
  (entry.1, ⟨amount entry.2.u report.serverRate, amount entry.2.d report.serverRate⟩)

theorem changes_eq (payable : Payable report) :
    changes report = (report.traffic.entries.filter (charged report)).map (change report) := by
  have exact' := payable.exact'
  have fits := report.traffic.fits
  unfold changes
  clear payable
  generalize report.traffic.entries = entries at exact' fits
  induction entries with
  | nil => rfl
  | cons entry rest ih =>
    have later := ih (fun e member => exact' e (List.mem_cons_of_mem _ member))
      (fun e member => fits e (List.mem_cons_of_mem _ member))
    have here : ∀ positive : 0 < entry.1,
        scaleTraffic entry.2.u report.serverRate = amount entry.2.u report.serverRate ∧
        scaleTraffic entry.2.d report.serverRate = amount entry.2.d report.serverRate :=
      fun positive =>
        ⟨scaleTraffic_exact (fits entry List.mem_cons_self).1
            (exact' entry List.mem_cons_self positive).1,
          scaleTraffic_exact (fits entry List.mem_cons_self).2
            (exact' entry List.mem_cons_self positive).2⟩
    rw [List.map_cons, List.filter_cons, List.filter_cons]
    by_cases positive : 0 < entry.1
    · obtain ⟨u, d⟩ := here positive
      dsimp only
      rw [u, d]
      have same : (decide ¬(entry.1 ≤ 0 ∨ (amount entry.2.u report.serverRate = 0 ∧
          amount entry.2.d report.serverRate = 0))) = charged report entry := by
        apply decide_eq_decide.mpr
        rw [not_or, Int.not_le]
      rw [same]
      split
      · rw [List.map_cons, later]
        rfl
      · exact later
    · have skipped : charged report entry = false := decide_eq_false fun here => positive here.1
      rw [skipped, if_neg (by simpa using fun above => absurd above positive),
        if_neg Bool.false_ne_true, later]

private theorem find?_change {entries : List (Int × TrafficUsage)} {id : Int} :
    ((entries.filter (charged report)).map (change report)).find? (·.1 = id) =
      ((entries.filter (charged report)).find? (·.1 = id)).map (change report) := by
  rw [List.find?_map]
  rfl

private theorem find?_filter {entries : List (Int × TrafficUsage)} {id : Int}
    (nodup : (entries.map Prod.fst).Nodup) :
    (entries.filter (charged report)).find? (·.1 = id) =
      (entries.find? (·.1 = id)).filter (charged report) := by
  induction entries with
  | nil => rfl
  | cons entry rest ih =>
    obtain ⟨absent, nodup⟩ := List.nodup_cons.mp nodup
    rw [List.filter_cons, List.find?_cons]
    by_cases here : entry.1 = id
    · rw [decide_eq_true here]
      have gone : (rest.filter (charged report)).find? (·.1 = id) = none := by
        rw [List.find?_eq_none]
        intro other member same
        refine absent ?_
        rw [here, ← of_decide_eq_true same]
        exact List.mem_map_of_mem (List.mem_filter.mp member).1
      cases pays : charged report entry with
      | true =>
        rw [Option.filter_some, pays, if_pos rfl, List.find?_cons, decide_eq_true here]
        rfl
      | false =>
        rw [Option.filter_some, pays]
        exact gone
    · rw [decide_eq_false here]
      split
      · rw [List.find?_cons, decide_eq_false here]
        exact ih nodup
      · exact ih nodup

def Room (users : Int → Option User) (report : TrafficReport) : Prop :=
  ∀ entry ∈ report.traffic.entries, charged report entry = true → ∀ user ∈ users entry.1,
    Fits (user.u + amount entry.2.u report.serverRate) ∧
      Fits (user.d + amount entry.2.d report.serverRate)

instance (users : Int → Option User) (report : TrafficReport) : Decidable (Room users report) :=
  inferInstanceAs (Decidable (∀ entry ∈ report.traffic.entries, charged report entry = true →
    ∀ user ∈ users entry.1, Fits (user.u + amount entry.2.u report.serverRate) ∧
      Fits (user.d + amount entry.2.d report.serverRate)))

def counters (user : User) : Int × Int := (user.u, user.d)

def grown (usage : TrafficUsage) (c : Int × Int) : Int × Int := (c.1 + usage.u, c.2 + usage.d)

theorem applyTrafficFetch_payable (payable : Payable report) {users : Int → Option User}
    (room : Room users report) (now id : Int) (positive : 0 < id) :
    (applyTrafficFetch users report now id).map counters =
      ((users id).map counters).map (grown (charge report id)) := by
  have size : (changes report).length = report.traffic.entries.countP (charged report) := by
    rw [changes_eq payable, List.length_map, List.countP_eq_length_filter]
  have few := payable.few
  have fits : (changes report).all (fun change => (users change.1).all fun user =>
      decide (Fits (user.u + change.2.u) ∧ Fits (user.d + change.2.d))) = true := by
    rw [changes_eq payable, List.all_eq_true]
    intro c member
    obtain ⟨entry, listed, rfl⟩ := List.mem_map.mp member
    obtain ⟨member, pays⟩ := List.mem_filter.mp listed
    rw [Option.all_eq_true]
    exact fun user found => decide_eq_true (room entry member pays user found)
  unfold applyTrafficFetch
  rw [size, if_neg (by omega), if_pos fits, changes_eq payable]
  rw [find?_change, find?_filter report.traffic.nodup]
  unfold charge
  cases found : report.traffic.entries.find? (·.1 = id) with
  | none =>
    cases users id with
    | none => rfl
    | some user => simp [counters, grown]
  | some entry =>
    have same : entry.1 = id := by simpa using List.find?_some found
    cases pays : charged report entry with
    | true =>
      rw [Option.filter_some, pays, if_pos rfl]
      cases users id <;> rfl
    | false =>
      -- nothing is charged, and nothing is added
      have none := of_decide_eq_false pays
      rw [same, not_and, not_not] at none
      obtain ⟨u, d⟩ := none positive
      rw [Option.filter_some, pays, if_neg Bool.false_ne_true]
      dsimp only [Option.map_none]
      rw [u, d]
      cases users id with
      | none => rfl
      | some user => simp [counters, grown]

end

/-- The report of a call whose traffic job the queue accepts. -/
def accepts (lib : StandardLibrary) (castRate : String → Option Float64) (w : World)
    (req : TrafficPushRequest) (faults : Faults) : Option TrafficReport :=
  let nodeType := Alive.normalizeNodeType lib req.nodeType
  if req.nodeID ≤ 0 ∨ nodeType = "" ∨ req.traffic.entries = [] ∨ faults.traffic = true then none
  else
    match loadNodeRate castRate w nodeType req.nodeID faults.rate with
    | .error _ => none
    | .ok rate => some ⟨req.nodeID, nodeType, rate, req.traffic⟩

/-- No call fails after its traffic job was accepted, an accepted report is payable, and
the sums of the users fit when its job runs. -/
def Chargeable (lib : StandardLibrary) (castRate : String → Option Float64) (w : World) :
    Act → Prop
  | .push req faults _ => ∀ report ∈ accepts lib castRate w req faults,
      faults.stat = false ∧ faults.lastPushAt = false ∧ faults.onlineUser = false ∧ Payable report
  | .work _ => ∀ report ∈ w.jobs.head?.bind fun job =>
      match job with
      | .trafficFetch report => some report
      | .stat _ => none, Room w.users report

instance (lib : StandardLibrary) (castRate : String → Option Float64) (w : World) :
    ∀ act, Decidable (Chargeable lib castRate w act)
  | .push req faults _ => inferInstanceAs (Decidable (∀ report ∈ accepts lib castRate w req faults,
      faults.stat = false ∧ faults.lastPushAt = false ∧ faults.onlineUser = false ∧ Payable report))
  | .work _ => inferInstanceAs (Decidable (∀ report ∈ w.jobs.head?.bind fun job =>
      match job with
      | .trafficFetch report => some report
      | .stat _ => none, Room w.users report))

def pendingReports (jobs : List Job) : List TrafficReport :=
  jobs.filterMap fun job =>
    match job with
    | .trafficFetch report => some report
    | .stat _ => none

def total (reports : List TrafficReport) (id : Int) : TrafficUsage :=
  ⟨(reports.map fun report => (charge report id).u).sum,
    (reports.map fun report => (charge report id).d).sum⟩

/-- What the successful reports have made of the users. -/
structure ChargedOnce (before w : World) : Prop where
  /-- The reports whose call returned nil are those charged and those whose job waits, each
  once; a call that returned an error has left no job. -/
  once : w.answered = w.ran ++ pendingReports w.jobs
  /-- Every user has grown by what the reports charged add, each of them whole. -/
  users : ∀ id, 0 < id → (w.users id).map counters =
    ((before.users id).map counters).map (grown (total w.ran id))

section

variable {lib : StandardLibrary} {castRate : String → Option Float64} {w : World}
  {req : TrafficPushRequest} {faults : Faults} {now : Int}

private theorem push_refused (refused : accepts lib castRate w req faults = none) :
    (pushTraffic lib castRate w req faults now).2 = w := by
  unfold accepts at refused
  unfold pushTraffic
  generalize Alive.normalizeNodeType lib req.nodeType = nodeType at refused ⊢
  dsimp only at refused ⊢
  split
  · rfl
  next target =>
    split
    · rfl
    next some =>
      split
      · rfl
      next rate loaded =>
        have faulty : faults.traffic = true := by
          by_contra fine
          rw [if_neg (by tauto), loaded] at refused
          cases refused
        have queued : queueTrafficReport w ⟨req.nodeID, nodeType, rate, req.traffic⟩ faults =
            (.error .enqueue, w) := by
          unfold queueTrafficReport
          rw [if_neg (by tauto), if_pos faulty]
        rw [queued]

private theorem push_accepted {report : TrafficReport} (now : Int)
    (accepted : accepts lib castRate w req faults = some report)
    (fine : faults.stat = false ∧ faults.lastPushAt = false ∧ faults.onlineUser = false) :
    ∃ runtime, pushTraffic lib castRate w req faults now = (.ok (), { w with
      runtime
      jobs := w.jobs ++ [.trafficFetch report] ++ [.stat report]
      answered := w.answered ++ [report] }) := by
  unfold accepts at accepted
  unfold pushTraffic
  generalize Alive.normalizeNodeType lib req.nodeType = nodeType at accepted ⊢
  dsimp only at accepted ⊢
  split at accepted
  · cases accepted
  next can =>
    split at accepted
    · cases accepted
    next rate loaded =>
      cases accepted
      obtain ⟨stat, lastPushAt, onlineUser⟩ := fine
      have target : ¬(req.nodeID ≤ 0 ∨ nodeType = "") := by tauto
      have reported : req.traffic.entries ≠ [] := by tauto
      simp only [if_neg target, if_neg reported, loaded]
      have queued : queueTrafficReport w ⟨req.nodeID, nodeType, rate, req.traffic⟩ faults =
          (.ok (), { w with
            jobs := w.jobs ++ [.trafficFetch ⟨req.nodeID, nodeType, rate, req.traffic⟩] ++
              [.stat ⟨req.nodeID, nodeType, rate, req.traffic⟩] }) := by
        unfold queueTrafficReport
        rw [if_neg (by tauto), if_neg (by tauto), stat, if_neg Bool.false_ne_true]
      rw [queued]
      dsimp only
      rw [lastPushAt, onlineUser, if_neg Bool.false_ne_true, if_neg Bool.false_ne_true]
      exact ⟨_, rfl⟩

private theorem pendingReports_append (jobs more : List Job) :
    pendingReports (jobs ++ more) = pendingReports jobs ++ pendingReports more :=
  List.filterMap_append

structure Inv (before w : World) : Prop where
  charged : ChargedOnce before w
  payable : ∀ report ∈ pendingReports w.jobs, Payable report

private theorem total_append (reports : List TrafficReport) (report : TrafficReport) (id : Int)
    (c : Int × Int) : grown (total (reports ++ [report]) id) c =
      grown (charge report id) (grown (total reports id) c) := by
  simp only [grown, total, List.map_append, List.map_cons, List.map_nil, List.sum_append,
    List.sum_cons, List.sum_nil, add_zero, add_assoc]

private theorem Inv.push {before : World} (inv : Inv before w)
    (chargeable : Chargeable lib castRate w (.push req faults now)) :
    Inv before (pushTraffic lib castRate w req faults now).2 := by
  cases accepted : accepts lib castRate w req faults with
  | none =>
    rw [push_refused accepted]
    exact inv
  | some report =>
    obtain ⟨stat, lastPushAt, onlineUser, payable⟩ := chargeable report accepted
    obtain ⟨runtime, answered⟩ := push_accepted now accepted ⟨stat, lastPushAt, onlineUser⟩
    have pending : pendingReports (w.jobs ++ [.trafficFetch report] ++ [.stat report]) =
        pendingReports w.jobs ++ [report] := by
      rw [pendingReports_append, pendingReports_append]
      exact List.append_nil _
    rw [answered]
    refine ⟨⟨?_, inv.charged.users⟩, ?_⟩
    · show w.answered ++ [report] = w.ran ++ pendingReports _
      rw [pending, inv.charged.once, List.append_assoc]
    · intro other member
      have member : other ∈ pendingReports w.jobs ++ [report] := pending ▸ member
      rcases List.mem_append.mp member with old | new
      · exact inv.payable other old
      · obtain rfl := List.mem_singleton.mp new
        exact payable

private theorem Inv.work {before : World} (inv : Inv before w)
    (chargeable : Chargeable lib castRate w (.work now)) : Inv before (work w now) := by
  unfold Chargeable at chargeable
  unfold Traffic.work
  split
  · exact inv
  next report rest jobs =>
    have first : pendingReports w.jobs = report :: pendingReports rest := by rw [jobs]; rfl
    rw [jobs] at chargeable
    have room : Room w.users report := chargeable report rfl
    have payable := inv.payable report (by rw [first]; exact List.mem_cons_self)
    refine ⟨⟨?_, ?_⟩, ?_⟩
    · show w.answered = w.ran ++ [report] ++ pendingReports rest
      rw [inv.charged.once, first, List.append_assoc]
      rfl
    · intro id positive
      show (applyTrafficFetch w.users report now id).map counters = _
      rw [applyTrafficFetch_payable payable room now id positive, inv.charged.users id positive,
        Option.map_map]
      congr 1
      funext c
      exact (total_append w.ran report id c).symm
    · intro other member
      exact inv.payable other (by rw [first]; exact List.mem_cons_of_mem _ member)
  next report rest jobs =>
    have same : pendingReports w.jobs = pendingReports rest := by rw [jobs]; rfl
    refine ⟨⟨?_, inv.charged.users⟩, ?_⟩
    · rw [inv.charged.once, same]
    · rw [← same]
      exact inv.payable

/-- In a chargeable run every successful report is charged once and whole. -/
theorem traffic_charged_once (lib : StandardLibrary) (castRate : String → Option Float64)
    (before : World) (jobs : before.jobs = []) (answered : before.answered = [])
    (ran : before.ran = []) (acts : List Act)
    (chargeable : Along (step lib castRate) (Chargeable lib castRate) before acts) :
    ChargedOnce before (run (step lib castRate) before acts) := by
  have start : Inv before before := by
    refine ⟨⟨?_, ?_⟩, ?_⟩
    · rw [jobs, answered, ran]
      rfl
    · intro id _
      rw [ran]
      cases before.users id with
      | none => rfl
      | some user => simp [counters, grown, total]
    · rw [jobs]
      nofun
  refine (run_invariant (I := Inv before) ?_ before acts start chargeable).charged
  intro w act inv chargeable
  cases act with
  | push req faults now => exact inv.push chargeable
  | work now => exact inv.work chargeable

end

/-! A shop with one user and one node of rate 2. -/

def smallShop : World where
  users id := if id = 1 then some ⟨10, 20, 0⟩ else none
  rates nodeType nodeID := if nodeType = "vmess" ∧ nodeID = 1 then some "2" else none
  runtime _ := none
  jobs := []
  answered := []
  ran := []

def castSmall (text : String) : Option Float64 :=
  if text = "2" then some (.finite 2) else none

def usages (u d : Int) (fits : Fits u ∧ Fits d) : Usages where
  entries := [(1, ⟨u, d⟩)]
  nodup := List.nodup_singleton _
  fits := by
    intro e member
    obtain rfl := List.mem_singleton.mp member
    exact fits

def noFaults : Faults := ⟨false, false, false, false, false⟩

/-- The first enqueue of the first call fails, and the node repeats its report. -/
def repeatedReport : List Act :=
  [.push ⟨1, " V2ray", usages 100 50 (by decide)⟩ { noFaults with traffic := true } 5,
    .push ⟨1, " V2ray", usages 100 50 (by decide)⟩ noFaults 6, .work 7, .work 8]

theorem repeated_report_charged_once :
    (run (step asciiLibrary castSmall) smallShop repeatedReport).users 1 = some ⟨210, 120, 7⟩ ∧
    ChargedOnce smallShop (run (step asciiLibrary castSmall) smallShop repeatedReport) :=
  ⟨by decide +kernel,
    traffic_charged_once asciiLibrary castSmall smallShop rfl rfl rfl repeatedReport
      (by decide +kernel)⟩

/-- The call fails after its traffic job was accepted, and the node repeats its report. -/
def lateFailure (faults : Faults) : List Act :=
  [.push ⟨1, "vmess", usages 100 50 (by decide)⟩ faults 5,
    .push ⟨1, "vmess", usages 100 50 (by decide)⟩ noFaults 6, .work 7, .work 8, .work 9, .work 10]

/-- A late failure of any of the three kinds charges the report twice; a negative usage
takes traffic back. -/
theorem report_charged_twice :
    (∀ faults ∈ [{ noFaults with stat := true }, { noFaults with lastPushAt := true },
        { noFaults with onlineUser := true }],
      (pushTraffic asciiLibrary castSmall smallShop
        ⟨1, "vmess", usages 100 50 (by decide)⟩ faults 5).1 ≠ .ok () ∧
      ((run (step asciiLibrary castSmall) smallShop (lateFailure faults)).users 1).map counters =
        some (10 + 2 * (100 * 2), 20 + 2 * (50 * 2))) ∧
    ((run (step asciiLibrary castSmall) smallShop
      [.push ⟨1, "vmess", usages (-3) 0 (by decide)⟩ noFaults 5, .work 6]).users 1).map counters =
        some (4, 20) := by
  decide +kernel

end ForestPanel.Traffic
