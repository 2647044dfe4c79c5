import Mathlib.Data.List.Nodup
import Mathlib.Data.List.Perm.Basic
import Mathlib.Algebra.BigOperators.Group.List.Basic
import ForestPanel.Alive.Reports
import ForestPanel.ClientEntry.Normal

/-!
# No report is lost

As long as no other node stores a user between the load and the store of a call, and no
entry passes its 100 seconds between the clock reading of a call and its store, the
stored state of a user is that of the newest report of every node.
-/
namespace ForestPanel.Alive

open ClientEntry Transition

/-- A list of trimmed texts, none of them empty. -/
def Visible (ips : List String) : Prop := ∀ ip ∈ ips, trimSpace ip = ip ∧ ip ≠ ""

theorem visible_stringList (items : List String) : Visible (stringList items) := by
  intro ip member
  obtain ⟨trimmed, nonempty⟩ := List.mem_filter.mp member
  obtain ⟨item, -, rfl⟩ := List.mem_map.mp trimmed
  exact ⟨trimSpace_trimSpace item, of_decide_eq_true nonempty⟩

variable {ips : List String} {n : Nat} {mode : Int} {state : AliveState} {c : Call}

theorem stringList_of_visible (visible : Visible ips) : stringList ips = ips := by
  have trimmed : ips.map trimSpace = ips := by
    conv_rhs => rw [← List.map_id ips]
    exact List.map_congr_left fun ip member => (visible ip member).1
  rw [stringList, trimmed, List.filter_eq_self]
  exact fun ip member => decide_eq_true (visible ip member).2

private theorem toDigits_injective {m : Nat} (same : Nat.toDigits 10 n = Nat.toDigits 10 m) :
    n = m := by
  have size : ∀ n, Nat.ofDigitChars 10 (Nat.toDigits 10 n) 0 = n := fun n =>
    Nat.ofDigitChars_toDigits (by decide) (by decide)
  rw [← size n, same, size m]

def Node.Known (node : Node) : Prop := node.nodeType ∈ nodeServerTables ∧ 0 < node.nodeID

private theorem types_end :
    ∀ t ∈ nodeServerTables, t.toList.reverse.dropWhile Char.isDigit = t.toList.reverse := by
  decide

theorem key_injective {node node' : Node} (known : node.Known) (known' : node'.Known)
    (same : node.key = node'.key) : node = node' := by
  have digits : ∀ node : Node, node.Known →
      Decimal.format node.nodeID = Nat.toDigits 10 node.nodeID.natAbs := fun node known => by
    rw [Decimal.format, if_neg (by have := known.2; omega)]
  have chars := congrArg (fun s => s.toList.reverse) same
  simp only [Node.key, String.toList_append, String.toList_ofList, List.reverse_append,
    digits node known, digits node' known'] at chars
  have cut : ∀ node : Node, node.Known →
      ((Nat.toDigits 10 node.nodeID.natAbs).reverse ++ node.nodeType.toList.reverse).dropWhile
        Char.isDigit = node.nodeType.toList.reverse := by
    intro node known
    rw [List.dropWhile_append_of_pos, types_end _ known.1]
    intro c member
    exact Decimal.toDigits_isDigit (List.mem_reverse.mp member)
  have types : node.nodeType.toList.reverse = node'.nodeType.toList.reverse := by
    rw [← cut node known, ← cut node' known', chars]
  rw [types] at chars
  have ids := toDigits_injective (List.reverse_inj.mp (List.append_cancel_right chars))
  obtain ⟨t, i⟩ := node
  obtain ⟨t', i'⟩ := node'
  have sameType : t = t' := String.toList_inj.mp (List.reverse_inj.mp types)
  have sameId : i = i' := by
    have positive : 0 < i := known.2
    have positive' : 0 < i' := known'.2
    dsimp only at ids
    omega
  rw [sameType, sameId]

def latest (reports : List Report) (u : Int) (node : Node) : Option Report :=
  reports.find? fun r => decide (r.user = u ∧ r.node = node)

/-- The newest reports on the user that are at most 100 seconds old. -/
def freshReports (reports : List Report) (u t : Int) : List Report :=
  (reports.filter fun r =>
    decide (r.user = u ∧ latest reports u r.node = some r ∧ t - r.reportedAt ≤ 100)).dedup

section

variable {reports : List Report} {u : Int} {node : Node} {r : Report}

theorem latest_cons : latest (r :: reports) u node =
    if r.user = u ∧ r.node = node then some r else latest reports u node := by
  unfold latest
  rw [List.find?_cons]
  split
  next here => rw [if_pos (of_decide_eq_true here)]
  next other => rw [if_neg (of_decide_eq_false other)]

theorem mem_of_latest (found : latest reports u node = some r) :
    r ∈ reports ∧ r.user = u ∧ r.node = node := by
  have here := List.find?_some found
  exact ⟨List.mem_of_find?_eq_some found, of_decide_eq_true here⟩

theorem latest_drop {k : Nat} (others : ∀ r ∈ reports.take k, r.user = u → r.node ≠ node) :
    latest (reports.drop k) u node = latest reports u node := by
  have none : (reports.take k).find? (fun r => decide (r.user = u ∧ r.node = node)) = none := by
    rw [List.find?_eq_none]
    intro r member here
    have here := of_decide_eq_true here
    exact others r member here.1 here.2
  unfold latest
  conv_rhs => rw [← List.take_append_drop k reports, List.find?_append, none]
  rfl

theorem mem_freshReports {t : Int} : r ∈ freshReports reports u t ↔
    r.user = u ∧ latest reports u r.node = some r ∧ t - r.reportedAt ≤ 100 := by
  unfold freshReports
  rw [List.mem_dedup, List.mem_filter]
  constructor
  · exact fun found => of_decide_eq_true found.2
  · exact fun fresh => ⟨(mem_of_latest fresh.2.1).1, decide_eq_true fresh⟩

end

theorem countIPs_perm {lists lists' : List (List String)} (perm : lists.Perm lists') :
    countIPs mode lists = countIPs mode lists' := by
  unfold countIPs
  split
  · have same : ((lists.flatten.map cutSuffix).filter (· ≠ "")).Perm
        ((lists'.flatten.map cutSuffix).filter (· ≠ "")) := (perm.flatten.map _).filter _
    rw [same.dedup.length_eq]
  · rw [(perm.map List.length).sum_eq]

structure Proper (r : Report) : Prop where
  known : r.node.Known
  visible : Visible r.ips
  before : r.reportedAt ≤ r.storedAt

/-- The row of a user: the newest reports that were fresh when it was stored. -/
structure Exact (reports : List Report) (u : Int) (row : Row) : Prop where
  expires : row.expireAt = row.updatedAt + 120
  nodup : (row.value.nodes.map Prod.fst).Nodup
  nodes : ∀ key e, (key, e) ∈ row.value.nodes ↔
    ∃ r ∈ freshReports reports u row.updatedAt, r.node.key = key ∧ r.entry = e
  last : ∃ last, reports.find? (·.user = u) = some last ∧ last.storedAt = row.updatedAt ∧
    row.value.aliveIP =
      countIPs last.deviceLimitMode (row.value.nodes.map fun node => node.2.aliveips)

/-- Without a row there is no report on the user. -/
def RowOf (reports : List Report) (u : Int) : Option Row → Prop
  | none => ∀ r ∈ reports, r.user ≠ u
  | some row => Exact reports u row

structure Snapshot (reports : List Report) (u : Int) (state : AliveState) (clock : Int) : Prop where
  nodup : (state.nodes.map Prod.fst).Nodup
  sound : ∀ key e, (key, e) ∈ state.nodes →
    ∃ r, latest reports u r.node = some r ∧ r.node.key = key ∧ r.entry = e
  complete : ∀ r, latest reports u r.node = some r → clock - r.reportedAt ≤ 100 →
    (r.node.key, r.entry) ∈ state.nodes

def Phase.todo : Phase → List (Int × List String)
  | .reading todo => todo
  | .loaded user ips _ _ todo => (user, ips) :: todo
  | _ => []

structure CallInv (reports : List Report) (clock : Int) (c : Call) : Prop where
  known : c.node.Known
  started : c.now ≤ clock
  visible : ∀ p ∈ c.users, Visible p.2
  todo : ∀ p ∈ c.phase.todo, p ∈ c.users
  snapshot : ∀ u ips state seen todo, c.phase = .loaded u ips state seen todo →
    seen ≤ reports.length ∧ Snapshot (reports.drop (reports.length - seen)) u state clock
  served : ∀ p ∈ c.users, 0 < p.1 → c.phase = .failed ∨ p ∈ c.phase.todo ∨
    ∃ r ∈ reports, r.user = p.1 ∧ r.node = c.node ∧ r.ips = p.2 ∧ r.reportedAt = c.now

structure Inv (w : World) : Prop where
  proper : ∀ r ∈ w.reports, Proper r ∧ r.storedAt ≤ w.clock
  ordered : w.reports.Pairwise fun newer older => older.storedAt ≤ newer.storedAt
  rows : ∀ u, RowOf w.reports u (w.kv u)
  calls : ∀ c ∈ w.calls, CallInv w.reports w.clock c

section

variable {w : World} {u : Int}

private theorem stored_before {reports : List Report} {last r : Report}
    (ordered : reports.Pairwise fun newer older => older.storedAt ≤ newer.storedAt)
    (found : reports.find? (·.user = u) = some last) (member : r ∈ reports) (own : r.user = u) :
    r.storedAt ≤ last.storedAt := by
  induction reports with
  | nil => cases member
  | cons first rest ih =>
    rw [List.find?_cons] at found
    obtain ⟨newest, ordered⟩ := List.pairwise_cons.mp ordered
    split at found
    · obtain rfl := Option.some.inj found
      rcases List.mem_cons.mp member with rfl | later
      · exact Int.le_refl _
      · exact newest r later
    next other =>
      rcases List.mem_cons.mp member with rfl | later
      · exact absurd own (of_decide_eq_false other)
      · exact ih ordered found later

theorem Inv.reported_before (inv : Inv w) {row : Row} (exact' : Exact w.reports u row) {r : Report}
    (member : r ∈ w.reports) (own : r.user = u) : r.reportedAt ≤ row.updatedAt := by
  obtain ⟨last, found, stored, -⟩ := exact'.last
  have := (inv.proper r member).1.before
  have := Alive.stored_before inv.ordered found member own
  omega

theorem Inv.snapshot (inv : Inv w) (u : Int) :
    Snapshot w.reports u (w.loadAliveState u) w.clock := by
  have row := inv.rows u
  unfold World.loadAliveState
  cases found : w.kv u with
  | none =>
    rw [found] at row
    refine ⟨List.nodup_nil, nofun, ?_⟩
    intro r newest
    obtain ⟨member, own, -⟩ := mem_of_latest newest
    exact absurd own (row r member)
  | some stored =>
    rw [found] at row
    dsimp only
    split
    next expired =>
      -- a row that has expired was stored 120 seconds ago
      refine ⟨List.nodup_nil, nofun, ?_⟩
      intro r newest fresh
      obtain ⟨member, own, -⟩ := mem_of_latest newest
      have := inv.reported_before row member own
      have := row.expires
      omega
    · refine ⟨row.nodup, ?_, ?_⟩
      · intro key e member
        obtain ⟨r, fresh, named, same⟩ := (row.nodes key e).mp member
        exact ⟨r, (mem_freshReports.mp fresh).2.1, named, same⟩
      · intro r newest fresh
        obtain ⟨-, own, -⟩ := mem_of_latest newest
        obtain ⟨last, first, at', -⟩ := row.last
        refine (row.nodes _ _).mpr ⟨r, mem_freshReports.mpr ⟨own, newest, ?_⟩, rfl, rfl⟩
        have := (inv.proper last (List.mem_of_find?_eq_some first)).2
        omega

/-- No other node has stored the user since the call loaded it, and no entry, and not the
report itself, has passed its 100 seconds since the call read its clock. -/
def undisturbed (w : World) (n : Nat) : Bool :=
  match w.calls[n]? with
  | some c =>
    match c.phase with
    | .loaded user _ state seen _ =>
      (w.reports.take (w.reports.length - seen)).all
        (fun r => decide (r.user = user → r.node = c.node)) &&
      (c.now :: state.nodes.map (·.2.lastupdateAt)).all
        fun t => decide (c.now - t ≤ 100 → w.clock - t ≤ 100)
    | _ => true
  | none => true

def Undisturbed (w : World) : Act → Prop
  | .store n _ => undisturbed w n = true
  | _ => True

instance (w : World) : ∀ act, Decidable (Undisturbed w act)
  | .store n _ => inferInstanceAs (Decidable (undisturbed w n = true))
  | .tick _ | .report .. | .load .. | .finish _ => isTrue trivial

private theorem mem_reportState {key : String} {now : Int} {p : String × AliveEntry} :
    p ∈ (reportState state key ips now mode).nodes ↔
      p = (key, ⟨ips, now⟩) ∨
        p ∈ state.nodes ∧ p.1 ≠ key ∧ now - p.2.lastupdateAt ≤ 100 := by
  unfold reportState
  rw [List.mem_filter, List.mem_cons, List.mem_filter, decide_eq_true_iff, decide_eq_true_iff,
    Int.not_lt]
  constructor
  · rintro ⟨rfl | ⟨member, other⟩, fresh⟩
    · exact Or.inl rfl
    · exact Or.inr ⟨member, other, fresh⟩
  · rintro (rfl | ⟨member, other, fresh⟩)
    · exact ⟨Or.inl rfl, by simp⟩
    · exact ⟨Or.inr ⟨member, other⟩, fresh⟩

private theorem nodup_reportState {key : String} {now : Int}
    (nodup : (state.nodes.map Prod.fst).Nodup) :
    ((reportState state key ips now mode).nodes.map Prod.fst).Nodup := by
  have kept : ((state.nodes.filter (·.1 ≠ key)).map Prod.fst).Nodup :=
    nodup.sublist (List.filter_sublist.map _)
  have all : (((key, (⟨ips, now⟩ : AliveEntry)) :: state.nodes.filter (·.1 ≠ key)).map
      Prod.fst).Nodup := by
    rw [List.map_cons, List.nodup_cons]
    refine ⟨?_, kept⟩
    intro member
    obtain ⟨p, listed, same⟩ := List.mem_map.mp member
    exact of_decide_eq_true (List.mem_filter.mp listed).2 same
  exact all.sublist (List.filter_sublist.map _)

private theorem exact_write (inv : Inv w) {seen : Nat} (known : c.node.Known)
    (visible : Visible ips) (started : c.now ≤ w.clock)
    (snapshot : Snapshot (w.reports.drop (w.reports.length - seen)) u state w.clock)
    (alone : ∀ r ∈ w.reports.take (w.reports.length - seen), r.user = u → r.node = c.node)
    (quick : ∀ t ∈ c.now :: state.nodes.map (·.2.lastupdateAt),
      c.now - t ≤ 100 → w.clock - t ≤ 100) :
    RowOf (w.write c u ips state).reports u ((w.write c u ips state).kv u) := by
  have row : (w.write c u ips state).kv u = some
      ⟨reportState state c.node.key ips c.now c.deviceLimitMode, w.clock + 120, w.clock⟩ :=
    Function.update_self ..
  rw [row]
  -- the newest report of another node is the one the call has loaded
  have others : ∀ node, node ≠ c.node →
      latest (w.write c u ips state).reports u node =
        latest (w.reports.drop (w.reports.length - seen)) u node := by
    intro node other
    unfold World.write
    rw [latest_cons, if_neg (fun here => other here.2.symm)]
    exact (latest_drop fun r member own same =>
      other (same.symm.trans (alone r member own))).symm
  have own : latest (w.write c u ips state).reports u c.node =
      some ⟨u, c.node, ips, c.now, w.clock, c.deviceLimitMode⟩ := by
    unfold World.write
    rw [latest_cons, if_pos ⟨rfl, rfl⟩]
  have drawn : ∀ {node r}, latest (w.reports.drop (w.reports.length - seen)) u node = some r →
      Proper r ∧ r.user = u ∧ r.node = node := by
    intro node r found
    obtain ⟨member, same⟩ := mem_of_latest found
    exact ⟨(inv.proper r (List.mem_of_mem_drop member)).1, same⟩
  have nodes : ∀ key e,
      (key, e) ∈ (reportState state c.node.key ips c.now c.deviceLimitMode).nodes ↔
        ∃ r ∈ freshReports (w.write c u ips state).reports u w.clock,
          r.node.key = key ∧ r.entry = e := by
    intro key e
    rw [mem_reportState]
    constructor
    · rintro (here | ⟨member, other, fresh⟩)
      · cases here
        have fresh := quick _ List.mem_cons_self (by omega)
        exact ⟨⟨u, c.node, ips, c.now, w.clock, c.deviceLimitMode⟩,
          mem_freshReports.mpr ⟨rfl, own, fresh⟩, rfl, rfl⟩
      · obtain ⟨r, newest, rfl, rfl⟩ := snapshot.sound key e member
        obtain ⟨-, same, -⟩ := drawn newest
        have different : r.node ≠ c.node := fun same => other (congrArg Node.key same)
        refine ⟨r, mem_freshReports.mpr ⟨same, (others _ different).trans newest, ?_⟩, rfl, rfl⟩
        exact quick _ (List.mem_cons_of_mem _ (List.mem_map_of_mem member)) fresh
    · rintro ⟨r, listed, rfl, rfl⟩
      obtain ⟨-, newest, fresh⟩ := mem_freshReports.mp listed
      by_cases here : r.node = c.node
      · left
        rw [here, own] at newest
        cases newest
        rfl
      · right
        rw [others _ here] at newest
        refine ⟨snapshot.complete r newest fresh, ?_, ?_⟩
        · exact fun same => here (key_injective (drawn newest).1.known known same)
        · have younger : c.now - r.reportedAt ≤ 100 := by omega
          exact younger
  refine ⟨rfl, nodup_reportState snapshot.nodup, nodes, ?_⟩
  refine ⟨_, List.find?_cons_of_pos (by simp), rfl, ?_⟩
  refine congrArg (countIPs c.deviceLimitMode) (List.map_congr_left fun p member => ?_)
  split
  · rfl
  next other =>
    obtain ⟨r, listed, -, same⟩ := (nodes p.1 p.2).mp member
    rw [← same]
    rcases List.mem_cons.mp (mem_of_latest (mem_freshReports.mp listed).2.1).1 with rfl | older
    · exact stringList_of_visible visible
    · exact stringList_of_visible (inv.proper r older).1.visible

/-- Calls that have loaded other users, and rows of other users, know nothing of the new
report, and it is the newest. -/
private theorem inv_write (inv : Inv w) {phase : Phase} (found : w.calls[n]? = some c)
    (visible : Visible ips)
    (row : RowOf (w.write c u ips state).reports u ((w.write c u ips state).kv u))
    (call : CallInv (w.write c u ips state).reports w.clock { c with phase }) :
    Inv ((w.write c u ips state).setPhase n c phase) := by
  have caller := inv.calls c (List.mem_of_getElem? found)
  constructor
  · intro r member
    rcases List.mem_cons.mp member with rfl | older
    · exact ⟨⟨caller.known, visible, caller.started⟩, Int.le_refl _⟩
    · exact inv.proper r older
  · refine List.pairwise_cons.mpr ⟨fun r member => (inv.proper r member).2, inv.ordered⟩
  · intro v
    by_cases same : v = u
    · rw [same]
      exact row
    · have old := inv.rows v
      show RowOf (_ :: w.reports) v (Function.update w.kv u _ v)
      rw [Function.update_of_ne same]
      have skip : ∀ r : Report, r.user = u → ∀ node,
          latest (r :: w.reports) v node = latest w.reports v node := by
        intro r own node
        rw [latest_cons, if_neg (fun here => same (here.1.symm.trans own))]
      cases stored : w.kv v with
      | none =>
        rw [stored] at old
        intro r member
        rcases List.mem_cons.mp member with rfl | older
        · exact fun own => same own.symm
        · exact old r older
      | some row =>
        rw [stored] at old
        refine ⟨old.expires, old.nodup, ?_, ?_⟩
        · intro key e
          rw [old.nodes]
          constructor
          · rintro ⟨r, listed, named⟩
            refine ⟨r, ?_, named⟩
            rw [mem_freshReports] at listed ⊢
            rw [skip _ rfl]
            exact listed
          · rintro ⟨r, listed, named⟩
            refine ⟨r, ?_, named⟩
            rw [mem_freshReports] at listed ⊢
            rw [skip _ rfl] at listed
            exact listed
        · obtain ⟨last, first, rest⟩ := old.last
          refine ⟨last, ?_, rest⟩
          rw [List.find?_cons_of_neg (by simpa using fun own => same own.symm)]
          exact first
  · intro d member
    rcases List.mem_or_eq_of_mem_set member with old | rfl
    · have other := inv.calls d old
      refine ⟨other.known, other.started, other.visible, other.todo, ?_, ?_⟩
      · intro v ips' state' seen todo phase'
        obtain ⟨before, snapshot⟩ := other.snapshot v ips' state' seen todo phase'
        refine ⟨Nat.le_succ_of_le before, ?_⟩
        show Snapshot (List.drop (w.reports.length + 1 - seen) (_ :: w.reports)) v state' w.clock
        rw [Nat.succ_sub before, List.drop_succ_cons]
        exact snapshot
      · intro p listed positive
        rcases other.served p listed positive with ended | waits | ⟨r, stored, served⟩
        · exact Or.inl ended
        · exact Or.inr (Or.inl waits)
        · exact Or.inr (Or.inr ⟨r, List.mem_cons_of_mem _ stored, served⟩)
    · exact call

private theorem Inv.setPhase (inv : Inv w) {phase : Phase}
    (call : CallInv w.reports w.clock { c with phase }) : Inv (w.setPhase n c phase) := by
  refine ⟨inv.proper, inv.ordered, inv.rows, ?_⟩
  intro d member
  rcases List.mem_or_eq_of_mem_set member with old | rfl
  · exact inv.calls d old
  · exact call

theorem Inv.tick (inv : Inv w) (seconds : Nat) :
    Inv { w with clock := w.clock + seconds } := by
  refine ⟨?_, inv.ordered, inv.rows, ?_⟩
  · intro r member
    obtain ⟨proper, before⟩ := inv.proper r member
    exact ⟨proper, by dsimp only; omega⟩
  · intro c member
    have call := inv.calls c member
    refine ⟨call.known, ?_, call.visible, call.todo, ?_, call.served⟩
    · have started := call.started
      dsimp only
      omega
    · intro u ips state seen todo phase
      obtain ⟨before, snapshot⟩ := call.snapshot u ips state seen todo phase
      refine ⟨before, snapshot.nodup, snapshot.sound, ?_⟩
      intro r newest fresh
      have fresh : w.clock + seconds - r.reportedAt ≤ 100 := fresh
      exact snapshot.complete r newest (by omega)

theorem Inv.report (inv : Inv w) (lib : StandardLibrary) (nodeType : String) (nodeID : Int)
    (users : List (Int × List String)) (mode : Int) :
    Inv (w.report lib nodeType nodeID users mode) := by
  unfold World.report
  generalize normalizeNodeType lib nodeType = name
  dsimp only
  split
  next found =>
    refine ⟨inv.proper, inv.ordered, inv.rows, ?_⟩
    intro c member
    rcases List.mem_append.mp member with old | new
    · exact inv.calls c old
    · obtain rfl := List.mem_singleton.mp new
      refine ⟨found, Int.le_refl _, ?_, fun p member => member, nofun,
        fun p member _ => Or.inr (Or.inl member)⟩
      intro p member
      obtain ⟨user, -, rfl⟩ := List.mem_map.mp member
      exact visible_stringList user.2
  · exact inv

theorem Inv.load (inv : Inv w) (n i : Nat) (fails : Bool) : Inv (w.load n i fails) := by
  unfold World.load
  split
  next c found =>
    have call := inv.calls c (List.mem_of_getElem? found)
    split
    next todo phase =>
      split
      next user ips here =>
        have listed : ∀ p ∈ todo, p = (user, ips) ∨ p ∈ todo.eraseIdx i := by
          intro p member
          obtain ⟨inside, first⟩ := List.getElem?_eq_some_iff.mp here
          have both := (List.getElem_cons_eraseIdx_perm inside).mem_iff.mpr member
          rw [first] at both
          exact List.mem_cons.mp both
        have rest : ∀ p ∈ todo.eraseIdx i, p ∈ c.users := fun p member =>
          call.todo p (by rw [phase]; exact List.mem_of_mem_eraseIdx member)
        -- what is stored stays stored, what waited waits, but for this user
        have served : ∀ p ∈ c.users, 0 < p.1 → p = (user, ips) ∨ p ∈ todo.eraseIdx i ∨
            ∃ r ∈ w.reports, r.user = p.1 ∧ r.node = c.node ∧ r.ips = p.2 ∧
              r.reportedAt = c.now := by
          intro p member positive
          rcases call.served p member positive with ended | waits | stored
          · rw [phase] at ended
            cases ended
          · rw [phase] at waits
            rcases listed p waits with same | later
            · exact Or.inl same
            · exact Or.inr (Or.inl later)
          · exact Or.inr (Or.inr stored)
        dsimp only
        split
        next skipped =>
          refine inv.setPhase ⟨call.known, call.started, call.visible, rest, nofun, ?_⟩
          intro p member positive
          rcases served p member positive with rfl | later | stored
          · exact absurd skipped (Int.not_le.mpr positive)
          · exact Or.inr (Or.inl later)
          · exact Or.inr (Or.inr stored)
        · split
          · exact inv.setPhase ⟨call.known, call.started, call.visible, nofun, nofun,
              fun _ _ _ => Or.inl rfl⟩
          · refine inv.setPhase ⟨call.known, call.started, call.visible, ?_, ?_, ?_⟩
            · intro p member
              rcases List.mem_cons.mp member with rfl | later
              · exact call.todo _ (by rw [phase]; exact List.mem_of_getElem? here)
              · exact rest p later
            · intro u ips' state seen todo' same
              cases same
              refine ⟨Nat.le_refl _, ?_⟩
              rw [Nat.sub_self, List.drop_zero]
              exact inv.snapshot user
            · intro p member positive
              rcases served p member positive with rfl | later | stored
              · exact Or.inr (Or.inl List.mem_cons_self)
              · exact Or.inr (Or.inl (List.mem_cons_of_mem _ later))
              · exact Or.inr (Or.inr stored)
      · exact inv
    · exact inv
  · exact inv

theorem Inv.store (inv : Inv w) (n : Nat) (outcome : Outcome)
    (alone : Undisturbed w (.store n outcome)) : Inv (w.store n outcome) := by
  unfold World.store
  split
  next c found =>
    have call := inv.calls c (List.mem_of_getElem? found)
    split
    next user ips state seen todo phase =>
      obtain ⟨-, snapshot⟩ := call.snapshot user ips state seen todo phase
      have visible : Visible ips :=
        call.visible (user, ips) (call.todo _ (by rw [phase]; exact List.mem_cons_self))
      have rest : ∀ p ∈ todo, p ∈ c.users := fun p member =>
        call.todo p (by rw [phase]; exact List.mem_cons_of_mem _ member)
      unfold Undisturbed undisturbed at alone
      simp only [found, phase, Bool.and_eq_true, List.all_eq_true, decide_eq_true_eq] at alone
      have row := exact_write inv call.known visible call.started snapshot alone.1 alone.2
      split
      · refine inv_write inv found visible row
          ⟨call.known, call.started, call.visible, rest, nofun, ?_⟩
        intro p member positive
        rcases call.served p member positive with ended | waits | ⟨r, stored, same⟩
        · rw [phase] at ended
          cases ended
        · rw [phase] at waits
          rcases List.mem_cons.mp waits with rfl | later
          · exact Or.inr (Or.inr ⟨_, List.mem_cons_self, rfl, rfl, rfl, rfl⟩)
          · exact Or.inr (Or.inl later)
        · exact Or.inr (Or.inr ⟨r, List.mem_cons_of_mem _ stored, same⟩)
      · exact inv_write inv found visible row ⟨call.known, call.started, call.visible, nofun, nofun,
          fun _ _ _ => Or.inl rfl⟩
      · exact inv.setPhase ⟨call.known, call.started, call.visible, nofun, nofun,
          fun _ _ _ => Or.inl rfl⟩
    · exact inv
  · exact inv

theorem Inv.finish (inv : Inv w) (n : Nat) : Inv (w.finish n) := by
  unfold World.finish
  split
  next c found =>
    have call := inv.calls c (List.mem_of_getElem? found)
    split
    next phase =>
      refine inv.setPhase ⟨call.known, call.started, call.visible, nofun, nofun, ?_⟩
      intro p member positive
      rcases call.served p member positive with ended | waits | stored
      · rw [phase] at ended
        cases ended
      · rw [phase] at waits
        cases waits
      · exact Or.inr (Or.inr stored)
    · exact inv
  · exact inv

theorem Inv.step (inv : Inv w) (lib : StandardLibrary) (act : Act) (alone : Undisturbed w act) :
    Inv (step lib w act) := by
  cases act with
  | tick seconds => exact inv.tick seconds
  | report nodeType nodeID users mode => exact inv.report lib nodeType nodeID users mode
  | load n i fails => exact inv.load n i fails
  | store n outcome => exact inv.store n outcome alone
  | finish n => exact inv.finish n

structure Counted (w : World) : Prop where
  /-- A call that has returned has stored its list for every user it reported. -/
  served : ∀ c ∈ w.calls, c.phase = .returned → ∀ p ∈ c.users, 0 < p.1 →
    ∃ r ∈ w.reports, r.user = p.1 ∧ r.node = c.node ∧ r.ips = p.2 ∧ r.reportedAt = c.now
  /-- The newest report of a node on a user stays in the stored state for 100 seconds. -/
  held : ∀ u r, latest w.reports u r.node = some r → w.clock - r.reportedAt ≤ 100 →
    ∃ row, w.kv u = some row ∧ w.clock < row.expireAt ∧ (r.node.key, r.entry) ∈ row.value.nodes
  /-- The stored count is the count over the newest reports of the nodes that were at most
  100 seconds old at the last store. -/
  counted : ∀ u row, w.kv u = some row → ∃ last, w.reports.find? (·.user = u) = some last ∧
    last.storedAt = row.updatedAt ∧ row.value.aliveIP =
      countIPs last.deviceLimitMode ((freshReports w.reports u last.storedAt).map Report.ips)

private theorem Exact.perm (inv : Inv w) {row : Row} (exact' : Exact w.reports u row) :
    row.value.nodes.Perm
      ((freshReports w.reports u row.updatedAt).map fun r => (r.node.key, r.entry)) := by
  apply (List.perm_ext_iff_of_nodup ?_ ?_).mpr
  · rintro ⟨key, e⟩
    rw [exact'.nodes, List.mem_map]
    constructor
    · rintro ⟨r, listed, rfl, rfl⟩
      exact ⟨r, listed, rfl⟩
    · rintro ⟨r, listed, same⟩
      cases same
      exact ⟨r, listed, rfl, rfl⟩
  · exact List.Nodup.of_map _ exact'.nodup
  · refine List.Nodup.map_on ?_ (List.nodup_dedup _)
    intro r listed r' listed' same
    obtain ⟨-, newest, -⟩ := mem_freshReports.mp listed
    obtain ⟨-, newest', -⟩ := mem_freshReports.mp listed'
    have known := (inv.proper r (mem_of_latest newest).1).1.known
    have known' := (inv.proper r' (mem_of_latest newest').1).1.known
    have node := key_injective known known' (Prod.mk.inj same).1
    rw [node, newest'] at newest
    exact (Option.some.inj newest).symm

theorem Inv.counted (inv : Inv w) : Counted w := by
  refine ⟨?_, ?_, ?_⟩
  · intro c member returned p listed positive
    rcases (inv.calls c member).served p listed positive with ended | waits | stored
    · rw [returned] at ended
      cases ended
    · rw [returned] at waits
      cases waits
    · exact stored
  · intro u r newest fresh
    obtain ⟨member, own, -⟩ := mem_of_latest newest
    have stored := inv.rows u
    cases row : w.kv u with
    | none =>
      rw [row] at stored
      exact absurd own (stored r member)
    | some row' =>
      rw [row] at stored
      have younger := inv.reported_before stored member own
      have expires := stored.expires
      obtain ⟨last, first, at', -⟩ := stored.last
      have before := (inv.proper last (List.mem_of_find?_eq_some first)).2
      refine ⟨row', rfl, by omega, ?_⟩
      refine (stored.nodes _ _).mpr ⟨r, mem_freshReports.mpr ⟨own, newest, ?_⟩, rfl, rfl⟩
      omega
  · intro u row found
    have stored := inv.rows u
    rw [found] at stored
    obtain ⟨last, first, at', count⟩ := stored.last
    refine ⟨last, first, at', count.trans (countIPs_perm ?_)⟩
    rw [at']
    have perm := (stored.perm inv).map fun node : String × AliveEntry => node.2.aliveips
    rw [List.map_map] at perm
    exact perm

end

/-- In an undisturbed run the stored states hold and count every report. -/
theorem alive_reports_kept (lib : StandardLibrary) (clock : Int) (acts : List Act)
    (alone : Along (step lib) Undisturbed (emptyWorld clock) acts) :
    Counted (run (step lib) (emptyWorld clock) acts) := by
  have start : Inv (emptyWorld clock) := ⟨nofun, List.Pairwise.nil, fun _ => nofun, nofun⟩
  exact (run_invariant (fun _ act inv alone => inv.step lib act alone) _ acts start alone).counted

def inTurn : List Act :=
  [.report "V2ray" 1 [(7, ["10.0.0.1_phone", " "])] 0, .load 0 0 false, .store 0 .stored, .finish 0,
    .tick 30, .report "hysteria2" 1 [(7, ["10.0.0.1_tablet"])] 1, .load 1 0 false,
    .store 1 .stored, .finish 1]

theorem reports_in_turn_kept :
    (run (step asciiLibrary) (emptyWorld 1000) inTurn).kv 7 =
      some ⟨⟨[("hysteria1", ⟨["10.0.0.1_tablet"], 1030⟩), ("vmess1", ⟨["10.0.0.1_phone"], 1000⟩)], 1⟩,
        1150, 1030⟩ ∧
    Counted (run (step asciiLibrary) (emptyWorld 1000) inTurn) :=
  ⟨by decide +kernel, alive_reports_kept asciiLibrary 1000 inTurn (by decide +kernel)⟩

/-- Both nodes load the state of the user before one of them stores it. -/
def atOnce : List Act :=
  [.report "vmess" 1 [(7, ["10.0.0.1"])] 0, .report "trojan" 2 [(7, ["10.0.0.2"])] 0,
    .load 0 0 false, .load 1 0 false, .store 0 .stored, .finish 0, .store 1 .stored, .finish 1]

/-- The report of the first node is lost, in the stored state and in its count. -/
theorem report_lost :
    (run (step asciiLibrary) (emptyWorld 1000) atOnce).calls.map Call.phase = [.returned, .returned] ∧
    latest (run (step asciiLibrary) (emptyWorld 1000) atOnce).reports 7 ⟨"vmess", 1⟩ =
      some ⟨7, ⟨"vmess", 1⟩, ["10.0.0.1"], 1000, 1000, 0⟩ ∧
    (run (step asciiLibrary) (emptyWorld 1000) atOnce).kv 7 =
      some ⟨⟨[("trojan2", ⟨["10.0.0.2"], 1000⟩)], 1⟩, 1120, 1000⟩ ∧
    countIPs 0 ((freshReports (run (step asciiLibrary) (emptyWorld 1000) atOnce).reports 7 1000).map
      Report.ips) = 2 := by
  decide +kernel

end ForestPanel.Alive
