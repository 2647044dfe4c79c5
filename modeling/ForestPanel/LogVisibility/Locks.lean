import Mathlib.Data.List.Dedup
import ForestPanel.Lib.Transition
import ForestPanel.LogVisibility.Apply

/-!
# What the locks of an apply are worth

The invariant says what the locks of the applies on their way are worth: a
locked preview stays as it was read, no two applies hold one preview or one
record, and the records of an apply that has compared them stay what the preview
saw until it commits.
-/
namespace ForestPanel

namespace LogVisibility

open Relational Outcome Transition

variable {δ : Type} {D : Digests δ} {w : World δ}

/-- Every previewed record is there as the preview saw it, with its order's status. -/
def Unchanged (w : World δ) (p : Preview δ) : Prop :=
  ∀ r ∈ p.snapshot, ∃ row ∈ w.logs, record w.orders row = r

/-- `p` is the unused preview that the request `a` names. -/
structure Names (D : Digests δ) (w : World δ) (a : Apply δ) (p : Preview δ) : Prop where
  stored : p ∈ w.previews
  token : p.tokenHash = D.ofToken a.req.previewHash
  actor : p.actorID = a.actor
  unused : p.appliedOperationID = none

structure Held (D : Digests δ) (w : World δ) (a : Apply δ) (p : Preview δ) : Prop
    extends Names D w a p where
  hash : p.snapshotHash = D.ofRecords p.snapshot

def Recorded (D : Digests δ) (operations : Operations δ) (key : Int × String) (req : ApplyRequest)
    (receipt : ApplyResult) : Prop :=
  ∃ o ∈ operations, o.key = key ∧ o.requestHash = D.ofRequest req ∧ o.receipt = receipt

structure Inv (D : Digests δ) (w : World δ) : Prop where
  held : ∀ (n : Nat) (a : Apply δ), w.applies[n]? = some a → ∀ p ∈ a.phase.preview?, Held D w a p
  alone : ∀ (n m : Nat) (a b : Apply δ), n ≠ m → w.applies[n]? = some a → w.applies[m]? = some b →
    ∀ p ∈ a.phase.preview?, ∀ q ∈ b.phase.preview?, p.id ≠ q.id
  apart : ∀ (n m : Nat) (a b : Apply δ), n ≠ m → w.applies[n]? = some a → w.applies[m]? = some b →
    ∀ p ∈ a.phase.logs?, ∀ q ∈ b.phase.logs?, ∀ id ∈ p.ids, id ∉ q.ids
  still : ∀ (n : Nat) (a : Apply δ), w.applies[n]? = some a → ∀ p ∈ a.phase.logs?, Unchanged w p
  replaying : ∀ (n : Nat) (a : Apply δ) receipt, w.applies[n]? = some a → a.phase = .replaying receipt →
    Recorded D w.operations a.key a.req receipt
  sides : ∀ p ∈ w.previews, ∀ r ∈ p.snapshot, r.hidden = decide (p.action = .restore)
  once : ∀ o ∈ w.operations, ∀ o' ∈ w.operations, o.previewID = o'.previewID → o = o'
  receipts : ∀ o ∈ w.operations, o.receipt.committed = true ∧ o.receipt.replayed = false
  answers : ∀ ans ∈ w.answers, ∀ out, ans.result = .ok out →
    Recorded D w.operations ans.key ans.req { out with replayed := false }

theorem Phase.preview?_of_logs? {phase : Phase δ} {p : Preview δ} (h : p ∈ phase.logs?) :
    p ∈ phase.preview? := by
  cases phase with
  | checked q => exact h
  | _ => cases h

private theorem applies_setPhase {n m : Nat} {a b : Apply δ} {phase : Phase δ}
    (known : w.applies[n]? = some a) (found : (w.setPhase n a phase).applies[m]? = some b) :
    m = n ∧ b = { a with phase } ∨ m ≠ n ∧ w.applies[m]? = some b := by
  rw [World.setPhase, List.getElem?_set] at found
  split at found
  next same =>
    have short : n < w.applies.length := (List.getElem?_eq_some_iff.mp known).1
    rw [if_pos short] at found
    exact Or.inl ⟨same.symm, (Option.some.inj found).symm⟩
  next other => exact Or.inr ⟨fun same => other same.symm, found⟩

theorem Inv.setPhase (h : Inv D w) {n : Nat} {a : Apply δ} {phase : Phase δ}
    (known : w.applies[n]? = some a)
    (held : ∀ p ∈ phase.preview?, Held D w a p)
    (alone : ∀ p ∈ phase.preview?, ∀ (m : Nat) (b : Apply δ), m ≠ n → w.applies[m]? = some b →
      ∀ q ∈ b.phase.preview?, p.id ≠ q.id)
    (apart : ∀ p ∈ phase.logs?, ∀ (m : Nat) (b : Apply δ), m ≠ n → w.applies[m]? = some b →
      ∀ q ∈ b.phase.logs?, ∀ id ∈ p.ids, id ∉ q.ids)
    (still : ∀ p ∈ phase.logs?, Unchanged w p)
    (replaying : ∀ receipt, phase = .replaying receipt →
      Recorded D w.operations a.key a.req receipt) : Inv D (w.setPhase n a phase) where
  held := by
    intro m b found p locked
    rcases applies_setPhase known found with ⟨-, rfl⟩ | ⟨-, old⟩
    · exact { held p locked with }
    · exact { h.held m b old p locked with }
  alone := by
    intro m k b c different found found' p locked q locked'
    rcases applies_setPhase known found with ⟨rfl, rfl⟩ | ⟨other, old⟩
    · rcases applies_setPhase known found' with ⟨rfl, -⟩ | ⟨other', old'⟩
      · exact absurd rfl different
      · exact alone p locked k c other' old' q locked'
    · rcases applies_setPhase known found' with ⟨rfl, rfl⟩ | ⟨-, old'⟩
      · exact (alone q locked' m b other old p locked).symm
      · exact h.alone m k b c different old old' p locked q locked'
  apart := by
    intro m k b c different found found' p locked q locked' id mine theirs
    rcases applies_setPhase known found with ⟨rfl, rfl⟩ | ⟨other, old⟩
    · rcases applies_setPhase known found' with ⟨rfl, -⟩ | ⟨other', old'⟩
      · exact different rfl
      · exact apart p locked k c other' old' q locked' id mine theirs
    · rcases applies_setPhase known found' with ⟨rfl, rfl⟩ | ⟨-, old'⟩
      · exact apart q locked' m b other old p locked id theirs mine
      · exact h.apart m k b c different old old' p locked q locked' id mine theirs
  still := by
    intro m b found p locked
    rcases applies_setPhase known found with ⟨-, rfl⟩ | ⟨-, old⟩
    · exact still p locked
    · exact h.still m b old p locked
  replaying := by
    intro m b receipt found how
    rcases applies_setPhase known found with ⟨-, rfl⟩ | ⟨-, old⟩
    · exact replaying receipt how
    · exact h.replaying m b receipt old how
  sides := h.sides
  once := h.once
  receipts := h.receipts
  answers := h.answers

theorem Inv.release (h : Inv D w) {n : Nat} {a : Apply δ} {phase : Phase δ}
    (known : w.applies[n]? = some a) (free : phase.preview? = none)
    (replaying : ∀ receipt, phase = .replaying receipt →
      Recorded D w.operations a.key a.req receipt) : Inv D (w.setPhase n a phase) := by
  have unlocked : ∀ p, p ∉ phase.preview? := by
    intro p locked
    rw [free] at locked
    cases locked
  have unlocked' : ∀ p, p ∉ phase.logs? := fun p locked =>
    unlocked p (Phase.preview?_of_logs? locked)
  exact h.setPhase known (fun p locked => absurd locked (unlocked p))
    (fun p locked => absurd locked (unlocked p)) (fun p locked => absurd locked (unlocked' p))
    (fun p locked => absurd locked (unlocked' p)) replaying

theorem Inv.hold (h : Inv D w) {n : Nat} {a : Apply δ} {phase : Phase δ} {p : Preview δ}
    (known : w.applies[n]? = some a) (shows : phase.preview? = some p)
    (free : phase.logs? = none) (running : ∀ receipt, phase ≠ .replaying receipt)
    (held : Held D w a p)
    (alone : ∀ (m : Nat) (b : Apply δ), m ≠ n → w.applies[m]? = some b →
      ∀ q ∈ b.phase.preview?, p.id ≠ q.id) : Inv D (w.setPhase n a phase) := by
  have only : ∀ q ∈ phase.preview?, q = p := by
    intro q locked
    rw [shows] at locked
    exact (Option.some.inj locked).symm
  have unlocked : ∀ q, q ∉ phase.logs? := by
    intro q locked
    rw [free] at locked
    cases locked
  apply h.setPhase known
  · intro q locked
    rw [only q locked]
    exact held
  · intro q locked
    rw [only q locked]
    exact alone
  · exact fun q locked => absurd locked (unlocked q)
  · exact fun q locked => absurd locked (unlocked q)
  · exact fun receipt same => absurd same (running receipt)

theorem Inv.addAnswer (h : Inv D w) {ans : Answer}
    (recorded : ∀ out, ans.result = .ok out →
      Recorded D w.operations ans.key ans.req { out with replayed := false }) :
    Inv D { w with answers := w.answers ++ [ans] } where
  held := fun n a found p locked => { h.held n a found p locked with }
  alone := h.alone
  apart := h.apart
  still := h.still
  replaying := h.replaying
  sides := h.sides
  once := h.once
  receipts := h.receipts
  answers := by
    intro other member out returned
    rcases List.mem_append.mp member with old | new
    · exact h.answers other old out returned
    · obtain rfl := List.mem_singleton.mp new
      exact recorded out returned

theorem Inv.answer (h : Inv D w) {n : Nat} {a : Apply δ}
    (known : w.applies[n]? = some a) {result : Except LogError ApplyResult}
    (recorded : ∀ out, result = .ok out →
      Recorded D w.operations a.key a.req { out with replayed := false }) :
    Inv D (w.answer n a result) :=
  have freed : Inv D (w.setPhase n a .done) := h.release known rfl nofun
  freed.addAnswer recorded

theorem Inv.refuse (h : Inv D w) {n : Nat} {a : Apply δ} (known : w.applies[n]? = some a)
    (e : LogError) : Inv D (w.answer n a (.error e)) :=
  h.answer known nofun

theorem Inv.start (h : Inv D w) (a : Apply δ) (fresh : a.phase = .begun) :
    Inv D { w with applies := w.applies ++ [a] } := by
  have old : ∀ (n : Nat) (b : Apply δ), (w.applies ++ [a])[n]? = some b →
      w.applies[n]? = some b ∨ b.phase = .begun := by
    intro n b found
    rw [List.getElem?_append] at found
    split at found
    · exact Or.inl found
    · obtain rfl := List.mem_singleton.mp (List.mem_of_getElem? found)
      exact Or.inr fresh
  have held : ∀ (n : Nat) (b : Apply δ), (w.applies ++ [a])[n]? = some b →
      ∀ p ∈ b.phase.preview?, w.applies[n]? = some b := by
    intro n b found p locked
    rcases old n b found with same | new
    · exact same
    · rw [new] at locked
      cases locked
  have compared : ∀ (n : Nat) (b : Apply δ), (w.applies ++ [a])[n]? = some b →
      ∀ p ∈ b.phase.logs?, w.applies[n]? = some b := fun n b found p locked =>
    held n b found p (Phase.preview?_of_logs? locked)
  exact
    { held := fun n b found p locked => { h.held n b (held n b found p locked) p locked with }
      alone := fun n m b c different found found' p locked q locked' =>
        h.alone n m b c different (held n b found p locked) (held m c found' q locked') p locked q
          locked'
      apart := fun n m b c different found found' p locked q locked' =>
        h.apart n m b c different (compared n b found p locked) (compared m c found' q locked') p
          locked q locked'
      still := fun n b found p locked => h.still n b (compared n b found p locked) p locked
      replaying := by
        intro n b receipt found how
        rcases old n b found with same | new
        · exact h.replaying n b receipt same how
        · rw [new] at how
          cases how
      sides := h.sides
      once := h.once
      receipts := h.receipts
      answers := h.answers }

theorem Inv.change (h : Inv D w) {w' : World δ} (applies : w'.applies = w.applies)
    (answers : w'.answers = w.answers)
    (previews : ∀ (n : Nat) (a : Apply δ), w.applies[n]? = some a → ∀ p ∈ a.phase.preview?, p ∈ w.previews →
      p ∈ w'.previews)
    (still : ∀ (n : Nat) (a : Apply δ), w.applies[n]? = some a → ∀ p ∈ a.phase.logs?, Unchanged w p → Unchanged w' p)
    (operations : ∀ o ∈ w.operations, o ∈ w'.operations)
    (sides : ∀ p ∈ w'.previews, ∀ r ∈ p.snapshot, r.hidden = decide (p.action = .restore))
    (once : ∀ o ∈ w'.operations, ∀ o' ∈ w'.operations, o.previewID = o'.previewID → o = o')
    (receipts : ∀ o ∈ w'.operations, o.receipt.committed = true ∧ o.receipt.replayed = false) :
    Inv D w' where
  held := by
    intro n a found p locked
    have old := h.held n a (applies ▸ found) p locked
    exact { old with stored := previews n a (applies ▸ found) p locked old.stored }
  alone := by
    intro n m a b different found found'
    exact h.alone n m a b different (applies ▸ found) (applies ▸ found')
  apart := by
    intro n m a b different found found'
    exact h.apart n m a b different (applies ▸ found) (applies ▸ found')
  still := by
    intro n a found p locked
    exact still n a (applies ▸ found) p locked (h.still n a (applies ▸ found) p locked)
  replaying := by
    intro n a receipt found how
    obtain ⟨o, member, same⟩ := h.replaying n a receipt (applies ▸ found) how
    exact ⟨o, operations o member, same⟩
  sides := sides
  once := once
  receipts := receipts
  answers := by
    intro ans member out returned
    obtain ⟨o, stored, same⟩ := h.answers ans (answers ▸ member) out returned
    exact ⟨o, operations o stored, same⟩

private theorem other_preview {id : Int} (free : w.previewLocked id = false) {m : Nat} {b : Apply δ}
    (found : w.applies[m]? = some b) {q : Preview δ} (locked : q ∈ b.phase.preview?) : q.id ≠ id := by
  intro same
  have taken : w.previewLocked id = true := by
    refine List.any_eq_true.mpr ⟨b, List.mem_of_getElem? found, ?_⟩
    exact (Option.any_eq_true _ _).mpr ⟨q, locked, decide_eq_true same⟩
  rw [free] at taken
  cases taken

private theorem other_log {id : Int} (free : w.logLocked id = false) {m : Nat} {b : Apply δ}
    (found : w.applies[m]? = some b) {q : Preview δ} (locked : q ∈ b.phase.logs?) : id ∉ q.ids := by
  intro listed
  have taken : w.logLocked id = true := by
    refine List.any_eq_true.mpr ⟨b, List.mem_of_getElem? found, ?_⟩
    exact (Option.any_eq_true _ _).mpr ⟨q, locked, decide_eq_true listed⟩
  rw [free] at taken
  cases taken

private theorem unchanged_of_kept {w' : World δ} {p : Preview δ} (h : Unchanged w p)
    (rows : ∀ row ∈ w.logs, row.id ∈ p.ids → row ∈ w'.logs)
    (orders : ∀ row ∈ w.logs, row.id ∈ p.ids → row.tradeNo ∈ p.trades →
      w'.orders.find? row.tradeNo = w.orders.find? row.tradeNo) : Unchanged w' p := by
  intro r listed
  obtain ⟨row, stored, rfl⟩ := h r listed
  have named : row.id ∈ p.ids := List.mem_map.mpr ⟨_, listed, rfl⟩
  have traded : row.tradeNo ∈ p.trades := List.mem_dedup.mpr (List.mem_map.mpr ⟨_, listed, rfl⟩)
  refine ⟨row, rows row stored named, ?_⟩
  unfold record
  rw [orders row stored named traded]

section Statements

variable {n : Nat} {a : Apply δ}

theorem lockKey_inv [DecidableEq δ] (h : Inv D w) (known : w.applies[n]? = some a) : Inv D (lockKey D n a w) := by
  unfold lockKey
  split
  · exact h
  · split
    · exact h.release known rfl nofun
    next o found =>
      obtain ⟨member, key⟩ := (Table.findUniq?_eq_some ..).mp found
      split
      · exact h.refuse known .conflict
      next same =>
        split
        · refine h.release known rfl ?_
          rintro receipt ⟨⟩
          exact ⟨o, member, key, not_not.mp same, rfl⟩
        · exact h.refuse known .unavailable

theorem replay_inv (h : Inv D w) (known : w.applies[n]? = some a) {receipt : ApplyResult}
    (phase : a.phase = .replaying receipt) : Inv D (replay n a receipt w) := by
  unfold replay
  split
  · refine h.answer known ?_
    rintro out ⟨⟩
    obtain ⟨o, member, key, hash, rfl⟩ := h.replaying n a receipt known phase
    refine ⟨o, member, key, hash, ?_⟩
    -- the stored receipt is not marked as replayed
    have stored := (h.receipts o member).2
    cases receipt : o.receipt
    rw [receipt] at stored
    exact congrArg (ApplyResult.mk _ _ _ _ _ _ _) stored
  · exact h.refuse known .forbidden

theorem lockPreview_inv [DecidableEq δ] (h : Inv D w) (known : w.applies[n]? = some a) (now : Int) :
    Inv D (lockPreview D n a now w) := by
  unfold lockPreview
  split
  · exact h.refuse known .notFound
  next p found =>
    rw [Option.filter_eq_some_iff, Table.findUniq?_eq_some, decide_eq_true_eq] at found
    obtain ⟨⟨stored, token⟩, actor⟩ := found
    split
    · exact h
    next free =>
      split
      next e refused => exact h.refuse known e
      next valid =>
        simp only [checkPreviewRow, bind_eq_ok, ensure_eq_ok, exists_const] at valid
        obtain ⟨⟨unused, -⟩, -, -, ⟨-, -, -, hash⟩, -⟩ := valid
        refine h.hold known rfl rfl (fun _ => (by rintro ⟨⟩)) ?_ ?_
        · exact { stored, token, actor, unused, hash := hash.symm }
        · intro m b _ found q locked
          exact (other_preview (Bool.eq_false_iff.mpr free) found locked).symm

theorem lockOrders_inv (h : Inv D w) (known : w.applies[n]? = some a) {p : Preview δ}
    (phase : a.phase = .previewed p) : Inv D (w.setPhase n a (.frozen p)) := by
  have mine : p ∈ a.phase.preview? := phase ▸ rfl
  refine h.hold known rfl rfl (fun _ => nofun) (h.held n a known p mine) ?_
  intro m b other found q locked
  exact h.alone n m a b other.symm known found p mine q locked

theorem lockRecords_inv [DecidableEq δ] (h : Inv D w) (known : w.applies[n]? = some a) {p : Preview δ}
    (phase : a.phase = .frozen p) : Inv D (lockRecords D n a p w) := by
  have mine : p ∈ a.phase.preview? := phase ▸ rfl
  have held := h.held n a known p mine
  unfold lockRecords
  split
  · exact h.refuse known .forbidden
  split
  · exact h
  next free =>
    split
    · exact h.refuse known .conflict
    next same =>
      -- equal digests are of equal records
      have equal : w.query (byIDs p.ids) (commissionLogMaxBatch + 1) = p.snapshot :=
        D.records_injective ((not_not.mp same).trans held.hash)
      refine h.setPhase known ?_ ?_ ?_ ?_ nofun
      · rintro q ⟨⟩
        exact held
      · rintro q ⟨⟩ m b other found q locked
        exact h.alone n m a b other.symm known found p mine q locked
      · rintro q ⟨⟩ m b _ found q locked id listed
        have unlocked : w.logLocked id = false := by
          rw [Bool.eq_false_iff]
          exact fun taken => free (List.any_eq_true.mpr ⟨id, listed, taken⟩)
        exact other_log unlocked found locked
      · rintro q ⟨⟩ r listed
        obtain ⟨stored, joined, -⟩ := mem_of_query (equal ▸ listed)
        exact ⟨r.toLogRow, stored, joined.symm⟩

/-! ### The commit -/

theorem writeApply_eq_ok [DecidableEq δ] {p : Preview δ} {now : Int} {w' : World δ}
    (returned : writeApply D a p now w = .ok w') :
    (∀ o ∈ w.operations, o.previewID ≠ p.id) ∧
      ∃ operations, w.operations.insert? (newOperation D (w.operationSeq + 1) a p now) =
          some operations ∧
        w' = { w with
          logs := flipped p now a.actor w.logs
          operations
          previews := consume w.previews p.id (w.operationSeq + 1)
          operationSeq := w.operationSeq + 1 } := by
  simp only [writeApply, bind_eq_ok, ensure_eq_ok, exists_const, require_eq_ok, pure_eq_ok,
    List.all_eq_true, decide_eq_true_eq] at returned
  obtain ⟨-, fresh, operations, inserted, rfl⟩ := returned
  exact ⟨fresh, operations, inserted, rfl⟩

theorem kept_consume {previews : Previews δ} {q : Preview δ} {id operationID : Int}
    (stored : q ∈ previews) (other : q.id ≠ id) : q ∈ consume previews id operationID := by
  unfold consume
  rw [Table.mem_updateWhere]
  exact ⟨q, stored, if_neg fun same => other (of_decide_eq_true same)⟩

theorem mem_of_consume {previews : Previews δ} {q : Preview δ} {id operationID : Int}
    (member : q ∈ consume previews id operationID) :
    q ∈ previews ∧ q.id ≠ id ∨
      q.id = id ∧ q.snapshot = [] ∧ q.appliedOperationID = some operationID := by
  unfold consume at member
  obtain ⟨p, stored, rfl⟩ := (Table.mem_updateWhere ..).mp member
  split
  next same => exact Or.inr ⟨of_decide_eq_true same, rfl, rfl⟩
  next other => exact Or.inl ⟨stored, fun same => other (decide_eq_true same)⟩

theorem kept_flipped {logs : Logs} {p : Preview δ} {now actor : Int} {row : LogRow}
    (stored : row ∈ logs) (other : row.id ∉ p.ids) : row ∈ flipped p now actor logs := by
  unfold flipped
  rw [Table.mem_updateWhere]
  exact ⟨row, stored, if_neg fun same => other (of_decide_eq_true same)⟩

theorem commitApply_inv [DecidableEq δ] (h : Inv D w) (known : w.applies[n]? = some a) {p : Preview δ}
    (phase : a.phase = .checked p) (now : Int) (heard : Bool) :
    Inv D (commitApply D n a p now heard w) := by
  unfold commitApply
  split
  next e _ => exact h.refuse known e
  next w' returned =>
    obtain ⟨fresh, operations, inserted, shape⟩ := writeApply_eq_ok returned
    have mine : p ∈ a.phase.preview? := phase ▸ rfl
    have compared : p ∈ a.phase.logs? := phase ▸ rfl
    have members := Table.mem_of_insert? inserted
    -- first the locks go, then the writes cannot touch what the others hold
    have freed : Inv D (w.setPhase n a .done) := h.release known rfl nofun
    have others : ∀ {m : Nat} {b : Apply δ}, (w.setPhase n a .done).applies[m]? = some b →
        ∀ q ∈ b.phase.preview?, m ≠ n ∧ w.applies[m]? = some b := by
      intro m b found q locked
      rcases applies_setPhase known found with ⟨-, rfl⟩ | old
      · cases locked
      · exact old
    have changed : Inv D (w'.setPhase n a .done) := by
      subst shape
      refine Inv.change freed rfl rfl ?_ ?_ ?_ ?_ ?_ ?_
      · intro m b found q locked stored
        obtain ⟨other, old⟩ := others found q locked
        have different := h.alone m n b a other old known q locked p mine
        exact kept_consume stored different
      · intro m b found q locked unchanged
        obtain ⟨other, old⟩ := others found q (Phase.preview?_of_logs? locked)
        refine unchanged_of_kept unchanged ?_ fun _ _ _ _ => rfl
        intro row stored listed
        have different := h.apart m n b a other old known q locked p compared row.id listed
        exact kept_flipped stored different
      · exact fun o member => (members o).mpr (Or.inl member)
      · intro q member r listed
        rcases mem_of_consume member with ⟨old, -⟩ | ⟨-, empty, -⟩
        · exact h.sides q old r listed
        · rw [empty] at listed
          cases listed
      · intro o member o' member' same
        rcases (members o).mp member with old | rfl
        · rcases (members o').mp member' with old' | rfl
          · exact h.once o old o' old' same
          · exact absurd same (fresh o old)
        · rcases (members o').mp member' with old' | rfl
          · exact absurd same.symm (fresh o' old')
          · rfl
      · intro o member
        rcases (members o).mp member with old | rfl
        · exact h.receipts o old
        · exact ⟨rfl, rfl⟩
    split
    · apply changed.addAnswer
      rintro out ⟨⟩
      subst shape
      exact ⟨_, (members _).mpr (Or.inr rfl), rfl, rfl, rfl⟩
    · exact changed.addAnswer nofun

end Statements

theorem beginApply_inv (h : Inv D w) (actor : Int) (req : ApplyRequest) :
    Inv D (beginApply actor req w) := by
  unfold beginApply
  split
  · exact h.addAnswer nofun
  split
  · exact h.start ⟨actor, req, .begun⟩ rfl
  · exact h.addAnswer nofun

theorem previewCommissionLogs_eq_ok [DecidableEq δ] {actor : Int} {req : PreviewRequest}
    {token : String} {now : Int} {w' : World δ}
    (returned : previewCommissionLogs D actor req token now w = .ok w') :
    ∃ action f reason, checkPreview req = .ok (action, f, reason) ∧
      (∀ p ∈ w.previews, expired now p = true → w.previewLocked p.id = false) ∧
      ∃ previews, (w.previews.deleteWhere (expired now)).insert?
          (newPreview D (w.previewSeq + 1) actor action f reason token now
            (w.query f (commissionLogMaxBatch + 1))) = some previews ∧
        w' = { w with
          previews
          previewSeq := w.previewSeq + 1 } := by
  simp only [previewCommissionLogs, bind_eq_ok, ensure_eq_ok, exists_const, require_eq_ok,
    pure_eq_ok] at returned
  obtain ⟨⟨action, f, reason⟩, checked, -, -, -, unlocked, previews, inserted, rfl⟩ := returned
  refine ⟨action, f, reason, checked, ?_, previews, inserted, rfl⟩
  intro p stored ended
  have free := List.all_eq_true.mp unlocked p stored
  simpa [ended] using free

theorem checkPreview_side {req : PreviewRequest} {action : Action}
    {f : CommissionLogFilter Visibility} {reason : String}
    (returned : checkPreview req = .ok (action, f, reason)) {r : CommissionLogRecord}
    (chosen : commissionLogWhere f r = true) : r.hidden = decide (action = .restore) := by
  simp only [checkPreview, bind_eq_ok, ensure_eq_ok, exists_const, require_eq_ok, pure_eq_ok,
    Prod.mk.injEq] at returned
  obtain ⟨action, -, f, -, side, -, -, rfl, rfl, -⟩ := returned
  unfold commissionLogWhere at chosen
  rw [Bool.and_eq_true] at chosen
  cases action with
  | delete =>
    rw [if_pos rfl] at side
    rw [side] at chosen
    simpa using chosen.2
  | restore =>
    rw [if_neg (by rintro ⟨⟩)] at side
    rw [side] at chosen
    simpa using chosen.2

theorem preview_inv [DecidableEq δ] (h : Inv D w) (actor : Int) (req : PreviewRequest)
    (token : String) (now : Int) :
    Inv D (commit w (previewCommissionLogs D actor req token now w)) := by
  apply commit_cases (P := Inv D) w _ h
  intro w' returned
  obtain ⟨action, f, reason, checked, unlocked, previews, inserted, rfl⟩ :=
    previewCommissionLogs_eq_ok returned
  have members := Table.mem_of_insert? inserted
  refine Inv.change h rfl rfl ?_ (fun _ _ _ _ _ same => same) (fun _ member => member) ?_ h.once
    h.receipts
  · -- a locked preview is not deleted, expired or not
    intro n a found p locked stored
    apply (members p).mpr (Or.inl ((Table.mem_deleteWhere ..).mpr ⟨stored, ?_⟩))
    rw [Bool.eq_false_iff]
    intro ended
    exact other_preview (unlocked p stored ended) found locked rfl
  · intro p member r listed
    rcases (members p).mp member with old | rfl
    · exact h.sides p ((Table.mem_deleteWhere ..).mp old).1 r listed
    · exact checkPreview_side checked (mem_of_query listed).2.2

theorem unshared {tradeNo : String} (free : w.orderShared tradeNo = false) {n : Nat} {a : Apply δ}
    (found : w.applies[n]? = some a) {p : Preview δ} (locked : p ∈ a.phase.logs?) :
    tradeNo ∉ p.trades := by
  intro traded
  have held : p ∈ a.phase.orders? := by
    cases same : a.phase with
    | checked q =>
      rw [same] at locked
      exact locked
    | _ =>
      rw [same] at locked
      cases locked
  have taken : w.orderShared tradeNo = true := by
    refine List.any_eq_true.mpr ⟨a, List.mem_of_getElem? found, ?_⟩
    exact (Option.any_eq_true _ _).mpr ⟨p, held, decide_eq_true traded⟩
  rw [free] at taken
  cases taken

theorem Inv.write (h : Inv D w) {w' : World δ} (applies : w'.applies = w.applies)
    (answers : w'.answers = w.answers) (previews : w'.previews = w.previews)
    (operations : w'.operations = w.operations)
    (still : ∀ (n : Nat) (a : Apply δ), w.applies[n]? = some a → ∀ p ∈ a.phase.logs?,
      Unchanged w p → Unchanged w' p) : Inv D w' := by
  apply h.change applies answers _ still
  · intro o member
    rw [operations]
    exact member
  · rw [previews]
    exact h.sides
  · rw [operations]
    exact h.once
  · rw [operations]
    exact h.receipts
  · intro n a found p locked stored
    rw [previews]
    exact stored

theorem financial_inv (h : Inv D w) (write : Write) : Inv D (financial w write) := by
  cases write with
  | insertOrder order =>
    dsimp only [financial]
    split
    · exact h
    next free =>
      split
      next orders inserted =>
        refine h.write rfl rfl rfl rfl ?_
        intro n a found p locked unchanged
        refine unchanged_of_kept unchanged (fun _ stored _ => stored) ?_
        intro row stored _ _
        apply Table.find?_insert? inserted
        intro same
        exact free (List.any_eq_true.mpr ⟨row, stored, decide_eq_true same.symm⟩)
      · exact h
  | setCommissionStatus tradeNo status =>
    dsimp only [financial]
    split
    · exact h
    next free =>
      refine h.write rfl rfl rfl rfl ?_
      intro n a found p locked unchanged
      refine unchanged_of_kept unchanged (fun _ stored _ => stored) ?_
      intro row _ _ traded
      have other := unshared (Bool.eq_false_iff.mpr free) found locked
      rw [Table.find?_updateWhere]
      cases order : w.orders.find? row.tradeNo with
      | none => rfl
      | some o =>
        have named := Table.key_of_find? order
        have different : ¬(o.tradeNo = tradeNo) := fun same => other (same ▸ named ▸ traded)
        simp [different]
  | deleteOrder tradeNo =>
    dsimp only [financial]
    split
    · exact h
    next free =>
      refine h.write rfl rfl rfl rfl ?_
      intro n a found p locked unchanged
      refine unchanged_of_kept unchanged (fun _ stored _ => stored) ?_
      intro row _ _ traded
      apply Table.find?_deleteWhere
      intro o _ named
      have other := unshared (Bool.eq_false_iff.mpr free) found locked
      exact decide_eq_false fun same => other (same ▸ named ▸ traded)
  | insertLog row =>
    dsimp only [financial]
    split
    next logs inserted =>
      refine h.write rfl rfl rfl rfl ?_
      intro n a found p locked unchanged
      refine unchanged_of_kept unchanged ?_ fun _ _ _ _ => rfl
      exact fun other stored _ => (Table.mem_of_insert? inserted other).mpr (Or.inl stored)
    · exact h
  | deleteLogs tradeNo =>
    dsimp only [financial]
    split
    · exact h
    next free =>
      refine h.write rfl rfl rfl rfl ?_
      intro n a found p locked unchanged
      refine unchanged_of_kept unchanged ?_ fun _ _ _ _ => rfl
      intro row stored listed
      refine (Table.mem_deleteWhere ..).mpr ⟨stored, decide_eq_false ?_⟩
      -- the row is locked, so the refund would wait
      intro same
      apply free
      refine List.any_eq_true.mpr ⟨row, stored, ?_⟩
      rw [decide_eq_true same, Bool.true_and]
      refine List.any_eq_true.mpr ⟨a, List.mem_of_getElem? found, ?_⟩
      exact (Option.any_eq_true _ _).mpr ⟨p, locked, decide_eq_true listed⟩
  | setUser user =>
    dsimp only [financial]
    split
    · exact h
    · exact h.write rfl rfl rfl rfl fun _ _ _ _ _ unchanged => unchanged
  | insertUser user =>
    dsimp only [financial]
    split
    · exact h.write rfl rfl rfl rfl fun _ _ _ _ _ unchanged => unchanged
    · exact h
  | deleteUser id =>
    dsimp only [financial]
    split
    · exact h
    · exact h.write rfl rfl rfl rfl fun _ _ _ _ _ unchanged => unchanged

theorem advance_inv [DecidableEq δ] (h : Inv D w) {n : Nat} {a : Apply δ}
    (known : w.applies[n]? = some a) (act : Act) : Inv D (advance D w n a act) := by
  unfold advance
  split
  · exact lockKey_inv h known
  next receipt phase => exact replay_inv h known phase
  · exact lockPreview_inv h known _
  next p phase => exact lockOrders_inv h known phase
  next p phase => exact lockRecords_inv h known phase
  next p phase => exact commitApply_inv h known phase _ _
  · exact h
  · exact h.refuse known .failed
  · exact h

theorem step_inv [DecidableEq δ] (h : Inv D w) (act : Act) : Inv D (step D w act) := by
  cases act with
  | preview actor req token now => exact preview_inv h actor req token now
  | begin actor req => exact beginApply_inv h actor req
  | financial write => exact financial_inv h write
  | lockKey n | replay n | lockPreview n _ | lockOrders n | lockRecords n | commit n _ _
  | abort n =>
    dsimp only [step]
    split
    next a known => exact advance_inv h known _
    · exact h

end LogVisibility

end ForestPanel
