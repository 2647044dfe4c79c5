import ForestPanel.LogVisibility.Locks

/-!
# An apply is atomic and idempotent

What every step of every run of previews, applies and financial writers does to
the records, the previews and the recorded operations.
-/
namespace ForestPanel

namespace LogVisibility

open Relational Outcome Transition

variable {δ : Type} {D : Digests δ} {w : World δ}

/-- All of a record but the columns that say whether it is shown. -/
def LogRow.money (row : LogRow) : LogRow :=
  { row with
    deletedAt := none
    deletedBy := none
    deleteReason := ""
    visibilityVersion := 0 }

/-- The records of `p` changed sides, and nothing else happened to records,
orders and users. One operation was recorded, for `p` and under the key of `a`. -/
structure Flipped (D : Digests δ) (w w' : World δ) (a : Apply δ) (p : Preview δ) : Prop where
  unchanged : Unchanged w p
  rows : ∃ f, w'.logs.rows = w.logs.rows.map f ∧ ∀ row ∈ w.logs, (f row).money = row.money ∧
    if row.id ∈ p.ids then (f row).hidden = !row.hidden else f row = row
  orders : w'.orders = w.orders
  users : w'.users = w.users
  recorded : ∃ o, (∀ o', o' ∈ w'.operations ↔ o' ∈ w.operations ∨ o' = o) ∧ o.previewID = p.id ∧
    o.key = a.key ∧ o.requestHash = D.ofRequest a.req
  used : ∀ q ∈ w'.previews, q ∈ w.previews ∧ q.id ≠ p.id ∨
    q.id = p.id ∧ q.appliedOperationID ≠ none

structure SameData (w w' : World δ) : Prop where
  logs : w'.logs = w.logs
  orders : w'.orders = w.orders
  users : w'.users = w.users
  previews : w'.previews = w.previews
  operations : w'.operations = w.operations

def Act.ofApply : Act → Bool
  | .preview .. | .financial _ => false
  | _ => true

/-- What the step that `act` makes in `w` does, and what it leaves behind. -/
structure Guaranteed [DecidableEq δ] (D : Digests δ) (w : World δ) (act : Act) : Prop where
  atomic : act.ofApply = true → SameData w (step D w act) ∨
    ∃ n now heard a p, act = .commit n now heard ∧ w.applies[n]? = some a ∧ Names D w a p ∧
      Flipped D w (step D w act) a p
  /-- A preview is what it was, or used up, or has just been made of the records there are. -/
  previews : ∀ p ∈ (step D w act).previews, p ∈ w.previews ∨ p.appliedOperationID ≠ none ∨
    ∃ actor req token now f, act = .preview actor req token now ∧
      p.snapshot = w.query f (commissionLogMaxBatch + 1)
  others : act.ofApply = false → (step D w act).operations = w.operations ∧
    ((∀ write, act ≠ .financial write) → (step D w act).logs = w.logs ∧
      (step D w act).orders = w.orders ∧ (step D w act).users = w.users)
  /-- At most one operation has a preview, and at most one a key. -/
  once : ∀ o ∈ (step D w act).operations, ∀ o' ∈ (step D w act).operations,
    o.previewID = o'.previewID ∨ o.key = o'.key → o = o'
  /-- All that is granted under a key is granted to one request, with one receipt. -/
  receipts : ∀ ans ∈ (step D w act).answers, ∀ ans' ∈ (step D w act).answers,
    ans.key = ans'.key → ∀ out out', ans.result = .ok out → ans'.result = .ok out' →
      ans.req = ans'.req ∧ { out with replayed := false } = { out' with replayed := false }
  /-- A repeat is refused when it asks for something else, and has the receipt of the
  operation as long as the actor is an operator. -/
  repeats : ∀ (n : Nat) (a : Apply δ) (o : Operation δ), w.applies[n]? = some a →
    o ∈ w.operations → o.key = a.key →
      (act = .lockKey n → a.phase = .begun → w.keyLocked a.key = false →
        step D w act =
          if o.requestHash = D.ofRequest a.req then w.setPhase n a (.replaying o.receipt)
          else w.answer n a (.error .conflict)) ∧
      (act = .replay n → ∀ receipt, a.phase = .replaying receipt →
        step D w act =
          if w.isOperator a.actor then w.answer n a (.ok { o.receipt with replayed := true })
          else w.answer n a (.error .forbidden))

structure Start (w : World δ) : Prop where
  previews : w.previews.rows = []
  operations : w.operations.rows = []
  applies : w.applies = []
  answers : w.answers = []

theorem money_flip (action : Action) (now actor : Int) (reason : String) (row : LogRow) :
    (flip action now actor reason row).money = row.money := by
  cases action <;> rfl

theorem hidden_flip (action : Action) (now actor : Int) (reason : String) (row : LogRow) :
    (flip action now actor reason row).hidden = decide (action = .delete) := by
  cases action <;> rfl

theorem Inv.side (h : Inv D w) {p : Preview δ} (stored : p ∈ w.previews)
    (unchanged : Unchanged w p) {row : LogRow} (member : row ∈ w.logs) (listed : row.id ∈ p.ids) :
    row.hidden = decide (p.action = .restore) := by
  obtain ⟨r, seen, named⟩ := List.mem_map.mp listed
  obtain ⟨row', member', rfl⟩ := unchanged r seen
  obtain rfl : row' = row := w.logs.eq_of_key member' member named
  exact h.sides p stored _ seen

theorem flipped_commit [DecidableEq δ] (h : Inv D w) {n : Nat} {a : Apply δ}
    (known : w.applies[n]? = some a) {p : Preview δ} (phase : a.phase = .checked p) {now : Int}
    {w' : World δ} (returned : writeApply D a p now w = .ok w') : Flipped D w w' a p := by
  have unchanged : Unchanged w p := h.still n a known p (phase ▸ rfl)
  have stored : p ∈ w.previews := (h.held n a known p (phase ▸ rfl)).stored
  obtain ⟨-, operations, inserted, rfl⟩ := writeApply_eq_ok returned
  refine ⟨unchanged, ⟨_, rfl, ?_⟩, rfl, rfl, ⟨_, Table.mem_of_insert? inserted, rfl, rfl, rfl⟩, ?_⟩
  · intro row member
    by_cases listed : row.id ∈ p.ids
    · simp only [listed, decide_true, if_true]
      refine ⟨money_flip .., ?_⟩
      rw [hidden_flip, h.side stored unchanged member listed]
      cases p.action <;> rfl
    · simp [listed]
  · intro q member
    rcases mem_of_consume member with other | ⟨same, -, consumed⟩
    · exact Or.inl other
    · exact Or.inr ⟨same, fun unused => nomatch unused.symm.trans consumed⟩

theorem sameData_answer (n : Nat) (a : Apply δ) (result : Except LogError ApplyResult) :
    SameData w (w.answer n a result) := ⟨rfl, rfl, rfl, rfl, rfl⟩

theorem sameData_setPhase (n : Nat) (a : Apply δ) (phase : Phase δ) :
    SameData w (w.setPhase n a phase) := ⟨rfl, rfl, rfl, rfl, rfl⟩

theorem sameData_refl (w : World δ) : SameData w w := ⟨rfl, rfl, rfl, rfl, rfl⟩

theorem lockKey_sameData [DecidableEq δ] (n : Nat) (a : Apply δ) :
    SameData w (lockKey D n a w) := by
  unfold lockKey
  split
  · exact sameData_refl w
  split
  · exact sameData_setPhase ..
  split
  · exact sameData_answer ..
  split
  · exact sameData_setPhase ..
  · exact sameData_answer ..

theorem lockPreview_sameData [DecidableEq δ] (n : Nat) (a : Apply δ) (now : Int) :
    SameData w (lockPreview D n a now w) := by
  unfold lockPreview
  split
  · exact sameData_answer ..
  split
  · exact sameData_refl w
  split
  · exact sameData_answer ..
  · exact sameData_setPhase ..

theorem lockRecords_sameData [DecidableEq δ] (n : Nat) (a : Apply δ) (p : Preview δ) :
    SameData w (lockRecords D n a p w) := by
  unfold lockRecords
  split
  · exact sameData_answer ..
  split
  · exact sameData_refl w
  split
  · exact sameData_answer ..
  · exact sameData_setPhase ..

theorem replay_sameData (n : Nat) (a : Apply δ) (receipt : ApplyResult) :
    SameData w (replay n a receipt w) := by
  unfold replay
  split <;> exact sameData_answer ..

theorem beginApply_sameData (actor : Int) (req : ApplyRequest) :
    SameData w (beginApply actor req w) := by
  unfold beginApply
  split
  · exact ⟨rfl, rfl, rfl, rfl, rfl⟩
  · split <;> exact ⟨rfl, rfl, rfl, rfl, rfl⟩

theorem Flipped.answer {w' : World δ} {a b : Apply δ} {p : Preview δ} (h : Flipped D w w' a p)
    (n : Nat) (result : Except LogError ApplyResult) : Flipped D w (w'.answer n b result) a p where
  unchanged := h.unchanged
  rows := h.rows
  orders := h.orders
  users := h.users
  recorded := h.recorded
  used := h.used

theorem commitApply_atomic [DecidableEq δ] (h : Inv D w) {n : Nat} {a : Apply δ}
    (known : w.applies[n]? = some a) {p : Preview δ} (phase : a.phase = .checked p) (now : Int)
    (heard : Bool) :
    SameData w (commitApply D n a p now heard w) ∨ Flipped D w (commitApply D n a p now heard w) a p := by
  unfold commitApply
  split
  · exact Or.inl (sameData_answer ..)
  next w' returned =>
    have flips := flipped_commit h known phase returned
    right
    split <;> exact flips.answer ..

theorem advance_sameData [DecidableEq δ] (n : Nat) (a : Apply δ) (act : Act)
    (quiet : ∀ m now heard, act ≠ .commit m now heard) : SameData w (advance D w n a act) := by
  unfold advance
  split
  · exact lockKey_sameData ..
  · exact replay_sameData ..
  · exact lockPreview_sameData ..
  · exact sameData_setPhase ..
  · exact lockRecords_sameData ..
  · exact absurd rfl (quiet _ _ _)
  · exact sameData_refl w
  · exact sameData_answer ..
  · exact sameData_refl w

theorem advance_commit [DecidableEq δ] (h : Inv D w) {n : Nat} {a : Apply δ}
    (known : w.applies[n]? = some a) (m : Nat) (now : Int) (heard : Bool) :
    SameData w (advance D w n a (.commit m now heard)) ∨
      ∃ p, Names D w a p ∧ Flipped D w (advance D w n a (.commit m now heard)) a p := by
  cases phase : a.phase with
  | checked p =>
    have shape : advance D w n a (.commit m now heard) = commitApply D n a p now heard w := by
      simp only [advance, phase]
    rw [shape]
    rcases commitApply_atomic h known phase now heard with same | flips
    · exact Or.inl same
    · exact Or.inr ⟨p, (h.held n a known p (phase ▸ rfl)).toNames, flips⟩
  | _ =>
    left
    simp only [advance, phase]
    exact sameData_refl w

theorem step_atomic [DecidableEq δ] (h : Inv D w) (act : Act) (ours : act.ofApply = true) :
    SameData w (step D w act) ∨
      ∃ n now heard a p, act = .commit n now heard ∧ w.applies[n]? = some a ∧ Names D w a p ∧
        Flipped D w (step D w act) a p := by
  cases act with
  | preview actor req token now => cases ours
  | financial write => cases ours
  | begin actor req => exact Or.inl (beginApply_sameData actor req)
  | commit n now heard =>
    dsimp only [step]
    split
    next a known =>
      rcases advance_commit h known n now heard with same | ⟨p, named, flips⟩
      · exact Or.inl same
      · exact Or.inr ⟨n, now, heard, a, p, rfl, known, named, flips⟩
    · exact Or.inl (sameData_refl w)
  | lockKey n | replay n | lockPreview n _ | lockOrders n | lockRecords n | abort n =>
    left
    dsimp only [step]
    split
    · exact advance_sameData _ _ _ nofun
    · exact sameData_refl w

theorem financial_frame (write : Write) :
    (financial w write).operations = w.operations ∧
      (financial w write).previews = w.previews := by
  cases write with
  | insertOrder order | insertLog row | insertUser user =>
    dsimp only [financial]
    split
    all_goals first
      | exact ⟨rfl, rfl⟩
      | split <;> exact ⟨rfl, rfl⟩
  | setCommissionStatus tradeNo status | deleteOrder tradeNo | deleteLogs tradeNo | setUser user
  | deleteUser id =>
    dsimp only [financial]
    split <;> exact ⟨rfl, rfl⟩

theorem step_others [DecidableEq δ] (act : Act) (other : act.ofApply = false) :
    (step D w act).operations = w.operations ∧
      ((∀ write, act ≠ .financial write) → (step D w act).logs = w.logs ∧
        (step D w act).orders = w.orders ∧ (step D w act).users = w.users) := by
  cases act with
  | preview actor req token now =>
    apply commit_cases (P := fun w' : World δ => w'.operations = w.operations ∧
      (_ → w'.logs = w.logs ∧ w'.orders = w.orders ∧ w'.users = w.users))
    · exact ⟨rfl, fun _ => ⟨rfl, rfl, rfl⟩⟩
    · intro w' returned
      obtain ⟨action, f, reason, -, -, previews, -, rfl⟩ := previewCommissionLogs_eq_ok returned
      exact ⟨rfl, fun _ => ⟨rfl, rfl, rfl⟩⟩
  | financial write => exact ⟨(financial_frame write).1, fun never => absurd rfl (never write)⟩
  | _ => cases other

theorem step_previews [DecidableEq δ] (h : Inv D w) (act : Act) {p : Preview δ}
    (member : p ∈ (step D w act).previews) : p ∈ w.previews ∨ p.appliedOperationID ≠ none ∨
      ∃ actor req token now f, act = .preview actor req token now ∧
        p.snapshot = w.query f (commissionLogMaxBatch + 1) := by
  by_cases ours : act.ofApply = true
  · rcases step_atomic h act ours with same | ⟨n, now, heard, a, q, -, -, -, flips⟩
    · exact Or.inl (same.previews ▸ member)
    · rcases flips.used p member with ⟨old, -⟩ | ⟨-, consumed⟩
      · exact Or.inl old
      · exact Or.inr (Or.inl consumed)
  cases act with
  | preview actor req token now =>
    dsimp only [step] at member
    cases returned : previewCommissionLogs D actor req token now w with
    | error e =>
      rw [returned] at member
      exact Or.inl member
    | ok w' =>
      rw [returned, commit_ok] at member
      obtain ⟨action, f, reason, -, -, previews, inserted, rfl⟩ :=
        previewCommissionLogs_eq_ok returned
      rcases (Table.mem_of_insert? inserted p).mp member with old | rfl
      · exact Or.inl ((Table.mem_deleteWhere ..).mp old).1
      · exact Or.inr (Or.inr ⟨actor, req, token, now, f, rfl, rfl⟩)
  | financial write =>
    dsimp only [step] at member
    rw [(financial_frame write).2] at member
    exact Or.inl member
  | _ => exact absurd rfl ours

theorem Inv.once_of_key (h : Inv D w) {o o' : Operation δ} (member : o ∈ w.operations)
    (member' : o' ∈ w.operations) (same : o.previewID = o'.previewID ∨ o.key = o'.key) : o = o' := by
  rcases same with preview | key
  · exact h.once o member o' member' preview
  · exact w.operations.eq_of_uniq member member' key

theorem Inv.receipt_of_key (h : Inv D w) {ans ans' : Answer} (member : ans ∈ w.answers)
    (member' : ans' ∈ w.answers) (key : ans.key = ans'.key) {out out' : ApplyResult}
    (granted : ans.result = .ok out) (granted' : ans'.result = .ok out') :
    ans.req = ans'.req ∧ { out with replayed := false } = { out' with replayed := false } := by
  obtain ⟨o, stored, named, hash, receipt⟩ := h.answers ans member out granted
  obtain ⟨o', stored', named', hash', receipt'⟩ := h.answers ans' member' out' granted'
  obtain rfl : o = o' :=
    w.operations.eq_of_uniq stored stored' (named.trans (key.trans named'.symm))
  exact ⟨D.request_injective (hash.symm.trans hash'), receipt.symm.trans receipt'⟩

theorem lockKey_of_recorded [DecidableEq δ] (h : Inv D w) {n : Nat} {a : Apply δ}
    {o : Operation δ} (known : w.applies[n]? = some a) (stored : o ∈ w.operations)
    (key : o.key = a.key) (phase : a.phase = .begun) (free : w.keyLocked a.key = false) :
    step D w (.lockKey n) =
      if o.requestHash = D.ofRequest a.req then w.setPhase n a (.replaying o.receipt)
      else w.answer n a (.error .conflict) := by
  have found : w.operations.findUniq? a.key = some o :=
    (Table.findUniq?_eq_some ..).mpr ⟨stored, key⟩
  have committed := (h.receipts o stored).1
  simp only [step, known, advance, phase, lockKey, free, found, committed, ite_not, if_true,
    Bool.false_eq_true, if_false]

theorem replay_of_recorded [DecidableEq δ] (h : Inv D w) {n : Nat} {a : Apply δ}
    {o : Operation δ} (known : w.applies[n]? = some a) (stored : o ∈ w.operations)
    (key : o.key = a.key) {receipt : ApplyResult} (phase : a.phase = .replaying receipt) :
    step D w (.replay n) =
      if w.isOperator a.actor then w.answer n a (.ok { o.receipt with replayed := true })
      else w.answer n a (.error .forbidden) := by
  obtain ⟨o', stored', named, -, rfl⟩ := h.replaying n a receipt known phase
  obtain rfl : o' = o := w.operations.eq_of_uniq stored' stored (named.trans key.symm)
  simp only [step, known, advance, phase, replay]

theorem Start.inv (start : Start w) : Inv D w where
  held := by
    intro n a found
    rw [start.applies] at found
    cases found
  alone := by
    intro n m a b _ found
    rw [start.applies] at found
    cases found
  apart := by
    intro n m a b _ found
    rw [start.applies] at found
    cases found
  still := by
    intro n a found
    rw [start.applies] at found
    cases found
  replaying := by
    intro n a receipt found
    rw [start.applies] at found
    cases found
  sides := by
    intro p member
    rw [Table.mem_def, start.previews] at member
    cases member
  once := by
    intro o member
    rw [Table.mem_def, start.operations] at member
    cases member
  receipts := by
    intro o member
    rw [Table.mem_def, start.operations] at member
    cases member
  answers := by
    intro ans member
    rw [start.answers] at member
    cases member

theorem step_guaranteed [DecidableEq δ] (h : Inv D w) (act : Act) : Guaranteed D w act where
  atomic := step_atomic h act
  previews := fun _ member => step_previews h act member
  others := step_others act
  once := fun _ member _ member' => (step_inv h act).once_of_key member member'
  receipts := fun _ member _ member' key _ _ => (step_inv h act).receipt_of_key member member' key
  repeats := by
    intro n a o known stored key
    constructor
    · rintro rfl
      exact lockKey_of_recorded h known stored key
    · rintro rfl receipt
      exact replay_of_recorded h known stored key

/-- Whatever previews, applies and financial writers do, and in whatever order their
statements come. -/
theorem apply_guaranteed [DecidableEq δ] (D : Digests δ) (w : World δ) (start : Start w)
    (acts : List Act) : Along (step D) (Guaranteed D) w acts := by
  have kept : Along (step D) (fun v act => Inv D v ∧ True) w acts :=
    along_invariant (fun v act inv _ => step_inv inv act) w acts start.inv (along_true w acts)
  exact along_mono w acts (fun v act known => step_guaranteed known.1 act) kept

/-- A digest that is the digested value. -/
inductive Hash
  | records (rs : List CommissionLogRecord)
  | request (req : ApplyRequest)
  | token (text : String)
deriving DecidableEq

def verbatim : Digests Hash where
  ofRecords := .records
  ofRequest := .request
  ofToken := .token
  records_injective := fun _ _ => Hash.records.inj
  request_injective := fun _ _ => Hash.request.inj
  token_injective := fun _ _ => Hash.token.inj

def soldOrder : Order := ⟨"T1", 1⟩

def soldLog : LogRow where
  id := 7
  inviteUserID := 2
  userID := 3
  tradeNo := "T1"
  orderAmount := 1000
  getAmount := 100
  createdAt := 50
  updatedAt := 50
  deletedAt := none
  deletedBy := none
  deleteReason := ""
  visibilityVersion := 0

def operator : User := ⟨1, 0, 1, 0, 0, 0⟩

def shop : World Hash where
  users := ⟨[operator], by decide, by decide⟩
  orders := ⟨[soldOrder], by decide, by decide⟩
  logs := ⟨[soldLog], by decide, by decide⟩
  previews := .empty
  operations := .empty
  previewSeq := 0
  operationSeq := 0
  applies := []
  answers := []

def shopToken : String := "0123456789abcdef0123456789abcdef0123456789abcdef0123456789abcdef"

def hideAll : PreviewRequest where
  filter := ⟨none, [], none, none, "", none, none, none, ""⟩
  action := "delete"
  reason := "test"
  confirmAll := true

def hideRequest : ApplyRequest := ⟨shopToken, "k1", true, true, none, "delete"⟩

/-- The operator previews and applies, is banned, and repeats the request that
was on its way. -/
def bannedRepeat : List Act :=
  [.preview 1 hideAll shopToken 100, .begin 1 hideRequest, .begin 1 hideRequest, .lockKey 0,
    .lockPreview 0 101, .lockOrders 0, .lockRecords 0, .commit 0 102 true, .lockKey 1,
    .financial (.setUser { operator with banned := 1 }), .replay 1]

def Answer.outcome (ans : Answer) : ApplyResult ⊕ LogError :=
  match ans.result with
  | .ok out => .inl out
  | .error e => .inr e

theorem shop_start : Start shop := ⟨rfl, rfl, rfl, rfl⟩

/-- The second request is the first once more, and does not get its receipt. -/
theorem banned_repeat_refused :
    (run (step verbatim) shop bannedRepeat).answers.map
        (fun ans => (ans.actor, ans.req, ans.outcome)) =
      [(1, hideRequest, .inl ⟨1, .delete, 1, 100, true, false, 102, false⟩),
        (1, hideRequest, .inr .forbidden)] := by
  decide +kernel

theorem apply_guaranteed_in_shop : Start shop ∧
    Along (step verbatim) (Guaranteed verbatim) shop bannedRepeat :=
  ⟨shop_start, apply_guaranteed verbatim shop shop_start bannedRepeat⟩

end LogVisibility

end ForestPanel
