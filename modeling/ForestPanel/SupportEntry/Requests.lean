import ForestPanel.Lib.Table

/-!
# Requests of support staff

Every change of support staff is recorded under its actor and request id, with its kind and the
hash of its content. Clearing the list of operations leaves receipts behind; only the clean-up
forgets a request.
-/
namespace ForestPanel.SupportEntry

open Relational

/-- A state as it is stored: its kind, the hash of the request, and what it shows. -/
structure StoredState (σ : Type) where
  kind : String
  requestHash : String
  shown : σ

structure Operation (σ : Type) where
  id : Int
  actorID : Int
  targetUserID : Int
  sourcePolicyID : Int
  requestID : String
  reason : String
  beforeState : StoredState σ
  afterState : StoredState σ
  createdAt : Int

structure RequestReceipt where
  actorID : Int
  requestID : String
  kind : String
  requestHash : String
  createdAt : Int
deriving DecidableEq

def Operation.key {σ : Type} (o : Operation σ) : Int × String := (o.actorID, o.requestID)
def RequestReceipt.key (r : RequestReceipt) : Int × String := (r.actorID, r.requestID)

structure RequestLog (σ : Type) where
  operations : Table (@Operation.id σ) Operation.key
  receipts : Table RequestReceipt.key RequestReceipt.key
  nextOperation : Int

section

variable {σ : Type}

/-- The kind and the hash that are kept of a request, with the operation or after it was
cleared. -/
def RequestLog.saved (log : RequestLog σ) (key : Int × String) : Option (String × String) :=
  match log.operations.findUniq? key with
  | some o => some (o.afterState.kind, o.afterState.requestHash)
  | none => (log.receipts.find? key).map fun r => (r.kind, r.requestHash)

/-- `INSERT INTO v2_support_operation`. -/
def RequestLog.record? (log : RequestLog σ) (o : Operation σ) : Option (RequestLog σ) := do
  let operations ← log.operations.insert? { o with id := log.nextOperation }
  return { log with operations, nextOperation := log.nextOperation + 1 }

def Operation.receipt (o : Operation σ) : RequestReceipt :=
  ⟨o.actorID, o.requestID, o.afterState.kind, o.afterState.requestHash, o.createdAt⟩

/-- `INSERT … ON CONFLICT DO NOTHING`. -/
def keepReceipt (receipts : Table RequestReceipt.key RequestReceipt.key) (r : RequestReceipt) :
    Table RequestReceipt.key RequestReceipt.key :=
  (receipts.insert? r).getD receipts

def RequestLog.clear (log : RequestLog σ) (throughID : Int) : RequestLog σ :=
  if throughID ≤ 0 then log
  else
    let cleared := log.operations.rows.filter fun o => o.id ≤ throughID
    { log with
      receipts := (cleared.map Operation.receipt).foldl keepReceipt log.receipts
      operations := log.operations.deleteWhere fun o => o.id ≤ throughID }

/-- The clean-up of what was created before a time. -/
def RequestLog.cleanup (log : RequestLog σ) (cutoff : Int) : RequestLog σ :=
  { log with
    operations := log.operations.deleteWhere fun o => o.createdAt < cutoff
    receipts := log.receipts.deleteWhere fun r => r.createdAt < cutoff }

/-- A request is kept with its operation, or with a receipt once that was cleared. -/
structure Kept (log : RequestLog σ) (receipt : RequestReceipt) : Prop where
  operation : ∀ o ∈ log.operations, o.key = receipt.key → o.receipt = receipt
  receipts : ∀ r ∈ log.receipts, r.key = receipt.key → r = receipt
  somewhere : (∃ o ∈ log.operations, o.key = receipt.key) ∨ receipt ∈ log.receipts

variable {log log' : RequestLog σ} {receipt : RequestReceipt} {o : Operation σ}

theorem saved_eq_none {key : Int × String} :
    log.saved key = none ↔
      (∀ o ∈ log.operations, o.key ≠ key) ∧ ∀ r ∈ log.receipts, r.key ≠ key := by
  unfold RequestLog.saved
  cases found : log.operations.findUniq? key with
  | none =>
    rw [Option.map_eq_none_iff, Table.find?_eq_none]
    have free := (log.operations.findUniq?_eq_none key).mp found
    exact ⟨fun none => ⟨free, none⟩, fun both => both.2⟩
  | some o =>
    obtain ⟨member, same⟩ := (log.operations.findUniq?_eq_some key o).mp found
    constructor
    · rintro ⟨⟩
    · intro free
      exact absurd same (free.1 o member)

theorem Kept.saved (kept : Kept log receipt) :
    log.saved receipt.key = some (receipt.kind, receipt.requestHash) := by
  unfold RequestLog.saved
  cases found : log.operations.findUniq? receipt.key with
  | some o =>
    obtain ⟨member, same⟩ := (log.operations.findUniq?_eq_some _ o).mp found
    have stored := kept.operation o member same
    rw [← stored]
    rfl
  | none =>
    have free := (log.operations.findUniq?_eq_none _).mp found
    rcases kept.somewhere with ⟨o, member, same⟩ | member
    · exact absurd same (free o member)
    · rw [log.receipts.find?_key member]
      rfl

theorem mem_record (recorded : log.record? o = some log') :
    log'.receipts = log.receipts ∧
      ∀ p, p ∈ log'.operations ↔ p ∈ log.operations ∨ p = { o with id := log.nextOperation } := by
  simp only [RequestLog.record?, Option.bind_eq_bind, Option.bind_eq_some_iff, Option.pure_def,
    Option.some.injEq] at recorded
  obtain ⟨operations, inserted, rfl⟩ := recorded
  exact ⟨rfl, Table.mem_of_insert? inserted⟩

theorem kept_of_record (fresh : log.saved o.key = none) (recorded : log.record? o = some log') :
    Kept log' o.receipt := by
  obtain ⟨operations, receipts⟩ := saved_eq_none.mp fresh
  obtain ⟨same, members⟩ := mem_record recorded
  constructor
  case operation =>
    intro p member key
    rcases (members p).mp member with old | rfl
    · exact absurd key (operations p old)
    · rfl
  case receipts =>
    intro r member key
    rw [same] at member
    exact absurd key (receipts r member)
  case somewhere => exact Or.inl ⟨_, (members _).mpr (Or.inr rfl), rfl⟩

theorem Kept.record (kept : Kept log receipt) (fresh : log.saved o.key = none)
    (recorded : log.record? o = some log') : Kept log' receipt := by
  obtain ⟨operations, receipts⟩ := saved_eq_none.mp fresh
  obtain ⟨same, members⟩ := mem_record recorded
  have other : o.key ≠ receipt.key := by
    intro key
    rcases kept.somewhere with ⟨p, member, known⟩ | member
    · exact operations p member (known.trans key.symm)
    · exact receipts receipt member key.symm
  constructor
  case operation =>
    intro p member key
    rcases (members p).mp member with old | rfl
    · exact kept.operation p old key
    · exact absurd key other
  case receipts =>
    rw [same]
    exact kept.receipts
  case somewhere =>
    rw [same]
    refine kept.somewhere.imp_left ?_
    rintro ⟨p, member, key⟩
    exact ⟨p, (members p).mpr (Or.inl member), key⟩

theorem keepReceipt_cases (receipts : Table RequestReceipt.key RequestReceipt.key)
    (first : RequestReceipt) :
    (∀ r, r ∈ keepReceipt receipts first ↔ r ∈ receipts ∨ r = first) ∨
      (keepReceipt receipts first = receipts ∧ ∃ old ∈ receipts, old.key = first.key) := by
  cases inserted : receipts.insert? first with
  | some next =>
    refine Or.inl fun r => ?_
    rw [keepReceipt, inserted]
    exact Table.mem_of_insert? inserted r
  | none =>
    refine Or.inr ⟨by rw [keepReceipt, inserted]; rfl, ?_⟩
    by_contra free
    push Not at free
    have added : (receipts.insert? first).isSome = true := by
      unfold Table.insert?
      rw [dif_pos ⟨free, free⟩]
      rfl
    rw [inserted] at added
    cases added

variable {receipts : Table RequestReceipt.key RequestReceipt.key} {added : List RequestReceipt}

theorem mem_of_keepReceipts {r : RequestReceipt} (member : r ∈ added.foldl keepReceipt receipts) :
    r ∈ receipts ∨ r ∈ added := by
  induction added generalizing receipts with
  | nil => exact Or.inl member
  | cons first added ih =>
    rcases ih member with known | later
    · rcases keepReceipt_cases receipts first with members | ⟨same, -⟩
      · rcases (members r).mp known with old | rfl
        · exact Or.inl old
        · exact Or.inr List.mem_cons_self
      · rw [same] at known
        exact Or.inl known
    · exact Or.inr (List.mem_cons_of_mem _ later)

theorem keepReceipts_known {r : RequestReceipt} (known : r ∈ receipts ∨ r ∈ added) :
    ∃ kept ∈ added.foldl keepReceipt receipts, kept.key = r.key := by
  induction added generalizing receipts r with
  | nil =>
    rcases known with member | member
    · exact ⟨r, member, rfl⟩
    · cases member
  | cons first added ih =>
    rw [List.foldl_cons]
    rcases keepReceipt_cases receipts first with members | ⟨same, old, member, key⟩
    · rcases known with member | member
      · exact ih (Or.inl ((members r).mpr (Or.inl member)))
      · rcases List.mem_cons.mp member with rfl | later
        · exact ih (Or.inl ((members r).mpr (Or.inr rfl)))
        · exact ih (Or.inr later)
    · rw [same]
      rcases known with before | later
      · exact ih (Or.inl before)
      · rcases List.mem_cons.mp later with rfl | later
        · obtain ⟨kept, found, again⟩ := ih (Or.inl member)
          exact ⟨kept, found, again.trans key⟩
        · exact ih (Or.inr later)

theorem Kept.clear (kept : Kept log receipt) (throughID : Int) :
    Kept (log.clear throughID) receipt := by
  unfold RequestLog.clear
  split
  next => exact kept
  next =>
    have stored : ∀ r, r ∈ log.receipts ∨
        r ∈ (log.operations.rows.filter fun o => o.id ≤ throughID).map Operation.receipt →
        r.key = receipt.key → r = receipt := by
      rintro r (member | member) key
      · exact kept.receipts r member key
      · obtain ⟨p, listed, rfl⟩ := List.mem_map.mp member
        exact kept.operation p (List.mem_filter.mp listed).1 key
    constructor
    case operation =>
      intro p member key
      exact kept.operation p ((Table.mem_deleteWhere ..).mp member).1 key
    case receipts =>
      intro r member key
      exact stored r (mem_of_keepReceipts member) key
    case somewhere =>
      have moved : ∀ r, r ∈ log.receipts ∨
          r ∈ (log.operations.rows.filter fun o => o.id ≤ throughID).map Operation.receipt →
          r.key = receipt.key → receipt ∈ ((log.operations.rows.filter fun o =>
            o.id ≤ throughID).map Operation.receipt).foldl keepReceipt log.receipts := by
        intro r member key
        obtain ⟨added, found, same⟩ := keepReceipts_known member
        have same := stored added (mem_of_keepReceipts found) (same.trans key)
        rw [← same]
        exact found
      rcases kept.somewhere with ⟨p, member, key⟩ | member
      · by_cases cleared : p.id ≤ throughID
        · have among : p.receipt ∈ (log.operations.rows.filter fun o =>
              o.id ≤ throughID).map Operation.receipt :=
            List.mem_map.mpr ⟨p, List.mem_filter.mpr ⟨member, decide_eq_true cleared⟩, rfl⟩
          exact Or.inr (moved p.receipt (Or.inr among) key)
        · exact Or.inl ⟨p, (Table.mem_deleteWhere ..).mpr ⟨member, decide_eq_false cleared⟩, key⟩
      · exact Or.inr (moved receipt (Or.inl member) rfl)

theorem Kept.cleanup (kept : Kept log receipt) {cutoff : Int} (recent : cutoff ≤ receipt.createdAt) :
    Kept (log.cleanup cutoff) receipt := by
  constructor
  case operation =>
    intro p member key
    exact kept.operation p ((Table.mem_deleteWhere ..).mp member).1 key
  case receipts =>
    intro r member key
    exact kept.receipts r ((Table.mem_deleteWhere ..).mp member).1 key
  case somewhere =>
    rcases kept.somewhere with ⟨p, member, key⟩ | member
    · have created : p.createdAt = receipt.createdAt :=
        congrArg RequestReceipt.createdAt (kept.operation p member key)
      refine Or.inl ⟨p, (Table.mem_deleteWhere ..).mpr ⟨member, decide_eq_false ?_⟩, key⟩
      omega
    · refine Or.inr ((Table.mem_deleteWhere ..).mpr ⟨member, decide_eq_false ?_⟩)
      omega

/-- What a step may do to the log without forgetting a request of a time. -/
inductive LogStep (createdAt : Int) (log : RequestLog σ) : RequestLog σ → Prop
  | same : LogStep createdAt log log
  | record {o : Operation σ} {log' : RequestLog σ} (fresh : log.saved o.key = none)
      (recorded : log.record? o = some log') : LogStep createdAt log log'
  | clear (throughID : Int) : LogStep createdAt log (log.clear throughID)
  | cleanup {cutoff : Int} (recent : cutoff ≤ createdAt) : LogStep createdAt log (log.cleanup cutoff)

theorem Kept.step (kept : Kept log receipt) (taken : LogStep receipt.createdAt log log') :
    Kept log' receipt := by
  cases taken with
  | same => exact kept
  | record fresh recorded => exact kept.record fresh recorded
  | clear throughID => exact kept.clear throughID
  | cleanup recent => exact kept.cleanup recent

end

end ForestPanel.SupportEntry
