import ForestPanel.Lib.First
import ForestPanel.System

/-!
# Cleaning up old orders

`cleanupExpiredOrders` deletes a batch of finished orders that have not been written to for the
configured days. What it protects is decided by the user's latest completed order: while that is
newer, it stays with the orders it refers to itself. Those that these refer to are not looked at.
-/
namespace ForestPanel

open Relational FirstMatch

def orderHandleBatchLimit : Nat := 500

/-- `status IN (2, 3, 4)`. -/
def isFinished (o : OrderRecord) : Bool :=
  o.status = .cancelled || o.status = .completed || o.status = .closed

/-- `ORDER BY updated_at ASC LIMIT $1`. Rows of one second come as they are stored, which is any
order. -/
def cleanupCandidates (db : Db) (cutoff : Int) : List OrderRecord :=
  ((db.orders.rows.filter fun o => o.updatedAt ≤ cutoff && isFinished o).insertionSort
    fun a b => a.updatedAt ≤ b.updatedAt).take orderHandleBatchLimit

/-- `ORDER BY COALESCE(paid_at, created_at) DESC, id DESC`. -/
abbrev LatestFirst : OrderRecord → OrderRecord → Prop :=
  ByKeys (fun o => -o.paidAt.getD o.createdAt) fun o => -o.id

def latestCompletedOrderForCleanup (db : Db) (userID : Int) : Option OrderRecord :=
  ((completedOrders db userID fun _ => true).insertionSort LatestFirst).head?

def deletable (db : Db) (cutoff : Int) (item : OrderRecord) : Bool :=
  if item.status = .cancelled then true
  else
    match latestCompletedOrderForCleanup db item.userID with
    | none => true
    | some latest =>
      if latest.updatedAt ≤ cutoff then true
      else if item.id = latest.id then false
      else if item.id ∈ surplusIDs latest then false
      else true

def cleanupCutoff (orderKeepDays now : Int) : Int := now - orderKeepDays * 86400

def cleanedUp (orderKeepDays now : Int) (db : Db) : List OrderRecord :=
  let cutoff := cleanupCutoff orderKeepDays now
  if orderKeepDays ≤ 0 then [] else (cleanupCandidates db cutoff).filter (deletable db cutoff)

def cleanupExpiredOrders (orderKeepDays now : Int) (db : Db) : Db :=
  { db with
    orders := db.orders.deleteWhere fun o => o.id ∈ (cleanedUp orderKeepDays now db).map (·.id) }

section

variable {orderKeepDays now : Int} {db : Db}

private theorem mem_cleanupCandidates {cutoff : Int} {o : OrderRecord}
    (listed : o ∈ cleanupCandidates db cutoff) :
    o ∈ db.orders ∧ o.updatedAt ≤ cutoff ∧ isFinished o = true := by
  have sorted := List.mem_of_mem_take listed
  rw [List.mem_insertionSort, List.mem_filter, Bool.and_eq_true, decide_eq_true_eq] at sorted
  exact sorted

private theorem mem_cleanedUp {o : OrderRecord} (listed : o ∈ cleanedUp orderKeepDays now db) :
    o ∈ cleanupCandidates db (cleanupCutoff orderKeepDays now) ∧
      deletable db (cleanupCutoff orderKeepDays now) o = true := by
  unfold cleanedUp at listed
  dsimp only at listed
  split at listed
  · cases listed
  · exact List.mem_filter.mp listed

theorem mem_cleanupExpiredOrders (o : OrderRecord) :
    o ∈ (cleanupExpiredOrders orderKeepDays now db).orders ↔
      o ∈ db.orders ∧ o ∉ cleanedUp orderKeepDays now db := by
  unfold cleanupExpiredOrders
  rw [Table.mem_deleteWhere, decide_eq_false_iff_not, List.mem_map]
  apply and_congr_right
  intro stored
  constructor
  · intro kept deleted
    exact kept ⟨o, deleted, rfl⟩
  · rintro kept ⟨item, deleted, same⟩
    have member := (mem_cleanupCandidates (mem_cleanedUp deleted).1).1
    exact kept (db.orders.eq_of_key member stored same ▸ deleted)

/-- The completed order of the user that no other one comes after. -/
structure LatestCompleted (db : Db) (latest : OrderRecord) : Prop where
  stored : latest ∈ db.orders
  completed : latest.status = .completed
  last : ∀ o ∈ db.orders, o.userID = latest.userID → o.status = .completed → LatestFirst latest o

theorem latestCompletedOrderForCleanup_eq {latest : OrderRecord} (h : LatestCompleted db latest) :
    latestCompletedOrderForCleanup db latest.userID = some latest := by
  have rows : ∀ o, o ∈ completedOrders db latest.userID (fun _ => true) ↔
      o ∈ db.orders ∧ o.userID = latest.userID ∧ o.status = .completed := by
    simp [completedOrders, Table.mem_def]
  have own := (rows latest).mpr ⟨h.stored, rfl, h.completed⟩
  cases found : latestCompletedOrderForCleanup db latest.userID with
  | none =>
    rw [head?_insertionSort_eq_none.mp found] at own
    cases own
  | some o =>
    obtain ⟨listed, least⟩ := head?_insertionSort found
    obtain ⟨stored, buyer, completed⟩ := (rows o).mp listed
    have same := (least latest own).second_eq (h.last o stored buyer completed)
    exact congrArg some (db.orders.eq_of_key stored h.stored (neg_injective same))

private theorem not_mem_cleanedUp {latest o : OrderRecord} (h : LatestCompleted db latest)
    (newer : cleanupCutoff orderKeepDays now < latest.updatedAt) (buyer : o.userID = latest.userID)
    (finished : o.status ≠ .cancelled) (named : o.id = latest.id ∨ o.id ∈ surplusIDs latest) :
    o ∉ cleanedUp orderKeepDays now db := by
  intro listed
  have deleted := (mem_cleanedUp listed).2
  unfold deletable at deleted
  rw [if_neg finished, buyer, latestCompletedOrderForCleanup_eq h] at deleted
  dsimp only at deleted
  rw [if_neg (by omega)] at deleted
  rcases named with same | referred
  · rw [if_pos same] at deleted
    cases deleted
  · rw [if_pos referred, ite_self] at deleted
    cases deleted

end

/-- The cleanup deletes finished orders that were last written at the cut-off or before. The latest
completed order of a user, when it was written after the cut-off, stays with every order of the
user, completed or closed, that it refers to; its refund restores the same orders. -/
theorem cleanup_keeps_latest_references (orderKeepDays now : Int) (db : Db) :
    let cleaned := cleanupExpiredOrders orderKeepDays now db
    let cutoff := cleanupCutoff orderKeepDays now
    (∀ o ∈ db.orders, o ∉ cleaned.orders → o.updatedAt ≤ cutoff ∧ isFinished o = true) ∧
    ∀ latest, LatestCompleted db latest → cutoff < latest.updatedAt →
      latest ∈ cleaned.orders ∧
      (∀ o ∈ db.orders, o.userID = latest.userID → o.status = .completed ∨ o.status = .closed →
        o.id ∈ surplusIDs latest → o ∈ cleaned.orders) ∧
      ((∀ o ∈ db.orders, o.id ∈ surplusIDs latest → o.userID = latest.userID) →
        (cleaned.orders.rows.filter fun o => o.status = .closed && o.id ∈ surplusIDs latest) =
          db.orders.rows.filter fun o => o.status = .closed && o.id ∈ surplusIDs latest) := by
  intro cleaned cutoff
  constructor
  · intro o stored gone
    have deleted : o ∈ cleanedUp orderKeepDays now db := by
      by_contra kept
      exact gone ((mem_cleanupExpiredOrders o).mpr ⟨stored, kept⟩)
    exact (mem_cleanupCandidates (mem_cleanedUp deleted).1).2
  · intro latest h newer
    have references : ∀ o ∈ db.orders, o.userID = latest.userID →
        o.status = .completed ∨ o.status = .closed → o.id ∈ surplusIDs latest →
          o ∈ cleaned.orders := by
      intro o stored buyer status referred
      have finished : o.status ≠ .cancelled := by
        rcases status with completed | closed
        · simp [completed]
        · simp [closed]
      exact (mem_cleanupExpiredOrders o).mpr
        ⟨stored, not_mem_cleanedUp h newer buyer finished (.inr referred)⟩
    refine ⟨?_, references, ?_⟩
    · have finished : latest.status ≠ .cancelled := by simp [h.completed]
      exact (mem_cleanupExpiredOrders latest).mpr
        ⟨h.stored, not_mem_cleanedUp h newer rfl finished (.inl rfl)⟩
    · intro own
      change (List.filter _ (List.filter _ db.orders.rows)) = _
      rw [List.filter_filter]
      apply List.filter_congr
      intro o stored
      cases restored : (o.status = .closed && o.id ∈ surplusIDs latest : Bool) with
      | false => exact Bool.false_and _
      | true =>
        rw [Bool.and_eq_true, decide_eq_true_eq, decide_eq_true_eq] at restored
        have kept := references o stored (own o stored restored.2) (.inr restored.1) restored.2
        rw [Bool.true_and, Bool.not_eq_true']
        exact ((Table.mem_deleteWhere ..).mp kept).2

/-- A change of plan that used up the orders `ids`, last written on the given day. -/
def changedOrder (id : Int) (tradeNo : String) (ids : List Int) (status : OrderStatus)
    (day : Int) : OrderRecord :=
  { (newDraft 1 id .change .monthPrice tradeNo 1000).row (86400 * id) with
    id
    status
    surplusOrderIDs := some ids
    updatedAt := 86400 * day }

/-- Three plans, one after the other: each order used up the one before. -/
def changedTwice : Db :=
  { (Small.sys ⟨[{ Small.buyer 1 0 with planID := some 3 }], by decide, by decide⟩
      ⟨[Small.plan 1 1000, Small.plan 2 1000, Small.plan 3 1000], by decide, by decide⟩ .empty).db
      with
    orders := ⟨[changedOrder 1 "T1" [] .closed 2, changedOrder 2 "T2" [1] .closed 3,
      changedOrder 3 "T3" [2] .completed 99], by decide, by decide⟩ }

theorem latest_changedTwice :
    LatestCompleted changedTwice (changedOrder 3 "T3" [2] .completed 99) :=
  ⟨by decide, by decide, by decide⟩

/-- The order that the last change used up is kept. -/
theorem cleanup_keeps_second_order :
    changedOrder 2 "T2" [1] .closed 3 ∈
      (cleanupExpiredOrders 30 (86400 * 100) changedTwice).orders :=
  ((cleanup_keeps_latest_references 30 (86400 * 100) changedTwice).2 _ latest_changedTwice
    (by decide)).2.1 _ (by decide) (by decide) (by decide) (by decide)

/-- The two changes are refunded, the last one first. -/
def refundChanges (db : Db) : Option UserRecord :=
  match refundManagedOrder Small.runtime (86400 * 100) "T3" db with
  | .error _ => none
  | .ok db =>
    match refundManagedOrder Small.runtime (86400 * 100) "T2" db with
    | .error _ => none
    | .ok db => db.users.find? 1

/-- The second order is kept while the first one, which it used up, is deleted; after the two
refunds the user has the first plan without the cleanup, and none with it. -/
theorem cleanup_breaks_chain :
    (∃ kept ∈ (cleanupExpiredOrders 30 (86400 * 100) changedTwice).orders,
      kept.status = .closed ∧ ∃ deleted ∈ changedTwice.orders, deleted.id ∈ surplusIDs kept ∧
        deleted ∉ (cleanupExpiredOrders 30 (86400 * 100) changedTwice).orders) ∧
    (refundChanges changedTwice).map (·.planID) = some (some 1) ∧
    (refundChanges (cleanupExpiredOrders 30 (86400 * 100) changedTwice)).map (·.planID) =
      some none := by
  refine ⟨by decide, by decide, by decide⟩

end ForestPanel
