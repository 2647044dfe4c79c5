import ForestPanel.Store.Database
import Mathlib.Algebra.BigOperators.Group.List.Basic
import Mathlib.Tactic.Ring

/-!
# Wallets and the ledger

`Moves db db' moves`: the ledger grew by exactly `moves`, and every user's two
wallets changed by exactly what `moves` says. Each transaction gets one such
fact, and they compose.
-/
namespace ForestPanel

open Relational Outcome

def balanceMoved (moves : List Movement) (userID : Int) : Int :=
  ((moves.filter fun m => m.userID = userID).map (·.balance)).sum

def commissionMoved (moves : List Movement) (userID : Int) : Int :=
  ((moves.filter fun m => m.userID = userID).map (·.commissionBalance)).sum

@[simp] theorem balanceMoved_nil (userID : Int) : balanceMoved [] userID = 0 := rfl

@[simp] theorem commissionMoved_nil (userID : Int) : commissionMoved [] userID = 0 := rfl

@[simp] theorem balanceMoved_append (first second : List Movement) (userID : Int) :
    balanceMoved (first ++ second) userID =
      balanceMoved first userID + balanceMoved second userID := by
  simp [balanceMoved]

@[simp] theorem commissionMoved_append (first second : List Movement) (userID : Int) :
    commissionMoved (first ++ second) userID =
      commissionMoved first userID + commissionMoved second userID := by
  simp [commissionMoved]

@[simp] theorem balanceMoved_singleton (m : Movement) (userID : Int) :
    balanceMoved [m] userID = if m.userID = userID then m.balance else 0 := by
  by_cases h : m.userID = userID <;> simp [balanceMoved, h]

@[simp] theorem commissionMoved_singleton (m : Movement) (userID : Int) :
    commissionMoved [m] userID = if m.userID = userID then m.commissionBalance else 0 := by
  by_cases h : m.userID = userID <;> simp [commissionMoved, h]

section

variable (amount : Movement → Int) (reason : Reason) (userID orderID : Int)

/-- The net amount moved for a user, an order and a reason. -/
def booked (moves : List Movement) : Int :=
  ((moves.filter fun m => m.userID = userID && m.orderID = orderID && m.reason = reason).map
    amount).sum

@[simp] theorem booked_nil : booked amount reason userID orderID [] = 0 := rfl

@[simp] theorem booked_append (first second : List Movement) :
    booked amount reason userID orderID (first ++ second) =
      booked amount reason userID orderID first + booked amount reason userID orderID second := by
  simp [booked]

@[simp] theorem booked_singleton (m : Movement) : booked amount reason userID orderID [m] =
    if m.userID = userID ∧ m.orderID = orderID ∧ m.reason = reason then amount m else 0 := by
  by_cases h : m.userID = userID ∧ m.orderID = orderID ∧ m.reason = reason
  · simp [booked, h]
  · rw [if_neg h, booked, List.filter_eq_nil_iff.mpr]
    · rfl
    · simpa [and_assoc] using h

theorem booked_eq_zero {moves : List Movement}
    (others : ∀ m ∈ moves, m.orderID = orderID → m.reason ≠ reason) :
    booked amount reason userID orderID moves = 0 := by
  rw [booked, List.filter_eq_nil_iff.mpr]
  · rfl
  · intro m member
    simp only [Bool.and_eq_true, decide_eq_true_eq]
    rintro ⟨⟨-, same⟩, reason⟩
    exact others m member same reason

end

def UserRecord.wallet (r : UserRecord) : Int × Int := (r.balance, r.commissionBalance)

/-- The ledger grew by `moves`, and the wallets changed by `moves`. -/
structure Moves (db db' : Db) (moves : List Movement) : Prop where
  ledger : db'.ledger = db.ledger ++ moves
  users : ∀ id, (db'.users.find? id).map UserRecord.wallet =
    (db.users.find? id).map fun r =>
      (r.balance + balanceMoved moves id, r.commissionBalance + commissionMoved moves id)

def Solvent (db : Db) : Prop := ∀ u ∈ db.users, 0 ≤ u.balance

namespace Moves

variable {db : Db}

theorem none {db' : Db} (ledger : db'.ledger = db.ledger) (users : db'.users = db.users) :
    Moves db db' [] := by
  refine ⟨by simpa using ledger, ?_⟩
  intro id
  simp only [users, balanceMoved_nil, commissionMoved_nil, add_zero]
  rfl

theorem trans {db₁ db₂ : Db} {first second : List Movement} (h : Moves db db₁ first)
    (k : Moves db₁ db₂ second) : Moves db db₂ (first ++ second) := by
  refine ⟨by rw [k.ledger, h.ledger, List.append_assoc], ?_⟩
  intro id
  have step₁ := h.users id
  rw [k.users id]
  cases found : db.users.find? id with
  | none =>
    rw [found] at step₁
    cases found₁ : db₁.users.find? id <;> simp_all
  | some r =>
    rw [found] at step₁
    cases found₁ : db₁.users.find? id with
    | none => simp_all
    | some r₁ =>
      rw [found₁] at step₁
      simp only [Option.map_some, UserRecord.wallet, Option.some.injEq, Prod.mk.injEq] at step₁
      simp only [Option.map_some, step₁.1, step₁.2, balanceMoved_append, commissionMoved_append,
        add_assoc]

theorem congr {db₁ db₂ : Db} {moves : List Movement} (h : Moves db db₁ moves)
    (ledger : db₂.ledger = db₁.ledger) (users : db₂.users = db₁.users) : Moves db db₂ moves :=
  ⟨ledger.trans h.ledger, users ▸ h.users⟩

end Moves

namespace Db

theorem lockUser_eq_ok (db : Db) (userID : Int) (row : UserRecord) :
    db.lockUser userID = .ok row ↔
      ∃ r, db.users.find? userID = some r ∧
        { r with expiredAt := normalizeNullableExpiry r.expiredAt } = row := by
  simp only [lockUser, bind_eq_ok, require_eq_ok, pure_eq_ok]

theorem lockUser_eq_error (db : Db) (userID : Int) (e : ServiceError) :
    db.lockUser userID = .error e ↔ db.users.find? userID = none ∧ ServiceError.notFound = e := by
  unfold lockUser
  cases db.users.find? userID <;> simp [require, bind, Except.bind, pure, Except.pure]

theorem updateUserBalance_eq_ok (db db' : Db) (userID balance : Int) :
    db.updateUserBalance userID balance = .ok db' ↔
      0 ≤ balance ∧ db.setUserBalance userID balance = db' := by
  simp only [updateUserBalance, bind_eq_ok, ensure_eq_ok, pure_eq_ok, exists_const]

variable {db : Db} {row r : UserRecord}

theorem lockUser_row {userID : Int} (locked : db.lockUser userID = .ok row) :
    ∃ r ∈ db.users, r.id = userID ∧ row.id = userID ∧ db.users.find? userID = some r ∧
      row.balance = r.balance ∧ row.commissionBalance = r.commissionBalance := by
  obtain ⟨r, found, rfl⟩ := (lockUser_eq_ok ..).mp locked
  have id := Table.key_of_find? found
  exact ⟨r, Table.mem_of_find? found, id, id, found, rfl, rfl⟩

theorem moves_setUserBalance {userID orderID amount : Int} (found : db.users.find? userID = some r)
    (reason : Reason) :
    Moves db ((db.setUserBalance userID (r.balance + amount)).record userID orderID reason amount 0)
      [⟨userID, orderID, reason, amount, 0⟩] := by
  refine ⟨rfl, ?_⟩
  intro id
  simp only [record, setUserBalance, Table.find?_updateWhere, Option.map_map,
    balanceMoved_singleton, commissionMoved_singleton]
  by_cases same : userID = id
  · subst same
    have key := Table.key_of_find? found
    simp [found, key, UserRecord.wallet]
  · cases other : db.users.find? id with
    | none => rfl
    | some s =>
      have key := Table.key_of_find? other
      simp [key, same, Ne.symm same, UserRecord.wallet]

theorem addToBalance_eq_ok (db db' : Db) (userID amount : Int) :
    db.addToBalance userID amount = .ok db' ↔
      ∃ r, db.users.find? userID = some r ∧ 0 ≤ r.balance + amount ∧
        db.setUserBalance userID (r.balance + amount) = db' := by
  simp only [addToBalance, bind_eq_ok, lockUser_eq_ok, updateUserBalance_eq_ok]
  constructor
  · rintro ⟨row, ⟨r, found, rfl⟩, enough, written⟩
    exact ⟨r, found, enough, written⟩
  · rintro ⟨r, found, enough, written⟩
    exact ⟨_, ⟨r, found, rfl⟩, enough, written⟩

theorem moves_updateUserSubscription {userID orderID amount commission : Int}
    (found : db.users.find? userID = some r) (id : row.id = userID)
    (balance : row.balance = r.balance + amount)
    (commissionBalance : row.commissionBalance = r.commissionBalance + commission) (reason : Reason)
    :
    Moves db ((db.updateUserSubscription row).record userID orderID reason amount commission)
      [⟨userID, orderID, reason, amount, commission⟩] := by
  subst id
  refine ⟨rfl, ?_⟩
  intro id
  simp only [record, updateUserSubscription, Table.find?_updateWhere, Option.map_map,
    balanceMoved_singleton, commissionMoved_singleton]
  by_cases same : row.id = id
  · subst same
    have key := Table.key_of_find? found
    simp [found, key, UserRecord.wallet, balance, commissionBalance]
  · cases other : db.users.find? id with
    | none => rfl
    | some s =>
      have key := Table.key_of_find? other
      simp [key, same, Ne.symm same, UserRecord.wallet]

theorem moves_rewrite {userID : Int} (found : db.users.find? userID = some r) (id : row.id = userID)
    (balance : row.balance = r.balance)
    (commissionBalance : row.commissionBalance = r.commissionBalance) :
    Moves db (db.updateUserSubscription row) [] := by
  subst id
  refine ⟨by simp [updateUserSubscription], ?_⟩
  intro id
  simp only [updateUserSubscription, Table.find?_updateWhere, Option.map_map, balanceMoved_nil,
    commissionMoved_nil, add_zero]
  by_cases same : row.id = id
  · subst same
    have key := Table.key_of_find? found
    simp [found, key, UserRecord.wallet, balance, commissionBalance]
  · cases other : db.users.find? id with
    | none => rfl
    | some s =>
      have key := Table.key_of_find? other
      simp [key, Ne.symm same, UserRecord.wallet]

theorem solvent_setUserBalance {userID balance : Int} (solvent : Solvent db) (enough : 0 ≤ balance)
    :
    Solvent (db.setUserBalance userID balance) := by
  intro u member
  simp only [setUserBalance, Table.mem_updateWhere] at member
  obtain ⟨r, old, rfl⟩ := member
  split
  · exact enough
  · exact solvent r old

theorem solvent_updateUserSubscription (solvent : Solvent db) (enough : 0 ≤ row.balance) :
    Solvent (db.updateUserSubscription row) := by
  intro u member
  simp only [updateUserSubscription, Table.mem_updateWhere] at member
  obtain ⟨r, old, rfl⟩ := member
  split
  · exact enough
  · exact solvent r old

end Db

theorem Solvent.congr {db db' : Db} (users : db'.users = db.users) (solvent : Solvent db) :
    Solvent db' := by
  intro u member
  rw [users] at member
  exact solvent u member

end ForestPanel
