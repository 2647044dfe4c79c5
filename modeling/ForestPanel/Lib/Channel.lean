import Mathlib.Algebra.GroupWithZero.Nat
import Mathlib.Data.List.Basic

/-!
# Buffered channels

A channel with a buffer, the values of the senders that wait for room in it, first
come first served, and a closed mark. A send on a closed channel panics, and so does
a second close. `countP_set_add` counts the elements of a list of processes when one
of them changes.
-/
namespace Channel

variable {α : Type}

structure Chan (α : Type) where
  capacity : Nat
  buffer : List α
  waiting : List α
  closed : Bool
deriving DecidableEq

def make (capacity : Nat) : Chan α := ⟨capacity, [], [], false⟩

/-- What a send finds that does not wait. -/
inductive Sent (α : Type) where
  | sent (c : Chan α)
  | full
  | panicked

namespace Chan

/-- The send case of a select can proceed: there is room, or it panics. -/
def sendReady (c : Chan α) : Bool := c.closed || decide (c.buffer.length < c.capacity)

def trySend (c : Chan α) (a : α) : Sent α :=
  if c.closed then .panicked
  else if c.buffer.length < c.capacity then .sent { c with buffer := c.buffer ++ [a] }
  else .full

/-- A sender waits for room. -/
def park (c : Chan α) (a : α) : Chan α := { c with waiting := c.waiting ++ [a] }

/-- All waiting senders leave. -/
def release (c : Chan α) : Chan α := { c with waiting := [] }

/-- The channel after a close; the waiting senders are released, to panic. -/
def close (c : Chan α) : Option (Chan α) :=
  if c.closed then none else some { c with closed := true, waiting := [] }

end Chan

/-- What a receive finds: a value, with the value of the waiting sender that got the
room it left, the end of a closed channel, or nothing yet. -/
inductive Received (α : Type) where
  | received (a : α) (c : Chan α) (sender : Option α)
  | ended
  | empty

def Chan.receive (c : Chan α) : Received α :=
  match c.buffer, c.waiting with
  | [], _ => if c.closed then .ended else .empty
  | a :: rest, [] => .received a { c with buffer := rest } none
  | a :: rest, b :: more => .received a { c with buffer := rest ++ [b], waiting := more } (some b)

section

variable {c c' : Chan α} {a : α}

theorem Chan.trySend_sent (sent : c.trySend a = .sent c') :
    c.closed = false ∧ c' = { c with buffer := c.buffer ++ [a] } := by
  unfold trySend at sent
  split at sent
  · cases sent
  next stillOpen =>
    split at sent
    · cases sent
      exact ⟨Bool.eq_false_iff.mpr stillOpen, rfl⟩
    · cases sent

theorem Chan.trySend_full (full : c.trySend a = .full) :
    c.closed = false ∧ c.capacity ≤ c.buffer.length := by
  unfold trySend at full
  split at full
  · cases full
  next stillOpen =>
    split at full
    · cases full
    next room => exact ⟨Bool.eq_false_iff.mpr stillOpen, Nat.le_of_not_lt room⟩

theorem Chan.trySend_panicked (panicked : c.trySend a = .panicked) : c.closed = true := by
  unfold trySend at panicked
  split at panicked
  · assumption
  · split at panicked <;> cases panicked

/-- A received value was the first of the buffer, and the first waiting sender, if
there is one, puts its value at the end. -/
theorem Chan.receive_received {sender : Option α} (received : c.receive = .received a c' sender) :
    (∃ rest, c.buffer = a :: rest ∧ c.waiting = [] ∧ sender = none ∧ c' = { c with buffer := rest }) ∨
    ∃ rest b more, c.buffer = a :: rest ∧ c.waiting = b :: more ∧ sender = some b ∧
      c' = { c with buffer := rest ++ [b], waiting := more } := by
  unfold receive at received
  split at received
  · split at received <;> cases received
  next rest held empty =>
    cases received
    exact Or.inl ⟨rest, held, empty, rfl, rfl⟩
  next rest b more held parked =>
    cases received
    exact Or.inr ⟨rest, b, more, held, parked, rfl, rfl⟩

theorem Chan.receive_ended (ended : c.receive = .ended) : c.closed = true ∧ c.buffer = [] := by
  unfold receive at ended
  split at ended
  next empty =>
    split at ended
    next closed => exact ⟨closed, empty⟩
    · cases ended
  · cases ended
  · cases ended

/-- A closed channel is received from without waiting. -/
theorem Chan.receive_ne_empty (closed : c.closed = true) : c.receive ≠ .empty := by
  unfold receive
  split
  · rw [if_pos closed]
    nofun
  · nofun
  · nofun

end

section

variable {α : Type} (p : α → Bool)

theorem countP_first (a : α) (l : List α) : (a :: l).countP p = l.countP p + (p a).toNat := by
  rw [List.countP_cons]
  cases p a <;> rfl

theorem countP_last (a : α) (l : List α) : (l ++ [a]).countP p = l.countP p + (p a).toNat := by
  rw [List.countP_append, List.countP_singleton]
  cases p a <;> rfl

/-- The entry at `i` changes from `b` to `a`. -/
theorem countP_set_add {l : List α} {i : Nat} {a b : α} (found : l[i]? = some b) :
    (l.set i a).countP p + (p b).toNat = l.countP p + (p a).toNat := by
  obtain ⟨inside, rfl⟩ := List.getElem?_eq_some_iff.mp found
  have weight : ∀ b : Bool, (if b = true then 1 else 0) = b.toNat := by decide
  have counted : (p l[i]).toNat ≤ l.countP p := by
    cases meets : p l[i] with
    | true => exact List.countP_pos_iff.mpr ⟨l[i], List.getElem_mem inside, meets⟩
    | false => exact Nat.zero_le _
  rw [List.countP_set inside, weight, weight]
  omega

theorem sum_set_add {f : α → Nat} {l : List α} {i : Nat} {a b : α} (found : l[i]? = some b) :
    ((l.set i a).map f).sum + f b = (l.map f).sum + f a := by
  induction l generalizing i with
  | nil => cases found
  | cons x rest ih =>
    cases i with
    | zero =>
      cases found
      simp only [List.set_cons_zero, List.map_cons, List.sum_cons]
      omega
    | succ i =>
      have later := ih (i := i) found
      simp only [List.set_cons_succ, List.map_cons, List.sum_cons]
      omega

end

end Channel
