import Mathlib.Data.List.Basic

/-!
# Relations between any two members of a list

`Apart R l` says that any two members at different places are related. The places
are those of processes that go on one at a time: one member is replaced, or a new
one is added, and only its relation to the others is to be shown.
-/
namespace Places

variable {α : Type} {R : α → α → Prop} {l : List α}

def Apart (R : α → α → Prop) (l : List α) : Prop :=
  ∀ (n m : Nat) (a b : α), n ≠ m → l[n]? = some a → l[m]? = some b → R a b

theorem apart_nil : Apart R [] := by
  intro n m a b _ found
  cases found

/-- A member at another place than `n`. -/
theorem mem_eraseIdx_of_ne {n m : Nat} {b : α} (found : l[m]? = some b) (other : m ≠ n) :
    b ∈ l.eraseIdx n :=
  List.mem_eraseIdx_iff_getElem?.mpr ⟨m, other, found⟩

/-- The members after one of them was replaced. -/
theorem getElem?_set_cases {n m : Nat} {a b : α} (found : (l.set n a)[m]? = some b) :
    m = n ∧ b = a ∨ m ≠ n ∧ l[m]? = some b := by
  rw [List.getElem?_set] at found
  split at found
  next same =>
    split at found
    next => exact Or.inl ⟨same.symm, (Option.some.inj found).symm⟩
    next => cases found
  next other => exact Or.inr ⟨fun same => other same.symm, found⟩

theorem mem_set_cases {n : Nat} {a b : α} (listed : b ∈ l.set n a) : b = a ∨ b ∈ l.eraseIdx n := by
  obtain ⟨m, found⟩ := List.mem_iff_getElem?.mp listed
  rcases getElem?_set_cases found with ⟨-, same⟩ | ⟨other, old⟩
  · exact Or.inl same
  · exact Or.inr (mem_eraseIdx_of_ne old other)

theorem Apart.set (h : Apart R l) (symmetric : ∀ a b, R a b → R b a) {n : Nat} {a : α}
    (new : ∀ b ∈ l.eraseIdx n, R a b) : Apart R (l.set n a) := by
  intro m k b c different found found'
  rcases getElem?_set_cases found with ⟨rfl, rfl⟩ | ⟨other, old⟩
  · rcases getElem?_set_cases found' with ⟨rfl, -⟩ | ⟨other', old'⟩
    · exact absurd rfl different
    · exact new c (mem_eraseIdx_of_ne old' other')
  · rcases getElem?_set_cases found' with ⟨rfl, rfl⟩ | ⟨-, old'⟩
    · exact symmetric _ _ (new b (mem_eraseIdx_of_ne old other))
    · exact h m k b c different old old'

theorem Apart.append (h : Apart R l) (symmetric : ∀ a b, R a b → R b a) {a : α}
    (new : ∀ b ∈ l, R a b) : Apart R (l ++ [a]) := by
  intro n m b c different found found'
  have place : ∀ {k : Nat} {d : α}, (l ++ [a])[k]? = some d →
      l[k]? = some d ∨ k = l.length ∧ d = a := by
    intro k d found
    rcases Nat.lt_trichotomy k l.length with short | rfl | long
    · exact Or.inl (by rwa [List.getElem?_append_left short] at found)
    · simp only [List.getElem?_concat_length, Option.some.injEq] at found
      exact Or.inr ⟨rfl, found.symm⟩
    · rw [List.getElem?_eq_none (by simp; omega)] at found
      cases found
  rcases place found with old | ⟨rfl, rfl⟩
  · rcases place found' with old' | ⟨rfl, rfl⟩
    · exact h n m b c different old old'
    · exact symmetric _ _ (new b (List.mem_of_getElem? old))
  · rcases place found' with old' | ⟨rfl, rfl⟩
    · exact new c (List.mem_of_getElem? old')
    · exact absurd rfl different

theorem Apart.map {β : Type} {S : β → β → Prop} (h : Apart R l) {f : α → β}
    (keeps : ∀ a b, R a b → S (f a) (f b)) : Apart S (l.map f) := by
  intro n m a b different found found'
  rw [List.getElem?_map, Option.map_eq_some_iff] at found found'
  obtain ⟨a, first, rfl⟩ := found
  obtain ⟨b, second, rfl⟩ := found'
  exact keeps a b (h n m a b different first second)

/-- What holds between a member and those at the other places. -/
theorem Apart.others (h : Apart R l) {n : Nat} {a b : α} (found : l[n]? = some a)
    (other : b ∈ l.eraseIdx n) : R a b := by
  obtain ⟨m, different, found'⟩ := List.mem_eraseIdx_iff_getElem?.mp other
  exact h n m a b (Ne.symm different) found found'

end Places
