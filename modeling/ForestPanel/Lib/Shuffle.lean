import ForestPanel.Lib.Outcome
import Mathlib.Data.List.Perm.Basic

/-!
# Loops in any order

A loop that returns for every order of its elements returns one value for all of them when any two
rounds next to each other may be exchanged.
-/
namespace Outcome

variable {ε α β : Type} {f : β → α → Except ε β}

/-- Two rounds give one value in both orders, when both return. -/
def Exchange (f : β → α → Except ε β) (a b : α) : Prop :=
  ∀ s t u v w, f s a = .ok t → f t b = .ok u → f s b = .ok v → f v a = .ok w → u = w

/-- Every order of the elements returns. -/
def Returns (f : β → α → Except ε β) (s : β) (l : List α) : Prop :=
  ∀ order : List α, order.Perm l → ∃ t, order.foldlM f s = .ok t

theorem Returns.perm {s : β} {l l' : List α} (returns : Returns f s l) (same : l.Perm l') :
    Returns f s l' := fun order shuffled => returns order (shuffled.trans same.symm)

theorem Returns.first {s : β} {a : α} {l : List α} (returns : Returns f s (a :: l)) :
    ∃ t, f s a = .ok t ∧ Returns f t l := by
  obtain ⟨_, whole⟩ := returns _ (List.Perm.refl _)
  rw [List.foldlM_cons, bind_eq_ok] at whole
  obtain ⟨t, first, -⟩ := whole
  refine ⟨t, first, fun order shuffled => ?_⟩
  obtain ⟨u, returned⟩ := returns (a :: order) (shuffled.cons a)
  rw [List.foldlM_cons, first, bind_ok] at returned
  exact ⟨u, returned⟩

/-- Exchanged next to each other, the rounds may be put in any order. -/
theorem foldlM_perm {s : β} {l l' : List α} (shuffled : l.Perm l') (returns : Returns f s l)
    (exchange : ∀ a ∈ l, ∀ b ∈ l, Exchange f a b) : l.foldlM f s = l'.foldlM f s := by
  induction shuffled generalizing s with
  | nil => rfl
  | cons a _ ih =>
    obtain ⟨t, first, rest⟩ := returns.first
    rw [List.foldlM_cons, List.foldlM_cons, first, bind_ok, bind_ok]
    exact ih rest fun b member c other =>
      exchange b (List.mem_cons_of_mem _ member) c (List.mem_cons_of_mem _ other)
  | swap a b l =>
    obtain ⟨t, first, rest⟩ := returns.first
    obtain ⟨u, second, -⟩ := rest.first
    obtain ⟨v, other, rest'⟩ := (returns.perm (List.Perm.swap a b l)).first
    obtain ⟨w, last, -⟩ := rest'.first
    have same := exchange b List.mem_cons_self a (List.mem_cons_of_mem _ List.mem_cons_self)
      s t u v w first second other last
    simp only [List.foldlM_cons, first, second, other, last, bind_ok, same]
  | trans first _ ih ih' =>
    rw [ih returns exchange]
    refine ih' (returns.perm first) fun a member b other => ?_
    exact exchange a (first.mem_iff.mpr member) b (first.mem_iff.mpr other)

end Outcome
