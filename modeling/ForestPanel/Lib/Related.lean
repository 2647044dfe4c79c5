import ForestPanel.Lib.Outcome
import Mathlib.Data.List.Forall2
import Mathlib.Data.List.Sort

/-!
# Related lists and related outcomes

Two lists that are related element by element stay so when both are sorted by orders the relation
respects. Two computations are alike when both stop with one error or both return related values.
-/
namespace Outcome

variable {ε α β : Type}

theorem forall₂_orderedInsert {R : α → β → Prop} {r : α → α → Prop} {s : β → β → Prop}
    [DecidableRel r] [DecidableRel s] (respects : ∀ a b a' b', R a b → R a' b' → (r a a' ↔ s b b'))
    {a : α} {b : β} (first : R a b) {as : List α} {bs : List β} (related : List.Forall₂ R as bs) :
    List.Forall₂ R (as.orderedInsert r a) (bs.orderedInsert s b) := by
  induction related with
  | nil => exact .cons first .nil
  | @cons a' b' as bs next rest ih =>
    rw [List.orderedInsert, List.orderedInsert]
    by_cases before : r a a'
    · rw [if_pos before, if_pos ((respects a b a' b' first next).mp before)]
      exact .cons first (.cons next rest)
    · rw [if_neg before, if_neg (mt (respects a b a' b' first next).mpr before)]
      exact .cons next ih

theorem forall₂_insertionSort {R : α → β → Prop} {r : α → α → Prop} {s : β → β → Prop}
    [DecidableRel r] [DecidableRel s] (respects : ∀ a b a' b', R a b → R a' b' → (r a a' ↔ s b b'))
    {as : List α} {bs : List β} (related : List.Forall₂ R as bs) :
    List.Forall₂ R (as.insertionSort r) (bs.insertionSort s) := by
  induction related with
  | nil => exact .nil
  | cons first _ ih =>
    rw [List.insertionSort_cons, List.insertionSort_cons]
    exact forall₂_orderedInsert respects first ih

/-- The first elements with a property the relation respects are related. -/
theorem find?_related {R : α → β → Prop} {p : α → Bool} {q : β → Bool}
    (respects : ∀ a b, R a b → p a = q b) {as : List α} {bs : List β}
    (related : List.Forall₂ R as bs) : Option.Rel R (as.find? p) (bs.find? q) := by
  induction related with
  | nil => exact .none
  | cons first _ ih =>
    rw [List.find?_cons, List.find?_cons, ← respects _ _ first]
    split
    next => exact .some first
    next => exact ih

theorem any_related {R : α → β → Prop} {p : α → Bool} {q : β → Bool}
    (respects : ∀ a b, R a b → p a = q b) {as : List α} {bs : List β}
    (related : List.Forall₂ R as bs) : as.any p = bs.any q := by
  induction related with
  | nil => rfl
  | cons first _ ih => rw [List.any_cons, List.any_cons, respects _ _ first, ih]

theorem map_eq_of_rel {γ : Type} {R : α → β → Prop} {f : α → γ} {g : β → γ}
    (same : ∀ a b, R a b → f a = g b) {x : Option α} {y : Option β} (related : Option.Rel R x y) :
    x.map f = y.map g := by
  cases related with
  | none => rfl
  | some first => exact congrArg some (same _ _ first)

/-- What a loop that returns made of each element. -/
theorem forall₂_of_mapM {f : α → Except ε β} {as : List α} {bs : List β}
    (returned : as.mapM f = .ok bs) : List.Forall₂ (fun a b => f a = .ok b) as bs := by
  induction as generalizing bs with
  | nil =>
    cases returned
    exact .nil
  | cons a as ih =>
    simp only [List.mapM_cons, bind_eq_ok, pure_eq_ok] at returned
    obtain ⟨b, first, rest, others, rfl⟩ := returned
    exact .cons first (ih others)

inductive Alike (R : α → β → Prop) : Except ε α → Except ε β → Prop
  | failed (e : ε) : Alike R (.error e) (.error e)
  | returned {a : α} {b : β} : R a b → Alike R (.ok a) (.ok b)

theorem Alike.bind {γ δ : Type} {R : α → β → Prop} {S : γ → δ → Prop} {x : Except ε α}
    {y : Except ε β} {f : α → Except ε γ} {g : β → Except ε δ} (alike : Alike R x y)
    (rest : ∀ a b, R a b → Alike S (f a) (g b)) : Alike S (x >>= f) (y >>= g) := by
  cases alike with
  | failed e => exact .failed e
  | returned related => exact rest _ _ related

theorem Alike.mapError {ε' : Type} {R : α → β → Prop} {x : Except ε α} {y : Except ε β}
    (f : ε → ε') (alike : Alike R x y) : Alike R (x.mapError f) (y.mapError f) := by
  cases alike with
  | failed e => exact .failed (f e)
  | returned related => exact .returned related

theorem Alike.map_eq {γ : Type} {R : α → β → Prop} {f : α → γ} {g : β → γ} {x : Except ε α}
    {y : Except ε β} (alike : Alike R x y) (same : ∀ a b, R a b → f a = g b) :
    x.map f = y.map g := by
  cases alike with
  | failed e => rfl
  | returned related => exact congrArg Except.ok (same _ _ related)

theorem foldlM_alike {γ δ : Type} {R : α → β → Prop} {S : γ → δ → Prop}
    {f : γ → α → Except ε γ} {g : δ → β → Except ε δ}
    (round : ∀ c d a b, S c d → R a b → Alike S (f c a) (g d b)) {as : List α} {bs : List β}
    (related : List.Forall₂ R as bs) {c : γ} {d : δ} (initial : S c d) :
    Alike S (as.foldlM f c) (bs.foldlM g d) := by
  induction related generalizing c d with
  | nil => exact .returned initial
  | cons first _ ih =>
    rw [List.foldlM_cons, List.foldlM_cons]
    exact (round _ _ _ _ initial first).bind fun _ _ next => ih next

end Outcome
