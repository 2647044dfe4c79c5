import Mathlib.Logic.Basic

/-!
# Fallible computations

Inversion of a successful `Except` computation: a chain of binds that returns
names every intermediate value and every guard it passed. A `do` block over
`ensure` and `require` is taken apart by one `simp only` with these lemmas.
-/
namespace Outcome

variable {ε α β : Type}

/-- Stop with `e` unless the condition holds. -/
def ensure (c : Prop) [Decidable c] (e : ε) : Except ε Unit :=
  if c then .ok () else .error e

/-- The value of an optional lookup, or the error `e`. -/
def require (o : Option α) (e : ε) : Except ε α :=
  match o with
  | some a => .ok a
  | none => .error e

theorem bind_eq_ok (x : Except ε α) (f : α → Except ε β) (b : β) :
    x >>= f = .ok b ↔ ∃ a, x = .ok a ∧ f a = .ok b := by
  cases x <;> simp [bind, Except.bind]

theorem bind_ok (a : α) (f : α → Except ε β) : (Except.ok a : Except ε α) >>= f = f a := rfl

theorem map_eq_ok (x : Except ε α) (f : α → β) (b : β) :
    f <$> x = .ok b ↔ ∃ a, x = .ok a ∧ f a = b := by
  cases x <;> simp [Functor.map, Except.map]

theorem mapError_eq_ok {ε' : Type} {f : ε → ε'} {x : Except ε α} {a : α} :
    x.mapError f = .ok a ↔ x = .ok a := by
  cases x with
  | error e =>
    constructor
    · intro returned
      cases returned
    · intro returned
      cases returned
  | ok b =>
    change (Except.ok b : Except ε' α) = .ok a ↔ _
    rw [Except.ok.injEq, Except.ok.injEq]

@[simp] theorem pure_eq_ok (a b : α) : (pure a : Except ε α) = .ok b ↔ a = b := by
  simp [pure, Except.pure]

@[simp] theorem throw_ne_ok (e : ε) (b : α) : (throw e : Except ε α) = .ok b ↔ False := by
  simp [throw, throwThe, MonadExceptOf.throw]

@[simp] theorem ensure_eq_ok (c : Prop) [Decidable c] (e : ε) (u : Unit) :
    ensure c e = .ok u ↔ c := by
  by_cases h : c <;> simp [ensure, h]

theorem ensure_of {c : Prop} [Decidable c] (e : ε) (h : c) : ensure c e = .ok () := if_pos h

theorem ensure_not {c : Prop} [Decidable c] (e : ε) (h : ¬c) : ensure c e = .error e := if_neg h

@[simp] theorem require_eq_ok (o : Option α) (e : ε) (a : α) :
    require o e = .ok a ↔ o = some a := by
  cases o <;> simp [require]

theorem bind_eq_error (x : Except ε α) (f : α → Except ε β) (e : ε) :
    x >>= f = .error e ↔ x = .error e ∨ ∃ a, x = .ok a ∧ f a = .error e := by
  cases x <;> simp [bind, Except.bind]

theorem ensure_eq_error (c : Prop) [Decidable c] (e e' : ε) :
    ensure c e = .error e' ↔ ¬c ∧ e = e' := by
  by_cases h : c <;> simp [ensure, h]

theorem require_eq_error (o : Option α) (e e' : ε) :
    require o e = .error e' ↔ o = none ∧ e = e' := by
  cases o <;> simp [require]

theorem pure_eq_error (a : α) (e : ε) : (pure a : Except ε α) = .error e ↔ False := by
  simp [pure, Except.pure]

/-- A loop in which every round returns. -/
theorem mapM_ok {f : α → Except ε β} {g : α → β} {l : List α}
    (each : ∀ a ∈ l, f a = .ok (g a)) : l.mapM f = .ok (l.map g) := by
  induction l with
  | nil => rfl
  | cons a l ih =>
    have first := each a List.mem_cons_self
    have rest := ih fun b member => each b (List.mem_cons_of_mem a member)
    rw [List.mapM_cons, first, bind_ok, rest, bind_ok]
    rfl

/-- A loop that returns and keeps what holds of the part that was processed. -/
theorem foldlM_ok {f : β → α → Except ε β} {I : List α → β → Prop} {rest : List α}
    (round : ∀ done b, ∀ a ∈ rest, I done b → ∃ b', f b a = .ok b' ∧ I (done ++ [a]) b')
    {done : List α} {b : β} (initial : I done b) :
    ∃ b', rest.foldlM f b = .ok b' ∧ I (done ++ rest) b' := by
  induction rest generalizing done b with
  | nil =>
    rw [List.append_nil]
    exact ⟨b, rfl, initial⟩
  | cons a rest ih =>
    obtain ⟨next, returned, kept⟩ := round done b a List.mem_cons_self initial
    obtain ⟨last, others, final⟩ :=
      ih (fun done b a member => round done b a (List.mem_cons_of_mem _ member)) kept
    rw [List.append_assoc] at final
    refine ⟨last, ?_, final⟩
    rw [List.foldlM_cons, returned, bind_ok, others]

/-- What every round that returns keeps holds after a loop that returns. -/
theorem foldlM_invariant {f : β → α → Except ε β} {I : List α → β → Prop} {rest : List α}
    (kept : ∀ done b a b', I done b → f b a = .ok b' → I (done ++ [a]) b')
    {done : List α} {b last : β} (initial : I done b) (returned : rest.foldlM f b = .ok last) :
    I (done ++ rest) last := by
  induction rest generalizing done b with
  | nil =>
    rw [List.append_nil]
    cases returned
    exact initial
  | cons a rest ih =>
    rw [List.foldlM_cons, bind_eq_ok] at returned
    obtain ⟨next, first, others⟩ := returned
    have final := ih (kept done b a next initial first) others
    rw [List.append_assoc] at final
    exact final

/-- The state a transaction leaves behind: the new one when it commits, the old
one when it fails and is rolled back. -/
def commit (s : α) (result : Except ε α) : α :=
  match result with
  | .ok s' => s'
  | .error _ => s

@[simp] theorem commit_ok (s s' : α) : commit s (.ok s' : Except ε α) = s' := rfl

@[simp] theorem commit_error (s : α) (e : ε) : commit s (.error e : Except ε α) = s := rfl

/-- Whatever a committed step preserves, a transaction preserves. -/
theorem commit_cases {P : α → Prop} (s : α) (result : Except ε α)
    (rolledBack : P s) (committed : ∀ s', result = .ok s' → P s') : P (commit s result) := by
  cases result with
  | ok s' => exact committed s' rfl
  | error e => exact rolledBack

end Outcome
