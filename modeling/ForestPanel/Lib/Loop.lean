import Mathlib.Data.List.Basic

/-!
# Loops that return

A loop goes from state to state until a round returns. With an invariant and a measure that
every round lowers, the loop returns, and what it returns is what the last round makes of
the invariant; more rounds than needed change nothing.

`EachAfter` is the companion for what a loop records: a property of every record and of the
records before it, which is checked once for each record that is added.
-/
namespace Loop

section

variable {σ ρ : Type} (step : σ → σ ⊕ ρ)

/-- The loop, for at most this many rounds. -/
def run : Nat → σ → Option ρ
  | 0, _ => none
  | fuel + 1, s =>
    match step s with
    | .inl t => run fuel t
    | .inr r => some r

variable {step}

theorem run_next {s t : σ} (next : step s = .inl t) (fuel : Nat) :
    run step (fuel + 1) s = run step fuel t := by
  rw [run, next]

theorem run_returned {s : σ} {r : ρ} (returned : step s = .inr r) (fuel : Nat) :
    run step (fuel + 1) s = some r := by
  rw [run, returned]

/-- More rounds than needed change nothing. -/
theorem run_more {fuel more : Nat} {s : σ} {r : ρ} (ended : run step fuel s = some r)
    (enough : fuel ≤ more) : run step more s = some r := by
  induction fuel generalizing more s with
  | zero => cases ended
  | succ n ih =>
    obtain ⟨m, rfl⟩ : ∃ m, more = m + 1 := ⟨more - 1, by omega⟩
    cases round : step s with
    | inl t =>
      rw [run_next round] at ended ⊢
      exact ih ended (by omega)
    | inr r' =>
      rw [run_returned round] at ended ⊢
      exact ended

/-- Every round keeps the invariant and lowers the measure, so the loop returns. -/
theorem run_ends {I : σ → Prop} {Q : ρ → Prop} {μ : σ → Nat}
    (kept : ∀ s t, I s → step s = .inl t → I t ∧ μ t < μ s)
    (returns : ∀ s r, I s → step s = .inr r → Q r) {s : σ} (holds : I s) :
    ∃ r, Q r ∧ ∀ fuel, μ s < fuel → run step fuel s = some r := by
  have ends : ∀ n s, I s → μ s < n → ∃ r, Q r ∧ run step n s = some r := by
    intro n
    induction n with
    | zero => intro s _ small; omega
    | succ n ih =>
      intro s holds small
      cases round : step s with
      | inl t =>
        obtain ⟨holds', lower⟩ := kept s t holds round
        obtain ⟨r, result, ended⟩ := ih t holds' (by omega)
        exact ⟨r, result, (run_next round n).trans ended⟩
      | inr r => exact ⟨r, returns s r holds round, run_returned round n⟩
  obtain ⟨r, result, ended⟩ := ends (μ s + 1) s holds (Nat.lt_succ_self _)
  exact ⟨r, result, fun fuel small => run_more ended small⟩

end

section

variable {α : Type}

/-- Each record, with the records before it. -/
def EachAfter (P : List α → α → Prop) (l : List α) : Prop :=
  ∀ before a after, l = before ++ a :: after → P before a

variable {P : List α → α → Prop}

theorem eachAfter_nil : EachAfter P [] := by
  intro before a after split
  simp at split

/-- One more record. -/
theorem EachAfter.snoc {l : List α} {a : α} (each : EachAfter P l) (last : P l a) :
    EachAfter P (l ++ [a]) := by
  intro before b after split
  rcases List.eq_nil_or_concat after with rfl | ⟨init, c, rfl⟩
  · obtain ⟨rfl, same⟩ := List.append_inj' split rfl
    rw [List.cons.inj same |>.1] at last
    exact last
  · have split' : l ++ [a] = (before ++ b :: init) ++ [c] := by
      rw [split]
      simp
    obtain ⟨rfl, -⟩ := List.append_inj' split' rfl
    exact each before b init rfl

end

end Loop
