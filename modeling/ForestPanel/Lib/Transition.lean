import Mathlib.Data.List.Basic

/-!
# Runs of a deterministic transition system

A system is a function `step : σ → ι → σ`; everything the environment chooses
(arguments, clocks, fresh numbers, failures) is part of the input. A run is a
list of inputs. `Along G` says that every step of the run meets `G` in the
state it is taken from, `run_invariant` is the induction every safety property
uses, and `Simulates` moves an invariant from an abstract labelled machine to a
concrete one.
-/
namespace Transition

variable {σ ι : Type}

/-- The state a run ends in. -/
def run (step : σ → ι → σ) (s : σ) (inputs : List ι) : σ := inputs.foldl step s

@[simp] theorem run_nil (step : σ → ι → σ) (s : σ) : run step s [] = s := rfl

@[simp] theorem run_cons (step : σ → ι → σ) (s : σ) (i : ι) (rest : List ι) :
    run step s (i :: rest) = run step (step s i) rest := rfl

@[simp] theorem run_append (step : σ → ι → σ) (s : σ) (first second : List ι) :
    run step s (first ++ second) = run step (run step s first) second :=
  List.foldl_append

/-- Every step of the run meets `G` in the state it is taken from. -/
def Along (step : σ → ι → σ) (G : σ → ι → Prop) : σ → List ι → Prop
  | _, [] => True
  | s, i :: rest => G s i ∧ Along step G (step s i) rest

variable {step : σ → ι → σ} {G H : σ → ι → Prop}

instance decidableAlong [∀ s i, Decidable (G s i)] :
    ∀ (s : σ) (inputs : List ι), Decidable (Along step G s inputs)
  | _, [] => isTrue trivial
  | s, i :: rest =>
    have := decidableAlong (step s i) rest
    inferInstanceAs (Decidable (G s i ∧ Along step G (step s i) rest))

@[simp] theorem along_nil (s : σ) : Along step G s [] ↔ True := Iff.rfl

@[simp] theorem along_cons (s : σ) (i : ι) (rest : List ι) :
    Along step G s (i :: rest) ↔ G s i ∧ Along step G (step s i) rest := Iff.rfl

theorem along_append (s : σ) (first second : List ι) :
    Along step G s (first ++ second) ↔
      Along step G s first ∧ Along step G (run step s first) second := by
  induction first generalizing s with
  | nil => simp
  | cons i rest ih => simp [ih, and_assoc]

theorem along_true (s : σ) (inputs : List ι) : Along step (fun _ _ => True) s inputs := by
  induction inputs generalizing s with
  | nil => trivial
  | cons i rest ih => exact ⟨trivial, ih _⟩

theorem along_mono (s : σ) (inputs : List ι) (weaker : ∀ t i, G t i → H t i)
    (h : Along step G s inputs) : Along step H s inputs := by
  induction inputs generalizing s with
  | nil => trivial
  | cons i rest ih => exact ⟨weaker _ _ h.1, ih _ h.2⟩

theorem along_and (s : σ) (inputs : List ι) (first : Along step G s inputs)
    (second : Along step H s inputs) : Along step (fun t i => G t i ∧ H t i) s inputs := by
  induction inputs generalizing s with
  | nil => trivial
  | cons i rest ih => exact ⟨⟨first.1, second.1⟩, ih _ first.2 second.2⟩

/-- An invariant that every admissible step preserves holds along the run. -/
theorem along_invariant {I : σ → Prop} (preserved : ∀ t i, I t → G t i → I (step t i))
    (s : σ) (inputs : List ι) (initial : I s) (admissible : Along step G s inputs) :
    Along step (fun t i => I t ∧ G t i) s inputs := by
  induction inputs generalizing s with
  | nil => trivial
  | cons i rest ih =>
    exact ⟨⟨initial, admissible.1⟩, ih _ (preserved _ _ initial admissible.1) admissible.2⟩

/-- Two conditions on a step that agree while the first holds. -/
theorem along_congr {I : σ → Prop} (same : ∀ t i, I t → (G t i ↔ H t i))
    (kept : ∀ t i, I t → G t i → I (step t i)) (s : σ) (inputs : List ι) (initial : I s) :
    Along step G s inputs ↔ Along step H s inputs := by
  induction inputs generalizing s with
  | nil => exact Iff.rfl
  | cons i rest ih =>
    rw [along_cons, along_cons, ← same s i initial]
    exact and_congr_right fun meets => ih _ (kept s i initial meets)

/-- An invariant that every admissible step preserves holds where the run ends. -/
theorem run_invariant {I : σ → Prop} (preserved : ∀ t i, I t → G t i → I (step t i))
    (s : σ) (inputs : List ι) (initial : I s) (admissible : Along step G s inputs) :
    I (run step s inputs) := by
  induction inputs generalizing s with
  | nil => exact initial
  | cons i rest ih => exact ih _ (preserved _ _ initial admissible.1) admissible.2

/-- Somewhere in the run a step meets `P`. -/
def Happens (step : σ → ι → σ) (P : σ → ι → Prop) (s : σ) (inputs : List ι) : Prop :=
  ∃ before i after, inputs = before ++ i :: after ∧ P (run step s before) i

theorem happens_cons {P : σ → ι → Prop} (s : σ) (i : ι) (rest : List ι) :
    Happens step P s (i :: rest) ↔ P s i ∨ Happens step P (step s i) rest := by
  constructor
  · rintro ⟨before, j, after, split, found⟩
    cases before with
    | nil =>
      obtain ⟨rfl, rfl⟩ := List.cons.inj split
      exact Or.inl found
    | cons k before =>
      obtain ⟨rfl, rfl⟩ := List.cons.inj split
      exact Or.inr ⟨before, j, after, rfl, found⟩
  · rintro (now | ⟨before, j, after, rfl, found⟩)
    · exact ⟨[], i, rest, rfl, now⟩
    · exact ⟨i :: before, j, after, rfl, found⟩

/-- A condition that only a `P` step can end lasts until the run's end, or a `P`
step happens on the way. -/
theorem lasts_or_happens {I : σ → Prop} {P : σ → ι → Prop}
    (kept : ∀ t i, I t → G t i → I (step t i) ∨ P t i)
    (s : σ) (inputs : List ι) (initial : I s) (admissible : Along step G s inputs) :
    I (run step s inputs) ∨ Happens step P s inputs := by
  induction inputs generalizing s with
  | nil => exact Or.inl initial
  | cons i rest ih =>
    rw [happens_cons]
    rcases kept s i initial admissible.1 with still | ended
    · rcases ih _ still admissible.2 with last | later
      · exact Or.inl last
      · exact Or.inr (Or.inr later)
    · exact Or.inr (Or.inl ended)

/-- How many steps of the run meet `p`. -/
def tally (step : σ → ι → σ) (p : σ → ι → Bool) : σ → List ι → Nat
  | _, [] => 0
  | s, i :: rest => (if p s i = true then 1 else 0) + tally step p (step s i) rest

/-- Steps that each use up a part of a potential are not more than the potential. -/
theorem tally_le {p : σ → ι → Bool} {φ : σ → Nat} {I : σ → Prop}
    (kept : ∀ t i, I t → G t i → I (step t i))
    (pays : ∀ t i, I t → G t i → (if p t i = true then 1 else 0) + φ (step t i) ≤ φ t)
    (s : σ) (inputs : List ι) (initial : I s) (admissible : Along step G s inputs) :
    tally step p s inputs ≤ φ s := by
  induction inputs generalizing s with
  | nil => exact Nat.zero_le _
  | cons i rest ih =>
    have later := ih _ (kept s i initial admissible.1) admissible.2
    have now := pays s i initial admissible.1
    unfold tally
    omega

/-- What rules itself out from its first time on happens at most once. -/
theorem tally_le_one {p : σ → ι → Bool} {I Q : σ → Prop}
    (kept : ∀ t i, I t → G t i → I (step t i))
    (closes : ∀ t i, I t → G t i → p t i = true → Q (step t i))
    (closed : ∀ t i, I t → G t i → Q t → p t i = false ∧ Q (step t i))
    (s : σ) (inputs : List ι) (initial : I s) (admissible : Along step G s inputs) :
    tally step p s inputs ≤ 1 := by
  have none_after : ∀ s inputs, I s → Q s → Along step G s inputs → tally step p s inputs = 0 := by
    intro s inputs
    induction inputs generalizing s with
    | nil => exact fun _ _ _ => rfl
    | cons i rest ih =>
      intro initial shut admissible
      obtain ⟨not, still⟩ := closed s i initial admissible.1 shut
      unfold tally
      rw [not, ih _ (kept s i initial admissible.1) still admissible.2]
      rfl
  induction inputs generalizing s with
  | nil => exact Nat.zero_le _
  | cons i rest ih =>
    have next := kept s i initial admissible.1
    unfold tally
    split
    next now =>
      have others := none_after _ rest next (closes s i initial admissible.1 now) admissible.2
      omega
    next =>
      have later := ih _ next admissible.2
      omega

variable {τ κ : Type}

/-- Every admissible concrete step is an allowed abstract step, under some label,
between the images of its two states. -/
def Simulates (step : σ → ι → σ) (G : σ → ι → Prop) (abs : σ → τ) (next : τ → κ → τ → Prop)
    (Allowed : τ → κ → Prop) : Prop :=
  ∀ s i, G s i → ∃ k, Allowed (abs s) k ∧ next (abs s) k (abs (step s i))

section

variable {abs : σ → τ} {next : τ → κ → τ → Prop} {Allowed : τ → κ → Prop} {J : τ → Prop}

/-- An admissible concrete step keeps what every allowed abstract step keeps. -/
theorem simulation_step (simulates : Simulates step G abs next Allowed)
    (preserved : ∀ t k t', J t → Allowed t k → next t k t' → J t')
    (s : σ) (i : ι) (now : J (abs s)) (meets : G s i) : J (abs (step s i)) := by
  obtain ⟨k, can, image⟩ := simulates s i meets
  exact preserved _ _ _ now can image

/-- An abstract invariant holds of the image of every state a simulating run reaches. -/
theorem simulation_invariant (simulates : Simulates step G abs next Allowed)
    (preserved : ∀ t k t', J t → Allowed t k → next t k t' → J t')
    (s : σ) (inputs : List ι) (initial : J (abs s)) (admissible : Along step G s inputs) :
    J (abs (run step s inputs)) :=
  run_invariant (simulation_step simulates preserved) s inputs initial admissible

theorem simulation_along (simulates : Simulates step G abs next Allowed)
    (preserved : ∀ t k t', J t → Allowed t k → next t k t' → J t')
    (s : σ) (inputs : List ι) (initial : J (abs s)) (admissible : Along step G s inputs) :
    Along step (fun t i => J (abs t) ∧ G t i) s inputs :=
  along_invariant (simulation_step simulates preserved) s inputs initial admissible

/-- A run of an abstract machine, with the labels of its steps. -/
def Path (next : τ → κ → τ → Prop) : τ → List κ → τ → Prop
  | t, [], t' => t = t'
  | t, k :: rest, t' => ∃ u, next t k u ∧ Path next u rest t'

/-- The image of an admissible run is a run of the abstract machine, step by step. -/
theorem simulation_path (simulates : Simulates step G abs next Allowed) (s : σ) (inputs : List ι)
    (admissible : Along step G s inputs) :
    ∃ labels : List κ, labels.length = inputs.length ∧
      Path next (abs s) labels (abs (run step s inputs)) := by
  induction inputs generalizing s with
  | nil => exact ⟨[], rfl, rfl⟩
  | cons i rest ih =>
    obtain ⟨meets, later⟩ := admissible
    obtain ⟨k, -, image⟩ := simulates s i meets
    obtain ⟨labels, long, path⟩ := ih (step s i) later
    exact ⟨k :: labels, congrArg (· + 1) long, _, image, path⟩

end

end Transition
