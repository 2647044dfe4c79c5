import Mathlib.Data.List.Induction

/-!
# Searching a text for a pattern

The algorithm of Knuth, Morris and Pratt. The table of a pattern holds, for each of its prefixes,
the length of the longest proper prefix that is a suffix of it, and is built by searching the
pattern in its own tail. `search` finds where the pattern ends in a text, and the longest proper
prefix of the pattern that the text ends with.
-/
namespace Matching

variable {α : Type}

section

variable [DecidableEq α]

/-- The loop over shorter and shorter matches until one goes on with `c`; the bound is the length of
the first. -/
def fall (pattern : List α) (table : List Nat) (c : α) : Nat → Nat → Nat
  | 0, j => j
  | bound + 1, j =>
    if 0 < j ∧ pattern[j]? ≠ some c then fall pattern table c bound (table.getD (j - 1) 0) else j

/-- The match after one more element. -/
def advance (pattern : List α) (table : List Nat) (j : Nat) (c : α) : Nat :=
  let j := fall pattern table c j j
  if pattern[j]? = some c then j + 1 else j

def extend (pattern : List α) (built : List Nat × Nat) (c : α) : List Nat × Nat :=
  let j := advance pattern built.1 built.2 c
  (built.1 ++ [j], j)

def prefixTable (pattern : List α) : List Nat :=
  (pattern.tail.foldl (extend pattern) ([0], 0)).1

structure State where
  /-- What was read, where the pattern ended, and how much of it is matched. -/
  read : Nat
  ends : List Nat
  matched : Nat

def next (pattern : List α) (table : List Nat) (s : State) (c : α) : State :=
  let matched := advance pattern table s.matched c
  if matched = pattern.length then
    ⟨s.read + 1, s.ends ++ [s.read + 1], table.getD (pattern.length - 1) 0⟩
  else ⟨s.read + 1, s.ends, matched⟩

def search (pattern text : List α) : State :=
  text.foldl (next pattern (prefixTable pattern)) ⟨0, [], 0⟩

end

/-- The text ends with the first `k` elements of the pattern. -/
def Matches (pattern text : List α) (k : Nat) : Prop :=
  k ≤ pattern.length ∧ pattern.take k <:+ text

/-- The longest match that is not the whole pattern. -/
structure Longest (pattern text : List α) (k : Nat) : Prop where
  proper : k < pattern.length
  found : pattern.take k <:+ text
  longest : ∀ m, m < pattern.length → pattern.take m <:+ text → m ≤ k

/-- The longest proper prefix of a prefix that is a suffix of it. -/
structure Border (pattern : List α) (k b : Nat) : Prop where
  proper : b < k
  found : pattern.take b <:+ pattern.take k
  longest : ∀ m, m < k → pattern.take m <:+ pattern.take k → m ≤ b

/-- The entries of a table for the prefixes that are not empty. -/
structure Correct (pattern : List α) (table : List Nat) : Prop where
  within : table.length ≤ pattern.length
  border : ∀ k, 0 < k → k ≤ table.length → Border pattern k (table.getD (k - 1) 0)

variable {pattern text : List α} {table : List Nat} {c : α} {k m j : Nat}

theorem matches_length (found : Matches pattern text k) : k ≤ text.length := by
  have shorter := found.2.length_le
  rw [List.length_take_of_le found.1] at shorter
  exact shorter

theorem concat_suffix_concat {first second : List α} {a b : α} :
    first ++ [a] <:+ second ++ [b] ↔ first <:+ second ∧ a = b := by
  constructor
  · rintro ⟨rest, whole⟩
    rw [← List.append_assoc] at whole
    obtain ⟨same, last⟩ := List.append_inj' whole rfl
    exact ⟨⟨rest, same⟩, List.singleton_inj.mp last⟩
  · rintro ⟨⟨rest, rfl⟩, rfl⟩
    exact ⟨rest, (List.append_assoc ..).symm⟩

/-- A match of one more element is a match that goes on with it. -/
theorem matches_concat :
    Matches pattern (text ++ [c]) (m + 1) ↔ Matches pattern text m ∧ pattern[m]? = some c := by
  unfold Matches
  constructor
  · rintro ⟨within, found⟩
    have inside : m < pattern.length := by omega
    rw [List.take_succ_eq_append_getElem inside, concat_suffix_concat] at found
    exact ⟨⟨by omega, found.1⟩, by rw [List.getElem?_eq_getElem inside, found.2]⟩
  · rintro ⟨⟨-, found⟩, goes⟩
    obtain ⟨inside, same⟩ := List.getElem?_eq_some_iff.mp goes
    rw [List.take_succ_eq_append_getElem inside, concat_suffix_concat]
    exact ⟨inside, found, same⟩

theorem matches_zero : Matches pattern text 0 := ⟨Nat.zero_le _, by simp⟩

/-- Of two matches, the shorter one is a suffix of the longer one. -/
theorem suffix_of_matches (first : pattern.take m <:+ text) (second : pattern.take k <:+ text)
    (shorter : m ≤ k) (within : k ≤ pattern.length) : pattern.take m <:+ pattern.take k := by
  apply List.suffix_of_suffix_length_le first second
  rw [List.length_take_of_le within, List.length_take_of_le (by omega)]
  exact shorter

/-- What has been built from a part of the tail. -/
structure Built (pattern done : List α) (built : List Nat × Nat) : Prop where
  correct : Correct pattern built.1
  size : built.1.length = done.length + 1
  longest : Longest pattern done built.2

theorem built_nil {head : α} {tail : List α} : Built (head :: tail) [] ([0], 0) := by
  constructor
  case correct =>
    refine ⟨by simp, fun k positive within => ?_⟩
    obtain rfl : k = 1 := by
      have bound : k ≤ 1 := within
      omega
    refine ⟨by decide, by simp, fun m smaller _ => ?_⟩
    have bound : m < 1 := smaller
    change m ≤ 0
    omega
  case size => rfl
  case longest =>
    refine ⟨by simp, by simp, fun m _ found => ?_⟩
    have shorter := found.length_le
    rw [List.length_take_of_le (by omega)] at shorter
    exact shorter

/-- The border of the next prefix is the longest match of the pattern in the tail of it. -/
theorem border_of_advance {head : α} {done rest : List α}
    (matched : Matches (head :: (done ++ c :: rest)) (done ++ [c]) j)
    (all : ∀ m, Matches (head :: (done ++ c :: rest)) (done ++ [c]) m → m ≤ j) :
    Border (head :: (done ++ c :: rest)) (done.length + 2) j := by
  have start : (head :: (done ++ c :: rest)).take (done.length + 2) = head :: (done ++ [c]) := by
    rw [List.take_succ_cons]
    rw [show done ++ c :: rest = (done ++ [c]) ++ rest by simp, List.take_left' (by simp)]
  have bound := matches_length matched
  rw [List.length_append, List.length_singleton] at bound
  constructor
  case proper => omega
  case found =>
    rw [start]
    exact List.suffix_cons_iff.mpr (Or.inr matched.2)
  case longest =>
    intro m smaller found
    rw [start] at found
    have within : m ≤ (head :: (done ++ c :: rest)).length := by
      simp only [List.length_cons, List.length_append]
      omega
    apply all m ⟨within, ?_⟩
    rcases List.suffix_cons_iff.mp found with whole | tail
    · have sizes := congrArg List.length whole
      rw [List.length_take_of_le within] at sizes
      simp only [List.length_cons, List.length_append, List.length_nil] at sizes
      omega
    · exact tail

/-- What is known after a part of the text. -/
structure Searched (pattern text : List α) (s : State) : Prop where
  read : s.read = text.length
  ends : ∀ e, e ∈ s.ends ↔ e ≤ text.length ∧ 0 < e ∧ pattern <:+ text.take e
  longest : Longest pattern text s.matched

theorem searched_nil (some : pattern ≠ []) : Searched pattern [] ⟨0, [], 0⟩ := by
  have positive := List.length_pos_iff.mpr some
  constructor
  case read => rfl
  case ends =>
    intro e
    constructor
    · intro member
      cases member
    · rintro ⟨zero, above, -⟩
      simp only [List.length_nil] at zero
      omega
  case longest =>
    refine ⟨positive, by simp, fun m proper found => ?_⟩
    have shorter := found.length_le
    rw [List.length_take_of_le (by omega)] at shorter
    exact shorter

/-- The ends in a longer text are those in the text, and its end when the whole pattern matches. -/
theorem ends_concat {ends : List Nat}
    (before : ∀ e, e ∈ ends ↔ e ≤ text.length ∧ 0 < e ∧ pattern <:+ text.take e) (e : Nat) :
    (e ∈ ends ∨ e = text.length + 1 ∧ pattern <:+ text ++ [c]) ↔
      e ≤ (text ++ [c]).length ∧ 0 < e ∧ pattern <:+ (text ++ [c]).take e := by
  have size : (text ++ [c]).length = text.length + 1 := by simp
  constructor
  · rintro (member | ⟨rfl, whole⟩)
    · obtain ⟨within, positive, found⟩ := (before e).mp member
      rw [List.take_append_of_le_length within]
      exact ⟨by omega, positive, found⟩
    · rw [← size, List.take_length]
      exact ⟨Nat.le_refl _, by omega, whole⟩
  · rintro ⟨within, positive, found⟩
    by_cases last : e = text.length + 1
    · subst last
      rw [← size, List.take_length] at found
      exact Or.inr ⟨rfl, found⟩
    · rw [List.take_append_of_le_length (by omega)] at found
      exact Or.inl ((before e).mpr ⟨by omega, positive, found⟩)

variable [DecidableEq α]

/-- Falling back keeps every match that goes on. -/
theorem fall_spec (correct : Correct pattern table) {bound : Nat} (enough : j ≤ bound)
    (known : j ≤ table.length) (found : Matches pattern text j)
    (all : ∀ m, Matches pattern text m → pattern[m]? = some c → m ≤ j) :
    let r := fall pattern table c bound j
    Matches pattern text r ∧ (r = 0 ∨ pattern[r]? = some c) ∧
      ∀ m, Matches pattern text m → pattern[m]? = some c → m ≤ r := by
  induction bound generalizing j with
  | zero =>
    obtain rfl : j = 0 := by omega
    exact ⟨found, Or.inl rfl, all⟩
  | succ bound ih =>
    unfold fall
    split
    next falls =>
      have border := correct.border j falls.1 known
      have proper := border.proper
      apply ih (by omega) (by omega)
      · have within := found.1
        exact ⟨by omega, border.found.trans found.2⟩
      · intro m matched goes
        have shorter := all m matched goes
        have other : m ≠ j := by
          rintro rfl
          exact falls.2 goes
        apply border.longest m (by omega)
        exact suffix_of_matches matched.2 found.2 shorter found.1
    next stays =>
      refine ⟨found, ?_, all⟩
      by_cases zero : j = 0
      · exact Or.inl zero
      · right
        by_contra other
        exact stays ⟨by omega, other⟩

/-- After one more element, `advance` has the longest match, which may be the whole pattern. -/
theorem advance_spec (correct : Correct pattern table) (known : j ≤ table.length)
    (longest : Longest pattern text j) :
    Matches pattern (text ++ [c]) (advance pattern table j c) ∧
      ∀ m, Matches pattern (text ++ [c]) m → m ≤ advance pattern table j c := by
  have proper := longest.proper
  obtain ⟨found, goes, all⟩ := fall_spec (c := c) correct (Nat.le_refl _) known
    (⟨by omega, longest.found⟩ : Matches pattern text j) (by
      intro m matched goes
      obtain ⟨inside, -⟩ := List.getElem?_eq_some_iff.mp goes
      exact longest.longest m inside matched.2)
  unfold advance
  dsimp only
  split
  next same =>
    refine ⟨matches_concat.mpr ⟨found, same⟩, ?_⟩
    intro m matched
    cases m with
    | zero => omega
    | succ m =>
      obtain ⟨before, goes'⟩ := matches_concat.mp matched
      have shorter := all m before goes'
      omega
  next other =>
    rcases goes with zero | same
    · rw [zero]
      refine ⟨matches_zero, ?_⟩
      intro m matched
      cases m with
      | zero => exact Nat.le_refl 0
      | succ m =>
        obtain ⟨before, goes'⟩ := matches_concat.mp matched
        have shorter := all m before goes'
        rw [zero] at other shorter
        obtain rfl : m = 0 := by omega
        exact absurd goes' other
    · exact absurd same other

theorem built_extend {head : α} {done rest : List α} {built : List Nat × Nat}
    (so : Built (head :: (done ++ c :: rest)) done built) :
    Built (head :: (done ++ c :: rest)) (done ++ [c])
      (extend (head :: (done ++ c :: rest)) built c) := by
  have known : built.2 ≤ built.1.length := by
    have proper := matches_length ⟨by have := so.longest.proper; omega, so.longest.found⟩
    rw [so.size]
    omega
  obtain ⟨matched, all⟩ := advance_spec (c := c) so.correct known so.longest
  have bound := matches_length matched
  rw [List.length_append, List.length_singleton] at bound
  have total : (head :: (done ++ c :: rest)).length = done.length + rest.length + 2 := by
    simp only [List.length_cons, List.length_append]
    omega
  unfold extend
  dsimp only
  constructor
  case correct =>
    refine ⟨?_, fun k positive within => ?_⟩
    · rw [List.length_append, so.size, total, List.length_singleton]
      omega
    · rw [List.length_append, so.size, List.length_singleton] at within
      by_cases last : k = done.length + 2
      · subst last
        have entry : (built.1 ++ [advance (head :: (done ++ c :: rest)) built.1 built.2 c]).getD
            (done.length + 2 - 1) 0 = advance (head :: (done ++ c :: rest)) built.1 built.2 c := by
          rw [List.getD_eq_getElem?_getD, List.getElem?_append_right (by rw [so.size]; omega),
            so.size, show done.length + 2 - 1 - (done.length + 1) = 0 by omega]
          rfl
        rw [entry]
        exact border_of_advance matched all
      · have old : (built.1 ++ [advance (head :: (done ++ c :: rest)) built.1 built.2 c]).getD
            (k - 1) 0 = built.1.getD (k - 1) 0 := by
          rw [List.getD_eq_getElem?_getD, List.getElem?_append_left (by rw [so.size]; omega),
            ← List.getD_eq_getElem?_getD]
        rw [old]
        exact so.correct.border k positive (by rw [so.size]; omega)
  case size =>
    simp only [List.length_append, so.size, List.length_singleton]
  case longest =>
    refine ⟨by omega, matched.2, fun m proper found => ?_⟩
    exact all m ⟨by omega, found⟩

theorem built_tail {head : α} {done rest : List α} {built : List Nat × Nat}
    (so : Built (head :: (done ++ rest)) done built) :
    Built (head :: (done ++ rest)) (done ++ rest)
      (rest.foldl (extend (head :: (done ++ rest))) built) := by
  induction rest generalizing done built with
  | nil =>
    rw [List.append_nil] at so ⊢
    exact so
  | cons c rest ih =>
    rw [List.foldl_cons]
    have step := built_extend so
    rw [show done ++ c :: rest = done ++ [c] ++ rest by simp] at step ⊢
    exact ih step

theorem prefixTable_correct (some : pattern ≠ []) :
    Correct pattern (prefixTable pattern) ∧ (prefixTable pattern).length = pattern.length := by
  cases pattern with
  | nil => exact absurd rfl some
  | cons head tail =>
    have built := @built_tail α _ head [] tail ([0], 0) built_nil
    exact ⟨built.correct, built.size⟩

theorem searched_next {s : State} (some : pattern ≠ []) (so : Searched pattern text s) :
    Searched pattern (text ++ [c]) (next pattern (prefixTable pattern) s c) := by
  obtain ⟨correct, size⟩ := prefixTable_correct some
  have positive := List.length_pos_iff.mpr some
  have proper := so.longest.proper
  obtain ⟨matched, all⟩ := advance_spec (c := c) correct (by omega) so.longest
  unfold next
  dsimp only
  split
  next whole =>
    -- The whole pattern matches; go on with its longest border.
    have found : pattern <:+ text ++ [c] := by
      have taken := matched.2
      rwa [whole, List.take_length] at taken
    have border := correct.border pattern.length positive (by omega)
    have suffix := border.found
    rw [List.take_length] at suffix
    constructor
    case read => simp [so.read]
    case ends =>
      intro e
      rw [← ends_concat so.ends e, so.read, List.mem_append, List.mem_singleton]
      exact or_congr_right ⟨fun same => ⟨same, found⟩, fun both => both.1⟩
    case longest =>
      refine ⟨border.proper, suffix.trans found, fun m smaller shorter => ?_⟩
      apply border.longest m smaller
      exact suffix_of_matches shorter (by rwa [List.take_length]) (by omega) (Nat.le_refl _)
  next other =>
    constructor
    case read => simp [so.read]
    case ends =>
      intro e
      rw [← ends_concat so.ends e]
      constructor
      · exact Or.inl
      · rintro (member | ⟨-, whole⟩)
        · exact member
        · have longest := all pattern.length ⟨Nat.le_refl _, by rwa [List.take_length]⟩
          have within := matched.1
          omega
    case longest =>
      have within := matched.1
      have proper' : advance pattern (prefixTable pattern) s.matched c < pattern.length := by omega
      exact ⟨proper', matched.2, fun m smaller found => all m ⟨by omega, found⟩⟩

/-- The search finds every end of the pattern, and the longest proper prefix at the end. -/
theorem search_spec (some : pattern ≠ []) (text : List α) :
    Searched pattern text (search pattern text) := by
  induction text using List.reverseRecOn with
  | nil => exact searched_nil some
  | append_singleton text c ih =>
    rw [search, List.foldl_append]
    exact searched_next some ih

end Matching
