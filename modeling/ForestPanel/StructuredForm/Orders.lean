import ForestPanel.Lib.Shuffle
import ForestPanel.StructuredForm.Places
import Mathlib.Data.List.Sort

/-!
# The keys of a form in any order

The keys of a form come in the random order of a Go map. They give one value in all orders, or an
error in all orders, exactly when no index is negative or the largest, and either two keys need
different containers at one place, or no key ends on the way of another and keys of one place carry
one text.
-/
namespace ForestPanel.StructuredForm

open Outcome

/-- The steps of a key: into the field of the base, and those in brackets. -/
def stepsOf (key : String) : List Step :=
  match parseStructuredInputPath key with
  | [] => []
  | base :: path => .key base :: path.map stepOf

def GoodKeys (entries : List (String × String)) : Prop :=
  ∀ e ∈ entries, ∀ s ∈ stepsOf e.1, s.Good

def Clashing (entries : List (String × String)) : Prop :=
  ∃ e ∈ entries, ∃ f ∈ entries,
    Blocks (stepsOf e.1) (stepsOf f.1) ∧ Blocks (stepsOf f.1) (stepsOf e.1)

/-- No key ends on the way of another, and keys of one place carry one text. -/
def Separate (entries : List (String × String)) : Prop :=
  ∀ e ∈ entries, ∀ f ∈ entries, stepsOf e.1 ≠ [] →
    ¬Blocks (stepsOf e.1) (stepsOf f.1) ∧
      (stepsOf e.1 = stepsOf f.1 → trimSpace e.2 = trimSpace f.2)

/-- No order leaves a list, and all give one value or all an error. -/
def TotalAndOrderFree (entries : List (String × String)) : Prop :=
  (∀ order : List (String × String), order.Perm entries →
    readStructuredInputs order ≠ .error .panic) ∧
  ((∃ target, ∀ order : List (String × String), order.Perm entries →
    readStructuredInputs order = .ok target) ∨
  ∀ order : List (String × String), order.Perm entries →
    ∃ e, readStructuredInputs order = .error e)

/-! ## Two assignments -/

section

variable {node n n₁ n₂ n₃ n₄ : Node} {p q path : List Step} {v w : String}

theorem not_blocks_self (p : List Step) : ¬Blocks p p := by
  induction p with
  | nil => exact id
  | cons s p ih =>
    rintro (kind | ⟨-, blocks⟩)
    · exact kind rfl
    · exact ih blocks

theorem assign_exchange (goodP : ∀ s ∈ p, s.Good) (goodQ : ∀ s ∈ q, s.Good)
    (apart : ¬Blocks p q) (apart' : ¬Blocks q p) (same : p = q → v = w)
    (first : assignStructuredValue node p v = .ok n₁)
    (second : assignStructuredValue n₁ q w = .ok n₂)
    (other : assignStructuredValue node q w = .ok n₃)
    (last : assignStructuredValue n₃ p v = .ok n₄) : n₂ = n₄ := by
  induction p generalizing node q n₁ n₂ n₃ n₄ with
  | nil =>
    cases q with
    | nil =>
      obtain rfl := Except.ok.inj second
      obtain rfl := Except.ok.inj last
      rw [same rfl]
    | cons t q => exact absurd trivial apart
  | cons s p ih =>
    cases q with
    | nil => exact absurd trivial apart'
    | cons t q =>
      have goodS := goodP s List.mem_cons_self
      have goodT := goodQ t List.mem_cons_self
      have kind : s.isIndex = t.isIndex := by
        by_contra kind
        exact apart (Or.inl kind)
      obtain ⟨openS, c₁, child₁, rfl⟩ := assign_inv goodS first
      obtain ⟨-, c₂, child₂, rfl⟩ := assign_inv goodT second
      obtain ⟨openT, c₃, child₃, rfl⟩ := assign_inv goodT other
      obtain ⟨-, c₄, child₄, rfl⟩ := assign_inv goodS last
      by_cases step : s = t
      · subst step
        rw [child_put goodS openS] at child₂ child₄
        rw [put_put openS, put_put openS]
        refine congrArg (node.put s) (ih ?_ ?_ ?_ ?_ ?_ child₁ child₂ child₃ child₄)
        · exact fun u member => goodP u (List.mem_cons_of_mem _ member)
        · exact fun u member => goodQ u (List.mem_cons_of_mem _ member)
        · exact fun blocks => apart (Or.inr ⟨rfl, blocks⟩)
        · exact fun blocks => apart' (Or.inr ⟨rfl, blocks⟩)
        · exact fun equal => same (congrArg (List.cons s) equal)
      · rw [child_put_other goodS goodT step openS kind, child₃] at child₂
        rw [child_put_other goodT goodS (Ne.symm step) openT kind.symm, child₁] at child₄
        obtain rfl := Except.ok.inj child₂
        obtain rfl := Except.ok.inj child₄
        exact put_comm goodS goodT step openS kind c₁ c₃

def Node.at_ (node : Node) (path : List Step) : Node := path.foldl Node.child node

theorem at_assign (good : ∀ s ∈ path, s.Good)
    (returned : assignStructuredValue node path v = .ok n) : n.at_ path = .text v := by
  induction path generalizing node n with
  | nil =>
    obtain rfl := Except.ok.inj returned
    rfl
  | cons s path ih =>
    have first := good s List.mem_cons_self
    obtain ⟨open_, c, child, rfl⟩ := assign_inv first returned
    rw [Node.at_, List.foldl_cons, child_put first open_]
    exact ih (fun t member => good t (List.mem_cons_of_mem _ member)) child

theorem assign_bad (fits : ∀ idx, Step.index idx ∈ path → Decimal.Fits idx)
    (bad : ∃ s ∈ path, ¬s.Good) : assignStructuredValue .null path v = .error .panic := by
  induction path with
  | nil =>
    obtain ⟨s, member, -⟩ := bad
    cases member
  | cons s path ih =>
    by_cases good : s.Good
    · have rest : ∃ t ∈ path, ¬t.Good := by
        obtain ⟨t, member, bad⟩ := bad
        rcases List.mem_cons.mp member with rfl | later
        · exact absurd good bad
        · exact ⟨t, later, bad⟩
      rw [assign_step good rfl, child_null,
        ih (fun idx member => fits idx (List.mem_cons_of_mem _ member)) rest]
      rfl
    · cases s with
      | key name => exact absurd trivial good
      | index idx =>
        obtain ⟨low, high⟩ := fits idx List.mem_cons_self
        rw [assignStructuredValue, listFor]
        by_cases made : 0 ≤ wrapInt (idx + 1)
        · have negative : idx < 0 := by
            by_contra positive
            refine good ⟨Int.not_lt.mp positive, ?_⟩
            rw [maxInt]
            by_contra large
            have largest : idx = 9223372036854775807 := by omega
            rw [largest] at made
            exact absurd made (by decide)
          rw [if_pos made, bind_ok]
          dsimp only
          rw [if_pos negative]
        · rw [if_neg made]
          rfl

end

/-! ## One key -/

section

variable {target target' : Target} {key key' value : String} {base base' : String}
  {path path' : List Step}

/-- What a key does to the node of its base; a plain key does not replace one. -/
def mergeNode (current : Node) (path : List Step) (value : String) : Except Failure Node :=
  if path = [] ∧ current.isNull = false then .ok current
  else assignStructuredValue current path value

theorem merge_eq (steps : stepsOf key = .key base :: path) :
    mergeStructuredInput target key value =
      (mergeNode (target base) path (trimSpace value)).map (Function.update target base) := by
  unfold stepsOf at steps
  unfold mergeStructuredInput
  cases parsed : parseStructuredInputPath key with
  | nil =>
    rw [parsed] at steps
    cases steps
  | cons first segments =>
    rw [parsed] at steps
    obtain ⟨same, rfl⟩ := List.cons.inj steps
    obtain rfl := Step.key.inj same
    cases segments with
    | nil =>
      dsimp only [List.map_nil]
      unfold mergeNode
      by_cases known : (target first).isNull = false
      · rw [if_pos known, if_pos ⟨rfl, known⟩]
        exact congrArg Except.ok (Function.update_eq_self first target).symm
      · rw [if_neg known, if_neg (fun both => known both.2)]
        rfl
    | cons segment segments =>
      dsimp only [List.map_cons]
      rw [mergeNode, if_neg (fun both => List.cons_ne_nil _ _ both.1)]
      rfl

theorem merge_nothing (steps : stepsOf key = []) :
    mergeStructuredInput target key value = .ok target := by
  unfold stepsOf at steps
  unfold mergeStructuredInput
  cases parsed : parseStructuredInputPath key with
  | nil => rfl
  | cons first segments =>
    rw [parsed] at steps
    cases steps

theorem steps_cases (key : String) :
    stepsOf key = [] ∨ ∃ base path, stepsOf key = .key base :: path ∧
      ∀ idx, Step.index idx ∈ path → Decimal.Fits idx := by
  unfold stepsOf
  split
  next => exact Or.inl rfl
  next base segments parsed =>
    refine Or.inr ⟨base, segments.map stepOf, rfl, fun idx member => ?_⟩
    obtain ⟨segment, -, read⟩ := List.mem_map.mp member
    unfold stepOf at read
    split at read
    next found =>
      obtain rfl := Step.index.inj read
      exact Decimal.parse_fits found
    next => cases read

theorem blocked_object : Blocked (.object target) (.key base :: path) ↔ Blocked (target base) path := by
  constructor
  · rintro (refuses | blocked)
    · cases refuses
    · exact blocked
  · exact Or.inr

theorem blocks_keys : Blocks (.key base :: path) (.key base' :: path') ↔
    base = base' ∧ Blocks path path' := by
  constructor
  · rintro (kind | ⟨same, blocks⟩)
    · exact absurd rfl kind
    · exact ⟨Step.key.inj same, blocks⟩
  · rintro ⟨rfl, blocks⟩
    exact Or.inr ⟨rfl, blocks⟩

theorem merge_inv (steps : stepsOf key = .key base :: path)
    (returned : mergeStructuredInput target key value = .ok target') :
    ∃ c, mergeNode (target base) path (trimSpace value) = .ok c ∧
      target' = Function.update target base c := by
  rw [merge_eq steps] at returned
  cases child : mergeNode (target base) path (trimSpace value) with
  | error e =>
    rw [child] at returned
    cases returned
  | ok c =>
    rw [child] at returned
    exact ⟨c, rfl, (Except.ok.inj returned).symm⟩

variable (value) in
theorem merge_of_blocked (good : ∀ s ∈ stepsOf key, s.Good)
    (blocked : Blocked (.object target) (stepsOf key)) :
    ∃ e, e ≠ Failure.panic ∧ mergeStructuredInput target key value = .error e := by
  rcases steps_cases key with none | ⟨base, path, steps, -⟩
  · rw [none] at blocked
    cases blocked
  · rw [steps] at good blocked
    rw [blocked_object] at blocked
    have open_ : ¬(path = [] ∧ (target base).isNull = false) := by
      rintro ⟨rfl, -⟩
      cases blocked
    obtain ⟨e, other, failed⟩ := assign_of_blocked (trimSpace value)
      (fun s member => good s (List.mem_cons_of_mem _ member)) blocked
    refine ⟨e, other, ?_⟩
    rw [merge_eq steps, mergeNode, if_neg open_, failed]
    rfl

variable (value) in
theorem merge_of_open (good : ∀ s ∈ stepsOf key, s.Good)
    (open_ : ¬Blocked (.object target) (stepsOf key)) :
    ∃ target', mergeStructuredInput target key value = .ok target' := by
  rcases steps_cases key with none | ⟨base, path, steps, -⟩
  · exact ⟨target, merge_nothing none⟩
  · rw [steps] at good open_
    rw [blocked_object] at open_
    rw [merge_eq steps, mergeNode]
    split
    next => exact ⟨_, rfl⟩
    next =>
      obtain ⟨c, returned⟩ := assign_of_open (trimSpace value)
        (fun s member => good s (List.mem_cons_of_mem _ member)) open_
      rw [returned]
      exact ⟨_, rfl⟩

theorem merge_no_panic (good : ∀ s ∈ stepsOf key, s.Good) :
    mergeStructuredInput target key value ≠ .error .panic := by
  intro panics
  by_cases blocked : Blocked (.object target) (stepsOf key)
  · obtain ⟨e, other, failed⟩ := merge_of_blocked value good blocked
    rw [failed] at panics
    exact other (Except.error.inj panics)
  · obtain ⟨target', returned⟩ := merge_of_open value good blocked
    rw [returned] at panics
    cases panics

theorem mergeNode_cases {current c : Node} (returned : mergeNode current path value = .ok c) :
    (c = current ∧ path = [] ∧ current.isNull = false) ∨
      assignStructuredValue current path value = .ok c := by
  unfold mergeNode at returned
  split at returned
  next known => exact Or.inl ⟨(Except.ok.inj returned).symm, known⟩
  next => exact Or.inr returned

theorem blocked_merge (good : ∀ s ∈ stepsOf key, s.Good) (good' : ∀ s ∈ stepsOf key', s.Good)
    (returned : mergeStructuredInput target key value = .ok target')
    (blocked : Blocked (.object target) (stepsOf key')) :
    Blocked (.object target') (stepsOf key') := by
  rcases steps_cases key with none | ⟨base, path, steps, -⟩
  · rw [merge_nothing none] at returned
    rw [← Except.ok.inj returned]
    exact blocked
  rcases steps_cases key' with none | ⟨base', path', steps', -⟩
  · rw [none] at blocked
    cases blocked
  obtain ⟨c, child, rfl⟩ := merge_inv steps returned
  rw [steps] at good
  rw [steps'] at good' blocked ⊢
  rw [blocked_object] at blocked ⊢
  by_cases same : base' = base
  · subst same
    rw [Function.update_self]
    rcases mergeNode_cases child with ⟨rfl, -⟩ | assigned
    · exact blocked
    · exact blocked_assign (fun s member => good s (List.mem_cons_of_mem _ member))
        (fun s member => good' s (List.mem_cons_of_mem _ member)) assigned blocked
  · rw [Function.update_of_ne same]
    exact blocked

theorem open_merge (good : ∀ s ∈ stepsOf key, s.Good) (good' : ∀ s ∈ stepsOf key', s.Good)
    (apart : stepsOf key ≠ [] → ¬Blocks (stepsOf key) (stepsOf key'))
    (returned : mergeStructuredInput target key value = .ok target')
    (open_ : ¬Blocked (.object target) (stepsOf key')) :
    ¬Blocked (.object target') (stepsOf key') := by
  rcases steps_cases key with none | ⟨base, path, steps, -⟩
  · rw [merge_nothing none] at returned
    rw [← Except.ok.inj returned]
    exact open_
  rcases steps_cases key' with none | ⟨base', path', steps', -⟩
  · rw [none]
    exact id
  obtain ⟨c, child, rfl⟩ := merge_inv steps returned
  rw [steps] at good apart
  rw [steps'] at good' open_ apart ⊢
  rw [blocked_object] at open_ ⊢
  by_cases same : base' = base
  · subst same
    rw [Function.update_self]
    rcases mergeNode_cases child with ⟨rfl, -⟩ | assigned
    · exact open_
    · exact open_assign (fun s member => good s (List.mem_cons_of_mem _ member))
        (fun s member => good' s (List.mem_cons_of_mem _ member))
        (fun blocks => apart (List.cons_ne_nil _ _) (blocks_keys.mpr ⟨rfl, blocks⟩)) assigned open_
  · rw [Function.update_of_ne same]
    exact open_

theorem blocked_of_merge (good : ∀ s ∈ stepsOf key, s.Good)
    (blocks : Blocks (stepsOf key) (stepsOf key'))
    (writes : target = emptyTarget ∨ Blocks (stepsOf key') (stepsOf key))
    (placed : stepsOf key ≠ [])
    (returned : mergeStructuredInput target key value = .ok target') :
    Blocked (.object target') (stepsOf key') := by
  rcases steps_cases key with none | ⟨base, path, steps, -⟩
  · exact absurd none placed
  rcases steps_cases key' with none | ⟨base', path', steps', -⟩
  · rw [none, steps] at blocks
    cases blocks
  obtain ⟨c, child, rfl⟩ := merge_inv steps returned
  rw [steps, steps'] at blocks writes
  rw [steps] at good
  obtain ⟨rfl, behind⟩ := blocks_keys.mp blocks
  rw [steps', blocked_object, Function.update_self]
  rcases mergeNode_cases child with ⟨-, rfl, known⟩ | assigned
  · rcases writes with rfl | back
    · cases known
    · obtain ⟨-, impossible⟩ := blocks_keys.mp back
      cases path' with
      | nil => cases impossible
      | cons t rest => cases impossible
  · exact blocked_of_blocks (fun s member => good s (List.mem_cons_of_mem _ member)) behind assigned

theorem merge_exchange {v w : String} (good : ∀ s ∈ stepsOf key, s.Good)
    (good' : ∀ s ∈ stepsOf key', s.Good)
    (apart : stepsOf key ≠ [] → ¬Blocks (stepsOf key) (stepsOf key'))
    (apart' : stepsOf key' ≠ [] → ¬Blocks (stepsOf key') (stepsOf key))
    (same : stepsOf key = stepsOf key' → stepsOf key ≠ [] → trimSpace v = trimSpace w)
    {t₁ t₂ t₃ t₄ : Target} (first : mergeStructuredInput target key v = .ok t₁)
    (second : mergeStructuredInput t₁ key' w = .ok t₂)
    (other : mergeStructuredInput target key' w = .ok t₃)
    (last : mergeStructuredInput t₃ key v = .ok t₄) : t₂ = t₄ := by
  rcases steps_cases key with none | ⟨base, path, steps, -⟩
  · rw [merge_nothing none] at first last
    obtain rfl := Except.ok.inj first
    obtain rfl := Except.ok.inj last
    rw [second] at other
    exact Except.ok.inj other
  rcases steps_cases key' with none | ⟨base', path', steps', -⟩
  · rw [merge_nothing none] at second other
    obtain rfl := Except.ok.inj second
    obtain rfl := Except.ok.inj other
    rw [first] at last
    exact Except.ok.inj last
  obtain ⟨c₁, child₁, rfl⟩ := merge_inv steps first
  obtain ⟨c₂, child₂, rfl⟩ := merge_inv steps' second
  obtain ⟨c₃, child₃, rfl⟩ := merge_inv steps' other
  obtain ⟨c₄, child₄, rfl⟩ := merge_inv steps last
  rw [steps] at good apart apart' same
  rw [steps'] at good' apart apart' same
  have goodPath : ∀ s ∈ path, s.Good := fun s member => good s (List.mem_cons_of_mem _ member)
  have goodPath' : ∀ s ∈ path', s.Good := fun s member => good' s (List.mem_cons_of_mem _ member)
  by_cases bases : base = base'
  · subst bases
    rw [Function.update_self] at child₂ child₄
    rw [Function.update_idem, Function.update_idem]
    have apart : ¬Blocks path path' :=
      fun blocks => apart (List.cons_ne_nil _ _) (blocks_keys.mpr ⟨rfl, blocks⟩)
    have apart' : ¬Blocks path' path :=
      fun blocks => apart' (List.cons_ne_nil _ _) (blocks_keys.mpr ⟨rfl, blocks⟩)
    refine congrArg (Function.update target base) ?_
    by_cases plain : path = []
    · -- two plain keys of one base carry one text
      subst plain
      have plain' : path' = [] := by
        cases path' with
        | nil => rfl
        | cons t rest => exact absurd trivial apart
      subst plain'
      have texts := same rfl (List.cons_ne_nil _ _)
      rw [texts] at child₁ child₄
      rw [child₁] at child₃
      obtain rfl := Except.ok.inj child₃
      rw [child₂] at child₄
      exact Except.ok.inj child₄
    · have written : ∀ {current c : Node} {value : String},
          mergeNode current path value = .ok c →
            assignStructuredValue current path value = .ok c := by
        intro current c value returned
        rcases mergeNode_cases returned with ⟨-, none, -⟩ | assigned
        · exact absurd none plain
        · exact assigned
      have written' : ∀ {current c : Node} {value : String},
          mergeNode current path' value = .ok c →
            assignStructuredValue current path' value = .ok c := by
        intro current c value returned
        rcases mergeNode_cases returned with ⟨-, rfl, -⟩ | assigned
        · cases path with
          | nil => exact absurd rfl plain
          | cons s rest => exact absurd trivial apart'
        · exact assigned
      refine assign_exchange goodPath goodPath' apart apart' ?_ (written child₁) (written' child₂)
        (written' child₃) (written child₄)
      rintro rfl
      exact same rfl (List.cons_ne_nil _ _)
  · rw [Function.update_of_ne (Ne.symm bases), child₃] at child₂
    rw [Function.update_of_ne bases, child₁] at child₄
    obtain rfl := Except.ok.inj child₂
    obtain rfl := Except.ok.inj child₄
    exact Function.update_comm bases c₁ c₃ target

end

/-! ## All keys -/

variable {f e : String × String}

section

variable {entries order : List (String × String)}

theorem GoodKeys.perm (good : GoodKeys entries) (same : order.Perm entries) : GoodKeys order :=
  fun e member => good e (same.mem_iff.mp member)

theorem Separate.perm (separate : Separate entries) (same : order.Perm entries) : Separate order :=
  fun e member f other => separate e (same.mem_iff.mp member) f (same.mem_iff.mp other)

def round (target : Target) (entry : String × String) : Except Failure Target :=
  mergeStructuredInput target entry.1 entry.2

theorem read_eq : readStructuredInputs order = order.foldlM round emptyTarget := rfl

theorem no_panic (good : GoodKeys order) (target : Target) :
    order.foldlM round target ≠ .error .panic := by
  induction order generalizing target with
  | nil => rintro ⟨⟩
  | cons e order ih =>
    rw [List.foldlM_cons]
    cases first : round target e with
    | error failure =>
      intro panics
      have panic : failure = .panic := Except.error.inj panics
      rw [panic] at first
      exact merge_no_panic (good e List.mem_cons_self) first
    | ok next => exact ih (fun f member => good f (List.mem_cons_of_mem _ member)) next

theorem returns_open {target : Target} (good : GoodKeys order)
    (later : order.Pairwise fun e f => stepsOf e.1 ≠ [] → ¬Blocks (stepsOf e.1) (stepsOf f.1))
    (open_ : ∀ e ∈ order, ¬Blocked (.object target) (stepsOf e.1)) :
    ∃ target', order.foldlM round target = .ok target' := by
  induction order generalizing target with
  | nil => exact ⟨target, rfl⟩
  | cons e order ih =>
    obtain ⟨apart, later⟩ := List.pairwise_cons.mp later
    have goodE := good e List.mem_cons_self
    obtain ⟨next, first⟩ := merge_of_open e.2 goodE (open_ e List.mem_cons_self)
    have goodNext : GoodKeys order := fun f member =>
      good f (List.mem_cons_of_mem _ member)
    obtain ⟨target', rest⟩ := ih goodNext later fun f member =>
      open_merge goodE (goodNext f member) (apart f member) first
        (open_ f (List.mem_cons_of_mem _ member))
    refine ⟨target', ?_⟩
    rw [List.foldlM_cons, round, first, bind_ok, rest]

theorem not_blocked_empty (key : String) : ¬Blocked (.object emptyTarget) (stepsOf key) := by
  rcases steps_cases key with none | ⟨base, path, steps, -⟩
  · rw [none]
    exact id
  · rw [steps, blocked_object]
    exact not_blocked_null

theorem blocked_fails {target : Target} {rest : List (String × String)}
    (good : GoodKeys (order ++ f :: rest)) (blocked : Blocked (.object target) (stepsOf f.1)) :
    ∃ e, (order ++ f :: rest).foldlM round target = .error e := by
  have goodF := good f (List.mem_append_right _ List.mem_cons_self)
  induction order generalizing target with
  | nil =>
    obtain ⟨e, -, failed⟩ := merge_of_blocked f.2 goodF blocked
    refine ⟨e, ?_⟩
    rw [List.nil_append, List.foldlM_cons, round, failed]
    rfl
  | cons first order ih =>
    rw [List.cons_append, List.foldlM_cons]
    cases returned : round target first with
    | error e => exact ⟨e, rfl⟩
    | ok next =>
      have still := blocked_merge (good first List.mem_cons_self) goodF returned blocked
      exact ih (fun g member => good g (List.mem_cons_of_mem _ member)) still

theorem pair_fails {before between rest : List (String × String)}
    (good : GoodKeys (before ++ e :: (between ++ f :: rest)))
    (blocks : Blocks (stepsOf e.1) (stepsOf f.1)) (placed : stepsOf e.1 ≠ [])
    (writes : before = [] ∨ Blocks (stepsOf f.1) (stepsOf e.1)) :
    ∃ failure, readStructuredInputs (before ++ e :: (between ++ f :: rest)) = .error failure := by
  rw [read_eq, List.foldlM_append]
  cases start : before.foldlM round emptyTarget with
  | error failure => exact ⟨failure, rfl⟩
  | ok target =>
    rw [bind_ok, List.foldlM_cons]
    cases first : round target e with
    | error failure => exact ⟨failure, rfl⟩
    | ok next =>
      have fresh : target = emptyTarget ∨ Blocks (stepsOf f.1) (stepsOf e.1) := by
        refine writes.imp_left ?_
        rintro rfl
        exact (Except.ok.inj start).symm
      have blocked := blocked_of_merge
        (good e (List.mem_append_right _ List.mem_cons_self)) blocks fresh placed first
      exact blocked_fails (fun g member => good g
        (List.mem_append_right _ (List.mem_cons_of_mem _ member))) blocked

theorem placed_of_blocks {p q : List Step} (blocks : Blocks p q) : q ≠ [] := by
  rintro rfl
  cases p with
  | nil => cases blocks
  | cons s p => cases blocks

theorem clashing_fails (good : GoodKeys order) (clashing : Clashing order) :
    ∃ failure, readStructuredInputs order = .error failure := by
  obtain ⟨e, member, f, other, blocks, back⟩ := clashing
  obtain ⟨before, rest, rfl⟩ := List.append_of_mem member
  have different : f ≠ e := by
    rintro rfl
    exact not_blocks_self _ blocks
  rcases List.mem_append.mp other with earlier | later
  · obtain ⟨first, between, rfl⟩ := List.append_of_mem earlier
    rw [List.append_assoc, List.cons_append] at good ⊢
    exact pair_fails good back (placed_of_blocks blocks) (Or.inr blocks)
  · rcases List.mem_cons.mp later with same | later
    · exact absurd same different
    · obtain ⟨between, last, rfl⟩ := List.append_of_mem later
      exact pair_fails good blocks (placed_of_blocks back) (Or.inr back)

theorem separate_returns (good : GoodKeys entries) (separate : Separate entries) :
    Returns round emptyTarget entries := by
  intro order same
  refine returns_open (good.perm same) ?_ fun e _ => not_blocked_empty e.1
  exact List.pairwise_of_forall_mem_list fun e member f other placed =>
    ((separate.perm same) e member f other placed).1

theorem separate_exchange (good : GoodKeys entries) (separate : Separate entries) :
    ∀ e ∈ entries, ∀ f ∈ entries, Exchange round e f := by
  intro e member f other s t u v w first second third last
  exact merge_exchange (good e member) (good f other)
    (fun placed => (separate e member f other placed).1)
    (fun placed => (separate f other e member placed).1)
    (fun same placed => (separate e member f other placed).2 same) first second third last

theorem base_kept {target target' : Target} {base text : String} (good : GoodKeys order)
    (there : target base = .text text) (returned : order.foldlM round target = .ok target') :
    target' base = .text text := by
  induction order generalizing target with
  | nil =>
    rw [← Except.ok.inj returned]
    exact there
  | cons e order ih =>
    rw [List.foldlM_cons, bind_eq_ok] at returned
    obtain ⟨next, first, rest⟩ := returned
    refine ih (fun f member => good f (List.mem_cons_of_mem _ member)) ?_ rest
    rcases steps_cases e.1 with none | ⟨other, path, steps, -⟩
    · have same := first
      rw [round, merge_nothing none] at same
      rw [← Except.ok.inj same]
      exact there
    · obtain ⟨c, child, rfl⟩ := merge_inv steps first
      by_cases same : base = other
      · subst same
        rw [Function.update_self]
        rw [there] at child
        rcases mergeNode_cases child with ⟨rfl, -⟩ | assigned
        · rfl
        · -- nothing is assigned below a text
          cases path with
          | nil => rw [mergeNode, if_pos ⟨rfl, rfl⟩] at child; exact (Except.ok.inj child).symm
          | cons s path =>
            have goodS : s.Good := good e List.mem_cons_self s (by
              rw [steps]
              exact List.mem_cons_of_mem _ List.mem_cons_self)
            obtain ⟨open_, -⟩ := assign_inv goodS assigned
            cases open_
      · rw [Function.update_of_ne same]
        exact there

theorem some_order_writes (good : GoodKeys entries) {target : Target}
    (all : ∀ order : List (String × String), order.Perm entries →
      readStructuredInputs order = .ok target) (member : e ∈ entries) {base : String}
    {path : List Step} (steps : stepsOf e.1 = .key base :: path) :
    (target base).at_ path = .text (trimSpace e.2) := by
  have goodE := good e member
  rw [steps] at goodE
  by_cases plain : path = []
  · -- the key comes first
    subst plain
    have returned := all (e :: entries.erase e) (List.perm_cons_erase member).symm
    rw [read_eq, List.foldlM_cons, bind_eq_ok] at returned
    obtain ⟨next, first, rest⟩ := returned
    obtain ⟨c, child, rfl⟩ := merge_inv steps first
    rcases mergeNode_cases child with ⟨-, -, known⟩ | assigned
    · cases known
    · have text : Node.text (trimSpace e.2) = c := Except.ok.inj assigned
      refine base_kept (fun f among => good f (List.mem_of_mem_erase among)) ?_ rest
      rw [Function.update_self, text]
  · -- the key comes last
    have shuffled : (entries.erase e ++ [e]).Perm entries :=
      (List.perm_append_singleton e _).trans (List.perm_cons_erase member).symm
    have returned := all _ shuffled
    rw [read_eq, List.foldlM_append, bind_eq_ok] at returned
    obtain ⟨before, -, last⟩ := returned
    rw [List.foldlM_cons, bind_eq_ok] at last
    obtain ⟨after, merged, same⟩ := last
    obtain rfl := Except.ok.inj same
    obtain ⟨c, child, rfl⟩ := merge_inv steps merged
    rw [Function.update_self]
    rcases mergeNode_cases child with ⟨-, none, -⟩ | assigned
    · exact absurd none plain
    · exact at_assign (fun s member => goodE s (List.mem_cons_of_mem _ member)) assigned

theorem good_of_total (total : ∀ order : List (String × String), order.Perm entries →
    readStructuredInputs order ≠ .error .panic) : GoodKeys entries := by
  intro e member s step
  by_contra bad
  refine total (e :: entries.erase e) (List.perm_cons_erase member).symm ?_
  rcases steps_cases e.1 with none | ⟨base, path, steps, fits⟩
  · rw [none] at step
    cases step
  rw [steps] at step
  rcases List.mem_cons.mp step with rfl | step
  · exact absurd trivial bad
  have going : ¬(path = [] ∧ (emptyTarget base).isNull = false) := by
    rintro ⟨rfl, -⟩
    cases step
  have panics : mergeNode (emptyTarget base) path (trimSpace e.2) = .error .panic := by
    rw [mergeNode, if_neg going]
    exact assign_bad fits ⟨s, step, bad⟩
  rw [read_eq, List.foldlM_cons, round, merge_eq steps, panics]
  rfl

theorem blocks_back {p q : List Step} (blocks : Blocks p q) (short : q.length ≤ p.length) :
    Blocks q p := by
  induction p generalizing q with
  | nil =>
    cases q with
    | nil => cases blocks
    | cons t q => exact absurd short (Nat.not_succ_le_zero _)
  | cons s p ih =>
    cases q with
    | nil => cases blocks
    | cons t q =>
      rcases blocks with kind | ⟨same, blocks⟩
      · exact Or.inl (Ne.symm kind)
      · exact Or.inr ⟨same.symm, ih blocks (Nat.le_of_succ_le_succ short)⟩

def Longer (a b : String × String) : Prop := (stepsOf b.1).length ≤ (stepsOf a.1).length

instance : DecidableRel Longer := fun _ _ => inferInstanceAs (Decidable (_ ≤ _))

instance : Std.Total Longer := ⟨fun _ _ => Nat.le_total _ _⟩

instance : IsTrans (String × String) Longer := ⟨fun _ _ _ first second => Nat.le_trans second first⟩

theorem one_blocks_another (good : GoodKeys entries) (clashless : ¬Clashing entries)
    (member : e ∈ entries) (other : f ∈ entries) (placed : stepsOf e.1 ≠ [])
    (blocks : Blocks (stepsOf e.1) (stepsOf f.1)) :
    (∃ order : List (String × String), order.Perm entries ∧
      ∃ target, readStructuredInputs order = .ok target) ∧
    ∃ order : List (String × String), order.Perm entries ∧
      ∃ failure, readStructuredInputs order = .error failure := by
  constructor
  · have shuffled : (entries.insertionSort Longer).Perm entries := List.perm_insertionSort Longer _
    refine ⟨_, shuffled, returns_open (good.perm shuffled) ?_ fun e _ => not_blocked_empty e.1⟩
    refine (List.pairwise_insertionSort Longer entries).imp_of_mem ?_
    intro a b listed listed' longer placed blocks
    exact clashless ⟨a, shuffled.mem_iff.mp listed, b, shuffled.mem_iff.mp listed', blocks,
      blocks_back blocks longer⟩
  · have different : f ≠ e := by
      rintro rfl
      exact not_blocks_self _ blocks
    have among : f ∈ entries.erase e := (List.mem_erase_of_ne different).mpr other
    have shuffled : (e :: f :: (entries.erase e).erase f).Perm entries :=
      ((List.perm_cons_erase among).symm.cons e).trans (List.perm_cons_erase member).symm
    refine ⟨_, shuffled, ?_⟩
    exact @pair_fails f e [] [] _ (good.perm shuffled) blocks placed (Or.inl rfl)

end

/-- The keys of a form never leave a list, and give one value in all orders or an error in all,
exactly when no index is negative or the largest, and the keys clash or are separate. -/
theorem total_and_order_free_iff (entries : List (String × String)) :
    TotalAndOrderFree entries ↔ GoodKeys entries ∧ (Clashing entries ∨ Separate entries) := by
  constructor
  · rintro ⟨total, free⟩
    have good := good_of_total total
    refine ⟨good, ?_⟩
    by_contra neither
    push Not at neither
    obtain ⟨clashless, mixed⟩ := neither
    unfold Separate at mixed
    push Not at mixed
    obtain ⟨e, member, f, other, placed, mixed⟩ := mixed
    by_cases blocking : ∃ e ∈ entries, ∃ f ∈ entries, stepsOf e.1 ≠ [] ∧
        Blocks (stepsOf e.1) (stepsOf f.1)
    · obtain ⟨e, member, f, other, placed, blocks⟩ := blocking
      obtain ⟨⟨order, shuffled, target, returned⟩, order', shuffled', failure, failed⟩ :=
        one_blocks_another good clashless member other placed blocks
      rcases free with ⟨all, same⟩ | fails
      · rw [same order' shuffled'] at failed
        cases failed
      · obtain ⟨failure, failed⟩ := fails order shuffled
        rw [returned] at failed
        cases failed
    · push Not at blocking
      obtain ⟨same, texts⟩ := mixed (blocking e member f other placed)
      rcases free with ⟨all, every⟩ | fails
      · obtain none | ⟨base, path, steps, -⟩ := steps_cases e.1
        · exact placed none
        · have first := some_order_writes good every member steps
          have second := some_order_writes good every other (same ▸ steps)
          rw [first] at second
          exact texts (Node.text.inj second)
      · obtain ⟨failure, failed⟩ := fails entries (List.Perm.refl _)
        have separated : entries.Pairwise fun e f =>
            stepsOf e.1 ≠ [] → ¬Blocks (stepsOf e.1) (stepsOf f.1) :=
          List.pairwise_of_forall_mem_list fun e member f other => blocking e member f other
        obtain ⟨target, returned⟩ := returns_open good separated fun e _ => not_blocked_empty e.1
        rw [read_eq, returned] at failed
        cases failed
  · rintro ⟨good, clashing | separate⟩
    · refine ⟨fun order same => no_panic (good.perm same) emptyTarget, Or.inr fun order same => ?_⟩
      refine clashing_fails (good.perm same) ?_
      obtain ⟨e, member, f, other, both⟩ := clashing
      exact ⟨e, same.mem_iff.mpr member, f, same.mem_iff.mpr other, both⟩
    · refine ⟨fun order same => no_panic (good.perm same) emptyTarget, Or.inl ?_⟩
      have returns := separate_returns good separate
      obtain ⟨target, returned⟩ := returns entries (List.Perm.refl _)
      refine ⟨target, fun order same => ?_⟩
      rw [read_eq, ← returned]
      exact (foldlM_perm same.symm returns (separate_exchange good separate)).symm

/-! Two forms: a negative index, and a plain key beside a nested one. -/

private def failureOf (order : List (String × String)) : Option Failure :=
  match readStructuredInputs order with
  | .ok _ => none
  | .error e => some e

private theorem failed_of_failureOf {order : List (String × String)} {e : Failure}
    (found : failureOf order = some e) : readStructuredInputs order = .error e := by
  unfold failureOf at found
  split at found
  next => cases found
  next other failed =>
    rw [failed]
    exact congrArg Except.error (Option.some.inj found)

private theorem returned_of_failureOf {order : List (String × String)}
    (found : failureOf order = none) : ∃ target, readStructuredInputs order = .ok target := by
  unfold failureOf at found
  split at found
  next target returned => exact ⟨target, returned⟩
  next => cases found

/-- A negative index panics, and a plain key beside a nested one depends on the order. -/
theorem forms_that_panic_or_depend :
    ¬TotalAndOrderFree [("a[-1]", "x")] ∧ ¬TotalAndOrderFree [("a", "x"), ("a[b]", "y")] := by
  constructor
  · rintro ⟨total, -⟩
    exact total _ (List.Perm.refl _) (failed_of_failureOf (by decide +kernel))
  · rintro ⟨-, free⟩
    have failed : readStructuredInputs [("a", "x"), ("a[b]", "y")] =
        .error (.container "unexpected object container string") :=
      failed_of_failureOf (by decide +kernel)
    obtain ⟨target, returned⟩ := @returned_of_failureOf [("a[b]", "y"), ("a", "x")]
      (by decide +kernel)
    rcases free with ⟨every, all⟩ | fails
    · rw [all _ (List.Perm.refl _)] at failed
      cases failed
    · obtain ⟨e, other⟩ := fails [("a[b]", "y"), ("a", "x")] (List.Perm.swap _ _ _)
      rw [returned] at other
      cases other

end ForestPanel.StructuredForm
