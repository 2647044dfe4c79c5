import ForestPanel.Lib.Outcome
import ForestPanel.StructuredForm.Merge

/-!
# Places in the tree

One step of an assignment goes to a child and puts back what came of it. A place is blocked when the
way to it meets a text, or a container of the other kind; what is blocked stays so. A path blocks
another when an assignment at the first blocks the second: it ends on the way to it, or needs
another container there.
-/
namespace ForestPanel.StructuredForm

open Outcome

def maxInt : Int := 9223372036854775807

/-- An index that is inside every list that is padded for it. -/
def Step.Good : Step → Prop
  | .index idx => 0 ≤ idx ∧ idx < maxInt
  | .key _ => True

def Node.child : Node → Step → Node
  | .list items, .index idx => items.getD idx.toNat .null
  | .object fields, .key name => fields name
  | _, _ => .null

/-- No step leads into a text or into a container of the other kind. -/
def Node.refuses : Node → Step → Bool
  | .null, _ => false
  | .text _, _ => true
  | .list _, s => !s.isIndex
  | .object _, s => s.isIndex

def Node.put : Node → Step → Node → Node
  | .null, .index idx, c => .list ((pad idx []).set idx.toNat c)
  | .list items, .index idx, c => .list ((pad idx items).set idx.toNat c)
  | .null, .key name, c => .object (Function.update (fun _ => .null) name c)
  | .object fields, .key name, c => .object (Function.update fields name c)
  | node, _, _ => node

def Blocked : Node → List Step → Prop
  | _, [] => False
  | node, s :: path => node.refuses s = true ∨ Blocked (node.child s) path

def Blocks : List Step → List Step → Prop
  | _, [] => False
  | [], _ :: _ => True
  | s :: p, t :: q => s.isIndex ≠ t.isIndex ∨ (s = t ∧ Blocks p q)

section

variable {node n c : Node} {s t : Step} {path p q : List Step} {value : String}

theorem getD_pad (idx : Int) (items : List Node) (i : Nat) :
    (pad idx items).getD i .null = items.getD i .null := by
  rw [pad, List.getD_eq_getElem?_getD, List.getD_eq_getElem?_getD, List.getElem?_append]
  split
  next => rfl
  next outside =>
    rw [List.getElem?_eq_none (Nat.le_of_not_lt outside), List.getElem?_replicate]
    split
    next => rfl
    next => rfl

theorem length_pad (idx : Int) (items : List Node) :
    (pad idx items).length = max items.length (idx + 1).toNat := by
  rw [pad, List.length_append, List.length_replicate]
  omega

theorem pad_set {idx : Int} {items : List Node} {i : Nat} (inside : i < items.length) :
    pad idx (items.set i c) = (pad idx items).set i c := by
  rw [pad, pad, List.length_set, List.set_append_left i c inside]

theorem pad_comm (idx idx' : Int) (items : List Node) :
    pad idx' (pad idx items) = pad idx (pad idx' items) := by
  have whole : ∀ a b : Int, pad b (pad a items) =
      items ++ List.replicate (max (a + 1).toNat (b + 1).toNat - items.length) .null := by
    intro a b
    rw [pad, length_pad, pad, List.append_assoc, ← List.replicate_add]
    congr 2
    omega
  rw [whole, whole, Nat.max_comm]

theorem child_null (s : Step) : Node.null.child s = .null := by
  cases s with
  | index idx => rfl
  | key name => rfl

theorem child_put (good : s.Good) (open_ : node.refuses s = false) : (node.put s c).child s = c := by
  cases s with
  | key name =>
    cases node with
    | null => exact Function.update_self name c (fun _ : String => Node.null)
    | object fields => exact Function.update_self name c fields
    | text value => cases open_
    | list items => cases open_
  | index idx =>
    have low : 0 ≤ idx := good.1
    have put : ∀ items : List Node, ((pad idx items).set idx.toNat c).getD idx.toNat .null = c := by
      intro items
      have inside : idx.toNat < (pad idx items).length := by
        rw [length_pad]
        omega
      rw [List.getD_eq_getElem?_getD, List.getElem?_set_self inside, Option.getD_some]
    cases node with
    | null => exact put []
    | list items => exact put items
    | text value => cases open_
    | object fields => cases open_

theorem child_put_other (good : s.Good) (good' : t.Good) (other : s ≠ t)
    (open_ : node.refuses s = false) (kind : s.isIndex = t.isIndex) :
    (node.put s c).child t = node.child t := by
  cases s with
  | key name =>
    cases t with
    | index idx => cases kind
    | key name' =>
      have different : name' ≠ name := fun same => other (congrArg Step.key same.symm)
      cases node with
      | null => exact Function.update_of_ne different c (fun _ : String => Node.null)
      | object fields => exact Function.update_of_ne different c fields
      | text value => cases open_
      | list items => cases open_
  | index idx =>
    cases t with
    | key name => cases kind
    | index idx' =>
      have low : 0 ≤ idx := good.1
      have low' : 0 ≤ idx' := good'.1
      have different : idx.toNat ≠ idx'.toNat := by
        intro same
        exact other (congrArg Step.index (by omega))
      have kept : ∀ items : List Node,
          ((pad idx items).set idx.toNat c).getD idx'.toNat .null = items.getD idx'.toNat .null := by
        intro items
        rw [← getD_pad idx items, List.getD_eq_getElem?_getD, List.getElem?_set_ne different,
          List.getD_eq_getElem?_getD]
      cases node with
      | null => exact kept []
      | list items => exact kept items
      | text value => cases open_
      | object fields => cases open_

theorem refuses_put (open_ : node.refuses s = false) (t : Step) :
    (node.put s c).refuses t = true ↔ s.isIndex ≠ t.isIndex := by
  cases s with
  | key name =>
    cases node with
    | null => cases t <;> simp [Node.put, Node.refuses, Step.isIndex]
    | object fields => cases t <;> simp [Node.put, Node.refuses, Step.isIndex]
    | text value => cases open_
    | list items => cases open_
  | index idx =>
    cases node with
    | null => cases t <;> simp [Node.put, Node.refuses, Step.isIndex]
    | list items => cases t <;> simp [Node.put, Node.refuses, Step.isIndex]
    | text value => cases open_
    | object fields => cases open_

theorem kind_of_refuses (open_ : node.refuses s = false) (refuses : node.refuses t = true) :
    s.isIndex ≠ t.isIndex := by
  intro kind
  cases node with
  | null => cases refuses
  | text value => cases open_
  | list items => simp_all [Node.refuses]
  | object fields => simp_all [Node.refuses]

theorem put_put (open_ : node.refuses s = false) (c d : Node) :
    (node.put s c).put s d = node.put s d := by
  cases s with
  | key name =>
    cases node with
    | null => exact congrArg Node.object (Function.update_idem c d (fun _ : String => Node.null))
    | object fields => exact congrArg Node.object (Function.update_idem c d fields)
    | text value => cases open_
    | list items => cases open_
  | index idx =>
    have again : ∀ items : List Node,
        (pad idx ((pad idx items).set idx.toNat c)).set idx.toNat d =
          (pad idx items).set idx.toNat d := by
      intro items
      have long : (idx + 1).toNat - ((pad idx items).set idx.toNat c).length = 0 := by
        rw [List.length_set, length_pad]
        omega
      rw [pad, long, List.replicate_zero, List.append_nil, List.set_set]
    cases node with
    | null => exact congrArg Node.list (again [])
    | list items => exact congrArg Node.list (again items)
    | text value => cases open_
    | object fields => cases open_

theorem put_comm (good : s.Good) (good' : t.Good) (other : s ≠ t)
    (open_ : node.refuses s = false) (kind : s.isIndex = t.isIndex) (c d : Node) :
    (node.put s c).put t d = (node.put t d).put s c := by
  cases s with
  | key name =>
    cases t with
    | index idx => cases kind
    | key name' =>
      have different : name ≠ name' := fun same => other (congrArg Step.key same)
      cases node with
      | null => exact congrArg Node.object (Function.update_comm different c d (fun _ : String => Node.null))
      | object fields => exact congrArg Node.object (Function.update_comm different c d fields)
      | text value => cases open_
      | list items => cases open_
  | index idx =>
    cases t with
    | key name => cases kind
    | index idx' =>
      have low : 0 ≤ idx := good.1
      have low' : 0 ≤ idx' := good'.1
      have different : idx.toNat ≠ idx'.toNat := by
        intro same
        exact other (congrArg Step.index (by omega))
      have swap : ∀ items : List Node,
          (pad idx' ((pad idx items).set idx.toNat c)).set idx'.toNat d =
            (pad idx ((pad idx' items).set idx'.toNat d)).set idx.toNat c := by
        intro items
        have inside : idx.toNat < (pad idx items).length := by
          rw [length_pad]
          omega
        have inside' : idx'.toNat < (pad idx' items).length := by
          rw [length_pad]
          omega
        rw [pad_set inside, pad_set inside', pad_comm]
        exact List.set_comm c d different
      cases node with
      | null => exact congrArg Node.list (swap [])
      | list items => exact congrArg Node.list (swap items)
      | text value => cases open_
      | object fields => cases open_

theorem assign_cons (path : List Step) (value : String) (good : s.Good) :
    if node.refuses s = true then
      ∃ e, e ≠ Failure.panic ∧ assignStructuredValue node (s :: path) value = .error e
    else assignStructuredValue node (s :: path) value =
      (assignStructuredValue (node.child s) path value).map (node.put s) := by
  cases s with
  | key name =>
    cases node with
    | null => rfl
    | object fields => rfl
    | text value => exact ⟨_, by rintro ⟨⟩, rfl⟩
    | list items => exact ⟨_, by rintro ⟨⟩, rfl⟩
  | index idx =>
    obtain ⟨low, high⟩ := good
    have going : ¬idx < 0 := Int.not_lt.mpr low
    cases node with
    | text value => exact ⟨_, by rintro ⟨⟩, rfl⟩
    | object fields => exact ⟨_, by rintro ⟨⟩, rfl⟩
    | list items =>
      change assignStructuredValue (.list items) (.index idx :: path) value = _
      rw [assignStructuredValue, listFor, bind_ok]
      dsimp only
      rw [if_neg going, getD_pad]
      rfl
    | null =>
      change assignStructuredValue .null (.index idx :: path) value = _
      rw [maxInt] at high
      have fits : wrapInt (idx + 1) = idx + 1 := by
        rw [wrapInt]
        exact Int.bmod_eq_of_le (by omega) (by omega)
      have made : pad idx (List.replicate (idx + 1).toNat Node.null) = pad idx [] := by
        simp [pad]
      have length : 0 ≤ idx + 1 := by omega
      rw [assignStructuredValue, listFor, fits, if_pos length, bind_ok]
      dsimp only
      rw [if_neg going, made, getD_pad]
      rfl

theorem assign_refused (path : List Step) (value : String) (good : s.Good) (refuses : node.refuses s = true) :
    ∃ e, e ≠ Failure.panic ∧ assignStructuredValue node (s :: path) value = .error e := by
  have step := @assign_cons node s path value good
  rwa [if_pos refuses] at step

theorem assign_step (good : s.Good) (open_ : node.refuses s = false) :
    assignStructuredValue node (s :: path) value =
      (assignStructuredValue (node.child s) path value).map (node.put s) := by
  have step := @assign_cons node s path value good
  rwa [if_neg (by rw [open_]; decide)] at step

theorem assign_inv (good : s.Good)
    (returned : assignStructuredValue node (s :: path) value = .ok n) :
    node.refuses s = false ∧ ∃ c, assignStructuredValue (node.child s) path value = .ok c ∧
      n = node.put s c := by
  cases refuses : node.refuses s with
  | true =>
    obtain ⟨e, -, refused⟩ := assign_refused path value good refuses
    rw [refused] at returned
    cases returned
  | false =>
    rw [assign_step good refuses] at returned
    cases child : assignStructuredValue (node.child s) path value with
    | error e =>
      rw [child] at returned
      cases returned
    | ok c =>
      rw [child] at returned
      exact ⟨rfl, c, rfl, (Except.ok.inj returned).symm⟩

theorem not_blocked_null : ¬Blocked .null path := by
  induction path with
  | nil => exact id
  | cons s path ih =>
    rintro (refuses | blocked)
    · cases refuses
    · rw [child_null] at blocked
      exact ih blocked

variable (value) in
theorem assign_of_blocked (good : ∀ s ∈ path, s.Good) (blocked : Blocked node path) :
    ∃ e, e ≠ Failure.panic ∧ assignStructuredValue node path value = .error e := by
  induction path generalizing node with
  | nil => cases blocked
  | cons s path ih =>
    have first := good s List.mem_cons_self
    cases refuses : node.refuses s with
    | true => exact assign_refused path value first refuses
    | false =>
      rcases blocked with refused | blocked
      · rw [refuses] at refused
        cases refused
      · obtain ⟨e, other, failed⟩ := ih (fun t member => good t (List.mem_cons_of_mem _ member)) blocked
        refine ⟨e, other, ?_⟩
        rw [assign_step first refuses, failed]
        rfl

variable (value) in
theorem assign_of_open (good : ∀ s ∈ path, s.Good) (open_ : ¬Blocked node path) :
    ∃ n, assignStructuredValue node path value = .ok n := by
  induction path generalizing node with
  | nil => exact ⟨_, rfl⟩
  | cons s path ih =>
    have first := good s List.mem_cons_self
    cases refuses : node.refuses s with
    | true => exact absurd (Or.inl refuses) open_
    | false =>
      obtain ⟨c, returned⟩ := ih (fun t member => good t (List.mem_cons_of_mem _ member))
        fun blocked => open_ (Or.inr blocked)
      refine ⟨node.put s c, ?_⟩
      rw [assign_step first refuses, returned]
      rfl

theorem blocked_assign (goodP : ∀ s ∈ p, s.Good) (goodQ : ∀ s ∈ q, s.Good)
    (returned : assignStructuredValue node p value = .ok n) (blocked : Blocked node q) :
    Blocked n q := by
  induction p generalizing node n q with
  | nil =>
    obtain rfl := Except.ok.inj returned
    cases q with
    | nil => cases blocked
    | cons t q => exact Or.inl rfl
  | cons s p ih =>
    have first := goodP s List.mem_cons_self
    obtain ⟨open_, c, child, rfl⟩ := assign_inv first returned
    cases q with
    | nil => cases blocked
    | cons t q =>
      by_cases kind : s.isIndex = t.isIndex
      · rcases blocked with refuses | blocked
        · exact absurd kind (kind_of_refuses open_ refuses)
        · refine Or.inr ?_
          by_cases same : s = t
          · subst same
            rw [child_put first open_]
            exact ih (fun u member => goodP u (List.mem_cons_of_mem _ member))
              (fun u member => goodQ u (List.mem_cons_of_mem _ member)) child blocked
          · rw [child_put_other first (goodQ t List.mem_cons_self) same open_ kind]
            exact blocked
      · exact Or.inl ((refuses_put open_ t).mpr kind)

theorem blocked_of_blocks (good : ∀ s ∈ p, s.Good) (blocks : Blocks p q)
    (returned : assignStructuredValue node p value = .ok n) : Blocked n q := by
  induction p generalizing node n q with
  | nil =>
    obtain rfl := Except.ok.inj returned
    cases q with
    | nil => cases blocks
    | cons t q => exact Or.inl rfl
  | cons s p ih =>
    have first := good s List.mem_cons_self
    obtain ⟨open_, c, child, rfl⟩ := assign_inv first returned
    cases q with
    | nil => cases blocks
    | cons t q =>
      rcases blocks with kind | ⟨rfl, blocks⟩
      · exact Or.inl ((refuses_put open_ t).mpr kind)
      · refine Or.inr ?_
        rw [child_put first open_]
        exact ih (fun u member => good u (List.mem_cons_of_mem _ member)) blocks child

theorem open_assign (goodP : ∀ s ∈ p, s.Good) (goodQ : ∀ s ∈ q, s.Good) (apart : ¬Blocks p q)
    (returned : assignStructuredValue node p value = .ok n) (open_ : ¬Blocked node q) :
    ¬Blocked n q := by
  induction p generalizing node n q with
  | nil =>
    cases q with
    | nil => exact id
    | cons t q => exact absurd trivial apart
  | cons s p ih =>
    have first := goodP s List.mem_cons_self
    obtain ⟨accepts, c, child, rfl⟩ := assign_inv first returned
    cases q with
    | nil => exact id
    | cons t q =>
      have kind : s.isIndex = t.isIndex := by
        by_contra kind
        exact apart (Or.inl kind)
      rintro (refuses | blocked)
      · exact (refuses_put accepts t).mp refuses kind
      · by_cases same : s = t
        · subst same
          rw [child_put first accepts] at blocked
          exact ih (fun u member => goodP u (List.mem_cons_of_mem _ member))
            (fun u member => goodQ u (List.mem_cons_of_mem _ member))
            (fun blocks => apart (Or.inr ⟨rfl, blocks⟩)) child (fun b => open_ (Or.inr b)) blocked
        · rw [child_put_other first (goodQ t List.mem_cons_self) same accepts kind] at blocked
          exact open_ (Or.inr blocked)

end

end ForestPanel.StructuredForm
