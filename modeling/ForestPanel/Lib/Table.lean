import Mathlib.Data.List.Nodup
import Mathlib.Data.List.Count

/-!
# Tables with a primary key and one unique column

A table is a list of rows no two of which share their primary key or their
unique column. `UPDATE … WHERE` maps the selected rows by a function that keeps
both; `INSERT` fails on a clash. Every lemma speaks about rows or about the row
found under a key, never about positions in the list.
-/
namespace Relational

variable {α κ ν : Type}

structure Table (key : α → κ) (uniq : α → ν) where
  rows : List α
  keyed : (rows.map key).Nodup
  unique : (rows.map uniq).Nodup

/-- Membership in a list of pairs is decided by their equality. -/
instance lawfulBEq_pair : LawfulBEq (Int × Int) := inferInstance

instance lawfulBEq_named : LawfulBEq (Int × String) := inferInstance

/-- An update that leaves the primary key and the unique column alone. -/
abbrev Preserves (key : α → κ) (uniq : α → ν) (f : α → α) : Prop :=
  ∀ a, key (f a) = key a ∧ uniq (f a) = uniq a

namespace Table

variable {key : α → κ} {uniq : α → ν}

@[ext] theorem ext_rows {t u : Table key uniq} (h : t.rows = u.rows) : t = u := by
  cases t
  cases u
  simp_all

instance : Membership α (Table key uniq) := ⟨fun t a => a ∈ t.rows⟩

theorem mem_def (t : Table key uniq) (a : α) : a ∈ t ↔ a ∈ t.rows := Iff.rfl

instance [DecidableEq α] (t : Table key uniq) (a : α) : Decidable (a ∈ t) :=
  inferInstanceAs (Decidable (a ∈ t.rows))

instance (t : Table key uniq) (p : α → Prop) [DecidablePred p] : Decidable (∀ a ∈ t, p a) :=
  inferInstanceAs (Decidable (∀ a ∈ t.rows, p a))

instance (t : Table key uniq) (p : α → Prop) [DecidablePred p] : Decidable (∃ a ∈ t, p a) :=
  inferInstanceAs (Decidable (∃ a ∈ t.rows, p a))

def empty : Table key uniq := ⟨[], List.nodup_nil, List.nodup_nil⟩

theorem eq_of_key (t : Table key uniq) {a b : α} (ha : a ∈ t) (hb : b ∈ t)
    (h : key a = key b) : a = b :=
  List.inj_on_of_nodup_map t.keyed ha hb h

theorem eq_of_uniq (t : Table key uniq) {a b : α} (ha : a ∈ t) (hb : b ∈ t)
    (h : uniq a = uniq b) : a = b :=
  List.inj_on_of_nodup_map t.unique ha hb h

def find? [DecidableEq κ] (t : Table key uniq) (k : κ) : Option α :=
  t.rows.find? fun a => key a = k

def findUniq? [DecidableEq ν] (t : Table key uniq) (v : ν) : Option α :=
  t.rows.find? fun a => uniq a = v

theorem rows_find? (t : Table key uniq) {p : α → Bool} {a : α} (ha : a ∈ t) (holds : p a = true)
    (only : ∀ b ∈ t, p b = true → b = a) : t.rows.find? p = some a := by
  cases found : t.rows.find? p with
  | none => exact absurd holds (List.find?_eq_none.mp found a ha)
  | some b => rw [only b (List.mem_of_find?_eq_some found) (List.find?_some found)]

theorem find?_eq_some [DecidableEq κ] (t : Table key uniq) (k : κ) (a : α) :
    t.find? k = some a ↔ a ∈ t ∧ key a = k := by
  constructor
  · intro h
    exact ⟨List.mem_of_find?_eq_some h, by simpa using List.find?_some h⟩
  · rintro ⟨ha, rfl⟩
    refine t.rows_find? ha (decide_eq_true rfl) fun b hb same => ?_
    exact t.eq_of_key hb ha (of_decide_eq_true same)

theorem findUniq?_eq_some [DecidableEq ν] (t : Table key uniq) (v : ν) (a : α) :
    t.findUniq? v = some a ↔ a ∈ t ∧ uniq a = v := by
  constructor
  · intro h
    exact ⟨List.mem_of_find?_eq_some h, by simpa using List.find?_some h⟩
  · rintro ⟨ha, rfl⟩
    refine t.rows_find? ha (decide_eq_true rfl) fun b hb same => ?_
    exact t.eq_of_uniq hb ha (of_decide_eq_true same)

theorem find?_key [DecidableEq κ] (t : Table key uniq) {a : α} (ha : a ∈ t) :
    t.find? (key a) = some a :=
  (t.find?_eq_some _ _).mpr ⟨ha, rfl⟩

theorem mem_of_find? [DecidableEq κ] {t : Table key uniq} {k : κ} {a : α}
    (h : t.find? k = some a) : a ∈ t :=
  ((t.find?_eq_some _ _).mp h).1

theorem key_of_find? [DecidableEq κ] {t : Table key uniq} {k : κ} {a : α}
    (h : t.find? k = some a) : key a = k :=
  ((t.find?_eq_some _ _).mp h).2

theorem find?_eq_none [DecidableEq κ] (t : Table key uniq) (k : κ) :
    t.find? k = none ↔ ∀ a ∈ t, key a ≠ k := by
  simp [find?, List.find?_eq_none, mem_def]

/-- The order in which the rows are stored does not matter. -/
theorem find?_of_perm [DecidableEq κ] {t u : Table key uniq} (same : t.rows.Perm u.rows) (k : κ) :
    t.find? k = u.find? k := by
  apply Option.ext
  intro a
  rw [Table.find?_eq_some, Table.find?_eq_some, mem_def, mem_def, same.mem_iff]

theorem findUniq?_eq_none [DecidableEq ν] (t : Table key uniq) (v : ν) :
    t.findUniq? v = none ↔ ∀ a ∈ t, uniq a ≠ v := by
  simp [findUniq?, List.find?_eq_none, mem_def]

/-- Counting the rows without one of them. -/
theorem countP_other [DecidableEq κ] (t : Table key uniq) {a : α} (member : a ∈ t) (p : α → Bool) :
    t.rows.countP (fun b => p b && key b ≠ key a) + (if p a = true then 1 else 0) =
      t.rows.countP p := by
  have keyed := t.keyed
  have inside : a ∈ t.rows := member
  clear member
  generalize t.rows = rows at keyed inside
  induction rows with
  | nil => cases inside
  | cons b rows ih =>
    rw [List.map_cons, List.nodup_cons] at keyed
    obtain ⟨fresh, keyed⟩ := keyed
    rcases List.mem_cons.mp inside with rfl | later
    · have others : rows.countP (fun b => p b && key b ≠ key a) = rows.countP p := by
        apply List.countP_congr
        intro b listed
        have different : key b ≠ key a := fun same => fresh (same ▸ List.mem_map_of_mem listed)
        simp [different]
      rw [List.countP_cons_of_neg (by simp), others, List.countP_cons]
    · have different : key b ≠ key a := fun same => fresh (same ▸ List.mem_map_of_mem later)
      have rest := ih keyed later
      simp only [ne_eq] at rest
      simp only [List.countP_cons, Bool.and_eq_true, decide_eq_true_eq, different, ne_eq,
        not_false_eq_true, and_true]
      omega

/-- `UPDATE … SET f WHERE p`. -/
def updateWhere (t : Table key uniq) (p : α → Bool) (f : α → α) (hf : Preserves key uniq f) :
    Table key uniq where
  rows := t.rows.map fun a => if p a then f a else a
  keyed := by
    have same : (key ∘ fun a => if p a then f a else a) = key := by
      funext a
      by_cases h : p a <;> simp [h, (hf a).1]
    simpa [List.map_map, same] using t.keyed
  unique := by
    have same : (uniq ∘ fun a => if p a then f a else a) = uniq := by
      funext a
      by_cases h : p a <;> simp [h, (hf a).2]
    simpa [List.map_map, same] using t.unique

@[simp] theorem rows_updateWhere (t : Table key uniq) (p : α → Bool) (f : α → α)
    (hf : Preserves key uniq f) :
    (t.updateWhere p f hf).rows = t.rows.map fun a => if p a then f a else a := rfl

theorem mem_updateWhere (t : Table key uniq) (p : α → Bool) (f : α → α)
    (hf : Preserves key uniq f) (b : α) :
    b ∈ t.updateWhere p f hf ↔ ∃ a ∈ t, (if p a then f a else a) = b := by
  simp [mem_def]

theorem find?_updateWhere [DecidableEq κ] (t : Table key uniq) (p : α → Bool) (f : α → α)
    (hf : Preserves key uniq f) (k : κ) :
    (t.updateWhere p f hf).find? k = (t.find? k).map fun a => if p a then f a else a := by
  have same : (fun a => decide (key a = k)) ∘ (fun a => if p a then f a else a) =
      fun a => decide (key a = k) := by
    funext a
    by_cases h : p a <;> simp [h, (hf a).1]
  rw [find?, rows_updateWhere, List.find?_map, same]
  rfl

theorem mem_of_rows_map {t u : Table key uniq} {f : α → α} (h : u.rows = t.rows.map f) (b : α) :
    b ∈ u ↔ ∃ a ∈ t, f a = b := by
  rw [mem_def, h, List.mem_map]
  rfl

theorem find?_of_rows_map [DecidableEq κ] {t u : Table key uniq} {f : α → α}
    (h : u.rows = t.rows.map f) (hf : ∀ a, key (f a) = key a) (k : κ) :
    u.find? k = (t.find? k).map f := by
  rw [find?, h, List.find?_map]
  simp [find?, Function.comp_def, hf]

theorem findUniq?_of_rows_map [DecidableEq ν] {t u : Table key uniq} {f : α → α}
    (h : u.rows = t.rows.map f) (hf : ∀ a, uniq (f a) = uniq a) (v : ν) :
    u.findUniq? v = (t.findUniq? v).map f := by
  rw [findUniq?, h, List.find?_map]
  simp [findUniq?, Function.comp_def, hf]

/-- `INSERT`: fails when the key or the unique column is taken. -/
def insert? [DecidableEq κ] [DecidableEq ν] (t : Table key uniq) (a : α) :
    Option (Table key uniq) :=
  if h : (∀ b ∈ t.rows, key b ≠ key a) ∧ ∀ b ∈ t.rows, uniq b ≠ uniq a then
    some
      { rows := t.rows ++ [a]
        keyed := by
          rw [List.map_append, List.nodup_append]
          refine ⟨t.keyed, by simp, ?_⟩
          intro x hx y hy
          obtain ⟨b, hb, rfl⟩ := List.mem_map.mp hx
          rw [List.map_singleton, List.mem_singleton] at hy
          exact hy ▸ h.1 b hb
        unique := by
          rw [List.map_append, List.nodup_append]
          refine ⟨t.unique, by simp, ?_⟩
          intro x hx y hy
          obtain ⟨b, hb, rfl⟩ := List.mem_map.mp hx
          rw [List.map_singleton, List.mem_singleton] at hy
          exact hy ▸ h.2 b hb }
  else none

theorem insert?_eq_some [DecidableEq κ] [DecidableEq ν] (t u : Table key uniq) (a : α) :
    t.insert? a = some u ↔
      u.rows = t.rows ++ [a] ∧ (∀ b ∈ t, key b ≠ key a) ∧ ∀ b ∈ t, uniq b ≠ uniq a := by
  unfold insert?
  split
  next free =>
    constructor
    · intro h
      obtain rfl := Option.some.inj h
      exact ⟨rfl, free⟩
    · rintro ⟨same, -⟩
      exact congrArg some (ext_rows same.symm)
  next clash =>
    simp only [reduceCtorEq, false_iff]
    exact fun h => clash h.2

theorem mem_of_insert? [DecidableEq κ] [DecidableEq ν] {t u : Table key uniq} {a : α}
    (inserted : t.insert? a = some u) (b : α) : b ∈ u ↔ b ∈ t ∨ b = a := by
  obtain ⟨rows, -, -⟩ := (t.insert?_eq_some u a).mp inserted
  rw [mem_def, rows, List.mem_append, List.mem_singleton]
  rfl

theorem find?_insert? [DecidableEq κ] [DecidableEq ν] {t u : Table key uniq} {a : α} {k : κ}
    (inserted : t.insert? a = some u) (other : key a ≠ k) : u.find? k = t.find? k := by
  obtain ⟨rows, -, -⟩ := (t.insert?_eq_some u a).mp inserted
  simp [find?, rows, other]

/-- `INSERT … SELECT`: fails when one of the rows clashes. -/
def insertAll? [DecidableEq κ] [DecidableEq ν] (t : Table key uniq) (as : List α) :
    Option (Table key uniq) :=
  as.foldlM insert? t

theorem rows_of_insertAll? [DecidableEq κ] [DecidableEq ν] {t u : Table key uniq} {as : List α}
    (inserted : t.insertAll? as = some u) : u.rows = t.rows ++ as := by
  induction as generalizing t with
  | nil =>
    obtain rfl := Option.some.inj inserted
    exact (List.append_nil _).symm
  | cons a as ih =>
    rw [insertAll?, List.foldlM_cons] at inserted
    obtain ⟨v, first, rest⟩ := Option.bind_eq_some_iff.mp inserted
    obtain ⟨rows, -, -⟩ := (t.insert?_eq_some v a).mp first
    rw [ih rest, rows, List.append_assoc]
    rfl

theorem mem_of_insertAll? [DecidableEq κ] [DecidableEq ν] {t u : Table key uniq} {as : List α}
    (inserted : t.insertAll? as = some u) (b : α) : b ∈ u ↔ b ∈ t ∨ b ∈ as := by
  rw [mem_def, rows_of_insertAll? inserted, List.mem_append]
  rfl

/-- `UPDATE … SET f WHERE p` where `f` may write a key: fails on a clash. -/
def updateUnique? [DecidableEq κ] [DecidableEq ν] (t : Table key uniq) (p : α → Bool)
    (f : α → α) : Option (Table key uniq) :=
  let rows := t.rows.map fun a => if p a then f a else a
  if h : (rows.map key).Nodup ∧ (rows.map uniq).Nodup then some ⟨rows, h.1, h.2⟩ else none

theorem rows_of_updateUnique? [DecidableEq κ] [DecidableEq ν] {t u : Table key uniq} {p : α → Bool}
    {f : α → α} (updated : t.updateUnique? p f = some u) :
    u.rows = t.rows.map fun a => if p a then f a else a := by
  unfold updateUnique? at updated
  dsimp only at updated
  split at updated
  · obtain rfl := Option.some.inj updated
    rfl
  · cases updated

theorem updateUnique?_of_single [DecidableEq κ] [DecidableEq ν] {t : Table key uniq} {p : α → Bool}
    {f : α → α} {a : α} (member : a ∈ t) (single : ∀ b ∈ t, p b = true → b = a)
    (sameKey : key (f a) = key a) (free : ∀ b ∈ t, b ≠ a → uniq b ≠ uniq (f a)) :
    ∃ u, t.updateUnique? p f = some u := by
  have rowsNodup : t.rows.Nodup := List.Nodup.of_map key t.keyed
  have keys : (t.rows.map fun b => if p b then f b else b).map key = t.rows.map key := by
    rw [List.map_map]
    apply List.map_congr_left
    intro b listed
    rw [Function.comp_apply]
    split
    next chosen =>
      rw [single b listed chosen]
      exact sameKey
    next => rfl
  have values : ((t.rows.map fun b => if p b then f b else b).map uniq).Nodup := by
    rw [List.map_map]
    apply rowsNodup.map_on
    intro b listed c listed' same
    simp only [Function.comp_apply] at same
    split at same
    next chosen =>
      obtain rfl := single b listed chosen
      split at same
      next chosen' => exact (single c listed' chosen').symm
      next =>
        by_contra different
        exact free c listed' (Ne.symm different) same.symm
    next =>
      split at same
      next chosen' =>
        obtain rfl := single c listed' chosen'
        by_contra different
        exact free b listed different same
      next => exact t.eq_of_uniq listed listed' same
  exact ⟨_, dif_pos ⟨keys ▸ t.keyed, values⟩⟩

/-- `DELETE … WHERE p`. -/
def deleteWhere (t : Table key uniq) (p : α → Bool) : Table key uniq where
  rows := t.rows.filter fun a => !p a
  keyed := t.keyed.sublist (List.Sublist.map _ List.filter_sublist)
  unique := t.unique.sublist (List.Sublist.map _ List.filter_sublist)

theorem mem_deleteWhere (t : Table key uniq) (p : α → Bool) (a : α) :
    a ∈ t.deleteWhere p ↔ a ∈ t ∧ p a = false := by
  simp [mem_def, deleteWhere]

/-- A deletion of other rows is not seen under a key. -/
theorem find?_deleteWhere [DecidableEq κ] (t : Table key uniq) (p : α → Bool) (k : κ)
    (other : ∀ a ∈ t, key a = k → p a = false) : (t.deleteWhere p).find? k = t.find? k := by
  cases found : t.find? k with
  | some a =>
    obtain ⟨member, same⟩ := (t.find?_eq_some k a).mp found
    exact (find?_eq_some ..).mpr ⟨(mem_deleteWhere ..).mpr ⟨member, other a member same⟩, same⟩
  | none =>
    rw [find?_eq_none] at found ⊢
    exact fun a member => found a ((mem_deleteWhere ..).mp member).1

/-- `INSERT … ON CONFLICT (key) DO UPDATE`, where the key is the only unique column. -/
def upsert [DecidableEq κ] (t : Table key key) (a : α) : Table key key where
  rows := (t.deleteWhere fun b => key b = key a).rows ++ [a]
  keyed := by
    rw [List.map_append, List.nodup_append]
    refine ⟨(t.deleteWhere _).keyed, by simp, ?_⟩
    intro x hx y hy
    obtain ⟨b, hb, rfl⟩ := List.mem_map.mp hx
    rw [List.map_singleton, List.mem_singleton] at hy
    have other := ((t.mem_deleteWhere _ b).mp hb).2
    exact hy ▸ of_decide_eq_false other
  unique := by
    rw [List.map_append, List.nodup_append]
    refine ⟨(t.deleteWhere _).keyed, by simp, ?_⟩
    intro x hx y hy
    obtain ⟨b, hb, rfl⟩ := List.mem_map.mp hx
    rw [List.map_singleton, List.mem_singleton] at hy
    have other := ((t.mem_deleteWhere _ b).mp hb).2
    exact hy ▸ of_decide_eq_false other

theorem mem_upsert [DecidableEq κ] (t : Table key key) (a b : α) :
    b ∈ t.upsert a ↔ b = a ∨ b ∈ t ∧ key b ≠ key a := by
  rw [mem_def, upsert, List.mem_append, List.mem_singleton, ← mem_def, mem_deleteWhere,
    decide_eq_false_iff_not]
  exact or_comm

theorem find?_upsert [DecidableEq κ] (t : Table key key) (a : α) (k : κ) :
    (t.upsert a).find? k = if key a = k then some a else t.find? k := by
  apply Option.ext
  intro b
  rw [find?_eq_some, mem_upsert]
  split
  next same =>
    constructor
    · rintro ⟨rfl | ⟨-, other⟩, named⟩
      · rfl
      · exact absurd (named.trans same.symm) other
    · intro found
      obtain rfl := Option.some.inj found
      exact ⟨.inl rfl, same⟩
  next other =>
    rw [find?_eq_some]
    constructor
    · rintro ⟨rfl | ⟨member, -⟩, named⟩
      · exact absurd named other
      · exact ⟨member, named⟩
    · rintro ⟨member, named⟩
      exact ⟨.inr ⟨member, fun same => other (same.symm.trans named)⟩, named⟩

/-- The table of projected rows, under the primary key alone. -/
def project {β : Type} {key' : β → κ} (t : Table key uniq) (g : α → β)
    (hk : ∀ a, key' (g a) = key a) : Table key' key' where
  rows := t.rows.map g
  keyed := by simpa [List.map_map, Function.comp_def, hk] using t.keyed
  unique := by simpa [List.map_map, Function.comp_def, hk] using t.keyed

@[simp] theorem rows_project {β : Type} {key' : β → κ} (t : Table key uniq) (g : α → β)
    (hk : ∀ a, key' (g a) = key a) : (t.project g hk : Table key' key').rows = t.rows.map g := rfl

theorem mem_project {β : Type} {key' : β → κ} (t : Table key uniq) (g : α → β)
    (hk : ∀ a, key' (g a) = key a) (b : β) :
    b ∈ (t.project g hk : Table key' key') ↔ ∃ a ∈ t, g a = b := by
  simp [mem_def]

end Table

end Relational
