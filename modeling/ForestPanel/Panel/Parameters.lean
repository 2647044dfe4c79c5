import ForestPanel.Lib.JsonRound
import ForestPanel.Panel.Inputs
import Mathlib.Data.List.Perm.Basic

/-!
# What a handler reads of the approved parameters

Every field of the form stands for a leaf of the parameters. A leaf inside a map or a
slice is written over by the text of its field, so that the parameters arrive as they
were approved exactly when these texts are the leaves themselves, and no key of a nested
map is a number.
-/
namespace ForestPanel

namespace Panel

open Json (Value)

inductive Step
  | key (name : List Char)
  | index (i : Nat)
deriving Repr, DecidableEq

def Step.text : Step → List Char
  | .key name => name
  | .index i => Decimal.format i

structure Leaf where
  path : List Step
  value : Value
deriving DecidableEq

def Leaf.below (step : Step) (leaf : Leaf) : Leaf := ⟨step :: leaf.path, leaf.value⟩

mutual

/-- The values that are neither maps nor slices, in the order of the form. -/
def leaves : Value → List Leaf
  | .obj members => leavesOfMembers members
  | .arr elements => leavesOfElements 0 elements
  | .null => [⟨[], .null⟩]
  | .bool b => [⟨[], .bool b⟩]
  | .num literal => [⟨[], .num literal⟩]
  | .str s => [⟨[], .str s⟩]

def leavesOfMembers : Members → List Leaf
  | [] => []
  | (name, v) :: rest => (leaves v).map (Leaf.below (.key name)) ++ leavesOfMembers rest

def leavesOfElements (index : Nat) : List Value → List Leaf
  | [] => []
  | v :: rest => (leaves v).map (Leaf.below (.index index)) ++ leavesOfElements (index + 1) rest

end

/-- A key that `strconv.Atoi` takes for an index. -/
def numeric (name : List Char) : Bool := (Decimal.parse name).isSome

/-- The leaf is not written over by anything else than itself. -/
structure Leaf.Kept (leaf : Leaf) : Prop where
  text : leaf.value = .str (trim (sprint leaf.value))
  keys : ∀ name, Step.key name ∈ leaf.path → numeric name = false

/-- Inside maps and slices there are only trimmed strings, and no key on the way to one
of them is a number. -/
def Kept (params : Members) : Prop :=
  ∀ m ∈ params, ∀ leaf ∈ leaves m.2, leaf.path ≠ [] → leaf.Kept

/-! ## The form and the leaves -/

def brackets : List Step → List Char
  | [] => []
  | step :: rest => '[' :: (step.text ++ ']' :: brackets rest)

def Leaf.field (key : List Char) (leaf : Leaf) : List Char × List Char :=
  (key ++ brackets leaf.path, sprint leaf.value)

/-- A name that a form field can carry. -/
def Step.Named : Step → Prop
  | .key name => name ≠ [] ∧ name.any reserved = false
  | .index _ => True

variable {key name value : List Char} {params members : Members} {path : List Step}
  {v child : Value} {leaf : Leaf} {i limit : Nat} {rest : List (List Char)}

private theorem field_below_key (nonempty : key ≠ []) (leaf : Leaf) :
    leaf.field (fieldName key name) = (leaf.below (.key name)).field key := by
  simp [Leaf.field, Leaf.below, brackets, fieldName, nonempty, Step.text]

private theorem field_below_index (key : List Char) (index : Nat) (leaf : Leaf) :
    leaf.field (key ++ '[' :: (Decimal.format index ++ [']'])) =
      (leaf.below (.index index)).field key := by
  simp [Leaf.field, Leaf.below, brackets, Step.text]

private structure Fields (key : List Char) (form : Form) (found : List Leaf) : Prop where
  form : form = found.map (Leaf.field key)
  named : ∀ leaf ∈ found, ∀ step ∈ leaf.path, step.Named

private theorem fields_single (key : List Char) (v : Value) :
    Fields key [(key, sprint v)] [⟨[], v⟩] := by
  constructor
  · simp [Leaf.field, brackets]
  · simp

private theorem fields_append {first later : Form} {found rest : List Leaf}
    (a : Fields key first found) (b : Fields key later rest) :
    Fields key (first ++ later) (found ++ rest) := by
  constructor
  · rw [a.form, b.form, List.map_append]
  · intro leaf member
    rcases List.mem_append.mp member with member | member
    · exact a.named leaf member
    · exact b.named leaf member

private theorem fields_below {inner : List Char} {form : Form} {found : List Leaf} {step : Step}
    (named : step.Named) (a : Fields inner form found)
    (field : ∀ leaf : Leaf, leaf.field inner = (leaf.below step).field key) :
    Fields key form (found.map (Leaf.below step)) := by
  constructor
  · rw [a.form, List.map_map]
    exact List.map_congr_left fun leaf _ => field leaf
  · intro leaf member next listed
    obtain ⟨own, known, rfl⟩ := List.mem_map.mp member
    rcases List.mem_cons.mp listed with rfl | listed
    · exact named
    · exact a.named own known next listed

mutual

private theorem flatten_leaves : ∀ (v : Value) (key : List Char) (depth : Nat) (form : Form),
    key ≠ [] → panelFlattenParams key depth v = some form → Fields key form (leaves v)
  | .null, key, depth, form, _, flat => by
    rw [panelFlattenParams] at flat
    split at flat
    · cases flat
    · cases flat
      exact fields_single key .null
  | .bool b, key, depth, form, _, flat => by
    rw [panelFlattenParams] at flat
    split at flat
    · cases flat
    · cases flat
      exact fields_single key (.bool b)
  | .num literal, key, depth, form, _, flat => by
    rw [panelFlattenParams] at flat
    split at flat
    · cases flat
    · cases flat
      exact fields_single key (.num literal)
  | .str s, key, depth, form, _, flat => by
    rw [panelFlattenParams] at flat
    split at flat
    · cases flat
    · cases flat
      exact fields_single key (.str s)
  | .arr elements, key, depth, form, nonempty, flat => by
    rw [panelFlattenParams] at flat
    split at flat
    · cases flat
    · exact flattenElements_leaves elements key depth 0 form nonempty flat
  | .obj members, key, depth, form, nonempty, flat => by
    rw [panelFlattenParams] at flat
    split at flat
    · cases flat
    · exact flattenMembers_leaves members key depth form nonempty flat

private theorem flattenMembers_leaves : ∀ (members : Members) (key : List Char) (depth : Nat)
    (form : Form), key ≠ [] → flattenMembers key depth members = some form →
    Fields key form (leavesOfMembers members)
  | [], key, depth, form, _, flat => by
    cases flat
    exact ⟨rfl, by simp [leavesOfMembers]⟩
  | (name, item) :: rest, key, depth, form, nonempty, flat => by
    rw [flattenMembers] at flat
    split at flat
    next => cases flat
    next valid =>
      obtain ⟨visible, plain⟩ := not_or.mp valid
      simp only [Option.bind_eq_bind, Option.bind_eq_some_iff] at flat
      obtain ⟨first, inner, later, outer, same⟩ := flat
      cases same
      have named : fieldName key name ≠ [] := by simp [fieldName, nonempty]
      exact fields_append
        (fields_below ⟨visible, by simpa using plain⟩
          (flatten_leaves item (fieldName key name) (depth + 1) first named inner)
          (field_below_key nonempty))
        (flattenMembers_leaves rest key depth later nonempty outer)

private theorem flattenElements_leaves : ∀ (elements : List Value) (key : List Char)
    (depth index : Nat) (form : Form), key ≠ [] →
    flattenElements key depth index elements = some form →
    Fields key form (leavesOfElements index elements)
  | [], key, depth, index, form, _, flat => by
    cases flat
    exact ⟨rfl, by simp [leavesOfElements]⟩
  | item :: rest, key, depth, index, form, nonempty, flat => by
    rw [flattenElements] at flat
    simp only [Option.bind_eq_bind, Option.bind_eq_some_iff] at flat
    obtain ⟨first, inner, later, outer, same⟩ := flat
    cases same
    exact fields_append
      (fields_below trivial
        (flatten_leaves item _ (depth + 1) first (by simp) inner)
        (field_below_index key index))
      (flattenElements_leaves rest key depth (index + 1) later nonempty outer)

end

structure Entry where
  name : List Char
  leaf : Leaf
deriving DecidableEq

def Entry.field (entry : Entry) : List Char × List Char := entry.leaf.field entry.name

def entries (params : Members) : List Entry :=
  params.flatMap fun m => (leaves m.2).map (Entry.mk m.1)

variable {entry : Entry}

theorem mem_entries :
    entry ∈ entries params ↔ ∃ v, (entry.name, v) ∈ params ∧ entry.leaf ∈ leaves v := by
  simp only [entries, List.mem_flatMap, List.mem_map]
  constructor
  · rintro ⟨m, member, leaf, listed, rfl⟩
    exact ⟨m.2, member, listed⟩
  · rintro ⟨v, member, listed⟩
    exact ⟨(entry.name, v), member, entry.leaf, listed, rfl⟩

theorem flatten_entries {form : Form} (flat : panelFlattenParams [] 0 (.obj params) = some form) :
    form = (entries params).map Entry.field ∧
      ∀ entry ∈ entries params, entry.name ≠ [] ∧ entry.name.any reserved = false ∧
        ∀ step ∈ entry.leaf.path, step.Named := by
  rw [panelFlattenParams, if_neg (by decide)] at flat
  induction params generalizing form with
  | nil =>
    cases flat
    exact ⟨rfl, by simp [entries]⟩
  | cons m rest ih =>
    obtain ⟨name, item⟩ := m
    rw [flattenMembers] at flat
    split at flat
    next => cases flat
    next valid =>
      obtain ⟨visible, plain⟩ := not_or.mp valid
      simp only [Option.bind_eq_bind, Option.bind_eq_some_iff] at flat
      obtain ⟨first, inner, later, outer, same⟩ := flat
      cases same
      have own := flatten_leaves item name 1 first visible (by simpa [fieldName] using inner)
      obtain ⟨more, named⟩ := ih outer
      have split : entries ((name, item) :: rest) =
          (leaves item).map (Entry.mk name) ++ entries rest := by
        simp [entries]
      rw [split]
      constructor
      · rw [own.form, more, List.map_append, List.map_map]
        rfl
      · intro entry member
        rcases List.mem_append.mp member with member | member
        · obtain ⟨leaf, listed, rfl⟩ := List.mem_map.mp member
          exact ⟨visible, by simpa using plain, own.named leaf listed⟩
        · exact named entry member

/-! ## Field names are taken apart again -/

private theorem text_plain {step : Step} (named : step.Named) :
    step.text ≠ [] ∧ ∀ c ∈ step.text, reserved c = false := by
  cases step with
  | key name =>
    refine ⟨named.1, fun c member => ?_⟩
    have plain : ¬name.any reserved = true := by simp [named.2]
    exact Bool.eq_false_iff.mpr fun is => plain (List.any_eq_true.mpr ⟨c, member, is⟩)
  | index i =>
    constructor
    · intro empty
      obtain ⟨c, rest, digits, -⟩ := Decimal.head_toDigits i
      have sign : ¬(i : Int) < 0 := Int.not_lt.mpr (Int.natCast_nonneg i)
      rw [Step.text, Decimal.format, if_neg sign, Int.natAbs_natCast, digits] at empty
      cases empty
    · intro c member
      rcases Decimal.mem_format member with rfl | digit
      · rfl
      · have small := Decimal.toNat_of_isDigit digit
        have other : ∀ d : Char, d.isDigit = false → c ≠ d := by
          rintro d letter rfl
          rw [letter] at digit
          cases digit
        simp [reserved, other '[' rfl, other ']' rfl, other '\x00' rfl]

private theorem stops_at {l rest : List Char} {d : Char} (plain : ∀ c ∈ l, c ≠ d) :
    (l ++ d :: rest).takeWhile (· ≠ d) = l ∧ (l ++ d :: rest).dropWhile (· ≠ d) = d :: rest := by
  induction l with
  | nil => simp
  | cons c l ih =>
    have other : c ≠ d := plain c List.mem_cons_self
    obtain ⟨taken, left⟩ := ih fun e member => plain e (List.mem_cons_of_mem c member)
    simp only [ne_eq, decide_not] at taken left ⊢
    simp [other, taken, left]

private theorem segments_brackets (named : ∀ step ∈ path, step.Named) (fuel : Nat)
    (enough : (brackets path).length ≤ fuel) :
    segments fuel (brackets path) = some (path.map Step.text) := by
  induction path generalizing fuel with
  | nil => cases fuel <;> rfl
  | cons step rest ih =>
    obtain ⟨nonempty, plain⟩ := text_plain (named step List.mem_cons_self)
    have closing : ∀ c ∈ step.text, c ≠ ']' := by
      rintro c member rfl
      exact absurd (plain ']' member) (by decide)
    obtain ⟨taken, left⟩ := @stops_at step.text (brackets rest) ']' closing
    obtain ⟨n, rfl⟩ : ∃ n, fuel = n + 1 := by
      simp only [brackets, List.length_cons] at enough
      exact ⟨fuel - 1, by omega⟩
    simp only [brackets, List.length_cons, List.length_append] at enough
    have inner := ih (fun step member => named step (List.mem_cons_of_mem _ member)) n (by omega)
    rw [brackets, segments, left]
    simp only [taken, inner, Option.map_some, if_neg nonempty, List.map_cons]

private theorem trim_eq_self_iff {s : List Char} : trim s = s ↔
    (∀ c ∈ s.head?, isSpace c = false) ∧ ∀ c ∈ s.getLast?, isSpace c = false := by
  have text : trim s = s ↔ trimSpace (String.ofList s) = String.ofList s := by
    rw [trim, ← String.toList_inj, String.toList_ofList]
  rw [text, trimSpace_eq_self_iff, String.toList_ofList]

private theorem trim_field (nonempty : name ≠ []) (trimmed : trim name = name) :
    trim (name ++ brackets path) = name ++ brackets path := by
  obtain ⟨first, last⟩ := trim_eq_self_iff.mp trimmed
  apply trim_eq_self_iff.mpr
  constructor
  · rwa [List.head?_append_of_ne_nil _ nonempty]
  · have closing : ∀ path : List Step, path ≠ [] → (brackets path).getLast? = some ']' := by
      intro path steps
      induction path with
      | nil => exact absurd rfl steps
      | cons step rest ih =>
        cases rest with
        | nil => simp [brackets, List.getLast?_cons, List.getLast?_append]
        | cons next rest =>
          have inner := ih (by simp)
          rw [brackets]
          simp [List.getLast?_cons, List.getLast?_append, inner]
    by_cases steps : path = []
    · subst steps
      simpa [brackets] using last
    · intro c ending
      rw [List.getLast?_append, closing path steps] at ending
      cases ending
      rfl

theorem parse_field (nonempty : name ≠ []) (trimmed : trim name = name)
    (plain : name.any reserved = false) (named : ∀ step ∈ path, step.Named) :
    parseStructuredInputPath (name ++ brackets path) = name :: path.map Step.text := by
  have opening : ∀ c ∈ name, c ≠ '[' := by
    rintro c member rfl
    have found : name.any reserved = true := List.any_eq_true.mpr ⟨'[', member, rfl⟩
    rw [plain] at found
    cases found
  rw [parseStructuredInputPath, trim_field nonempty trimmed, if_neg (by simp [nonempty])]
  cases path with
  | nil =>
    have all : name.dropWhile (· ≠ '[') = [] := by
      rw [List.dropWhile_eq_nil_iff]
      intro c member
      simpa using opening c member
    simp only [brackets, List.append_nil, List.map_nil] at *
    rw [all]
  | cons step rest =>
    obtain ⟨taken, left⟩ := @stops_at name (step.text ++ ']' :: brackets rest) '[' opening
    have found := segments_brackets named _ (Nat.le_refl _)
    rw [brackets] at found ⊢
    rw [taken, left]
    dsimp only
    rw [found]

/-! ## What a field writes over -/

mutual

/-- The value with the leaves at some places written over by their texts. -/
def mark (places : List Step → Bool) : Value → Value
  | .obj members => .obj (markMembers places members)
  | .arr elements => .arr (markElements places 0 elements)
  | .null => if places [] then .str (trim (sprint .null)) else .null
  | .bool b => if places [] then .str (trim (sprint (.bool b))) else .bool b
  | .num literal => if places [] then .str (trim (sprint (.num literal))) else .num literal
  | .str s => if places [] then .str (trim (sprint (.str s))) else .str s

def markMembers (places : List Step → Bool) : Members → Members
  | [] => []
  | (name, v) :: rest =>
    (name, mark (fun path => places (.key name :: path)) v) :: markMembers places rest

def markElements (places : List Step → Bool) (index : Nat) : List Value → List Value
  | [] => []
  | v :: rest =>
    mark (fun path => places (.index index :: path)) v :: markElements places (index + 1) rest

end

private theorem markMembers_eq (places : List Step → Bool) (members : Members) :
    markMembers places members =
      members.map fun m => (m.1, mark (fun path => places (.key m.1 :: path)) m.2) := by
  induction members with
  | nil => rw [markMembers, List.map_nil]
  | cons m rest ih => rw [markMembers, ih, List.map_cons]

private theorem markElements_eq (places : List Step → Bool) (index : Nat)
    (elements : List Value) : markElements places index elements =
      elements.mapIdx fun i v => mark (fun path => places (.index (index + i) :: path)) v := by
  induction elements generalizing index with
  | nil => rw [markElements, List.mapIdx_nil]
  | cons v rest ih =>
    rw [markElements, ih, List.mapIdx_cons]
    simp [Nat.add_assoc, Nat.add_comm 1]

private theorem mem_leavesOfMembers {inner : Leaf} (known : (name, v) ∈ members)
    (listed : inner ∈ leaves v) : inner.below (.key name) ∈ leavesOfMembers members := by
  induction members with
  | nil => cases known
  | cons m rest ih =>
    rw [leavesOfMembers]
    rcases List.mem_cons.mp known with same | known
    · rw [← same]
      exact List.mem_append_left _ (List.mem_map_of_mem listed)
    · exact List.mem_append_right _ (ih known)

private theorem of_mem_leavesOfMembers (member : leaf ∈ leavesOfMembers members) :
    ∃ name v inner, (name, v) ∈ members ∧
      inner ∈ leaves v ∧ leaf = inner.below (.key name) := by
  induction members with
  | nil => cases member
  | cons m rest ih =>
    rw [leavesOfMembers] at member
    rcases List.mem_append.mp member with member | member
    · obtain ⟨inner, listed, rfl⟩ := List.mem_map.mp member
      exact ⟨m.1, m.2, inner, List.mem_cons_self, listed, rfl⟩
    · obtain ⟨name, v, inner, known, listed, same⟩ := ih member
      exact ⟨name, v, inner, List.mem_cons_of_mem _ known, listed, same⟩

private theorem leaf_cases (member : leaf ∈ leaves v) :
    (leaf = ⟨[], v⟩ ∧ ∀ places, mark places v =
      if places [] then .str (trim (sprint v)) else v) ∨
    (∃ members name child inner, v = .obj members ∧ (name, child) ∈ members ∧
      inner ∈ leaves child ∧ leaf = inner.below (.key name)) ∨
    ∃ elements i child inner, v = .arr elements ∧ elements[i]? = some child ∧
      inner ∈ leaves child ∧ leaf = inner.below (.index i) := by
  have single : ∀ w : Value, leaf ∈ [(⟨[], w⟩ : Leaf)] → leaf = ⟨[], w⟩ :=
    fun w member => List.mem_singleton.mp member
  cases v with
  | null => exact Or.inl ⟨single _ member, fun _ => rfl⟩
  | bool b => exact Or.inl ⟨single _ member, fun _ => rfl⟩
  | num literal => exact Or.inl ⟨single _ member, fun _ => rfl⟩
  | str s => exact Or.inl ⟨single _ member, fun _ => rfl⟩
  | obj members =>
    right; left
    rw [leaves] at member
    obtain ⟨name, child, inner, known, listed, same⟩ := of_mem_leavesOfMembers member
    exact ⟨members, name, child, inner, rfl, known, listed, same⟩
  | arr elements =>
    right; right
    rw [leaves] at member
    have found : ∀ index, leaf ∈ leavesOfElements index elements → ∃ i child inner,
        elements[i]? = some child ∧ inner ∈ leaves child ∧
          leaf = inner.below (.index (index + i)) := by
      clear member
      induction elements with
      | nil =>
        intro index member
        cases member
      | cons v rest ih =>
        intro index member
        rw [leavesOfElements] at member
        rcases List.mem_append.mp member with member | member
        · obtain ⟨inner, listed, rfl⟩ := List.mem_map.mp member
          exact ⟨0, v, inner, rfl, listed, rfl⟩
        · obtain ⟨i, child, inner, known, listed, rfl⟩ := ih (index + 1) member
          exact ⟨i + 1, child, inner, known, listed, by rw [Nat.add_assoc, Nat.add_comm 1]⟩
    obtain ⟨i, child, inner, known, listed, same⟩ := found 0 member
    exact ⟨elements, i, child, inner, rfl, known, listed, by rw [same, Nat.zero_add]⟩

private def add (places : List Step → Bool) (path : List Step) : List Step → Bool :=
  fun other => places other || other = path

private theorem add_key_other {other : List Char} (different : other ≠ name)
    (places : List Step → Bool) (path : List Step) :
    (fun inner => add places (.key name :: path) (.key other :: inner)) =
      fun inner => places (.key other :: inner) := by
  funext inner
  simp [add, different]

private theorem add_index_other {other : Nat} (different : other ≠ i) (places : List Step → Bool)
    (path : List Step) :
    (fun inner => add places (.index i :: path) (.index other :: inner)) =
      fun inner => places (.index other :: inner) := by
  funext inner
  simp [add, different]

private theorem add_below (step : Step) (places : List Step → Bool) (path : List Step) :
    (fun inner => add places (step :: path) (step :: inner)) =
      add (fun inner => places (step :: inner)) path := by
  funext inner
  simp [add]

private theorem mark_members {before after : Members}
    (split : members = before ++ (name, child) :: after) (ordered : Value.KeysOrdered members)
    (places : List Step → Bool) :
    ∃ front behind,
      Value.KeysOrdered
        (front ++ (name, mark (fun path => places (.key name :: path)) child) :: behind) ∧
      markMembers places members =
        front ++ (name, mark (fun path => places (.key name :: path)) child) :: behind ∧
      ∀ path, markMembers (add places (.key name :: path)) members =
        front ++ (name, mark (add (fun path => places (.key name :: path)) path) child) ::
          behind := by
  subst split
  have others := Value.ne_of_ordered ordered
  refine ⟨markMembers places before, markMembers places after, ?_, ?_, ?_⟩
  · have keys : Value.KeysOrdered (markMembers places (before ++ (name, child) :: after)) := by
      rw [markMembers_eq, Value.KeysOrdered, List.pairwise_map]
      exact ordered
    simpa [markMembers_eq] using keys
  · simp [markMembers_eq]
  · intro path
    rw [markMembers_eq, markMembers_eq, markMembers_eq, List.map_append, List.map_cons, add_below]
    have same : ∀ part : Members, (∀ m ∈ part, m.1 ≠ name) → part.map (fun m =>
        (m.1, mark (fun inner => add places (.key name :: path) (.key m.1 :: inner)) m.2)) =
          part.map fun m => (m.1, mark (fun inner => places (.key m.1 :: inner)) m.2) := by
      intro part different
      apply List.map_congr_left
      intro m member
      rw [add_key_other (different m member)]
    rw [same before fun m member => others m (List.mem_append_left _ member),
      same after fun m member => others m (List.mem_append_right _ member)]

private theorem lookup_replace {front behind : Members} {next : Value}
    (ordered : Value.KeysOrdered (front ++ (name, child) :: behind)) :
    ((front ++ (name, child) :: behind).lookup name).getD .null = child ∧
      Value.insertMember name next (front ++ (name, child) :: behind) =
        front ++ (name, next) :: behind := by
  rw [Value.lookup_of_ordered ordered, Value.insertMember_replace ordered]
  exact ⟨rfl, rfl⟩

private def maxInt : Nat := 9223372036854775807

private theorem parse_index (small : limit ≤ maxInt) (inside : i < limit) :
    Decimal.parse (Step.index i).text = some (i : Int) := by
  apply Decimal.parse_format
  simp only [maxInt] at small
  constructor
  · omega
  · omega

private theorem mark_elements {elements : List Value} (found : elements[i]? = some child)
    (places : List Step → Bool) :
    (markElements places 0 elements)[i]? =
      some (mark (fun path => places (.index i :: path)) child) ∧
    ∀ path, (markElements places 0 elements).set i
        (mark (add (fun path => places (.index i :: path)) path) child) =
      markElements (add places (.index i :: path)) 0 elements := by
  rw [markElements_eq]
  constructor
  · simp [found]
  · intro path
    rw [markElements_eq]
    apply List.ext_getElem?
    intro j
    by_cases same : j = i
    · subst same
      have inside : j < elements.length := (List.getElem?_eq_some_iff.mp found).1
      rw [List.getElem?_set_self (by simpa using inside)]
      simp only [Nat.zero_add, List.getElem?_mapIdx, found, Option.map_some]
      rw [add_below]
    · rw [List.getElem?_set_ne fun is => same is.symm]
      simp only [Nat.zero_add, List.getElem?_mapIdx]
      rw [add_index_other same]

/-- The value can stand for an approved parameter: a map has its keys in order, and a
slice has a length. -/
private structure Sound (limit : Nat) (v : Value) : Prop where
  ordered : Value.Ordered v
  printable : Value.Printable limit v

private theorem sound_member (sound : Sound limit (.obj members)) (member : (name, child) ∈ members)
    :
    Value.KeysOrdered members ∧ Sound limit child :=
  ⟨sound.ordered.1, Value.orderedMembers_iff.mp sound.ordered.2 _ member,
    Value.printableMembers_iff.mp sound.printable _ member⟩

private theorem sound_element {elements : List Value} (sound : Sound limit (.arr elements))
    (found : elements[i]? = some child) :
    i < elements.length ∧ elements.length ≤ limit ∧ Sound limit child := by
  have member := List.mem_of_getElem? found
  exact ⟨(List.getElem?_eq_some_iff.mp found).1, sound.printable.1,
    Value.orderedElements_iff.mp sound.ordered _ member,
    Value.printableElements_iff.mp sound.printable.2 _ member⟩

private theorem extend_of_lt {list : List Value} {n : Nat} (long : n < list.length) :
    extend list (n + 1) = list := by
  have none : n + 1 - list.length = 0 := by omega
  rw [extend, none, List.replicate_zero, List.append_nil]

private theorem assign_key (read : Decimal.parse name = none) :
    assignStructuredValue value (name :: rest) (.obj members) =
      (assignStructuredValue value rest ((members.lookup name).getD .null)).bind fun next =>
        .ok (.obj (Value.insertMember name next members)) := by
  rw [assignStructuredValue.eq_def]
  dsimp only
  rw [read]
  rfl

private theorem assign_number {n : Int} (read : Decimal.parse name = some n) :
    assignStructuredValue value (name :: rest) (.obj members) = .error .arrayContainer := by
  rw [assignStructuredValue.eq_def]
  dsimp only
  rw [read]

private theorem assign_index {segment : List Char} {list : List Value}
    (read : Decimal.parse segment = some (i : Int)) :
    assignStructuredValue value (segment :: rest) (.arr list) =
      (assignStructuredValue value rest ((list[i]?).getD .null)).bind fun next =>
        .ok (.arr ((extend list (i + 1)).set i next)) := by
  rw [assignStructuredValue.eq_def]
  dsimp only
  rw [read]
  dsimp only
  rw [if_neg (Int.not_lt.mpr (Int.natCast_nonneg i)), Int.toNat_natCast]
  rfl

private theorem assign_mark (small : limit ≤ maxInt) (sound : Sound limit v)
    (member : leaf ∈ leaves v) (places : List Step → Bool) :
    ((∀ name, Step.key name ∈ leaf.path → numeric name = false) →
      assignStructuredValue (trim (sprint leaf.value)) (leaf.path.map Step.text) (mark places v) =
        .ok (mark (add places leaf.path) v)) ∧
    ((∃ name, Step.key name ∈ leaf.path ∧ numeric name = true) →
      ∃ e, assignStructuredValue (trim (sprint leaf.value)) (leaf.path.map Step.text)
        (mark places v) = .error e) := by
  obtain ⟨path, value⟩ := leaf
  induction path generalizing v places with
  | nil =>
    rcases leaf_cases member with ⟨same, marked⟩ | ⟨_, _, _, _, _, _, _, same⟩ |
      ⟨_, _, _, _, _, _, _, same⟩
    · cases same
      refine ⟨fun _ => ?_, fun ⟨_, listed, _⟩ => by cases listed⟩
      rw [marked (add places []), List.map_nil, assignStructuredValue]
      simp [add]
    · cases same
    · cases same
  | cons step rest ih =>
    rcases leaf_cases member with ⟨same, -⟩ |
      ⟨members, name, child, inner, rfl, known, listed, same⟩ |
      ⟨elements, i, child, inner, rfl, found, listed, same⟩
    · cases same
    · obtain ⟨rfl, rfl, rfl⟩ : step = .key name ∧ rest = inner.path ∧ value = inner.value := by
        simpa [Leaf.below, and_assoc] using same
      obtain ⟨ordered, own⟩ := sound_member sound known
      obtain ⟨before, after, split⟩ := List.append_of_mem known
      obtain ⟨front, behind, keys, marked, added⟩ := mark_members split ordered places
      have stored := @lookup_replace name _ front behind .null keys
      have replaced := (@lookup_replace name _ front behind
        (mark (add (fun path => places (.key name :: path)) inner.path) child) keys).2
      obtain ⟨clear, blocked⟩ := ih own (fun path => places (.key name :: path)) listed
      have text : (Step.key name :: inner.path).map Step.text =
          name :: inner.path.map Step.text := rfl
      rw [mark, mark, text]
      constructor
      · intro plain
        have unread : Decimal.parse name = none := by
          simpa [numeric] using plain name List.mem_cons_self
        have later := clear fun other listed => plain other (List.mem_cons_of_mem _ listed)
        rw [assign_key unread, marked, stored.1, later, added, Except.bind, replaced]
      · rintro ⟨key, listed, index⟩
        cases read : Decimal.parse name with
        | some n => exact ⟨.arrayContainer, assign_number read⟩
        | none =>
          rcases List.mem_cons.mp listed with same | later
          · cases same
            simp [numeric, read] at index
          · obtain ⟨e, failed⟩ := blocked ⟨key, later, index⟩
            rw [assign_key read, marked, stored.1, failed]
            exact ⟨e, rfl⟩
    · obtain ⟨rfl, rfl, rfl⟩ : step = .index i ∧ rest = inner.path ∧ value = inner.value := by
        simpa [Leaf.below, and_assoc] using same
      obtain ⟨inside, short, own⟩ := sound_element sound found
      obtain ⟨stored, replaced⟩ := mark_elements found places
      obtain ⟨clear, blocked⟩ := ih own (fun path => places (.index i :: path)) listed
      have length : (markElements places 0 elements).length = elements.length := by
        rw [markElements_eq, List.length_mapIdx]
      have short : i < limit := by omega
      rw [mark, mark, List.map_cons, assign_index (parse_index small short), stored,
        Option.getD_some]
      constructor
      · intro plain
        have later := clear fun name listed => plain name (List.mem_cons_of_mem _ listed)
        rw [later, Except.bind, extend_of_lt (by omega), replaced]
      · rintro ⟨key, listed, index⟩
        rcases List.mem_cons.mp listed with same | later
        · cases same
        · obtain ⟨e, failed⟩ := blocked ⟨key, later, index⟩
          rw [failed]
          exact ⟨e, rfl⟩

/-! ## Where nothing changes -/

mutual

private theorem mark_eq_iff : ∀ (v : Value) (places : List Step → Bool), mark places v = v ↔
    ∀ leaf ∈ leaves v, places leaf.path = true → leaf.value = .str (trim (sprint leaf.value))
  | .null, places => by
    rw [mark, leaves]
    by_cases placed : places [] = true <;> simp [placed]
  | .bool b, places => by
    rw [mark, leaves]
    by_cases placed : places [] = true <;> simp [placed]
  | .num literal, places => by
    rw [mark, leaves]
    by_cases placed : places [] = true <;> simp [placed]
  | .str s, places => by
    rw [mark, leaves]
    by_cases placed : places [] = true
    · rw [if_pos placed]
      constructor
      · intro same leaf member _
        rw [List.mem_singleton.mp member]
        exact same.symm
      · intro each
        exact (each ⟨[], .str s⟩ List.mem_cons_self placed).symm
    · simp [placed]
  | .arr elements, places => by
    rw [mark, leaves, ← markElements_eq_iff elements 0 places, Value.arr.injEq]
  | .obj members, places => by
    rw [mark, leaves, ← markMembers_eq_iff members places, Value.obj.injEq]

private theorem markMembers_eq_iff : ∀ (members : Members) (places : List Step → Bool),
    markMembers places members = members ↔ ∀ leaf ∈ leavesOfMembers members,
      places leaf.path = true → leaf.value = .str (trim (sprint leaf.value))
  | [], places => by simp [markMembers, leavesOfMembers]
  | (name, v) :: rest, places => by
    rw [markMembers, leavesOfMembers, List.cons.injEq, Prod.mk.injEq, eq_self, true_and,
      mark_eq_iff v, markMembers_eq_iff rest places, List.forall_mem_append]
    simp [Leaf.below]

private theorem markElements_eq_iff : ∀ (elements : List Value) (index : Nat)
    (places : List Step → Bool), markElements places index elements = elements ↔
      ∀ leaf ∈ leavesOfElements index elements,
        places leaf.path = true → leaf.value = .str (trim (sprint leaf.value))
  | [], index, places => by simp [markElements, leavesOfElements]
  | v :: rest, index, places => by
    rw [markElements, leavesOfElements, List.cons.injEq, mark_eq_iff v,
      markElements_eq_iff rest (index + 1) places, List.forall_mem_append]
    simp [Leaf.below]

end

/-! ## The fields in any order -/

private def Entry.place (entry : Entry) : List Step := .key entry.name :: entry.leaf.path

private def written (done : List Entry) (path : List Step) : Bool :=
  done.any fun entry => entry.leaf.path ≠ [] && entry.place = path

private theorem written_cons (done : List Entry) (inside : entry.leaf.path ≠ []) :
    written (entry :: done) = add (written done) entry.place := by
  funext path
  simp [written, add, inside, Bool.or_comm, eq_comm]

private theorem written_cons_top (done : List Entry) (top : entry.leaf.path = []) :
    written (entry :: done) = written done := by
  funext path
  simp [written, top]

private theorem mergeStructuredInput_one {target : Members} {field : List Char × List Char}
    (path : parseStructuredInputPath field.1 = [name]) (known : (target.lookup name).isSome = true)
    :
    mergeStructuredInput target field = .ok target := by
  rw [mergeStructuredInput, path]
  exact if_pos known

private theorem mergeStructuredInput_more {segment : List Char} {target : Members}
    {field : List Char × List Char}
    (path : parseStructuredInputPath field.1 = name :: segment :: rest) :
    mergeStructuredInput target field =
      (assignStructuredValue (trim field.2) (segment :: rest)
        ((target.lookup name).getD .null)).bind fun next =>
          .ok (Value.insertMember name next target) := by
  rw [mergeStructuredInput, path]
  rfl

private structure Named (params : Members) : Prop where
  trimmed : ∀ entry ∈ entries params, trim entry.name = entry.name
  nonempty : ∀ entry ∈ entries params, entry.name ≠ []
  plain : ∀ entry ∈ entries params, entry.name.any reserved = false
  steps : ∀ entry ∈ entries params, ∀ step ∈ entry.leaf.path, step.Named

/-- No key on the way to the leaf is taken for an index. -/
private def Entry.Clear (entry : Entry) : Prop :=
  ∀ name, Step.key name ∈ entry.leaf.path → numeric name = false

private theorem merge_entry (small : limit ≤ maxInt) (sound : Sound limit (.obj params))
    (names : Named params) (member : entry ∈ entries params) (done : List Entry) :
    (entry.Clear → mergeStructuredInput (markMembers (written done) params) entry.field =
      .ok (markMembers (written (entry :: done)) params)) ∧
    (¬entry.Clear → ∃ e,
      mergeStructuredInput (markMembers (written done) params) entry.field = .error e) := by
  obtain ⟨child, known, listed⟩ := mem_entries.mp member
  obtain ⟨ordered, own⟩ := sound_member sound known
  obtain ⟨before, after, split⟩ := List.append_of_mem known
  obtain ⟨front, behind, keys, marked, added⟩ := mark_members split ordered (written done)
  have stored := (@lookup_replace entry.name _ front behind .null keys).1
  have parsed := parse_field (names.nonempty entry member) (names.trimmed entry member)
    (names.plain entry member) (names.steps entry member)
  by_cases top : entry.leaf.path = []
  · have clear : entry.Clear := by
      intro name step
      rw [top] at step
      cases step
    refine ⟨fun _ => ?_, fun blocked => absurd clear blocked⟩
    rw [top, List.map_nil] at parsed
    rw [written_cons_top done top, marked]
    apply @mergeStructuredInput_one entry.name
    · rw [← parsed, ← top]
      rfl
    · rw [Value.lookup_of_ordered keys]
      rfl
  · obtain ⟨step, rest, path⟩ := List.exists_cons_of_ne_nil top
    obtain ⟨clear, blocked⟩ := assign_mark small own listed
      fun inner => written done (.key entry.name :: inner)
    have replaced := (@lookup_replace entry.name _ front behind (mark (add (fun inner =>
      written done (.key entry.name :: inner)) entry.leaf.path) child) keys).2
    have merged := @mergeStructuredInput_more entry.name (rest.map Step.text) step.text
      (markMembers (written done) params) entry.field (by
        rw [← List.map_cons, ← path, ← parsed]
        rfl)
    rw [← List.map_cons, ← path, marked, stored] at merged
    rw [marked, merged]
    constructor
    · intro plain
      have later := clear plain
      rw [written_cons done top, Entry.place, added, Entry.field, Leaf.field, later, Except.bind,
        replaced]
    · intro unclear
      rw [Entry.Clear] at unclear
      push Not at unclear
      obtain ⟨name, step, index⟩ := unclear
      obtain ⟨e, failed⟩ := blocked ⟨name, step, by simpa using index⟩
      rw [Entry.field, Leaf.field, failed]
      exact ⟨e, rfl⟩

private theorem merge_entries (small : limit ≤ maxInt) (sound : Sound limit (.obj params))
    (names : Named params) (todo : List Entry) (known : ∀ entry ∈ todo, entry ∈ entries params)
    (done : List Entry) :
    ((∀ entry ∈ todo, entry.Clear) →
      (todo.map Entry.field).foldlM mergeStructuredInput (markMembers (written done) params) =
        .ok (markMembers (written (todo.reverse ++ done)) params)) ∧
    (¬(∀ entry ∈ todo, entry.Clear) → ∃ e,
      (todo.map Entry.field).foldlM mergeStructuredInput (markMembers (written done) params) =
        .error e) := by
  induction todo generalizing done with
  | nil =>
    refine ⟨fun _ => rfl, fun unclear => absurd ?_ unclear⟩
    simp
  | cons entry rest ih =>
    obtain ⟨first, refused⟩ := merge_entry small sound names (known entry List.mem_cons_self) done
    obtain ⟨later, failed⟩ := ih (fun e member => known e (List.mem_cons_of_mem _ member))
      (entry :: done)
    rw [List.map_cons, List.foldlM_cons]
    by_cases clear : entry.Clear
    · rw [first clear]
      constructor
      · intro all
        rw [List.reverse_cons, List.append_assoc]
        exact later fun e member => all e (List.mem_cons_of_mem _ member)
      · intro unclear
        apply failed
        intro all
        exact unclear (List.forall_mem_cons.mpr ⟨clear, all⟩)
    · constructor
      · intro all
        exact absurd (all entry List.mem_cons_self) clear
      · intro _
        obtain ⟨e, same⟩ := refused clear
        rw [same]
        exact ⟨e, rfl⟩

private theorem kept_iff : Kept params ↔
    ∀ entry ∈ entries params, entry.leaf.path ≠ [] → entry.leaf.Kept := by
  constructor
  · intro kept entry member inside
    obtain ⟨v, known, listed⟩ := mem_entries.mp member
    exact kept (entry.name, v) known entry.leaf listed inside
  · intro kept m member leaf listed inside
    exact kept ⟨m.1, leaf⟩ (mem_entries.mpr ⟨m.2, member, listed⟩) inside

private theorem merge_params (small : limit ≤ maxInt) (sound : Sound limit (.obj params))
    (names : Named params) {todo : List Entry} (all : todo.Perm (entries params)) :
    (todo.map Entry.field).foldlM mergeStructuredInput params = .ok params ↔ Kept params := by
  obtain ⟨clear, blocked⟩ := merge_entries small sound names todo
    (fun entry member => all.mem_iff.mp member) []
  have start : markMembers (written []) params = params := by
    apply (markMembers_eq_iff params (written [])).mpr
    intro leaf member placed
    cases placed
  have finish : markMembers (written (todo.reverse ++ [])) params = params ↔
      ∀ entry ∈ entries params, entry.leaf.path ≠ [] →
        entry.leaf.value = .str (trim (sprint entry.leaf.value)) := by
    rw [markMembers_eq_iff]
    constructor
    · intro same entry member inside
      obtain ⟨v, known, listed⟩ := mem_entries.mp member
      apply same (entry.leaf.below (.key entry.name)) (mem_leavesOfMembers known listed)
      apply List.any_eq_true.mpr
      refine ⟨entry, ?_, by simp [inside, Entry.place, Leaf.below]⟩
      simpa using all.mem_iff.mpr member
    · intro texts leaf member placed
      obtain ⟨name, v, inner, known, listed, rfl⟩ := of_mem_leavesOfMembers member
      obtain ⟨entry, -, here⟩ := List.any_eq_true.mp placed
      rw [Bool.and_eq_true] at here
      have inside : entry.leaf.path ≠ [] := of_decide_eq_true here.1
      have same : entry.place = .key name :: inner.path := of_decide_eq_true here.2
      rw [Entry.place, List.cons.injEq] at same
      exact texts ⟨name, inner⟩ (mem_entries.mpr ⟨v, known, listed⟩) (same.2 ▸ inside)
  rw [start] at clear blocked
  rw [kept_iff]
  by_cases plain : ∀ entry ∈ todo, entry.Clear
  · rw [clear plain, Except.ok.injEq, finish]
    constructor
    · intro texts entry member inside
      exact ⟨texts entry member inside, plain entry (all.mem_iff.mpr member)⟩
    · intro kept entry member inside
      exact (kept entry member inside).text
  · obtain ⟨e, failed⟩ := blocked plain
    rw [failed]
    constructor
    · intro same
      cases same
    · intro kept
      refine absurd (fun entry member => ?_) plain
      intro name step
      have inside : entry.leaf.path ≠ [] := List.ne_nil_of_mem step
      exact (kept entry (all.mem_iff.mp member) inside).keys name step

/-! ## The whole request -/

private structure Accepted (params : Members) : Prop where
  sound : ∃ limit, limit ≤ maxInt ∧ Sound limit (.obj params)
  names : ∀ m ∈ params, parameterName m.1 = true

private theorem params_accepted {raw : String} (accepted : panelOperationParams raw = some params) :
    Accepted params := by
  unfold panelOperationParams at accepted
  split at accepted
  next => cases accepted
  next small =>
    split at accepted
    next members read =>
      simp only [Option.ite_none_right_eq_some, Option.some.injEq] at accepted
      obtain ⟨names, rfl⟩ := accepted
      have printable := Value.ofText_printable read
      have ordered := Value.canonical_ordered (.obj members)
      have printed := Value.canonical_printable (.obj members) printable
      rw [Value.canonical] at ordered printed
      refine ⟨⟨_, ?_, ordered, printed⟩, List.all_eq_true.mp names⟩
      have length : (if raw = "" then "\x7b\x7d" else raw).length ≤ 32768 := by
        split
        · decide
        · exact le_trans (length_le_utf8ByteSize raw) (not_lt.mp small)
      rw [maxInt]
      omega
    next => cases accepted

private theorem structured_facts : ∀ op ∈ structuredOperations,
    op.method = "POST" ∧ ∀ (isAdmin : Bool) (params : Members),
      preparedParams op.path isAdmin params = params := by
  have paths : ∀ op ∈ structuredOperations, op.method = "POST" ∧
      op.path ≠ "/server/manage/getNodes" ∧ op.path ≠ "/config/fetch" ∧
      pathWithID op.path = false ∧ ["/user/ban", "/user/unban", "/user/allDel", "/user/sendMail",
        "/user/dumpCSV"].contains op.path = false ∧ op.path ≠ "/user/update" := by
    decide +kernel
  intro op registered
  obtain ⟨method, nodes, config, number, filters, update⟩ := paths op registered
  refine ⟨method, fun isAdmin params => ?_⟩
  have scope : panelScopeUserFilters op.path params = params := by
    rw [panelScopeUserFilters, filters, if_neg Bool.false_ne_true, if_neg update]
  simp [preparedParams, nodes, config, number, scope]

private theorem bodyValues_marshal (sound : Sound limit (.obj params)) (method : String)
    (form : Form) : bodyValues ⟨method, true, Value.marshal (.obj params), form⟩ = .ok params := by
  have visible : trim (Value.marshal (.obj params)) ≠ [] := by
    have text : Value.marshal (.obj params) = '{' ::
        (Json.commas ((Value.marshalMembers params).map Json.member) ++ ['}']) := rfl
    have whole : trim (Value.marshal (.obj params)) = Value.marshal (.obj params) := by
      apply trim_eq_self_iff.mpr
      rw [text]
      constructor
      · intro c first
        cases first
        rfl
      · intro c last
        rw [← List.cons_append, List.getLast?_concat] at last
        cases last
        rfl
    rw [whole, text]
    exact List.cons_ne_nil _ _
  have canonical := Value.canonical_eq (.obj params) sound.ordered
  rw [Value.canonical, Value.obj.injEq] at canonical
  rw [bodyValues, if_neg (by simp [visible]), Value.firstOf_marshal sound.printable]
  dsimp only
  rw [canonical]

/-- The handler of an operation reads the parameters as they were approved, in whatever
order the form is merged, exactly when the form writes nothing over inside them. -/
theorem approved_params_arrive {raw : String} {op : Operation} {isAdmin : Bool}
    {params : Members} {request : Request} {form : Form} (registered : op ∈ structuredOperations)
    (accepted : panelOperationParams raw = some params)
    (built : buildRequest op (preparedParams op.path isAdmin params) = some request)
    (order : form.Perm request.form) :
    readStructuredInputs ⟨request.method, request.json, request.body, form⟩ = .ok params ↔
      Kept params := by
  obtain ⟨⟨limit, small, sound⟩, names⟩ := params_accepted accepted
  obtain ⟨method, prepared⟩ := structured_facts op registered
  rw [prepared, buildRequest] at built
  obtain ⟨values, flat, made⟩ := Option.bind_eq_some_iff.mp built
  rw [if_neg (by rw [method]; decide), Option.some.injEq] at made
  subst made
  obtain ⟨fields, named⟩ := flatten_entries flat
  have trimmed : ∀ entry ∈ entries params, trim entry.name = entry.name := by
    intro entry member
    obtain ⟨v, known, -⟩ := mem_entries.mp member
    have name := names _ known
    simp only [parameterName, Bool.and_eq_true, decide_eq_true_eq] at name
    exact name.1.1.1.1
  have own : Named params :=
    ⟨trimmed, fun entry member => (named entry member).1,
      fun entry member => (named entry member).2.1, fun entry member => (named entry member).2.2⟩
  obtain ⟨todo, all, same⟩ : ∃ todo : List Entry, todo.Perm (entries params) ∧
      form = todo.map Entry.field := by
    rw [fields] at order
    have split := congrFun (congrFun (List.eq_map_comp_perm Entry.field) form) (entries params)
    obtain ⟨todo, same, all⟩ := split.mpr order
    exact ⟨todo, all, same⟩
  rw [readStructuredInputs, bodyValues_marshal sound]
  rw [same]
  exact merge_params small sound own all

private def vmessUpdate : Operation := ⟨"nodes.vmess.update", "POST", "/server/vmess/update"⟩

private def shown : Members :=
  [("id".toList, .num "1".toList), ("meta".toList, .obj [("note".toList, .str "x".toList)])]

theorem approved_params_arrive_nested : ∃ request,
    buildRequest vmessUpdate (preparedParams vmessUpdate.path true shown) = some request ∧
      readStructuredInputs
        ⟨request.method, request.json, request.body, request.form.reverse⟩ = .ok shown := by
  have accepted : panelOperationParams "\x7b\"meta\":\x7b\"note\":\"x\"\x7d,\"id\":1\x7d" = some shown := by
    decide +kernel
  have registered : vmessUpdate ∈ structuredOperations := by decide +kernel
  have some : (buildRequest vmessUpdate
      (preparedParams vmessUpdate.path true shown)).isSome = true := by
    decide +kernel
  obtain ⟨request, built⟩ := Option.isSome_iff_exists.mp some
  refine ⟨request, built, (approved_params_arrive registered accepted built
    (List.reverse_perm _)).mpr ?_⟩
  intro m member leaf listed inside
  rcases List.mem_cons.mp member with rfl | member
  · rw [List.mem_singleton.mp listed] at inside
    exact absurd rfl inside
  · rw [List.mem_singleton.mp member] at listed
    rw [List.mem_singleton.mp listed]
    constructor
    · decide +kernel
    · intro name step
      rw [(Step.key.inj (List.mem_singleton.mp step) : name = "note".toList)]
      decide +kernel

private def shadowsocksSave : Operation :=
  ⟨"nodes.shadowsocks.save", "POST", "/server/shadowsocks/save"⟩

private def node (group : Value) : Members :=
  [("cipher".toList, .str "aes-128-gcm".toList), ("group_id".toList, .arr [group]),
    ("host".toList, .str "h".toList), ("name".toList, .str "n".toList),
    ("port".toList, .num "443".toList), ("rate".toList, .num "1".toList),
    ("server_port".toList, .num "443".toList)]

/-- A group that was approved as a number is read as a text. -/
theorem approved_number_arrives_as_text :
    panelOperationParams
      ("\x7b\"name\":\"n\",\"group_id\":[1],\"host\":\"h\",\"port\":443,\"server_port\":443," ++
        "\"rate\":1,\"cipher\":\"aes-128-gcm\"\x7d") = some (node (.num "1".toList)) ∧
      (buildRequest shadowsocksSave
        (preparedParams shadowsocksSave.path true (node (.num "1".toList)))).map
          readStructuredInputs = some (.ok (node (.str "1".toList))) ∧
      node (.str "1".toList) ≠ node (.num "1".toList) := by
  decide +kernel

end Panel

end ForestPanel
