import Mathlib.Data.List.Basic

/-!
# Replacing words of a text

`replaceAll` replaces every occurrence of one word, from left to right and without overlap. Here
the words of a list are replaced one after the other, each in what the ones before have left. When
no two occurrences in the text overlap, and no word is met where it takes a letter of a replacement,
the order of the words does not matter: `conceal` cuts the text at the words once.

The elements of a text carry more than their letter, so that one can ask where they come from.
-/
namespace Replacing

variable {α β : Type}

section

variable [DecidableEq α] (letter : β → α)

/-- The scan; the number says how many elements of an occurrence are still to be left out. -/
def replaceFrom (word : List α) (new : List β) : Nat → List β → List β
  | _, [] => []
  | skip + 1, _ :: rest => replaceFrom word new skip rest
  | 0, b :: rest =>
    if word <+: (b :: rest).map letter then new ++ replaceFrom word new (word.length - 1) rest
    else b :: replaceFrom word new 0 rest

def replaceAll (word : List α) (new text : List β) : List β := replaceFrom letter word new 0 text

def replaceEach (words : List (List α)) (new text : List β) : List β :=
  words.foldl (fun text word => replaceAll letter word new text) text

/-- The text cut at the first word that is found at each place, and else after each element. -/
def cutFrom (words : List (List α)) : Nat → List β → List (List β)
  | _, [] => []
  | skip + 1, _ :: rest => cutFrom words skip rest
  | 0, b :: rest =>
    match words.find? (fun word => word ≠ [] ∧ word <+: (b :: rest).map letter) with
    | some word => (b :: rest).take word.length :: cutFrom words (word.length - 1) rest
    | none => [b] :: cutFrom words 0 rest

def shown (hidden : List (List α)) (new block : List β) : List β :=
  if block.map letter ∈ hidden then new else block

/-- The text with some of its words replaced, all at once. -/
def conceal (words hidden : List (List α)) (new text : List β) : List β :=
  (cutFrom letter words 0 text).flatMap (shown letter hidden new)

end

/-- No two occurrences of words in the text overlap. -/
def Separate (words : List (List α)) (text : List α) : Prop :=
  ∀ one ∈ words, ∀ other ∈ words, ∀ p q, one <+: text.drop p → other <+: text.drop q →
    p ≤ q → q < p + one.length → one = other ∧ p = q

/-- What is put in the place of a word: its elements are told from those of the text. -/
structure Replacement (marked : β → Prop) (new : List β) : Prop where
  some : new ≠ []
  marked : ∀ b ∈ new, marked b

variable [DecidableEq α] {letter : β → α} {marked : β → Prop} {words hidden : List (List α)}
  {word : List α} {new text : List β}

/-- Wherever a word is met in the text with some words replaced, it takes no element of a
replacement, or is one. -/
def Clear (letter : β → α) (marked : β → Prop) (words : List (List α)) (new text : List β) : Prop :=
  ∀ hidden, hidden ⊆ words → ∀ w, w <:+: conceal letter words hidden new text →
    w.map letter ∈ words → w = new ∨ ∀ b ∈ w, ¬ marked b

theorem replaceFrom_skip (skip : Nat) (text : List β) :
    replaceFrom letter word new skip text = replaceFrom letter word new 0 (text.drop skip) := by
  induction text generalizing skip with
  | nil => cases skip <;> simp [replaceFrom]
  | cons b rest ih =>
    cases skip with
    | zero => rfl
    | succ skip =>
      rw [List.drop_succ_cons, ← ih skip]
      rfl

theorem replaceFrom_none {x rest : List β}
    (none : ∀ k < x.length, ¬ word <+: ((x ++ rest).drop k).map letter) :
    replaceFrom letter word new 0 (x ++ rest) = x ++ replaceFrom letter word new 0 rest := by
  induction x with
  | nil => rfl
  | cons b x ih =>
    have first := none 0 (by simp)
    rw [List.drop_zero] at first
    have later : ∀ k < x.length, ¬ word <+: ((x ++ rest).drop k).map letter := by
      intro k within
      exact none (k + 1) (by simpa using within)
    rw [List.cons_append] at first ⊢
    rw [replaceFrom, if_neg first, ih later, List.cons_append]

theorem replaceFrom_hit {x rest : List β} (some : word ≠ []) (same : x.map letter = word) :
    replaceFrom letter word new 0 (x ++ rest) = new ++ replaceFrom letter word new 0 rest := by
  cases x with
  | nil => exact absurd same.symm some
  | cons b x =>
    have found : word <+: ((b :: x) ++ rest).map letter := by
      rw [List.map_append, same]
      exact List.prefix_append _ _
    have size : word.length - 1 = x.length := by
      rw [← same, List.length_map, List.length_cons]
      omega
    rw [List.cons_append] at found ⊢
    rw [replaceFrom, if_pos found, replaceFrom_skip, size, List.drop_left]

/-- Elements can be forgotten before or after. -/
theorem map_replaceFrom {γ : Type} {letter' : γ → α} (f : β → γ)
    (same : ∀ b, letter' (f b) = letter b) (skip : Nat) (text : List β) :
    (replaceFrom letter word new skip text).map f =
      replaceFrom letter' word (new.map f) skip (text.map f) := by
  have letters : ∀ x : List β, (x.map f).map letter' = x.map letter := by
    intro x
    rw [List.map_map]
    exact List.map_congr_left (fun b _ => same b)
  induction text generalizing skip with
  | nil => cases skip <;> simp [replaceFrom]
  | cons b rest ih =>
    cases skip with
    | zero =>
      rw [List.map_cons, replaceFrom, replaceFrom, ← List.map_cons, letters]
      split
      next => rw [List.map_append, ih]
      next => rw [List.map_cons, ih]
    | succ skip => exact ih skip

theorem map_replaceEach {γ : Type} {letter' : γ → α} (f : β → γ)
    (same : ∀ b, letter' (f b) = letter b) (words : List (List α)) (text : List β) :
    (replaceEach letter words new text).map f =
      replaceEach letter' words (new.map f) (text.map f) := by
  induction words generalizing text with
  | nil => rfl
  | cons word rest ih =>
    rw [replaceEach, List.foldl_cons, ← replaceEach, ih, replaceAll, map_replaceFrom f same]
    rfl

variable (letter) in
theorem flatten_cutFrom (words : List (List α)) (skip : Nat) (text : List β) :
    (cutFrom letter words skip text).flatten = text.drop skip := by
  induction text generalizing skip with
  | nil => cases skip <;> simp [cutFrom]
  | cons b rest ih =>
    cases skip with
    | succ skip => exact ih skip
    | zero =>
      rw [cutFrom]
      split
      next word found =>
        have some := List.find?_some found
        simp only [decide_eq_true_eq] at some
        have positive := List.length_pos_iff.mpr some.1
        rw [List.flatten_cons, ih, List.drop_zero]
        rw [show rest.drop (word.length - 1) = (b :: rest).drop word.length by
          rw [← @List.drop_succ_cons _ b, show word.length - 1 + 1 = word.length by omega]]
        exact List.take_append_drop _ _
      next => rw [List.flatten_cons, ih, List.drop_zero, List.drop_zero, List.singleton_append]

/-- Each block is an element or a word, and every word that is met starts a block and is it. -/
def Cuts (letter : β → α) (words : List (List α)) : List (List β) → Prop
  | [] => True
  | block :: rest =>
    (∀ word ∈ words, ∀ k < block.length, word <+: ((block ++ rest.flatten).drop k).map letter →
      k = 0 ∧ block.map letter = word) ∧ Cuts letter words rest

omit [DecidableEq α] in
theorem Separate.tail {a : α} {rest : List α} (so : Separate words (a :: rest)) :
    Separate words rest := by
  intro one known other known' p q first second before overlap
  have both := so one known other known' (p + 1) (q + 1) first second (by omega) (by omega)
  exact ⟨both.1, by omega⟩

theorem cutFrom_cuts (skip : Nat) (some : ∀ word ∈ words, word ≠ [])
    (separate : Separate words (text.map letter)) :
    Cuts letter words (cutFrom letter words skip text) := by
  induction text generalizing skip with
  | nil => cases skip <;> exact trivial
  | cons b rest ih =>
    have tail := separate.tail
    cases skip with
    | succ skip => exact ih skip tail
    | zero =>
      have whole := flatten_cutFrom letter words 0 (b :: rest)
      rw [List.drop_zero] at whole
      cases e : words.find? (fun word => word ≠ [] ∧ word <+: (b :: rest).map letter) with
      | some word =>
        rw [cutFrom, e] at whole ⊢
        refine ⟨?_, ih _ tail⟩
        rw [← List.flatten_cons, whole]
        have member := List.mem_of_find?_eq_some e
        have found := List.find?_some e
        simp only [decide_eq_true_eq] at found
        have size := found.2.length_le
        rw [List.length_map] at size
        intro other known k within occurs
        rw [List.length_take_of_le size] at within
        rw [List.map_drop] at occurs
        obtain ⟨same, start⟩ := separate word member other known 0 k found.2 occurs
          (Nat.zero_le k) (by omega)
        refine ⟨start.symm, ?_⟩
        rw [List.map_take, ← same]
        exact (List.prefix_iff_eq_take.mp found.2).symm
      | none =>
        rw [cutFrom, e] at whole ⊢
        refine ⟨?_, ih _ tail⟩
        rw [← List.flatten_cons, whole]
        intro word known k within occurs
        obtain rfl : k = 0 := by
          rw [List.length_singleton] at within
          omega
        have missing := List.find?_eq_none.mp e word known
        simp only [decide_eq_true_eq, not_and] at missing
        exact absurd occurs (missing (some word known))

omit [DecidableEq α] in
private theorem prefix_append_cases {w x y : List β} (found : w <+: x ++ y) :
    w <+: x ∨ ∃ tail, w = x ++ tail ∧ tail <+: y := by
  rcases Nat.le_total w.length x.length with short | long
  · exact Or.inl (List.prefix_of_prefix_length_le found (List.prefix_append _ _) short)
  · obtain ⟨tail, rfl⟩ := List.prefix_of_prefix_length_le (List.prefix_append _ _) found long
    rw [List.prefix_append_right_inj] at found
    exact Or.inr ⟨tail, rfl, found⟩

/-- A prefix that takes no element of a replacement is a prefix of the text as it was. -/
private theorem prefix_unmarked {blocks : List (List β)} {w : List β}
    (so : Replacement marked new) (plain : ∀ b ∈ w, ¬ marked b)
    (found : w <+: blocks.flatMap (shown letter hidden new)) : w <+: blocks.flatten := by
  induction blocks generalizing w with
  | nil => exact found
  | cons block rest ih =>
    rw [List.flatMap_cons] at found
    rw [List.flatten_cons]
    unfold shown at found
    split at found
    next =>
      cases w with
      | nil => exact List.nil_prefix
      | cons b w =>
        -- The first element would be one of the replacement.
        obtain ⟨first, more, same⟩ := List.exists_cons_of_ne_nil so.some
        rw [same, List.cons_append, List.cons_prefix_cons] at found
        have mark := so.marked first (by rw [same]; exact List.mem_cons_self)
        rw [← found.1] at mark
        exact absurd mark (plain b List.mem_cons_self)
    next =>
      rcases prefix_append_cases found with inside | ⟨tail, rfl, later⟩
      · exact inside.trans (List.prefix_append _ _)
      · rw [List.prefix_append_right_inj]
        exact ih (fun b member => plain b (List.mem_append_right _ member)) later

/-- Where a word is met from some place of a block on, the block as it is shown is the word. -/
private theorem met_in_block {block : List β} {rest : List (List β)} {k : Nat} (some : word ≠ [])
    (so : Replacement marked new) (known : word ∈ words) (cuts : Cuts letter words (block :: rest))
    (original : ∀ b ∈ block, ¬ marked b)
    (clear : ∀ w, w <:+: (block :: rest).flatMap (shown letter hidden new) →
      w.map letter = word → w = new ∨ ∀ b ∈ w, ¬ marked b)
    (within : k < (shown letter hidden new block).length)
    (met : word <+: ((shown letter hidden new block ++
      rest.flatMap (shown letter hidden new)).drop k).map letter) :
    (shown letter hidden new block).map letter = word := by
  obtain ⟨w, found, same⟩ : ∃ w, w <+: (shown letter hidden new block ++
      rest.flatMap (shown letter hidden new)).drop k ∧ w.map letter = word := by
    refine ⟨_, List.take_prefix word.length _, ?_⟩
    rw [List.map_take]
    exact (List.prefix_iff_eq_take.mp met).symm
  have part : w <:+: (block :: rest).flatMap (shown letter hidden new) := by
    rw [List.flatMap_cons]
    exact found.isInfix.trans (List.drop_suffix _ _).isInfix
  have split : (shown letter hidden new block ++ rest.flatMap (shown letter hidden new)).drop k =
      (shown letter hidden new block).drop k ++ rest.flatMap (shown letter hidden new) :=
    List.drop_append_of_le_length (Nat.le_of_lt within)
  -- The word starts with the element of the block at `k`.
  obtain ⟨b, w, rfl⟩ : ∃ b tail, w = b :: tail := by
    apply List.exists_cons_of_ne_nil
    rintro rfl
    exact some same.symm
  have first : b = (shown letter hidden new block)[k] := by
    rw [split, List.drop_eq_getElem_cons within, List.cons_append, List.cons_prefix_cons] at found
    exact found.1
  have member : b ∈ shown letter hidden new block := by
    rw [first]
    exact List.getElem_mem within
  have kind := clear _ part same
  by_cases covered : block.map letter ∈ hidden
  · have new' : shown letter hidden new block = new := if_pos covered
    rw [new'] at member ⊢
    rcases kind with whole | plain
    · rw [← whole]
      exact same
    · exact absurd (so.marked b member) (plain b List.mem_cons_self)
  · have block' : shown letter hidden new block = block := if_neg covered
    rw [block'] at member within split found ⊢
    rcases kind with whole | plain
    · have mark := so.marked b (by rw [← whole]; exact List.mem_cons_self)
      exact absurd mark (original b member)
    · have before : b :: w <+: (block ++ rest.flatten).drop k := by
        rw [List.drop_append_of_le_length (Nat.le_of_lt within)]
        rw [split] at found
        rcases prefix_append_cases found with inside | ⟨tail, cut, later⟩
        · exact inside.trans (List.prefix_append _ _)
        · rw [cut, List.prefix_append_right_inj]
          refine prefix_unmarked so (fun c listed => plain c ?_) later
          rw [cut]
          exact List.mem_append_right _ listed
      have occurs : word <+: ((block ++ rest.flatten).drop k).map letter := by
        rw [← same]
        exact before.map letter
      exact (cuts.1 word known k within occurs).2

/-- Replacing one more word in the blocks. -/
private theorem replace_blocks {blocks : List (List β)} (some : word ≠ [])
    (so : Replacement marked new) (known : word ∈ words) (cuts : Cuts letter words blocks)
    (original : ∀ block ∈ blocks, ∀ b ∈ block, ¬ marked b)
    (clear : ∀ w, w <:+: blocks.flatMap (shown letter hidden new) →
      w.map letter = word → w = new ∨ ∀ b ∈ w, ¬ marked b) :
    replaceFrom letter word new 0 (blocks.flatMap (shown letter hidden new)) =
      blocks.flatMap (shown letter (word :: hidden) new) := by
  induction blocks with
  | nil => rfl
  | cons block rest ih =>
    have later := ih cuts.2 (fun one member => original one (List.mem_cons_of_mem _ member))
      (fun w found same => clear w (by
        rw [List.flatMap_cons]
        exact found.trans (List.suffix_append _ _).isInfix) same)
    rw [List.flatMap_cons, List.flatMap_cons]
    by_cases same : (shown letter hidden new block).map letter = word
    · rw [replaceFrom_hit some same, later]
      congr 1
      unfold shown at same ⊢
      split at same
      next covered => rw [if_pos (List.mem_cons_of_mem _ covered)]
      next => rw [if_pos (by rw [same]; exact List.mem_cons_self)]
    · rw [replaceFrom_none, later]
      · congr 1
        unfold shown at same ⊢
        split at same
        next covered => rw [if_pos covered, if_pos (List.mem_cons_of_mem _ covered)]
        next uncovered =>
          rw [if_neg uncovered, if_neg]
          rintro found
          rcases List.mem_cons.mp found with met | met
          · exact same met
          · exact uncovered met
      · intro k within met
        exact same (met_in_block some so known cuts (original block List.mem_cons_self) clear
          within met)

theorem original_blocks (original : ∀ b ∈ text, ¬ marked b) :
    ∀ block ∈ cutFrom letter words 0 text, ∀ b ∈ block, ¬ marked b := by
  intro block listed b member
  apply original b
  have whole := flatten_cutFrom letter words 0 text
  rw [List.drop_zero] at whole
  rw [← whole]
  exact List.mem_flatten.mpr ⟨block, listed, member⟩

theorem conceal_nil (words : List (List α)) (new text : List β) :
    conceal letter words [] new text = text := by
  have whole := flatten_cutFrom letter words 0 text
  rw [List.drop_zero] at whole
  rw [conceal]
  have none : (shown letter [] new : List β → List β) = id := by
    funext block
    exact if_neg List.not_mem_nil
  rw [none, List.flatMap_id, whole]

/-- The conditions on a text. -/
structure Plain (letter : β → α) (marked : β → Prop) (words : List (List α)) (new text : List β) :
    Prop where
  separate : Separate words (text.map letter)
  clear : Clear letter marked words new text
  original : ∀ b ∈ text, ¬ marked b

theorem replaceAll_conceal (some : ∀ word ∈ words, word ≠ []) (so : Replacement marked new)
    (plain : Plain letter marked words new text) (known : word ∈ words) (listed : hidden ⊆ words) :
    replaceAll letter word new (conceal letter words hidden new text) =
      conceal letter words (word :: hidden) new text := by
  apply replace_blocks (some word known) so known (cutFrom_cuts 0 some plain.separate)
    (original_blocks plain.original)
  intro w found same
  exact plain.clear hidden listed w found (by rw [same]; exact known)

theorem conceal_congr {others : List (List α)} (same : ∀ word, word ∈ hidden ↔ word ∈ others) :
    conceal letter words hidden new text = conceal letter words others new text := by
  have equal : (shown letter hidden new : List β → List β) = shown letter others new := by
    funext block
    simp only [shown, same]
  rw [conceal, conceal, equal]

/-- Words replaced one after the other are replaced at once, in whatever order they come. -/
theorem replaceEach_eq {order : List (List α)} (some : ∀ word ∈ words, word ≠ [])
    (so : Replacement marked new) (plain : Plain letter marked words new text)
    (listed : order ⊆ words) :
    replaceEach letter order new text = conceal letter words order new text := by
  have run : ∀ (todo done : List (List α)), todo ⊆ words → done ⊆ words →
      replaceEach letter todo new (conceal letter words done new text) =
        conceal letter words (todo ++ done) new text := by
    intro todo
    induction todo with
    | nil => exact fun _ _ _ => rfl
    | cons word rest ih =>
      intro done known known'
      have head : word ∈ words := known List.mem_cons_self
      have tail : rest ⊆ words := fun one member => known (List.mem_cons_of_mem _ member)
      rw [replaceEach, List.foldl_cons, ← replaceEach, replaceAll_conceal some so plain head known']
      rw [ih (word :: done) tail (List.cons_subset.mpr ⟨head, known'⟩)]
      apply conceal_congr
      intro one
      simp only [List.mem_append, List.mem_cons]
      tauto
  have whole := run order [] listed (List.nil_subset _)
  rw [conceal_nil, List.append_nil] at whole
  exact whole

/-- The replacement itself stays as it is, when no other word is part of it. -/
theorem replaceEach_new {order : List (List α)} (some : ∀ word ∈ order, word ≠ [])
    (clear : ∀ word ∈ order, word <:+: new.map letter → word = new.map letter) :
    replaceEach letter order new new = new := by
  induction order with
  | nil => rfl
  | cons word rest ih =>
    have later := ih (fun one member => some one (List.mem_cons_of_mem _ member))
      (fun one member => clear one (List.mem_cons_of_mem _ member))
    have first : replaceAll letter word new (new ++ []) = new ++ [] := by
      unfold replaceAll
      by_cases same : new.map letter = word
      · rw [replaceFrom_hit (some word List.mem_cons_self) same]
        rfl
      · rw [replaceFrom_none]
        · rfl
        · intro k _ met
          rw [List.append_nil] at met
          have part : word <:+: new.map letter :=
            met.isInfix.trans ((List.drop_suffix k new).map letter).isInfix
          exact same (clear word List.mem_cons_self part).symm
    rw [List.append_nil] at first
    rw [replaceEach, List.foldl_cons, first, ← replaceEach]
    exact later

/-- The letters of a text, each with its place. -/
def placedFrom (start : Nat) : List α → List (α × Option Nat)
  | [] => []
  | a :: rest => (a, some start) :: placedFrom (start + 1) rest

def placed (text : List α) : List (α × Option Nat) := placedFrom 0 text

/-- Letters that are put into a text. -/
def stamped (new : List α) : List (α × Option Nat) := new.map (fun a => (a, none))

def Stamped (b : α × Option Nat) : Prop := b.2 = none

/-- The place is inside an occurrence of a word. -/
def Inside (words : List (List α)) (text : List α) (i : Nat) : Prop :=
  ∃ word ∈ words, ∃ start, word <+: text.drop start ∧ start ≤ i ∧ i < start + word.length

omit [DecidableEq α] in
theorem map_fst_placedFrom (start : Nat) (text : List α) :
    (placedFrom start text).map Prod.fst = text := by
  induction text generalizing start with
  | nil => rfl
  | cons a rest ih => rw [placedFrom, List.map_cons, ih]

omit [DecidableEq α] in
theorem map_fst_placed (text : List α) : (placed text).map Prod.fst = text :=
  map_fst_placedFrom 0 text

omit [DecidableEq α] in
theorem map_fst_stamped (new : List α) : (stamped new).map Prod.fst = new := by
  rw [stamped, List.map_map]
  exact List.map_id new

omit [DecidableEq α] in
theorem placedFrom_append (start : Nat) (first second : List α) :
    placedFrom start (first ++ second) =
      placedFrom start first ++ placedFrom (start + first.length) second := by
  induction first generalizing start with
  | nil => rfl
  | cons a rest ih =>
    rw [List.cons_append, placedFrom, ih, placedFrom, List.cons_append, List.length_cons,
      show start + 1 + rest.length = start + (rest.length + 1) by omega]

omit [DecidableEq α] in
theorem mem_placedFrom {start : Nat} {text : List α} {b : α × Option Nat}
    (member : b ∈ placedFrom start text) :
    ∃ i, b.2 = some i ∧ start ≤ i ∧ i < start + text.length := by
  induction text generalizing start with
  | nil => cases member
  | cons a rest ih =>
    rcases List.mem_cons.mp member with rfl | later
    · exact ⟨start, rfl, Nat.le_refl _, by simp⟩
    · obtain ⟨i, same, low, high⟩ := ih later
      refine ⟨i, same, by omega, ?_⟩
      rw [List.length_cons]
      omega

omit [DecidableEq α] in
theorem replacement_stamped {new : List α} (some : new ≠ []) :
    Replacement Stamped (stamped new) where
  some := fun none => some (List.map_eq_nil_iff.mp none)
  marked := fun b member => by
    obtain ⟨a, -, rfl⟩ := List.mem_map.mp member
    rfl

omit [DecidableEq α] in
theorem original_placed (text : List α) : ∀ b ∈ placed text, ¬ Stamped b := by
  intro b member none
  obtain ⟨i, same, -⟩ := mem_placedFrom member
  rw [Stamped, same] at none
  cases none

private theorem mem_shown {blocks : List (List β)} {b : β}
    (member : b ∈ blocks.flatMap (shown letter hidden new)) : b ∈ new ∨ b ∈ blocks.flatten := by
  obtain ⟨block, listed, inside⟩ := List.mem_flatMap.mp member
  unfold shown at inside
  split at inside
  next => exact Or.inl inside
  next => exact Or.inr (List.mem_flatten.mpr ⟨block, listed, inside⟩)

omit [DecidableEq α] in
private theorem not_mem_stamped {new : List α} {b : α × Option Nat} {i : Nat}
    (member : b ∈ stamped new) : b.2 ≠ some i := by
  obtain ⟨a, -, rfl⟩ := List.mem_map.mp member
  intro same
  cases same

private theorem kept_outside {blocks : List (List (α × Option Nat))} {new : List α} {start i : Nat}
    {b : α × Option Nat} (cuts : Cuts Prod.fst words blocks)
    (places : blocks.flatten = placedFrom start (blocks.flatten.map Prod.fst))
    (member : b ∈ blocks.flatMap (shown Prod.fst words (stamped new)))
    (same : b.2 = some (start + i)) : ¬ Inside words (blocks.flatten.map Prod.fst) i := by
  induction blocks generalizing start i with
  | nil => cases member
  | cons block rest ih =>
    rw [List.flatten_cons, List.map_append, placedFrom_append, List.length_map] at places
    have sizes : block.length = (placedFrom start (block.map Prod.fst)).length := by
      have size := congrArg List.length (map_fst_placedFrom start (block.map Prod.fst))
      rw [List.length_map, List.length_map] at size
      exact size.symm
    obtain ⟨here, later⟩ := List.append_inj places sizes
    rw [List.flatMap_cons, List.mem_append] at member
    rintro ⟨word, known, p, occurs, low, high⟩
    rw [List.flatten_cons] at occurs
    -- An occurrence that starts in the block is the block.
    have met : p < block.length → p = 0 ∧ block.map Prod.fst = word := by
      intro within
      rw [← List.map_drop] at occurs
      exact cuts.1 word known p within occurs
    rcases member with inside | after
    · unfold shown at inside
      split at inside
      next => exact not_mem_stamped inside same
      next uncovered =>
        rw [here] at inside
        obtain ⟨place, at', -, below⟩ := mem_placedFrom inside
        rw [same] at at'
        have equal := Option.some.inj at'
        rw [List.length_map] at below
        have whole := (met (by omega)).2
        rw [whole] at uncovered
        exact uncovered known
    · rcases mem_shown after with stamp | plain
      · exact not_mem_stamped stamp same
      · rw [later] at plain
        obtain ⟨place, at', above, -⟩ := mem_placedFrom plain
        rw [same] at at'
        have equal := Option.some.inj at'
        by_cases within : p < block.length
        · obtain ⟨rfl, whole⟩ := met within
          rw [← whole, List.length_map] at high
          omega
        · have shift : start + i = start + block.length + (i - block.length) := by omega
          rw [shift] at same
          refine ih cuts.2 later after same ⟨word, known, p - block.length, ?_, by omega, by omega⟩
          rw [List.map_append, List.drop_append, List.drop_eq_nil_of_le (by simp; omega),
            List.length_map, List.nil_append] at occurs
          exact occurs

/-- A letter that stays was outside every word. -/
theorem conceal_outside {new text : List α} {i : Nat} {b : α × Option Nat}
    (nonempty : ∀ word ∈ words, word ≠ []) (separate : Separate words text)
    (member : b ∈ conceal Prod.fst words words (stamped new) (placed text)) (same : b.2 = some i) :
    ¬ Inside words text i := by
  have whole := flatten_cutFrom Prod.fst words 0 (placed text)
  rw [List.drop_zero] at whole
  have letters := map_fst_placed text
  have cuts : Cuts Prod.fst words (cutFrom Prod.fst words 0 (placed text)) := by
    apply cutFrom_cuts 0 nonempty
    rw [letters]
    exact separate
  have outside := @kept_outside _ _ _ _ new 0 i b cuts
    (by rw [whole, letters]; rfl) member (by rw [Nat.zero_add]; exact same)
  rw [whole, letters] at outside
  exact outside

end Replacing
