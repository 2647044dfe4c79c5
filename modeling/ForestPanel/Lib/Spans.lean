import Mathlib.Data.List.Basic

/-!
# Spans of a text

A text has spans that are to be taken out of it. `merge` joins the spans that overlap or touch, and
`partsFrom` cuts the text at what is left: parts taken out and parts that are kept, in turn.
-/
namespace Spans

structure Span where
  start : Nat
  stop : Nat
  complete : Bool
  deriving DecidableEq, Repr

def Span.Covers (span : Span) (i : Nat) : Prop := span.start ≤ i ∧ i < span.stop

def Span.Within (span whole : Span) : Prop := whole.start ≤ span.start ∧ span.stop ≤ whole.stop

/-- Some span of the list covers the place. -/
def Covered (spans : List Span) (i : Nat) : Prop := ∃ span ∈ spans, span.Covers i

def Span.join (last span : Span) : Span :=
  ⟨last.start, max last.stop span.stop, last.complete || span.complete⟩

/-- The loop over the spans; `last` is the span it goes on joining to. -/
def mergeFrom (last : Span) : List Span → List Span
  | [] => [last]
  | span :: rest =>
    if span.start ≤ last.stop then mergeFrom (last.join span) rest else last :: mergeFrom span rest

def merge : List Span → List Span
  | [] => []
  | span :: rest => mergeFrom span rest

/-- What merging makes of spans that come in the order of their starts. -/
structure Merged (spans merged : List Span) : Prop where
  valid : ∀ part ∈ merged, part.start < part.stop
  apart : merged.Pairwise (fun earlier later => earlier.stop < later.start)
  covers : ∀ i, Covered merged i ↔ Covered spans i
  holds : ∀ span ∈ spans, ∃ part ∈ merged, span.Within part ∧
    (span.complete = true → part.complete = true)
  complete : ∀ part ∈ merged, part.complete = true →
    ∃ span ∈ spans, span.Within part ∧ span.complete = true
  stops : ∀ part ∈ merged, ∃ span ∈ spans, part.stop = span.stop
  starts : ∀ part ∈ merged, ∃ span ∈ spans, part.start = span.start

variable {last span : Span} {spans rest merged : List Span}

variable {i : Nat} {removed : Nat → Prop}

theorem covered_cons : Covered (span :: rest) i ↔ span.Covers i ∨ Covered rest i := by
  simp [Covered]

/-- Joined spans cover what the two cover, when they overlap or touch. -/
theorem covers_join (ordered : last.start ≤ span.start) (touches : span.start ≤ last.stop) :
    (last.join span).Covers i ↔ last.Covers i ∨ span.Covers i := by
  unfold Span.Covers Span.join
  dsimp only
  omega

private theorem merged_join (ordered : last.start ≤ span.start) (touches : span.start ≤ last.stop)
    (so : Merged (last.join span :: rest) merged) : Merged (last :: span :: rest) merged := by
  obtain ⟨whole, member, within, kept⟩ := so.holds _ List.mem_cons_self
  have low : whole.start ≤ last.start := within.1
  have high : max last.stop span.stop ≤ whole.stop := within.2
  constructor
  case valid => exact so.valid
  case apart => exact so.apart
  case covers =>
    intro i
    rw [so.covers, covered_cons, covers_join ordered touches, covered_cons, covered_cons, or_assoc]
  case holds =>
    intro one found
    rcases List.mem_cons.mp found with rfl | found
    · refine ⟨whole, member, ⟨low, by omega⟩, fun flagged => kept ?_⟩
      simp [Span.join, flagged]
    · rcases List.mem_cons.mp found with rfl | found
      · refine ⟨whole, member, ⟨by omega, by omega⟩, fun flagged => kept ?_⟩
        simp [Span.join, flagged]
      · exact so.holds one (List.mem_cons_of_mem _ found)
  case complete =>
    intro part listed flagged
    obtain ⟨one, found, inside, marked⟩ := so.complete part listed flagged
    rcases List.mem_cons.mp found with rfl | found
    · have left : part.start ≤ last.start := inside.1
      have right : max last.stop span.stop ≤ part.stop := inside.2
      simp only [Span.join, Bool.or_eq_true] at marked
      rcases marked with marked | marked
      · exact ⟨last, List.mem_cons_self, ⟨left, by omega⟩, marked⟩
      · exact ⟨span, by simp, ⟨by omega, by omega⟩, marked⟩
    · exact ⟨one, by simp [found], inside, marked⟩
  case stops =>
    intro part listed
    obtain ⟨one, found, same⟩ := so.stops part listed
    rcases List.mem_cons.mp found with rfl | found
    · simp only [Span.join] at same
      rcases Nat.le_total last.stop span.stop with less | less
      · exact ⟨span, by simp, by omega⟩
      · exact ⟨last, by simp, by omega⟩
    · exact ⟨one, by simp [found], same⟩
  case starts =>
    intro part listed
    obtain ⟨one, found, same⟩ := so.starts part listed
    rcases List.mem_cons.mp found with rfl | found
    · exact ⟨last, List.mem_cons_self, same⟩
    · exact ⟨one, by simp [found], same⟩

private theorem merged_next (valid : last.start < last.stop) (after : last.stop < span.start)
    (ordered : ∀ one ∈ span :: rest, span.start ≤ one.start) (so : Merged (span :: rest) merged) :
    Merged (last :: span :: rest) (last :: merged) := by
  constructor
  case valid =>
    intro part listed
    rcases List.mem_cons.mp listed with rfl | listed
    · exact valid
    · exact so.valid part listed
  case apart =>
    refine List.pairwise_cons.mpr ⟨fun part listed => ?_, so.apart⟩
    obtain ⟨one, found, same⟩ := so.starts part listed
    have later := ordered one found
    omega
  case covers =>
    intro i
    rw [covered_cons, covered_cons, so.covers]
  case holds =>
    intro one found
    rcases List.mem_cons.mp found with rfl | found
    · exact ⟨one, List.mem_cons_self, ⟨Nat.le_refl _, Nat.le_refl _⟩, id⟩
    · obtain ⟨part, listed, inside, marked⟩ := so.holds one found
      exact ⟨part, List.mem_cons_of_mem _ listed, inside, marked⟩
  case complete =>
    intro part listed flagged
    rcases List.mem_cons.mp listed with rfl | listed
    · exact ⟨part, List.mem_cons_self, ⟨Nat.le_refl _, Nat.le_refl _⟩, flagged⟩
    · obtain ⟨one, found, inside, marked⟩ := so.complete part listed flagged
      exact ⟨one, List.mem_cons_of_mem _ found, inside, marked⟩
  case stops =>
    intro part listed
    rcases List.mem_cons.mp listed with rfl | listed
    · exact ⟨part, List.mem_cons_self, rfl⟩
    · obtain ⟨one, found, same⟩ := so.stops part listed
      exact ⟨one, List.mem_cons_of_mem _ found, same⟩
  case starts =>
    intro part listed
    rcases List.mem_cons.mp listed with rfl | listed
    · exact ⟨part, List.mem_cons_self, rfl⟩
    · obtain ⟨one, found, same⟩ := so.starts part listed
      exact ⟨one, List.mem_cons_of_mem _ found, same⟩

theorem mergeFrom_merged (valid : ∀ one ∈ last :: rest, one.start < one.stop)
    (ordered : (last :: rest).Pairwise (fun earlier later => earlier.start ≤ later.start)) :
    Merged (last :: rest) (mergeFrom last rest) := by
  induction rest generalizing last with
  | nil =>
    have first := valid last List.mem_cons_self
    constructor
    case valid => simpa [mergeFrom] using first
    case apart => simp [mergeFrom]
    case covers => simp [mergeFrom]
    case holds => simp [mergeFrom, Span.Within]
    case complete => simp [mergeFrom, Span.Within]
    case stops => simp [mergeFrom]
    case starts => simp [mergeFrom]
  | cons span rest ih =>
    obtain ⟨low, tail⟩ := List.pairwise_cons.mp ordered
    obtain ⟨next, others⟩ := List.pairwise_cons.mp tail
    have first := valid last List.mem_cons_self
    have second := valid span (by simp)
    have start := low span List.mem_cons_self
    unfold mergeFrom
    split
    next touches =>
      apply merged_join start touches
      apply ih
      · intro one found
        rcases List.mem_cons.mp found with rfl | found
        · simp only [Span.join]
          omega
        · exact valid one (by simp [found])
      · refine List.pairwise_cons.mpr ⟨fun one found => ?_, others⟩
        exact low one (List.mem_cons_of_mem _ found)
    next apart =>
      apply merged_next first (by omega)
      · intro one found
        rcases List.mem_cons.mp found with rfl | found
        · exact Nat.le_refl _
        · exact next one found
      · exact ih (fun one found => valid one (List.mem_cons_of_mem _ found)) tail

theorem merge_merged (valid : ∀ one ∈ spans, one.start < one.stop)
    (ordered : spans.Pairwise (fun earlier later => earlier.start ≤ later.start)) :
    Merged spans (merge spans) := by
  cases spans with
  | nil =>
    constructor <;> simp [merge]
  | cons span rest => exact mergeFrom_merged valid ordered

/-- Spans that are apart and cover one place are the same. -/
theorem apart_unique {first second : Span}
    (apart : merged.Pairwise (fun earlier later => earlier.stop < later.start))
    (one : first ∈ merged) (other : second ∈ merged) (covers : first.Covers i)
    (covers' : second.Covers i) : first = second := by
  induction merged with
  | nil => cases one
  | cons head tail ih =>
    obtain ⟨before, rest⟩ := List.pairwise_cons.mp apart
    unfold Span.Covers at covers covers'
    rcases List.mem_cons.mp one with same | listed
    · rcases List.mem_cons.mp other with same' | listed'
      · rw [same, same']
      · have later := before second listed'
        rw [same] at covers
        omega
    · rcases List.mem_cons.mp other with same' | listed'
      · have later := before first listed
        rw [same'] at covers'
        omega
      · exact ih rest listed listed'

variable {α : Type}

structure Part (α : Type) where
  removed : Bool
  elements : List α
  deriving DecidableEq, Repr

def slice (text : List α) (start stop : Nat) : List α := (text.drop start).take (stop - start)

def keptPart (elements : List α) : List (Part α) :=
  match elements with
  | [] => []
  | first :: rest => [⟨false, first :: rest⟩]

def partsFrom (text : List α) (start : Nat) : List Span → List (Part α)
  | [] => keptPart (text.drop start)
  | span :: rest =>
    keptPart (slice text start span.start) ++
      ⟨true, slice text span.start span.stop⟩ :: partsFrom text span.stop rest

/-- A part is removed when all its places are, and kept when none of them is. -/
def Flagged (removed : Nat → Prop) : Nat → List (Part α) → Prop
  | _, [] => True
  | start, part :: rest =>
    (∀ i, start ≤ i → i < start + part.elements.length → (part.removed = true ↔ removed i)) ∧
      Flagged removed (start + part.elements.length) rest

/-- The parts a text falls into by which of its places are removed: runs as long as can be. -/
structure Divides (removed : Nat → Prop) (text : List α) (parts : List (Part α)) : Prop where
  whole : parts.flatMap Part.elements = text
  some : ∀ part ∈ parts, part.elements ≠ []
  alternate : parts.IsChain (fun one next => one.removed ≠ next.removed)
  flagged : Flagged removed 0 parts

/-- Spans that lie in a text from a place on, apart and in order. -/
structure Ordered (text : List α) (start : Nat) (spans : List Span) : Prop where
  after : ∀ span ∈ spans, start ≤ span.start
  valid : ∀ span ∈ spans, span.start < span.stop
  inside : ∀ span ∈ spans, span.stop ≤ text.length
  apart : spans.Pairwise (fun earlier later => earlier.stop < later.start)

variable {text : List α} {start : Nat}

theorem Ordered.others (so : Ordered text start (span :: rest)) : Ordered text span.stop rest where
  after := fun one found => Nat.le_of_lt ((List.pairwise_cons.mp so.apart).1 one found)
  valid := fun one found => so.valid one (List.mem_cons_of_mem _ found)
  inside := fun one found => so.inside one (List.mem_cons_of_mem _ found)
  apart := (List.pairwise_cons.mp so.apart).2

@[simp] theorem flatMap_keptPart (elements : List α) :
    (keptPart elements).flatMap Part.elements = elements := by
  cases elements <;> simp [keptPart]

theorem mem_keptPart {part : Part α} {elements : List α} (member : part ∈ keptPart elements) :
    part.removed = false ∧ part.elements ≠ [] := by
  cases elements with
  | nil => cases member
  | cons first tail =>
    obtain rfl := List.mem_singleton.mp member
    exact ⟨rfl, List.cons_ne_nil _ _⟩

theorem slice_length {stop : Nat} (ordered : start ≤ stop) (inside : stop ≤ text.length) :
    (slice text start stop).length = stop - start := by
  rw [slice, List.length_take_of_le]
  rw [List.length_drop]
  omega

theorem slice_append_drop {stop : Nat} (ordered : start ≤ stop) :
    slice text start stop ++ text.drop stop = text.drop start := by
  have tail : text.drop stop = (text.drop start).drop (stop - start) := by
    rw [List.drop_drop]
    congr 1
    omega
  rw [slice, tail, List.take_append_drop]

theorem partsFrom_whole (so : Ordered text start spans) :
    (partsFrom text start spans).flatMap Part.elements = text.drop start := by
  induction spans generalizing start with
  | nil => simp [partsFrom]
  | cons span rest ih =>
    have first := so.after span List.mem_cons_self
    have valid := so.valid span List.mem_cons_self
    rw [partsFrom, List.flatMap_append, flatMap_keptPart, List.flatMap_cons, ih so.others]
    rw [slice_append_drop (Nat.le_of_lt valid), slice_append_drop first]

theorem partsFrom_some (so : Ordered text start spans) :
    ∀ part ∈ partsFrom text start spans, part.elements ≠ [] := by
  induction spans generalizing start with
  | nil => exact fun part member => (mem_keptPart member).2
  | cons span rest ih =>
    intro part member
    rw [partsFrom, List.mem_append, List.mem_cons] at member
    rcases member with kept | rfl | later
    · exact (mem_keptPart kept).2
    · have valid := so.valid span List.mem_cons_self
      have size := slice_length (Nat.le_of_lt valid) (so.inside span List.mem_cons_self)
      apply List.ne_nil_of_length_pos
      dsimp only
      omega
    · exact ih so.others part later

private theorem alternate_keptPart {elements : List α} {removed : Part α} {parts : List (Part α)}
    (flag : removed.removed = true)
    (chain : (removed :: parts).IsChain (fun one next => one.removed ≠ next.removed)) :
    (keptPart elements ++ removed :: parts).IsChain
      (fun one next => one.removed ≠ next.removed) := by
  cases elements with
  | nil => exact chain
  | cons first tail =>
    simp only [keptPart, List.singleton_append]
    refine List.isChain_cons_cons.mpr ⟨?_, chain⟩
    rw [flag]
    exact Bool.false_ne_true

/-- What follows a removed part starts with a part that is kept. -/
private theorem starts_kept (so : Ordered text start spans)
    (strict : ∀ span ∈ spans, start < span.start) :
    ∀ part ∈ (partsFrom text start spans).head?, part.removed = false := by
  intro part first
  cases spans with
  | nil =>
    exact (mem_keptPart (List.mem_of_mem_head? first)).1
  | cons span rest =>
    have later := strict span List.mem_cons_self
    have valid := so.valid span List.mem_cons_self
    have inside := so.inside span List.mem_cons_self
    have size : (slice text start span.start).length = span.start - start :=
      slice_length (Nat.le_of_lt later) (by omega)
    rw [partsFrom] at first
    cases e : slice text start span.start with
    | nil =>
      rw [e, List.length_nil] at size
      omega
    | cons head tail =>
      rw [e] at first
      simp only [keptPart, List.singleton_append, List.head?_cons, Option.mem_some_iff] at first
      rw [← first]

theorem partsFrom_alternate (so : Ordered text start spans) :
    (partsFrom text start spans).IsChain (fun one next => one.removed ≠ next.removed) := by
  induction spans generalizing start with
  | nil =>
    rw [partsFrom]
    cases text.drop start <;> simp [keptPart]
  | cons span rest ih =>
    rw [partsFrom]
    apply alternate_keptPart rfl
    have kept := starts_kept so.others (List.pairwise_cons.mp so.apart).1
    cases e : partsFrom text span.stop rest with
    | nil => simp
    | cons next parts =>
      have chain := ih so.others
      rw [e] at chain kept
      refine List.isChain_cons_cons.mpr ⟨?_, chain⟩
      rw [kept next rfl]
      exact Bool.noConfusion

private theorem flagged_keptPart {elements : List α} {parts : List (Part α)}
    (kept : ∀ i, start ≤ i → i < start + elements.length → ¬ removed i)
    (later : Flagged removed (start + elements.length) parts) :
    Flagged removed start (keptPart elements ++ parts) := by
  cases elements with
  | nil => exact later
  | cons first tail =>
    refine ⟨fun i low high => ?_, later⟩
    simp [kept i low high]

theorem partsFrom_flagged (so : Ordered text start spans)
    (same : ∀ i, start ≤ i → i < text.length → (removed i ↔ Covered spans i)) :
    Flagged removed start (partsFrom text start spans) := by
  induction spans generalizing start with
  | nil =>
    rw [partsFrom, ← List.append_nil (keptPart _)]
    apply flagged_keptPart
    · intro i low high covered
      rw [List.length_drop] at high
      obtain ⟨one, member, -⟩ := (same i low (by omega)).mp covered
      exact List.not_mem_nil member
    · trivial
  | cons span rest ih =>
    have low := so.after span List.mem_cons_self
    have valid := so.valid span List.mem_cons_self
    have inside := so.inside span List.mem_cons_self
    have later := (List.pairwise_cons.mp so.apart).1
    have before : (slice text start span.start).length = span.start - start :=
      slice_length low (by omega)
    have size : (slice text span.start span.stop).length = span.stop - span.start :=
      slice_length (Nat.le_of_lt valid) inside
    -- Before the stop of the span nothing else is covered, and from there on it covers nothing.
    have first : ∀ i, start ≤ i → i < span.stop → (removed i ↔ span.start ≤ i) := by
      intro i above below
      rw [same i above (by omega), covered_cons]
      constructor
      · rintro (covers | ⟨one, found, covers⟩)
        · exact covers.1
        · have gap := later one found
          have from' := covers.1
          omega
      · exact fun reached => Or.inl ⟨reached, below⟩
    have others : ∀ i, span.stop ≤ i → i < text.length → (removed i ↔ Covered rest i) := by
      intro i above below
      rw [same i (by omega) below, covered_cons]
      constructor
      · rintro (covers | covers)
        · have stop := covers.2
          omega
        · exact covers
      · exact Or.inr
    rw [partsFrom]
    apply flagged_keptPart
    · intro i above below
      rw [before] at below
      rw [first i above (by omega)]
      omega
    · rw [before, show start + (span.start - start) = span.start by omega]
      refine ⟨fun i above below => ?_, ?_⟩
      · rw [size] at below
        simp [first i (by omega) (by omega), above]
      · dsimp only
        rw [size, show span.start + (span.stop - span.start) = span.stop by omega]
        exact ih so.others others

/-- Cutting a text at spans that are apart divides it by what they cover. -/
theorem partsFrom_divides (so : Ordered text 0 spans)
    (same : ∀ i, i < text.length → (removed i ↔ Covered spans i)) :
    Divides removed text (partsFrom text 0 spans) where
  whole := partsFrom_whole so
  some := partsFrom_some so
  alternate := partsFrom_alternate so
  flagged := partsFrom_flagged so (fun i _ => same i)

theorem flagged_at {before after : List (Part α)} {part : Part α}
    (so : Flagged removed start (before ++ part :: after)) {k : Nat}
    (inside : k < part.elements.length) :
    part.removed = true ↔ removed (start + (before.flatMap Part.elements).length + k) := by
  induction before generalizing start with
  | nil => exact so.1 _ (by simp) (by simpa using inside)
  | cons first tail ih =>
    rw [ih so.2, List.flatMap_cons, List.length_append, Nat.add_assoc start]

private theorem first_not_shorter {one other : Part α} {parts others : List (Part α)}
    (some : ∀ part ∈ parts, part.elements ≠ [])
    (alternate : (one :: parts).IsChain (fun one next => one.removed ≠ next.removed))
    (flagged : Flagged removed start (one :: parts)) (same : one.removed = other.removed)
    (flagged' : Flagged removed start (other :: others))
    (whole : one.elements ++ parts.flatMap Part.elements =
      other.elements ++ others.flatMap Part.elements) :
    other.elements.length ≤ one.elements.length := by
  by_contra shorter
  have sizes := congrArg List.length whole
  rw [List.length_append, List.length_append] at sizes
  cases parts with
  | nil =>
    rw [List.flatMap_nil, List.length_nil] at sizes
    omega
  | cons next parts =>
    -- The next part would start inside the other one, with the other flag.
    have positive := List.length_pos_iff.mpr (some next List.mem_cons_self)
    have differs := (List.isChain_cons_cons.mp alternate).1
    have here := flagged.2.1 (start + one.elements.length) (Nat.le_refl _) (by omega)
    have there := flagged'.1 (start + one.elements.length) (by omega) (by omega)
    apply differs
    rw [same, Bool.eq_iff_iff, here, there]

private theorem parts_unique {parts others : List (Part α)}
    (some : ∀ part ∈ parts, part.elements ≠ []) (some' : ∀ part ∈ others, part.elements ≠ [])
    (alternate : parts.IsChain (fun one next => one.removed ≠ next.removed))
    (alternate' : others.IsChain (fun one next => one.removed ≠ next.removed))
    (flagged : Flagged removed start parts) (flagged' : Flagged removed start others)
    (whole : parts.flatMap Part.elements = others.flatMap Part.elements) : parts = others := by
  induction parts generalizing others start with
  | nil =>
    cases others with
    | nil => rfl
    | cons other others =>
      have first := some' other List.mem_cons_self
      rw [List.flatMap_nil, List.flatMap_cons] at whole
      exact absurd (List.append_eq_nil_iff.mp whole.symm).1 first
  | cons one parts ih =>
    have first := some one List.mem_cons_self
    cases others with
    | nil =>
      rw [List.flatMap_nil, List.flatMap_cons] at whole
      exact absurd (List.append_eq_nil_iff.mp whole).1 first
    | cons other others =>
      have first' := some' other List.mem_cons_self
      have positive := List.length_pos_iff.mpr first
      have positive' := List.length_pos_iff.mpr first'
      rw [List.flatMap_cons, List.flatMap_cons] at whole
      have same : one.removed = other.removed := by
        have here := flagged.1 start (Nat.le_refl _) (by omega)
        have there := flagged'.1 start (Nat.le_refl _) (by omega)
        rw [Bool.eq_iff_iff, here, there]
      have tail : ∀ part ∈ parts, part.elements ≠ [] :=
        fun part member => some part (List.mem_cons_of_mem _ member)
      have tail' : ∀ part ∈ others, part.elements ≠ [] :=
        fun part member => some' part (List.mem_cons_of_mem _ member)
      have low := first_not_shorter tail alternate flagged same flagged' whole
      have high := first_not_shorter tail' alternate' flagged' same.symm flagged whole.symm
      have length := Nat.le_antisymm high low
      obtain ⟨elements, rest⟩ := List.append_inj whole length
      have equal : one = other := by
        cases one
        cases other
        simp only at same elements
        rw [same, elements]
      subst equal
      rw [ih tail tail' alternate.of_cons alternate'.of_cons flagged.2 flagged'.2 rest]

/-- A text falls into parts in one way. -/
theorem Divides.unique {parts others : List (Part α)} (one : Divides removed text parts)
    (other : Divides removed text others) : parts = others :=
  parts_unique one.some other.some one.alternate other.alternate one.flagged other.flagged
    (one.whole.trans other.whole.symm)

end Spans
