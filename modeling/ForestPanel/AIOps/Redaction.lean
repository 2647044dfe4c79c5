import Mathlib.Data.List.Infix
import Mathlib.Data.List.Sort
import Mathlib.Data.Nat.Find
import ForestPanel.Lib.Matching
import ForestPanel.Lib.Spans

/-!
# The output of remote commands

What a remote command prints is captured up to a limit, and is shown without the credentials of the
server. The credentials may overlap, hold one another, and arrive in pieces: each is searched in the
captured bytes, and the union of what was found is taken out once.
-/
namespace ForestPanel.AIOps

open Matching Spans

abbrev Bytes := List UInt8

def bytesOf (text : String) : Bytes := text.toUTF8.data.toList

structure CappedSSHOutput where
  bytes : Bytes
  limit : Int
  truncated : Bool

def CappedSSHOutput.write (w : CappedSSHOutput) (p : Bytes) : CappedSSHOutput :=
  let remaining := w.limit - (w.bytes.length : Int)
  { w with
    bytes := if 0 < remaining then w.bytes ++ p.take remaining.toNat else w.bytes
    truncated := w.truncated || decide (remaining < (p.length : Int)) }

def hiddenMark : Bytes := bytesOf "[已隐藏凭据]"

def hiddenPieceMark : Bytes := bytesOf "[已隐藏凭据片段]"

/-- The spans of one secret: its occurrences, and the longest prefix of it the output ends with. -/
def secretSpans (raw secret : Bytes) : List Span :=
  if secret = [] ∨ raw = [] then []
  else
    let found := search secret raw
    found.ends.map (fun stop => ⟨stop - secret.length, stop, true⟩) ++
      (if 0 < found.matched then [⟨raw.length - found.matched, raw.length, false⟩] else [])

def Earlier (one other : Span) : Prop :=
  one.start < other.start ∨ one.start = other.start ∧ one.stop ≤ other.stop

instance : DecidableRel Earlier := fun one other =>
  inferInstanceAs (Decidable (one.start < other.start ∨ one.start = other.start ∧ _))

def spanMark (complete final : Bool) : Bytes :=
  if complete then hiddenMark else if final then hiddenPieceMark else []

def writeFrom (raw : Bytes) (final : Bool) (start : Nat) : List Span → Bytes
  | [] => raw.drop start
  | span :: rest =>
    slice raw start span.start ++ spanMark span.complete final ++ writeFrom raw final span.stop rest

def redactSSHOutput (raw : Bytes) (secrets : List Bytes) (final : Bool) : Bytes :=
  let spans := secrets.flatMap (secretSpans raw)
  if spans = [] then raw else writeFrom raw final 0 (merge (spans.insertionSort Earlier))

def Inside (secrets : List Bytes) (raw : Bytes) (i : Nat) : Prop :=
  ∃ secret ∈ secrets, ∃ start, secret <+: raw.drop start ∧ start ≤ i ∧ i < start + secret.length

def EndsWithPiece (secrets : List Bytes) (raw : Bytes) (k : Nat) : Prop :=
  ∃ secret ∈ secrets, k < secret.length ∧ secret.take k <:+ raw

/-- The length of the longest suffix of the output that is a proper prefix of a secret. -/
structure LongestPiece (secrets : List Bytes) (raw : Bytes) (k : Nat) : Prop where
  ends : EndsWithPiece secrets raw k
  longest : ∀ m, EndsWithPiece secrets raw m → m ≤ k

/-- Inside an occurrence, or inside the longest suffix that may go on to be one. -/
def Hidden (secrets : List Bytes) (raw : Bytes) (i : Nat) : Prop :=
  Inside secrets raw i ∨ ∃ k, LongestPiece secrets raw k ∧ raw.length - k ≤ i

/-- How a part is shown: with a mark when it holds a whole secret, and otherwise, when it ends an
output to which more may come, not at all. -/
def shown (secrets : List Bytes) (final : Bool) (part : Spans.Part UInt8) : Bytes :=
  if part.removed then
    spanMark (secrets.any (fun secret => secret ≠ [] ∧ secret <:+: part.elements)) final
  else part.elements

example : redactSSHOutput (bytesOf "xabcdefy") [bytesOf "abc", bytesOf "bcdef"] true =
    bytesOf "x[已隐藏凭据]y" := by decide +kernel

variable {secrets : List Bytes} {raw secret : Bytes} {span : Span}

theorem occurrence_iff {stop : Nat} (within : stop ≤ raw.length) :
    secret <:+ raw.take stop ↔
      secret.length ≤ stop ∧ secret <+: raw.drop (stop - secret.length) := by
  constructor
  · rintro ⟨before, whole⟩
    have sizes := congrArg List.length whole
    rw [List.length_append, List.length_take_of_le within] at sizes
    refine ⟨by omega, raw.drop stop, ?_⟩
    have split : raw = before ++ (secret ++ raw.drop stop) := by
      rw [← List.append_assoc, whole, List.take_append_drop]
    have rest := congrArg (List.drop before.length) split
    rw [List.drop_left] at rest
    rw [← rest]
    congr 1
    omega
  · rintro ⟨shorter, after, whole⟩
    refine ⟨raw.take (stop - secret.length), ?_⟩
    have split : raw = (raw.take (stop - secret.length) ++ secret) ++ after := by
      rw [List.append_assoc, whole, List.take_append_drop]
    have size : (raw.take (stop - secret.length) ++ secret).length = stop := by
      rw [List.length_append, List.length_take_of_le (by omega)]
      omega
    have taken := congrArg (List.take stop) split
    rw [List.take_left' size] at taken
    exact taken.symm

/-- What a span of a secret stands for. -/
inductive Finds (raw secret : Bytes) : Span → Prop where
  | whole (start : Nat) (some : secret ≠ []) (inside : start + secret.length ≤ raw.length)
      (found : secret <+: raw.drop start) : Finds raw secret ⟨start, start + secret.length, true⟩
  | piece (k : Nat) (positive : 0 < k) (inside : k ≤ raw.length) (longest : Longest secret raw k) :
      Finds raw secret ⟨raw.length - k, raw.length, false⟩

theorem mem_secretSpans : span ∈ secretSpans raw secret ↔ Finds raw secret span := by
  unfold secretSpans
  by_cases skipped : secret = [] ∨ raw = []
  · rw [if_pos skipped]
    constructor
    · intro member
      cases member
    · intro found
      cases found with
      | whole start some inside found =>
        have positive := List.length_pos_iff.mpr some
        rcases skipped with none | none
        · exact absurd none some
        · rw [none, List.length_nil] at inside
          omega
      | piece k positive inside longest =>
        have proper := longest.proper
        rcases skipped with none | none
        · rw [none, List.length_nil] at proper
          omega
        · rw [none, List.length_nil] at inside
          omega
  · rw [if_neg skipped]
    have some : secret ≠ [] := fun none => skipped (Or.inl none)
    have searched := search_spec some raw
    rw [List.mem_append, List.mem_map]
    constructor
    · rintro (⟨stop, ended, rfl⟩ | piece)
      · obtain ⟨within, -, suffix⟩ := (searched.ends stop).mp ended
        obtain ⟨shorter, found⟩ := (occurrence_iff within).mp suffix
        have same : stop - secret.length + secret.length = stop := by omega
        have whole := Finds.whole (stop - secret.length) some (by omega) found
        rw [same] at whole
        exact whole
      · split at piece
        next positive =>
          obtain rfl := List.mem_singleton.mp piece
          have shorter := matches_length
            ⟨Nat.le_of_lt searched.longest.proper, searched.longest.found⟩
          exact Finds.piece _ positive shorter searched.longest
        next none => cases piece
    · intro found
      cases found with
      | whole start some inside found =>
        have positive := List.length_pos_iff.mpr some
        refine Or.inl ⟨start + secret.length, (searched.ends _).mpr ⟨inside, by omega, ?_⟩, ?_⟩
        · rw [occurrence_iff inside, Nat.add_sub_cancel]
          exact ⟨by omega, found⟩
        · rw [Nat.add_sub_cancel]
      | piece k positive inside longest =>
        have same : (search secret raw).matched = k := by
          apply Nat.le_antisymm
          · exact longest.longest _ searched.longest.proper searched.longest.found
          · exact searched.longest.longest _ longest.proper longest.found
        rw [same, if_pos positive]
        exact Or.inr (List.mem_singleton.mpr rfl)

theorem Finds.valid (found : Finds raw secret span) :
    span.start < span.stop ∧ span.stop ≤ raw.length := by
  cases found with
  | whole start some inside found =>
    have positive := List.length_pos_iff.mpr some
    exact ⟨by dsimp only; omega, inside⟩
  | piece k positive inside longest => exact ⟨by dsimp only; omega, Nat.le_refl _⟩

theorem longestPiece_iff {i : Nat} :
    (∃ k, LongestPiece secrets raw k ∧ raw.length - k ≤ i) ↔
      ∃ k, EndsWithPiece secrets raw k ∧ raw.length - k ≤ i := by
  constructor
  · rintro ⟨k, longest, reaches⟩
    exact ⟨k, longest.ends, reaches⟩
  · rintro ⟨k, ends, reaches⟩
    classical
    have bound : ∀ m, EndsWithPiece secrets raw m → m ≤ raw.length := by
      rintro m ⟨secret, -, proper, suffix⟩
      exact matches_length ⟨Nat.le_of_lt proper, suffix⟩
    have most := Nat.findGreatest_spec (bound k ends) ends
    have above := Nat.le_findGreatest (bound k ends) ends
    refine ⟨_, ⟨most, fun m other => Nat.le_findGreatest (bound m other) other⟩, ?_⟩
    omega

theorem hidden_iff {i : Nat} (within : i < raw.length) :
    Hidden secrets raw i ↔ Covered (secrets.flatMap (secretSpans raw)) i := by
  unfold Hidden
  rw [longestPiece_iff]
  constructor
  · rintro (⟨secret, known, start, found, low, high⟩ |
      ⟨k, ⟨secret, known, proper, suffix⟩, reaches⟩)
    · have size := found.length_le
      rw [List.length_drop] at size
      have some : secret ≠ [] := List.ne_nil_of_length_pos (by omega)
      have whole := Finds.whole start some (by omega) found
      exact ⟨_, List.mem_flatMap.mpr ⟨secret, known, mem_secretSpans.mpr whole⟩, low, high⟩
    · have some : secret ≠ [] := List.ne_nil_of_length_pos (by omega)
      have searched := (search_spec some raw).longest
      have longer := searched.longest k proper suffix
      have shorter := matches_length ⟨Nat.le_of_lt searched.proper, searched.found⟩
      have piece := Finds.piece _ (by omega) shorter searched
      refine ⟨_, List.mem_flatMap.mpr ⟨secret, known, mem_secretSpans.mpr piece⟩, ?_, within⟩
      dsimp only
      omega
  · rintro ⟨span, member, covers⟩
    obtain ⟨secret, known, listed⟩ := List.mem_flatMap.mp member
    cases mem_secretSpans.mp listed with
    | whole start some inside found => exact Or.inl ⟨secret, known, start, found, covers⟩
    | piece k positive inside longest =>
      exact Or.inr ⟨k, ⟨secret, known, longest.proper, longest.found⟩, covers.1⟩

private theorem earlier_total (one other : Span) : Earlier one other ∨ Earlier other one := by
  unfold Earlier
  omega

private theorem earlier_trans (one other third : Span) :
    Earlier one other → Earlier other third → Earlier one third := by
  unfold Earlier
  omega

def mergedSpans (raw : Bytes) (secrets : List Bytes) : List Span :=
  merge ((secrets.flatMap (secretSpans raw)).insertionSort Earlier)

theorem redactSSHOutput_eq (raw : Bytes) (secrets : List Bytes) (final : Bool) :
    redactSSHOutput raw secrets final = writeFrom raw final 0 (mergedSpans raw secrets) := by
  unfold redactSSHOutput mergedSpans
  dsimp only
  split
  next none =>
    rw [none]
    exact List.drop_zero.symm
  next => rfl

theorem finds_of_mem (member : span ∈ secrets.flatMap (secretSpans raw)) :
    ∃ secret ∈ secrets, Finds raw secret span := by
  obtain ⟨secret, known, listed⟩ := List.mem_flatMap.mp member
  exact ⟨secret, known, mem_secretSpans.mp listed⟩

theorem mergedSpans_merged (raw : Bytes) (secrets : List Bytes) :
    Merged ((secrets.flatMap (secretSpans raw)).insertionSort Earlier)
      (mergedSpans raw secrets) := by
  apply merge_merged
  · intro span member
    obtain ⟨secret, -, found⟩ := finds_of_mem ((List.mem_insertionSort _).mp member)
    exact found.valid.1
  · have total : Std.Total Earlier := ⟨earlier_total⟩
    have trans : IsTrans Span Earlier := ⟨earlier_trans⟩
    refine (List.pairwise_insertionSort Earlier _).imp ?_
    intro one other earlier
    unfold Earlier at earlier
    omega

theorem mergedSpans_ordered (raw : Bytes) (secrets : List Bytes) :
    Ordered raw 0 (mergedSpans raw secrets) := by
  have so := mergedSpans_merged raw secrets
  constructor
  case after => exact fun _ _ => Nat.zero_le _
  case valid => exact so.valid
  case inside =>
    intro part listed
    obtain ⟨span, member, same⟩ := so.stops part listed
    obtain ⟨secret, -, found⟩ := finds_of_mem ((List.mem_insertionSort _).mp member)
    rw [same]
    exact found.valid.2
  case apart => exact so.apart

theorem hidden_iff_merged {i : Nat} (within : i < raw.length) :
    Hidden secrets raw i ↔ Covered (mergedSpans raw secrets) i := by
  rw [hidden_iff within, (mergedSpans_merged raw secrets).covers i]
  unfold Covered
  simp only [List.mem_insertionSort]

theorem infix_slice {start stop : Nat} (inside : stop ≤ raw.length) (ordered : start ≤ stop) :
    secret <:+: slice raw start stop ↔
      ∃ place, start ≤ place ∧ place + secret.length ≤ stop ∧ secret <+: raw.drop place := by
  have size := slice_length ordered inside
  constructor
  · rintro ⟨before, after, whole⟩
    have sizes := congrArg List.length whole
    rw [List.length_append, List.length_append, size] at sizes
    refine ⟨start + before.length, by omega, by omega, after ++ raw.drop stop, ?_⟩
    have rest : slice raw start stop ++ raw.drop stop = raw.drop start := slice_append_drop ordered
    rw [← whole, List.append_assoc, List.append_assoc] at rest
    rw [← List.drop_drop, ← rest, List.drop_left]
  · rintro ⟨place, low, high, after, whole⟩
    refine ⟨slice raw start place, slice raw (place + secret.length) stop, ?_⟩
    have tail : raw.drop (place + secret.length) = after := by
      rw [← List.drop_drop, ← whole, List.drop_left]
    have parts : slice raw start place ++ secret ++ slice raw (place + secret.length) stop ++
        raw.drop stop = raw.drop start := by
      rw [List.append_assoc, slice_append_drop high, tail, List.append_assoc, whole,
        slice_append_drop low]
    rw [← slice_append_drop ordered] at parts
    exact List.append_cancel_right parts

theorem complete_iff (member : span ∈ mergedSpans raw secrets) :
    span.complete = true ↔
      ∃ secret ∈ secrets, secret ≠ [] ∧ secret <:+: slice raw span.start span.stop := by
  have so := mergedSpans_merged raw secrets
  have ordered := mergedSpans_ordered raw secrets
  have valid := so.valid span member
  have inside := ordered.inside span member
  constructor
  · intro complete
    obtain ⟨one, listed, within, flag⟩ := so.complete span member complete
    obtain ⟨secret, known, found⟩ := finds_of_mem ((List.mem_insertionSort _).mp listed)
    cases found with
    | whole start some bound found =>
      refine ⟨secret, known, some, (infix_slice inside (Nat.le_of_lt valid)).mpr ?_⟩
      exact ⟨start, within.1, within.2, found⟩
    | piece k positive bound longest => cases flag
  · rintro ⟨secret, known, some, found⟩
    obtain ⟨place, low, high, occurs⟩ := (infix_slice inside (Nat.le_of_lt valid)).mp found
    have positive := List.length_pos_iff.mpr some
    have whole := Finds.whole place some (by omega) occurs
    have listed : (⟨place, place + secret.length, true⟩ : Span) ∈
        (secrets.flatMap (secretSpans raw)).insertionSort Earlier :=
      (List.mem_insertionSort _).mpr
        (List.mem_flatMap.mpr ⟨secret, known, mem_secretSpans.mpr whole⟩)
    obtain ⟨part, kept, within, complete⟩ := so.holds _ listed
    have left : part.start ≤ place := within.1
    have right : place + secret.length ≤ part.stop := within.2
    -- Both the span and the part that holds the occurrence cover its first byte.
    have same : part = span :=
      apart_unique so.apart kept member (i := place) ⟨left, by omega⟩ ⟨low, by omega⟩
    rw [← same]
    exact complete rfl

theorem flatMap_shown_keptPart {final : Bool} (elements : Bytes) :
    (keptPart elements).flatMap (shown secrets final) = elements := by
  cases elements <;> simp [keptPart, shown]

theorem writeFrom_eq {final : Bool} {start : Nat} {spans : List Span}
    (marked : ∀ span ∈ spans, span.complete = true ↔
      ∃ secret ∈ secrets, secret ≠ [] ∧ secret <:+: slice raw span.start span.stop) :
    writeFrom raw final start spans =
      (partsFrom raw start spans).flatMap (shown secrets final) := by
  induction spans generalizing start with
  | nil => exact (flatMap_shown_keptPart _).symm
  | cons span rest ih =>
    have mark : shown secrets final ⟨true, slice raw span.start span.stop⟩ =
        spanMark span.complete final := by
      have flag : secrets.any (fun secret =>
          secret ≠ [] ∧ secret <:+: slice raw span.start span.stop) = span.complete := by
        rw [Bool.eq_iff_iff, marked span List.mem_cons_self]
        simp
      rw [shown, if_pos rfl, flag]
    rw [writeFrom, partsFrom, List.flatMap_append, List.flatMap_cons, flatMap_shown_keptPart, mark,
      ih (fun one member => marked one (List.mem_cons_of_mem _ member)), List.append_assoc]

theorem not_inside_of_not_hidden {whole : Bytes} {i : Nat} (comes : raw <+: whole)
    (within : i < raw.length) (kept : ¬ Hidden secrets raw i) : ¬ Inside secrets whole i := by
  rintro ⟨secret, known, start, found, low, high⟩
  obtain ⟨later, rfl⟩ := comes
  rw [List.drop_append_of_le_length (by omega)] at found
  apply kept
  by_cases ended : start + secret.length ≤ raw.length
  · left
    refine ⟨secret, known, start, ?_, low, high⟩
    apply List.prefix_of_prefix_length_le found (List.prefix_append _ _)
    rw [List.length_drop]
    omega
  · -- The occurrence goes on after the output, which ends with the first part of it.
    right
    rw [longestPiece_iff]
    have size : (raw.drop start).length = raw.length - start := List.length_drop
    refine ⟨raw.length - start, ⟨secret, known, by omega, ?_⟩, by omega⟩
    have piece : raw.drop start <+: secret :=
      List.prefix_of_prefix_length_le (List.prefix_append _ _) found (by omega)
    rw [← size, ← List.prefix_iff_eq_take.mp piece]
    exact List.drop_suffix _ _

/-- The bytes outside the secrets and outside the longest piece at the end are kept in order, and
each run of the others is shown as one mark, but for a last run that holds no whole secret: that is
shown as another mark in a final output, and not at all while more may come. What is kept stays
outside the secrets. -/
theorem redaction_keeps_and_marks (raw : Bytes) (secrets : List Bytes) :
    ∃ parts : List (Spans.Part UInt8),
      Divides (Hidden secrets raw) raw parts ∧
        (∀ final, redactSSHOutput raw secrets final = parts.flatMap (shown secrets final)) ∧
          ∀ whole, raw <+: whole → ∀ before part after, parts = before ++ part :: after →
            part.removed = false → ∀ k < part.elements.length,
              ¬ Inside secrets whole ((before.flatMap Spans.Part.elements).length + k) := by
  have hidden : ∀ i, i < raw.length →
      (Hidden secrets raw i ↔ Covered (mergedSpans raw secrets) i) := fun i => hidden_iff_merged
  have divides := partsFrom_divides (mergedSpans_ordered raw secrets) hidden
  refine ⟨_, divides, fun final => ?_, ?_⟩
  · rw [redactSSHOutput_eq]
    exact writeFrom_eq (fun span member => complete_iff member)
  · intro whole comes before part after same kept k inside
    have flagged := divides.flagged
    have sizes := congrArg List.length divides.whole
    rw [same] at flagged sizes
    rw [List.flatMap_append, List.flatMap_cons, List.length_append, List.length_append] at sizes
    have hidden := flagged_at flagged inside
    rw [kept, Nat.zero_add] at hidden
    apply not_inside_of_not_hidden comes (by omega)
    intro held
    exact Bool.false_ne_true (hidden.mpr held)

/-- While more output may come, a piece of a secret at the end of it gets no mark. -/
theorem last_piece_without_mark :
    ∃ (raw : Bytes) (secrets : List Bytes), (∀ secret ∈ secrets, secret ≠ []) ∧
      ∀ parts : List (Spans.Part UInt8), Divides (Hidden secrets raw) raw parts →
        (∃ part ∈ parts, part.removed = true) ∧
          redactSSHOutput raw secrets false =
            (parts.filter (fun part => !part.removed)).flatMap Spans.Part.elements := by
  refine ⟨bytesOf "value=abc", [bytesOf "abcdef"], by decide +kernel, fun parts divides => ?_⟩
  have same := divides.unique (partsFrom_divides (mergedSpans_ordered _ [bytesOf "abcdef"])
    (fun i within => hidden_iff_merged within))
  rw [same]
  constructor
  · exact ⟨⟨true, bytesOf "abc"⟩, by decide +kernel, rfl⟩
  · decide +kernel

theorem write_bytes {limit : Nat} {got : Bytes} (w : CappedSSHOutput) (p : Bytes)
    (bound : w.limit = limit) (bytes : w.bytes = got.take limit) :
    (w.write p).bytes = (got ++ p).take limit := by
  rw [List.take_append]
  unfold CappedSSHOutput.write
  dsimp only
  split
  next room =>
    have whole : got.take limit = got := List.take_of_length_le (by
      rw [bound, bytes, List.length_take] at room
      omega)
    rw [bytes, whole, bound, Int.toNat_sub]
  next full =>
    rw [bytes]
    rw [bound, bytes, List.length_take] at full
    rw [Nat.sub_eq_zero_of_le (by omega), List.take_zero, List.append_nil]

theorem write_truncated {limit : Nat} {got : Bytes} (w : CappedSSHOutput) (p : Bytes)
    (bound : w.limit = limit) (bytes : w.bytes = got.take limit)
    (flag : w.truncated = true ↔ limit < got.length) :
    (w.write p).truncated = true ↔ limit < (got ++ p).length := by
  simp only [CappedSSHOutput.write, Bool.or_eq_true, decide_eq_true_eq, flag, bound, bytes,
    List.length_take, List.length_append]
  omega

/-- What is captured are the first bytes of all that was written, up to the limit, and the output
counts as truncated exactly when there were more. At no time is a byte shown that lies in a secret
of all that the command writes, also where the limit cuts the secret off. -/
theorem captured_and_shown (limit : Nat) (written later secrets : List Bytes) :
    let w := written.foldl CappedSSHOutput.write ⟨[], limit, false⟩
    w.bytes = written.flatten.take limit ∧
      (w.truncated = true ↔ limit < written.flatten.length) ∧
      (∀ i < w.bytes.length, Inside secrets (written ++ later).flatten i →
        Hidden secrets w.bytes i) ∧
      ∀ final parts, Divides (Hidden secrets w.bytes) w.bytes parts →
        redactSSHOutput w.bytes secrets final = parts.flatMap (shown secrets final) := by
  intro w
  have captured : w.limit = limit ∧ w.bytes = written.flatten.take limit ∧
      (w.truncated = true ↔ limit < written.flatten.length) := by
    induction written using List.reverseRecOn with
    | nil => exact ⟨rfl, List.take_nil.symm, by simp [w]⟩
    | append_singleton before p ih =>
      obtain ⟨bound, bytes, flag⟩ := ih
      simp only [w, List.foldl_append, List.foldl_cons, List.foldl_nil, List.flatten_append,
        List.flatten_singleton]
      exact ⟨bound, write_bytes _ p bound bytes, write_truncated _ p bound bytes flag⟩
  obtain ⟨-, bytes, flag⟩ := captured
  refine ⟨bytes, flag, ?_, ?_⟩
  · intro i within inside
    have comes : w.bytes <+: (written ++ later).flatten := by
      rw [bytes, List.flatten_append]
      exact (List.take_prefix _ _).trans (List.prefix_append _ _)
    by_contra kept
    exact not_inside_of_not_hidden comes within kept inside
  · intro final parts divides
    have same := divides.unique (partsFrom_divides (mergedSpans_ordered w.bytes secrets)
      (fun i within => hidden_iff_merged within))
    rw [same, redactSSHOutput_eq]
    exact writeFrom_eq (fun span member => complete_iff member)

end ForestPanel.AIOps
