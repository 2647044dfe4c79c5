import Mathlib.Data.List.Basic
import Mathlib.Tactic.IntervalCases

/-!
# Base64 for URLs

The unpadded URL alphabet. `encode` writes the UTF-8 bytes of a text; `decode` skips
line ends, ignores the bits left over at the end, and refuses what is no UTF-8 text.
-/
namespace Base64

def digit (n : Nat) : Char :=
  if n < 26 then Char.ofNat (65 + n)
  else if n < 52 then Char.ofNat (71 + n)
  else if n < 62 then Char.ofNat (n - 4)
  else if n = 62 then '-' else '_'

def value (c : Char) : Option Nat :=
  if 'A' ≤ c ∧ c ≤ 'Z' then some (c.toNat - 65)
  else if 'a' ≤ c ∧ c ≤ 'z' then some (c.toNat - 71)
  else if '0' ≤ c ∧ c ≤ '9' then some (c.toNat + 4)
  else if c = '-' then some 62
  else if c = '_' then some 63
  else none

/-- Three bytes as four groups of six bits. -/
def sextets : List UInt8 → List Nat
  | a :: b :: c :: rest =>
    a.toNat / 4 :: (a.toNat % 4 * 16 + b.toNat / 16) :: (b.toNat % 16 * 4 + c.toNat / 64) ::
      c.toNat % 64 :: sextets rest
  | [a, b] => [a.toNat / 4, a.toNat % 4 * 16 + b.toNat / 16, b.toNat % 16 * 4]
  | [a] => [a.toNat / 4, a.toNat % 4 * 16]
  | [] => []

def bytes : List Nat → Option (List UInt8)
  | a :: b :: c :: d :: rest => (bytes rest).map fun decoded =>
    .ofNat (a * 4 + b / 16) :: .ofNat (b % 16 * 16 + c / 4) :: .ofNat (c % 4 * 64 + d) :: decoded
  | [a, b, c] => some [.ofNat (a * 4 + b / 16), .ofNat (b % 16 * 16 + c / 4)]
  | [a, b] => some [.ofNat (a * 4 + b / 16)]
  | [_] => none
  | [] => some []

def encode (text : List Char) : List Char :=
  (sextets (text.flatMap String.utf8EncodeChar)).map digit

def decode (encoded : List Char) : Option (List Char) := do
  let groups ← (encoded.filter fun c => c ≠ '\r' ∧ c ≠ '\n').mapM value
  let decoded ← bytes groups
  let text ← decoded.toByteArray.utf8Decode?
  some text.toList

theorem sextets_lt (l : List UInt8) : ∀ n ∈ sextets l, n < 64 := by
  induction l using sextets.induct with
  | case1 a b c rest ih =>
    have la := a.toNat_lt
    have lb := b.toNat_lt
    have lc := c.toNat_lt
    intro n member
    simp only [sextets, List.mem_cons] at member
    rcases member with rfl | rfl | rfl | rfl | later
    · omega
    · omega
    · omega
    · omega
    · exact ih n later
  | case2 a b =>
    have la := a.toNat_lt
    have lb := b.toNat_lt
    intro n member
    simp only [sextets, List.mem_cons, List.not_mem_nil, or_false] at member
    omega
  | case3 a =>
    have la := a.toNat_lt
    intro n member
    simp only [sextets, List.mem_cons, List.not_mem_nil, or_false] at member
    omega
  | case4 => simp [sextets]

private theorem ofNat_eq {a : UInt8} {n : Nat} (same : n = a.toNat) : UInt8.ofNat n = a := by
  rw [same, UInt8.ofNat_toNat]

theorem bytes_sextets (l : List UInt8) : bytes (sextets l) = some l := by
  induction l using sextets.induct with
  | case1 a b c rest ih =>
    have la := a.toNat_lt
    have lb := b.toNat_lt
    have lc := c.toNat_lt
    rw [sextets, bytes, ih, Option.map_some, ofNat_eq (a := a) (by omega),
      ofNat_eq (a := b) (by omega), ofNat_eq (a := c) (by omega)]
  | case2 a b =>
    have la := a.toNat_lt
    have lb := b.toNat_lt
    rw [sextets, bytes, ofNat_eq (a := a) (by omega), ofNat_eq (a := b) (by omega)]
  | case3 a =>
    have la := a.toNat_lt
    rw [sextets, bytes, ofNat_eq (a := a) (by omega)]
  | case4 => rfl

theorem value_digit {n : Nat} (small : n < 64) : value (digit n) = some n := by
  have all : ∀ n : Fin 64, value (digit n) = some n.val := by decide
  exact all ⟨n, small⟩

/-- The digits are letters, digits, `-` and `_`. -/
theorem digit_visible {n : Nat} (small : n < 64) :
    '-' ≤ digit n ∧ digit n ≤ 'z' := by
  have all : ∀ n : Fin 64, '-' ≤ digit n ∧ digit n ≤ 'z' := by decide
  exact all ⟨n, small⟩

theorem mem_encode {text : List Char} {c : Char} (member : c ∈ encode text) :
    '-' ≤ c ∧ c ≤ 'z' := by
  obtain ⟨n, group, rfl⟩ := List.mem_map.mp member
  exact digit_visible (sextets_lt _ n group)

private theorem mapM_digit {l : List Nat} (small : ∀ n ∈ l, n < 64) :
    (l.map digit).mapM value = some l := by
  induction l with
  | nil => rfl
  | cons n rest ih =>
    rw [List.map_cons, List.mapM_cons, value_digit (small n List.mem_cons_self),
      ih fun m later => small m (List.mem_cons_of_mem n later)]
    rfl

theorem decode_encode (text : List Char) : decode (encode text) = some text := by
  have kept : (encode text).filter (fun c => c ≠ '\r' ∧ c ≠ '\n') = encode text := by
    rw [List.filter_eq_self]
    intro c member
    have least := (mem_encode member).1
    have other : c ≠ '\r' ∧ c ≠ '\n' := by
      constructor
      · rintro rfl
        exact absurd least (by decide)
      · rintro rfl
        exact absurd least (by decide)
    exact decide_eq_true other
  unfold decode
  have read : (text.flatMap String.utf8EncodeChar).toByteArray.utf8Decode? = some text.toArray :=
    List.utf8Decode?_utf8Encode
  rw [kept, encode, mapM_digit (sextets_lt _)]
  simp [bytes_sextets, read]

theorem encode_injective {text text' : List Char} (same : encode text = encode text') :
    text = text' := by
  have read := congrArg decode same
  rw [decode_encode, decode_encode] at read
  exact Option.some.inj read

/-- Different bytes have different digits. -/
theorem digits_injective {l l' : List UInt8}
    (same : (sextets l).map digit = (sextets l').map digit) : l = l' := by
  have groups := congrArg (fun digits => digits.mapM value) same
  simp only [mapM_digit (sextets_lt _), Option.some.injEq] at groups
  have read := congrArg bytes groups
  rw [bytes_sextets, bytes_sextets] at read
  exact Option.some.inj read

end Base64
