import Mathlib.Data.Int.Log
import Mathlib.Data.Rat.Floor

/-!
# Doubles

The 64-bit floating-point numbers as rationals with the two infinities and NaN: a
result is the nearest double to the exact one, ties to even. Conversion to a signed
64-bit integer is that of amd64, where every value out of range gives the smallest one.
-/
namespace Double

/-- The nearest integer, ties to even. -/
def roundEven (q : ℚ) : ℤ :=
  if q - ⌊q⌋ < 1 / 2 then ⌊q⌋
  else if 1 / 2 < q - ⌊q⌋ then ⌊q⌋ + 1
  else if ⌊q⌋ % 2 = 0 then ⌊q⌋ else ⌊q⌋ + 1

/-- The nearest integer, ties away from zero. -/
def roundAway (q : ℚ) : ℤ := if q < 0 then -⌊-q + 1 / 2⌋ else ⌊q + 1 / 2⌋

/-- The distance of the doubles around a number: 53 bits, and not less than `2 ^ -1074`. -/
def quantum (q : ℚ) : ℚ := 2 ^ max (Int.log 2 |q| - 52) (-1074)

/-- The nearest double, if it does not overflow. -/
def nearest (q : ℚ) : ℚ := roundEven (q / quantum q) * quantum q

inductive Float64 where
  | nan
  | infinity (negative : Bool)
  | finite (q : ℚ)
deriving DecidableEq

namespace Float64

def ofRat (q : ℚ) : Float64 :=
  if 2 ^ 1024 ≤ |nearest q| then .infinity (decide (q < 0)) else .finite (nearest q)

def ofInt (n : ℤ) : Float64 := ofRat n

def sign : Float64 → Option ℤ
  | nan => none
  | infinity negative => some (if negative then -1 else 1)
  | finite q => some q.num.sign

def mul : Float64 → Float64 → Float64
  | finite p, finite q => ofRat (p * q)
  | x, y =>
    match x.sign, y.sign with
    | some s, some t => if s * t = 0 then nan else infinity (decide (s * t = -1))
    | _, _ => nan

/-- `x <= 0` -/
def nonpositive : Float64 → Bool
  | nan => false
  | infinity negative => negative
  | finite q => decide (q ≤ 0)

/-- `x > 0` -/
def positive : Float64 → Bool
  | nan => false
  | infinity negative => !negative
  | finite q => decide (0 < q)

/-- Divided by a positive number. -/
def divBy (d : ℚ) : Float64 → Float64
  | finite q => ofRat (q / d)
  | x => x

/-- Rounded to an integer, ties away from zero. -/
def round : Float64 → Float64
  | finite q => finite (roundAway q)
  | x => x

/-- Truncated to a signed 64-bit integer. -/
def toInt64 : Float64 → ℤ
  | finite q =>
    let n := if q < 0 then ⌈q⌉ else ⌊q⌋
    if -9223372036854775808 ≤ n ∧ n ≤ 9223372036854775807 then n else -9223372036854775808
  | _ => -9223372036854775808

end Float64

theorem roundEven_int (n : ℤ) : roundEven n = n := by
  unfold roundEven
  rw [Int.floor_intCast, sub_self, if_pos (by norm_num)]

theorem roundAway_int (n : ℤ) : roundAway n = n := by
  have half : ∀ m : ℤ, ⌊(m : ℚ) + 1 / 2⌋ = m := by
    intro m
    rw [Int.floor_eq_iff]
    constructor <;> linarith
  unfold roundAway
  split
  · rw [← Int.cast_neg, half, neg_neg]
  · exact half n

theorem abs_roundEven_sub_le (q : ℚ) : |(roundEven q : ℚ) - q| ≤ 1 / 2 := by
  have low := Int.floor_le q
  have high := Int.lt_floor_add_one q
  unfold roundEven
  rw [abs_le]
  split_ifs <;> push_cast <;> constructor <;> linarith

variable {q : ℚ} {n : ℤ}

/-- A number is rounded to the integer that is less than a half away. -/
theorem roundEven_of_near (near : |q - n| < 1 / 2) : roundEven q = n := by
  have rounded := abs_le.mp (abs_roundEven_sub_le q)
  obtain ⟨low, high⟩ := abs_lt.mp near
  have below : (roundEven q : ℚ) < n + 1 := by linarith
  have above : (n : ℚ) - 1 < roundEven q := by linarith
  have upper : roundEven q < n + 1 := by exact_mod_cast below
  have lower : n - 1 < roundEven q := by exact_mod_cast above
  omega

theorem quantum_le (q : ℚ) : quantum q ≤ |q| + 1 := by
  have least : (2 : ℚ) ^ (-1074 : ℤ) ≤ 1 := zpow_le_one_of_nonpos₀ (by norm_num) (by norm_num)
  have nonneg := abs_nonneg q
  unfold quantum
  rcases le_total (Int.log 2 |q| - 52) (-1074) with small | large
  · rw [max_eq_right small]
    linarith
  · rw [max_eq_left large]
    rcases eq_or_ne q 0 with rfl | nonzero
    · rw [abs_zero, Int.log_zero_right]
      norm_num
    · have log := Int.zpow_log_le_self (b := 2) (by norm_num) (abs_pos.mpr nonzero)
      have below : (2 : ℚ) ^ (Int.log 2 |q| - 52) ≤ 2 ^ Int.log 2 |q| :=
        zpow_le_zpow_right₀ (by norm_num) (by omega)
      push_cast at log
      linarith

/-- Rounding to a double is off by half its quantum at most. -/
theorem abs_nearest_sub_le (q : ℚ) : |nearest q - q| ≤ quantum q / 2 := by
  have positive : 0 < quantum q := zpow_pos (by norm_num) _
  have rounded := abs_roundEven_sub_le (q / quantum q)
  have scaled : nearest q - q = (roundEven (q / quantum q) - q / quantum q) * quantum q := by
    rw [nearest, sub_mul, div_mul_cancel₀ q positive.ne']
  rw [scaled, abs_mul, abs_of_pos positive]
  linarith [mul_le_mul_of_nonneg_right rounded positive.le]

theorem roundEven_le (q : ℚ) : |(roundEven q : ℚ)| ≤ |q| + 1 := by
  have low := Int.floor_le q
  have high := Int.lt_floor_add_one q
  unfold roundEven
  rw [abs_le]
  have bounds := abs_le.mp (le_refl |q|)
  split
  · constructor <;> linarith
  · split
    · push_cast
      constructor <;> linarith
    · split
      · constructor <;> linarith
      · push_cast
        constructor <;> linarith

/-- The nearest double of a number that is not small is at most twice as far from zero. -/
theorem nearest_le (large : 1 ≤ |q|) : |nearest q| ≤ 2 * |q| := by
  have positive : 0 < quantum q := zpow_pos (by norm_num) _
  have small : quantum q ≤ |q| := by
    have log : 0 ≤ Int.log 2 |q| := by
      rw [Int.log_of_one_le_right _ large]
      exact Int.natCast_nonneg _
    calc quantum q ≤ 2 ^ Int.log 2 |q| := zpow_le_zpow_right₀ (by norm_num) (by omega)
      _ ≤ |q| := Int.zpow_log_le_self (by norm_num) (lt_of_lt_of_le one_pos large)
  have rounded := roundEven_le (q / quantum q)
  rw [abs_div, abs_of_pos positive] at rounded
  rw [nearest, abs_mul, abs_of_pos positive]
  calc |(roundEven (q / quantum q) : ℚ)| * quantum q
      ≤ (|q| / quantum q + 1) * quantum q := mul_le_mul_of_nonneg_right rounded positive.le
    _ = |q| + quantum q := by field_simp
    _ ≤ 2 * |q| := by linarith

/-- What rounds to an integer that is not negative lies near it. -/
theorem abs_lt_of_roundAway (low : 0 ≤ roundAway q) (high : roundAway q ≤ n) : |q| < n + 1 := by
  have nonnegative : (0 : ℚ) ≤ n := by exact_mod_cast low.trans high
  unfold roundAway at low high
  rw [abs_lt]
  split at low
  next negative =>
    have small : ⌊-q + 1 / 2⌋ < 1 := by omega
    have half := Int.floor_lt.mp small
    push_cast at half
    constructor <;> linarith
  next positive =>
    rw [if_neg positive] at high
    have below : ⌊q + 1 / 2⌋ < n + 1 := by omega
    have above := Int.floor_lt.mp below
    push_cast at above
    constructor <;> linarith

/-- An integer in range is converted to itself. -/
theorem toInt64_int (low : -9223372036854775808 ≤ n) (high : n ≤ 9223372036854775807) :
    (Float64.finite n).toInt64 = n := by
  unfold Float64.toInt64
  dsimp only
  rw [Int.ceil_intCast, Int.floor_intCast, ite_self, if_pos ⟨low, high⟩]

/-- Multiples of the quantum are doubles. -/
theorem nearest_of_multiple (multiple : q = n * quantum q) : nearest q = q := by
  have positive : quantum q ≠ 0 := (zpow_pos (by norm_num) _).ne'
  have whole : q / quantum q = n := by
    rw [div_eq_iff positive]
    exact multiple
  rw [nearest, whole, roundEven_int, ← multiple]

/-- Whole numbers of 53 bits are doubles. -/
theorem nearest_natCast {n : ℕ} (small : n < 2 ^ 53) : nearest n = n := by
  have size : Int.log 2 |(n : ℚ)| ≤ 52 := by
    rw [Nat.abs_cast, Int.log_natCast]
    have bits : Nat.log 2 n < 53 := Nat.log_lt_of_lt_pow' (by norm_num) small
    omega
  -- the quantum is 2 to a power that is not positive
  obtain ⟨k, power⟩ : ∃ k : ℕ, max (Int.log 2 |(n : ℚ)| - 52) (-1074) = -k := by
    refine ⟨(-max (Int.log 2 |(n : ℚ)| - 52) (-1074)).toNat, ?_⟩
    omega
  have positive : (2 : ℚ) ^ k ≠ 0 := by positivity
  apply nearest_of_multiple (n := n * 2 ^ k)
  rw [quantum, power, zpow_neg, zpow_natCast]
  push_cast
  field_simp

theorem le_roundEven (above : n ≤ q) : n ≤ roundEven q := by
  have floor : n ≤ ⌊q⌋ := Int.le_floor.mpr above
  unfold roundEven
  split_ifs <;> omega

theorem roundEven_le_of_le (below : q ≤ n) : roundEven q ≤ n := by
  rcases below.eq_or_lt with same | less
  · rw [same, roundEven_int]
  · have floor : ⌊q⌋ < n := Int.floor_lt.mpr less
    unfold roundEven
    split_ifs <;> omega

theorem log_div_pow (positive : 0 < q) (k : ℕ) : Int.log 2 (q / 2 ^ k) = Int.log 2 q - k := by
  have scaled : 0 < q / 2 ^ k := by positivity
  have split (z : ℤ) : (2 : ℚ) ^ (z - k) = 2 ^ z / 2 ^ k := by
    rw [zpow_sub₀ (by norm_num), zpow_natCast]
  apply le_antisymm
  · rw [← Int.lt_add_one_iff, ← Int.lt_zpow_iff_log_lt (by norm_num) scaled]
    have below := Int.lt_zpow_succ_log_self (b := 2) (by norm_num) q
    push_cast at below ⊢
    rw [sub_add_eq_add_sub, split]
    gcongr
  · rw [← Int.zpow_le_iff_le_log (by norm_num) scaled]
    have above := Int.zpow_log_le_self (b := 2) (by norm_num) positive
    push_cast at above ⊢
    rw [split]
    gcongr

theorem quantum_of_one_le (large : 1 ≤ q) : quantum q = 2 ^ (Int.log 2 q - 52) := by
  have log : 0 ≤ Int.log 2 q := by
    rw [Int.log_of_one_le_right _ large]
    exact Int.natCast_nonneg _
  rw [quantum, abs_of_pos (zero_lt_one.trans_le large), max_eq_left (by omega)]

/-- A rounded number has 53 bits from its highest one on. -/
theorem nearest_bits (large : 1 ≤ q) :
    1 ≤ nearest q ∧ ∃ n : ℤ, nearest q = n * 2 ^ (Int.log 2 (nearest q) - 52) := by
  have positive : 0 < q := zero_lt_one.trans_le large
  have log : 0 ≤ Int.log 2 q := by
    rw [Int.log_of_one_le_right _ large]
    exact Int.natCast_nonneg _
  have unit : (0 : ℚ) < 2 ^ (Int.log 2 q - 52) := zpow_pos (by norm_num) _
  have value : nearest q = roundEven (q / quantum q) * 2 ^ (Int.log 2 q - 52) := by
    rw [nearest, quantum_of_one_le large]
  have split (z : ℤ) : (2 : ℚ) ^ (z + Int.log 2 q) = 2 ^ (z + 52) * 2 ^ (Int.log 2 q - 52) := by
    rw [← zpow_add₀ (by norm_num)]
    congr 1
    omega
  -- the mantissa lies between `2 ^ 52` and `2 ^ 53`
  have low : (2 : ℤ) ^ 52 ≤ roundEven (q / quantum q) := by
    apply le_roundEven
    rw [quantum_of_one_le large, le_div_iff₀ unit]
    have above := Int.zpow_log_le_self (b := 2) (by norm_num) positive
    have zero := split 0
    norm_num at above zero ⊢
    linarith
  have high : roundEven (q / quantum q) ≤ (2 : ℤ) ^ 53 := by
    apply roundEven_le_of_le
    rw [quantum_of_one_le large, div_le_iff₀ unit]
    have below := Int.lt_zpow_succ_log_self (b := 2) (by norm_num) q
    have one := split 1
    rw [add_comm 1] at one
    norm_num at below one ⊢
    linarith
  have log_of {z : ℤ} (least : (2 : ℚ) ^ z ≤ nearest q) (below : nearest q < 2 ^ (z + 1)) :
      Int.log 2 (nearest q) = z := by
    have some : 0 < nearest q := (zpow_pos (by norm_num) z).trans_le least
    have up := (Int.zpow_le_iff_le_log (b := 2) (by norm_num) some).mp (by exact_mod_cast least)
    have down := (Int.lt_zpow_iff_log_lt (b := 2) (by norm_num) some).mp (by exact_mod_cast below)
    omega
  rcases high.eq_or_lt with top | inside
  · -- rounded up to the next power of two
    have one : nearest q = 2 ^ (Int.log 2 q + 1) := by
      rw [value, top, add_comm, split 1]
      norm_num
    have half : (2 : ℚ) ^ (Int.log 2 q + 1 - 52) = 2 ^ (Int.log 2 q + 1) / 2 ^ 52 := by
      rw [zpow_sub₀ (by norm_num)]
      norm_num
    constructor
    · rw [one]
      exact one_le_zpow₀ (by norm_num) (by omega)
    · refine ⟨2 ^ 52, ?_⟩
      rw [log_of one.ge (one.trans_lt (zpow_lt_zpow_right₀ (by norm_num) (by omega))), one, half]
      push_cast
      field_simp
      norm_num
  · have least : (2 : ℚ) ^ Int.log 2 q ≤ nearest q := by
      have zero := split 0
      have cast : (2 : ℚ) ^ 52 ≤ roundEven (q / quantum q) := by exact_mod_cast low
      rw [zero_add] at zero
      rw [value, zero]
      exact mul_le_mul_of_nonneg_right cast unit.le
    have below : nearest q < 2 ^ (Int.log 2 q + 1) := by
      have cast : (roundEven (q / quantum q) : ℚ) < 2 ^ 53 := by exact_mod_cast inside
      rw [value, add_comm, split 1]
      exact mul_lt_mul_of_pos_right cast unit
    constructor
    · exact (one_le_zpow₀ (by norm_num) log).trans least
    · refine ⟨roundEven (q / quantum q), ?_⟩
      rw [log_of least below, value]

/-- Dividing a rounded number by a power of two is exact. -/
theorem nearest_div_pow (large : 1 ≤ q) {k : ℕ} (small : k ≤ 1000) :
    nearest (nearest q / 2 ^ k) = nearest q / 2 ^ k := by
  obtain ⟨least, n, bits⟩ := nearest_bits large
  have positive : 0 < nearest q := zero_lt_one.trans_le least
  have scaled : 0 < nearest q / 2 ^ k := by positivity
  have log : 0 ≤ Int.log 2 (nearest q) := by
    rw [Int.log_of_one_le_right _ least]
    exact Int.natCast_nonneg _
  have unit : quantum (nearest q / 2 ^ k) = 2 ^ (Int.log 2 (nearest q) - 52) / 2 ^ k := by
    rw [quantum, abs_of_pos scaled, log_div_pow positive, max_eq_left (by omega), sub_right_comm,
      zpow_sub₀ (by norm_num), zpow_natCast]
  apply nearest_of_multiple (n := n)
  rw [unit, ← mul_div_assoc, ← bits]

/-- Rounding does not pass a multiple of a power of two that has few bits. -/
theorem le_nearest (large : 1 ≤ q) (high : q < 2 ^ 63) {m : ℤ} (below : m * 2 ^ 30 ≤ q) :
    m * 2 ^ 30 ≤ nearest q := by
  have log : Int.log 2 q < 63 := by
    rw [← Int.lt_zpow_iff_log_lt (by norm_num) (zero_lt_one.trans_le large)]
    exact_mod_cast high
  obtain ⟨k, size⟩ : ∃ k : ℕ, (k : ℤ) = 82 - Int.log 2 q := ⟨(82 - Int.log 2 q).toNat, by omega⟩
  have unit : quantum q * 2 ^ k = 2 ^ 30 := by
    rw [quantum_of_one_le large, ← zpow_natCast, ← zpow_natCast, ← zpow_add₀ (by norm_num), size]
    norm_num
  have positive : 0 < quantum q := zpow_pos (by norm_num) _
  have whole : m * 2 ^ k ≤ roundEven (q / quantum q) := by
    apply le_roundEven
    rw [le_div_iff₀ positive]
    push_cast
    calc m * 2 ^ k * quantum q = m * (quantum q * 2 ^ k) := by ring
      _ ≤ q := by rw [unit]; exact below
  rw [nearest, ← unit]
  calc m * (quantum q * 2 ^ k) = (m * 2 ^ k : ℤ) * quantum q := by push_cast; ring
    _ ≤ roundEven (q / quantum q) * quantum q := by
      gcongr

theorem nearest_zero : nearest 0 = 0 := by
  have zero : roundEven 0 = 0 := by exact_mod_cast roundEven_int 0
  rw [nearest, zero_div, zero, Int.cast_zero, zero_mul]

theorem nearest_nonpos (none : q ≤ 0) : nearest q ≤ 0 := by
  have positive : 0 < quantum q := zpow_pos (by norm_num) _
  have rounded : roundEven (q / quantum q) ≤ 0 := by
    apply roundEven_le_of_le
    rw [Int.cast_zero]
    exact div_nonpos_of_nonpos_of_nonneg none positive.le
  rw [nearest]
  exact mul_nonpos_of_nonpos_of_nonneg (by exact_mod_cast rounded) positive.le

theorem positive_ofRat (none : q ≤ 0) : (Float64.ofRat q).positive = false := by
  unfold Float64.ofRat
  split
  next large =>
    have nonzero : q ≠ 0 := by
      rintro rfl
      rw [nearest_zero, abs_zero] at large
      exact absurd large (not_le.mpr (by positivity))
    rw [decide_eq_true (none.lt_of_ne nonzero)]
    rfl
  next =>
    exact decide_eq_false (not_lt.mpr (nearest_nonpos none))

/-- A signed 64-bit integer is converted to the nearest double. -/
theorem ofInt_eq (bounded : |n| ≤ 2 ^ 63) : Float64.ofInt n = .finite (nearest n) := by
  have top : (2 : ℚ) ^ 64 < 2 ^ 1024 := pow_lt_pow_right₀ (by norm_num) (by norm_num)
  have below : |nearest (n : ℚ)| < 2 ^ 1024 := by
    rcases eq_or_ne n 0 with zero | nonzero
    · rw [zero, Int.cast_zero, nearest_zero, abs_zero]
      positivity
    · have cast : |(n : ℚ)| ≤ 2 ^ 63 := by exact_mod_cast bounded
      calc |nearest (n : ℚ)| ≤ 2 * |(n : ℚ)| :=
            nearest_le (by exact_mod_cast Int.one_le_abs nonzero)
        _ ≤ 2 * 2 ^ 63 := mul_le_mul_of_nonneg_left cast (by norm_num)
        _ = 2 ^ 64 := by norm_num
        _ < 2 ^ 1024 := top
  rw [Float64.ofInt, Float64.ofRat, if_neg (not_le.mpr below)]

/-- What is not large does not overflow. -/
theorem ofRat_eq (bounded : |q| ≤ 2 ^ 64) : Float64.ofRat q = .finite (nearest q) := by
  have top : (2 : ℚ) ^ 66 < 2 ^ 1024 := pow_lt_pow_right₀ (by norm_num) (by norm_num)
  have rounded := abs_le.mp (abs_nearest_sub_le q)
  have quantum := quantum_le q
  have bounds := abs_le.mp bounded
  have below : |nearest q| < 2 ^ 1024 := by
    generalize (2 : ℚ) ^ 1024 = huge at top ⊢
    rw [abs_lt]
    norm_num at bounded bounds top
    constructor <;> linarith
  rw [Float64.ofRat, if_neg (not_le.mpr below)]

theorem nearest_nonneg (nonneg : 0 ≤ q) : 0 ≤ nearest q := by
  have positive : 0 < quantum q := zpow_pos (by norm_num) _
  have rounded : 0 ≤ roundEven (q / quantum q) := by
    apply le_roundEven
    rw [Int.cast_zero]
    positivity
  rw [nearest]
  exact mul_nonneg (by exact_mod_cast rounded) positive.le

end Double
