import Mathlib.Data.Int.Notation
import Mathlib.Tactic.Cases

/-!
# Decimal numbers

Decimal texts of 64-bit integers: `format` writes an integer, `parse` reads one and
refuses a number that does not fit.
-/
namespace Decimal

def Fits (n : Int) : Prop := -9223372036854775808 ≤ n ∧ n ≤ 9223372036854775807

instance (n : Int) : Decidable (Fits n) := inferInstanceAs (Decidable (_ ∧ _))

def format (n : Int) : List Char :=
  if n < 0 then '-' :: Nat.toDigits 10 n.natAbs else Nat.toDigits 10 n.natAbs

/-- A sign, or none, and digits, and nothing else. -/
def parse (text : List Char) : Option Int :=
  let negative := text.head? = some '-'
  let digits := if negative ∨ text.head? = some '+' then text.tail else text
  if digits ≠ [] ∧ digits.all Char.isDigit then
    let size : Int := Nat.ofDigitChars 10 digits 0
    let number := if negative then -size else size
    if Fits number then some number else none
  else none

theorem parse_fits {text : List Char} {n : Int} (parsed : parse text = some n) : Fits n := by
  unfold parse at parsed
  simp only [Option.ite_none_right_eq_some, Option.some.injEq] at parsed
  obtain ⟨-, fits, same⟩ := parsed
  rw [same] at fits
  exact fits

theorem toDigits_isDigit {n : Nat} {c : Char} (member : c ∈ Nat.toDigits 10 n) : c.isDigit :=
  Nat.isDigit_of_mem_toDigits (by decide) (by decide) member

theorem toNat_of_isDigit {c : Char} (digit : c.isDigit = true) : 48 ≤ c.toNat ∧ c.toNat ≤ 57 := by
  simp only [Char.isDigit, Bool.and_eq_true, decide_eq_true_eq, ge_iff_le] at digit
  exact ⟨UInt32.le_iff_toNat_le.mp digit.1, UInt32.le_iff_toNat_le.mp digit.2⟩

theorem mem_format {n : Int} {c : Char} (member : c ∈ format n) : c = '-' ∨ c.isDigit = true := by
  unfold format at member
  split at member
  · rcases List.mem_cons.mp member with rfl | digit
    · exact Or.inl rfl
    · exact Or.inr (toDigits_isDigit digit)
  · exact Or.inr (toDigits_isDigit member)

/-- The first digit. -/
theorem head_toDigits (n : Nat) : ∃ c rest, Nat.toDigits 10 n = c :: rest ∧ c.isDigit := by
  cases digits : Nat.toDigits 10 n with
  | nil => exact absurd digits Nat.toDigits_ne_nil
  | cons c rest =>
    refine ⟨c, rest, rfl, toDigits_isDigit (n := n) ?_⟩
    rw [digits]
    exact List.mem_cons_self

/-- Zero is one digit, and no other number starts with a zero. -/
theorem toDigits_leading (n : Nat) : n = 0 ∨ (Nat.toDigits 10 n).head? ≠ some '0' := by
  induction n using Nat.strongRecOn with
  | ind n ih =>
    by_cases small : n < 10
    · rw [Nat.toDigits_of_lt_base small]
      clear ih
      revert n
      decide
    · right
      have large : 10 ≤ n := Nat.le_of_not_lt small
      rw [Nat.toDigits_of_base_le (by decide) large]
      obtain ⟨c, rest, digits, -⟩ := head_toDigits (n / 10)
      have shorter := ih (n / 10) (by omega)
      rw [digits] at shorter ⊢
      have nonzero : n / 10 ≠ 0 := by omega
      exact shorter.resolve_left nonzero

theorem parse_format_eq (n : Int) : parse (format n) = if Fits n then some n else none := by
  obtain ⟨c, rest, digits, digit⟩ := head_toDigits n.natAbs
  have all : (Nat.toDigits 10 n.natAbs).all Char.isDigit = true :=
    List.all_eq_true.mpr fun c member => toDigits_isDigit member
  have size : Nat.ofDigitChars 10 (Nat.toDigits 10 n.natAbs) 0 = n.natAbs :=
    Nat.ofDigitChars_toDigits (by decide) (by decide)
  have unsigned : c ≠ '-' ∧ c ≠ '+' := by
    constructor <;> (rintro rfl; revert digit; decide)
  unfold format parse
  by_cases negative : n < 0
  · have value : -(n.natAbs : Int) = n := by omega
    rw [if_pos negative]
    simp only [List.head?_cons, true_or, if_true, List.tail_cons, all, size, value, and_true,
      Nat.toDigits_ne_nil, ne_eq, not_false_eq_true]
  · have value : (n.natAbs : Int) = n := by omega
    rw [if_neg negative, digits] at *
    simp only [List.head?_cons, Option.some.injEq, unsigned, or_self, if_false]
    rw [digits] at all size
    simp [all, size, value]

/-- Digits alone are read as their number. -/
theorem parse_digits {digits : List Char} (nonempty : digits ≠ [])
    (all : digits.all Char.isDigit = true) :
    parse digits =
      if Fits (Nat.ofDigitChars 10 digits 0) then some (Nat.ofDigitChars 10 digits 0 : Int)
      else none := by
  have unsigned : ∀ c, c.isDigit = false → digits.head? ≠ some c := by
    intro c sign first
    have digit := List.all_eq_true.mp all c (List.mem_of_head? first)
    rw [sign] at digit
    cases digit
  have minus := unsigned '-' (by decide)
  have plus := unsigned '+' (by decide)
  simp [parse, minus, plus, nonempty, all]

theorem parse_format {n : Int} (fits : Fits n) : parse (format n) = some n := by
  rw [parse_format_eq, if_pos fits]

/-- What is read back is what was written. -/
theorem eq_of_parse_format {n m : Int} (parsed : parse (format n) = some m) : m = n := by
  rw [parse_format_eq] at parsed
  split at parsed
  · exact (Option.some.inj parsed).symm
  · cases parsed

theorem format_injective {n m : Int} (same : format n = format m) : n = m := by
  have size : ∀ k : Nat, Nat.ofDigitChars 10 (Nat.toDigits 10 k) 0 = k :=
    fun k => Nat.ofDigitChars_toDigits (by decide) (by decide)
  have first : ∀ k : Nat, (Nat.toDigits 10 k).head? ≠ some '-' := by
    intro k
    obtain ⟨c, rest, digits, digit⟩ := head_toDigits k
    rw [digits, List.head?_cons, ne_eq, Option.some.injEq]
    rintro rfl
    revert digit
    decide
  have sizes : Nat.toDigits 10 n.natAbs = Nat.toDigits 10 m.natAbs → n.natAbs = m.natAbs := by
    intro digits
    rw [← size n.natAbs, digits, size]
  unfold format at same
  split at same <;> split at same
  · have equal := sizes (List.cons.inj same).2
    omega
  · exact absurd (by rw [← same, List.head?_cons]) (first m.natAbs)
  · exact absurd (by rw [same, List.head?_cons]) (first n.natAbs)
  · have equal := sizes same
    omega

end Decimal
