import Mathlib.Data.List.TakeWhile
import Mathlib.Tactic.Cases

/-!
# Texts of addresses

Which texts `netip.ParseAddr` and `net.ParseIP` accept, and how long such a text can be.
-/
namespace Address

/-- `parseIPv4Fields` after some of the text: the value and the number of digits of the
field it is in, and how many fields are complete. -/
def ipv4Rest : List Char → (val digLen pos : Nat) → Bool
  | [], _, digLen, pos => 0 < digLen && pos = 3
  | c :: rest, val, digLen, pos =>
    if c.isDigit then
      -- no octet has a leading zero
      !(digLen = 1 && val = 0) && val * 10 + (c.toNat - 48) ≤ 255 &&
        ipv4Rest rest (val * 10 + (c.toNat - 48)) (digLen + 1) pos
    else if c = '.' then 0 < digLen && pos ≠ 3 && ipv4Rest rest 0 0 (pos + 1)
    else false

def parseIPv4 (text : List Char) : Bool := ipv4Rest text 0 0 0

/-- The digits of a field say how large it is. -/
private def Field (val digLen : Nat) : Prop :=
  (digLen = 0 ∧ val = 0) ∨ (digLen = 1 ∧ val ≤ 9) ∨ (digLen = 2 ∧ 10 ≤ val ∧ val ≤ 99) ∨
    (digLen = 3 ∧ 100 ≤ val ∧ val ≤ 255)

variable {text : List Char}

private theorem ipv4Rest_length {val digLen pos : Nat} (field : Field val digLen) (few : pos ≤ 3)
    (read : ipv4Rest text val digLen pos = true) : text.length + digLen + 4 * pos ≤ 15 := by
  induction text generalizing val digLen pos with
  | nil =>
    simp only [Field] at field
    simp only [List.length_nil]
    omega
  | cons c rest ih =>
    rw [ipv4Rest] at read
    split at read
    next digit =>
      simp only [Bool.and_eq_true, Bool.not_eq_true', Bool.and_eq_false_iff, decide_eq_true_eq,
        decide_eq_false_iff_not] at read
      obtain ⟨⟨zero, fits⟩, later⟩ := read
      simp only [Char.isDigit, Bool.and_eq_true, decide_eq_true_eq] at digit
      have small : c.toNat ≤ 57 := UInt32.le_iff_toNat_le.mp digit.2
      -- the next digit makes the field ten times as large
      have next : Field (val * 10 + (c.toNat - 48)) (digLen + 1) := by
        simp only [Field] at field ⊢
        omega
      have short := ih next few later
      simp only [List.length_cons]
      omega
    next =>
      split at read
      next =>
        simp only [Bool.and_eq_true, decide_eq_true_eq] at read
        obtain ⟨⟨-, more⟩, later⟩ := read
        have short := ih (Or.inl ⟨rfl, rfl⟩) (by omega) later
        simp only [Field] at field
        simp only [List.length_cons]
        omega
      next => cases read

theorem parseIPv4_length (read : parseIPv4 text = true) : text.length ≤ 15 := by
  have short := ipv4Rest_length (Or.inl ⟨rfl, rfl⟩) (Nat.zero_le 3) read
  omega

def isHex (c : Char) : Bool :=
  c.isDigit || ('a' ≤ c && c ≤ 'f') || ('A' ≤ c && c ≤ 'F')

/-- Nothing is left, and the ellipsis stands for at least one group, or there is none. -/
def finished (text : List Char) (groups : Nat) (ellipsis : Bool) : Bool :=
  text = [] && if groups < 8 then ellipsis else !ellipsis

/-- The loop of `parseIPv6`: how many groups may still come, and whether the ellipsis has
been met. -/
def ipv6Groups : Nat → List Char → Bool → Bool
  | 0, text, ellipsis => finished text 8 ellipsis
  | left + 1, text, ellipsis =>
    let digits := text.takeWhile isHex
    if digits = [] ∨ 4 < digits.length then false
    else match text.dropWhile isHex with
      | [] => finished [] (8 - left) ellipsis
      -- an IPv4 address stands for the last two groups
      | '.' :: _ => (ellipsis || left = 1) && 1 ≤ left && parseIPv4 text &&
          finished [] (9 - left) ellipsis
      | [':'] => false
      | ':' :: ':' :: more =>
        if ellipsis then false
        else if more = [] then finished [] (8 - left) true
        else ipv6Groups left more true
      | ':' :: more => ipv6Groups left more ellipsis
      | _ => false

def ipv6Text : List Char → Bool
  | ':' :: ':' :: rest => rest = [] || ipv6Groups 8 rest true
  | text => ipv6Groups 8 text false

/-- An address may name a zone. -/
def parseIPv6 (text : List Char) : Bool :=
  match text.dropWhile (· ≠ '%') with
  | [] => ipv6Text text
  | [_] => false
  | _ => ipv6Text (text.takeWhile (· ≠ '%'))

private theorem ipv6Groups_length {left : Nat} {ellipsis : Bool}
    (read : ipv6Groups left text ellipsis = true) :
    text.length ≤ 5 * left + 15 + if ellipsis then 0 else 1 := by
  induction left generalizing text ellipsis with
  | zero =>
    simp only [ipv6Groups, finished, Bool.and_eq_true, decide_eq_true_eq] at read
    rw [read.1]
    exact Nat.zero_le _
  | succ left ih =>
    have parts : text.length = (text.takeWhile isHex).length + (text.dropWhile isHex).length := by
      rw [← List.length_append, List.takeWhile_append_dropWhile]
    simp only [ipv6Groups] at read
    split at read
    next => cases read
    next group =>
      obtain ⟨-, short⟩ := not_or.mp group
      split at read
      next empty =>
        rw [empty, List.length_nil] at parts
        omega
      next =>
        simp only [Bool.and_eq_true] at read
        have inner := parseIPv4_length read.1.2
        omega
      next => cases read
      next more rest =>
        rw [rest] at parts
        simp only [List.length_cons] at parts
        split at read
        next => cases read
        next plain =>
          split at read
          next empty =>
            rw [empty, List.length_nil] at parts
            omega
          next =>
            have later := ih read
            rw [if_pos rfl] at later
            rw [if_neg plain]
            omega
      next more _ _ rest =>
        rw [rest] at parts
        simp only [List.length_cons] at parts
        have later := ih read
        omega
      next => cases read

theorem ipv6Text_length (read : ipv6Text text = true) : text.length ≤ 58 := by
  unfold ipv6Text at read
  split at read
  next rest =>
    simp only [Bool.or_eq_true, decide_eq_true_eq] at read
    rcases read with rfl | read
    · decide
    · have short := ipv6Groups_length read
      simp only [if_true, List.length_cons] at short ⊢
      omega
  next =>
    have short := ipv6Groups_length read
    simp only [Bool.false_eq_true, if_false] at short
    omega

/-- `netip.ParseAddr`: the first dot, colon or percent sign says what is read. -/
def parseAddr (text : List Char) : Bool :=
  match text.find? fun c => c = '.' || c = ':' || c = '%' with
  | some '.' => parseIPv4 text
  | some ':' => parseIPv6 text
  | _ => false

/-- `net.ParseIP`: an address without a zone. -/
def parseIP (text : List Char) : Bool := !text.contains '%' && parseAddr text

theorem parseIP_length (read : parseIP text = true) : text.length ≤ 58 := by
  simp only [parseIP, Bool.and_eq_true, Bool.not_eq_true', List.contains_eq_mem,
    decide_eq_false_iff_not] at read
  obtain ⟨zone, read⟩ := read
  unfold parseAddr at read
  split at read
  next => exact le_trans (parseIPv4_length read) (by decide)
  next =>
    have none : text.dropWhile (· ≠ '%') = [] := by
      rw [List.dropWhile_eq_nil_iff]
      rintro c member
      simp only [ne_eq, decide_not, Bool.not_eq_true', decide_eq_false_iff_not]
      rintro rfl
      exact zone member
    rw [parseIPv6, none] at read
    exact ipv6Text_length read
  next => cases read

example : parseIP "2400:c620:28:9be::1".toList = true ∧ parseIP "::ffff:10.0.0.1".toList = true ∧
    parseIP "fe80::1%eth0".toList = false ∧ parseIP "010.0.0.1".toList = false := by
  decide +kernel

end Address
