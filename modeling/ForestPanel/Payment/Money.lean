import ForestPanel.Lib.Decimal
import ForestPanel.Lib.Double
import ForestPanel.Store.Rows
import ForestPanel.Store.Text

/-!
# Amounts of the gateways

A gateway reports an amount as a decimal text, and gets one. Reading is exact; the text that is
sent goes through a double.
-/
namespace ForestPanel.Payment.Money

open Double

/-- Two digits of a fraction, or one. -/
def centsOf (digits : List Char) : Option Int := do
  let fraction ← Decimal.parse digits
  some (if digits.length = 1 then fraction * 10 else fraction)

def fractionCents (allowTrailingZeros : Bool) (digits : List Char) : Option Int :=
  if digits.length < 1 ∨ digits.all Char.isDigit = false then none
  else if 2 < digits.length then
    if allowTrailingZeros = false ∨ (digits.drop 2).any (· ≠ '0') = true then none
    else centsOf (digits.take 2)
  else centsOf digits

def amountOf (whole fraction : Int) : Option Int :=
  if (maxInt64 - fraction) / 100 < whole then none
  else
    let amount := whole * 100 + fraction
    if amount ≤ 0 then none else some amount

def parsePositiveMoneyCentsWithPrecision (raw : String) (allowTrailingZeros : Bool) : Option Int :=
  let raw := trimSpace raw
  match raw.toList.splitOn '.' with
  | [] => none
  | whole :: rest =>
    if raw = "" ∨ 1 < rest.length ∨ whole = [] ∨ whole.all Char.isDigit = false then none
    else do
      let whole ← Decimal.parse whole
      let fraction ← rest.head?.elim (some 0) (fractionCents allowTrailingZeros)
      amountOf whole fraction

def parsePositiveMoneyCents (raw : String) : Option Int :=
  parsePositiveMoneyCentsWithPrecision raw false

def parsePositiveMoneyCentsAllowTrailingZeros (raw : String) : Option Int :=
  parsePositiveMoneyCentsWithPrecision raw true

def twoDigits (n : Nat) : List Char := [Nat.digitChar (n / 10), Nat.digitChar (n % 10)]

def formatCents (cents : Nat) : String :=
  String.ofList (Nat.toDigits 10 (cents / 100) ++ '.' :: twoDigits (cents % 100))

/-- `strconv.FormatFloat(x, 'f', 2, 64)`: the exact value, rounded to two decimals. -/
def formatFixed2 : Float64 → String
  | .nan => "NaN"
  | .infinity negative => if negative then "-Inf" else "+Inf"
  | .finite q =>
    let text := formatCents (roundEven (100 * |q|)).natAbs
    if q < 0 then "-" ++ text else text

def formatMoney (total : Int) : String := formatFixed2 ((Float64.ofInt total).divBy 100)

/-- An amount as it is written: the digits in front of the point, and those behind it. -/
structure Amount where
  whole : List Char
  fraction : Option (List Char)

def natOf (digits : List Char) : Nat := Nat.ofDigitChars 10 digits 0

def Amount.text (a : Amount) : List Char :=
  a.whole ++ a.fraction.elim [] fun digits => '.' :: digits

def fractionValue (fraction : Option (List Char)) : ℚ :=
  fraction.elim 0 fun digits => (natOf digits : ℚ) / 10 ^ digits.length

def Amount.value (a : Amount) : ℚ := natOf a.whole + fractionValue a.fraction

/-- A fraction has one or two digits, and further zeros where these are allowed. -/
structure FractionGrammar (allowTrailingZeros : Bool) (digits : List Char) : Prop where
  nonempty : digits ≠ []
  all : ∀ c ∈ digits, c.isDigit = true
  significant : digits.length ≤ 2 ∨ allowTrailingZeros = true ∧ ∀ c ∈ digits.drop 2, c = '0'

structure Amount.Grammar (allowTrailingZeros : Bool) (a : Amount) : Prop where
  nonempty : a.whole ≠ []
  all : ∀ c ∈ a.whole, c.isDigit = true
  fraction : ∀ digits ∈ a.fraction, FractionGrammar allowTrailingZeros digits

def cents (digits : List Char) : Nat :=
  natOf (digits.take 2) * if digits.length = 1 then 10 else 1

variable {digits : List Char} {allowTrailingZeros : Bool} {n : Int}

theorem natOf_lt (all : ∀ c ∈ digits, c.isDigit = true) : natOf digits < 10 ^ digits.length := by
  induction digits using List.reverseRecOn with
  | nil => decide
  | append_singleton digits c ih =>
    have before := ih fun d member => all d (List.mem_append_left _ member)
    have digit := Decimal.toNat_of_isDigit (all c (by simp))
    unfold natOf at before ⊢
    rw [Nat.ofDigitChars_append, Nat.ofDigitChars_cons, Nat.ofDigitChars_nil, List.length_append,
      List.length_singleton, pow_succ]
    have zero : '0'.toNat = 48 := rfl
    omega

theorem cents_value (grammar : FractionGrammar allowTrailingZeros digits) :
    (cents digits : ℚ) = 100 * (natOf digits / 10 ^ digits.length) := by
  obtain ⟨nonempty, -, significant⟩ := grammar
  have positive := List.length_pos_of_ne_nil nonempty
  rcases Nat.lt_or_ge 2 digits.length with long | short
  · have zeros : ∀ c ∈ digits.drop 2, c = '0' :=
      (significant.resolve_left (Nat.not_le.mpr long)).2
    -- the zeros behind the cents are a power of ten
    obtain ⟨k, more⟩ : ∃ k, digits.length = k + 2 := ⟨digits.length - 2, by omega⟩
    have rest : digits.drop 2 = List.replicate k '0' := by
      rw [List.eq_replicate_iff]
      exact ⟨by rw [List.length_drop]; omega, zeros⟩
    have whole : natOf digits = 10 ^ k * natOf (digits.take 2) := by
      conv_lhs => rw [← List.take_append_drop 2 digits, rest]
      rw [natOf, Nat.ofDigitChars_append, Nat.ofDigitChars_replicate_zero]
      rfl
    rw [cents, if_neg (by omega), mul_one, whole, more]
    push_cast
    rw [pow_add]
    field_simp
    norm_num
  · rw [cents, List.take_of_length_le short]
    rcases Nat.lt_or_ge 1 digits.length with two | one
    · have length : digits.length = 2 := by omega
      rw [length]
      norm_num
      ring
    · have length : digits.length = 1 := by omega
      rw [length]
      norm_num
      ring

private theorem centsOf_eq (nonempty : digits ≠ []) (all : ∀ c ∈ digits, c.isDigit = true)
    (short : digits.length ≤ 2) : centsOf digits = some (cents digits : Int) := by
  have small : natOf digits < 100 :=
    (natOf_lt all).trans_le (Nat.pow_le_pow_right (n := 10) (by norm_num) short)
  have fits : Decimal.Fits (Nat.ofDigitChars 10 digits 0) := by
    unfold natOf at small
    unfold Decimal.Fits
    omega
  rw [centsOf, Decimal.parse_digits nonempty (List.all_eq_true.mpr all), if_pos fits, cents,
    List.take_of_length_le short]
  split
  next one => simp [natOf]
  next => simp [natOf]

private theorem fractionCents_eq_some :
    fractionCents allowTrailingZeros digits = some n ↔
      FractionGrammar allowTrailingZeros digits ∧ n = cents digits := by
  have grammar_iff : FractionGrammar allowTrailingZeros digits ↔
      ¬(digits.length < 1 ∨ digits.all Char.isDigit = false) ∧ (digits.length ≤ 2 ∨
        ¬(allowTrailingZeros = false ∨ (digits.drop 2).any (· ≠ '0') = true)) := by
    constructor
    · rintro ⟨nonempty, all, significant⟩
      have positive := List.length_pos_of_ne_nil nonempty
      refine ⟨?_, ?_⟩
      · rw [not_or, Bool.not_eq_false, List.all_eq_true]
        exact ⟨by omega, all⟩
      · refine significant.imp_right ?_
        rintro ⟨allowed, zeros⟩
        simpa [allowed] using zeros
    · rintro ⟨shape, significant⟩
      rw [not_or, Bool.not_eq_false, List.all_eq_true] at shape
      refine ⟨?_, shape.2, ?_⟩
      · rintro rfl
        exact shape.1 (by decide)
      · refine significant.imp_right ?_
        intro rest
        rw [not_or, Bool.not_eq_false] at rest
        simpa using rest
  rw [grammar_iff, fractionCents]
  split
  next refused =>
    constructor
    · rintro ⟨⟩
    · exact fun given => absurd refused given.1.1
  next shape =>
    have nonempty : digits ≠ [] := by
      rintro rfl
      exact shape (.inl (by decide))
    have all : ∀ c ∈ digits, c.isDigit = true := by
      rw [not_or, Bool.not_eq_false, List.all_eq_true] at shape
      exact shape.2
    split
    next long =>
      split
      next refused =>
        constructor
        · rintro ⟨⟩
        · exact fun given => absurd refused (given.1.2.resolve_left (Nat.not_le.mpr long))
      next zeros =>
        have taken : (digits.take 2).length = 2 := by
          rw [List.length_take]
          omega
        have same : cents (digits.take 2) = cents digits := by
          rw [cents, cents, List.take_take, taken, if_neg (by norm_num), if_neg (by omega)]
          rfl
        rw [centsOf_eq (fun empty => by rw [empty] at taken; cases taken)
          (fun c member => all c (List.mem_of_mem_take member)) taken.le, same, Option.some.injEq]
        simp only [shape, not_false_eq_true, zeros, or_true, true_and, and_true]
        exact eq_comm
    next short =>
      rw [centsOf_eq nonempty all (not_lt.mp short), Option.some.injEq]
      simp only [shape, not_false_eq_true, not_lt.mp short, true_or, true_and]
      exact eq_comm

private theorem amountOf_eq_some {whole fraction : Int} :
    amountOf whole fraction = some n ↔ n = whole * 100 + fraction ∧ 0 < n ∧ n ≤ maxInt64 := by
  unfold amountOf
  split
  next large =>
    constructor
    · rintro ⟨⟩
    · omega
  next room =>
    dsimp only
    split
    next none =>
      constructor
      · rintro ⟨⟩
      · omega
    next some =>
      rw [Option.some.injEq]
      omega

private theorem no_point (all : ∀ c ∈ digits, c.isDigit = true) :
    '.' ∉ digits := fun member => absurd (all '.' member) (by decide)

private theorem splitOn_text {a : Amount} (grammar : a.Grammar allowTrailingZeros) :
    a.text.splitOn '.' = a.whole :: a.fraction.toList := by
  have joined : a.text = ['.'].intercalate (a.whole :: a.fraction.toList) := by
    cases fraction : a.fraction with
    | none => simp [Amount.text, fraction, List.intercalate]
    | some digits => simp [Amount.text, fraction, List.intercalate]
  rw [joined]
  apply List.splitOn_intercalate
  · intro part member
    rcases List.mem_cons.mp member with rfl | last
    · exact no_point grammar.all
    · exact no_point (grammar.fraction part (Option.mem_toList.mp last)).all
  · exact List.cons_ne_nil _ _

private theorem text_of_splitOn {text whole : List Char} {rest : List (List Char)}
    (parts : text.splitOn '.' = whole :: rest) (few : rest.length ≤ 1) :
    text = (Amount.mk whole rest.head?).text := by
  have joined : List.intercalate ['.'] (text.splitOn '.') = text := List.intercalate_splitOn '.'
  rw [parts] at joined
  rcases rest with - | ⟨digits, - | ⟨more, rest⟩⟩
  · simpa [Amount.text, List.intercalate] using joined.symm
  · simpa [Amount.text, List.intercalate] using joined.symm
  · simp at few

private theorem fractionValue_nonneg (fraction : Option (List Char)) :
    0 ≤ fractionValue fraction := by
  cases fraction with
  | none => exact le_refl _
  | some digits =>
    change (0 : ℚ) ≤ natOf digits / 10 ^ digits.length
    positivity

private theorem fraction_eq_some {fraction : Option (List Char)} :
    fraction.elim (some 0) (fractionCents allowTrailingZeros) = some n ↔
      (∀ digits ∈ fraction, FractionGrammar allowTrailingZeros digits) ∧
        (n : ℚ) = 100 * fractionValue fraction := by
  cases fraction with
  | none => simp [fractionValue, eq_comm]
  | some digits =>
    have only : (∀ d ∈ some digits, FractionGrammar allowTrailingZeros d) ↔
        FractionGrammar allowTrailingZeros digits := by simp
    rw [Option.elim_some, fractionCents_eq_some, only]
    apply and_congr_right
    intro grammar
    change n = cents digits ↔ (n : ℚ) = 100 * (natOf digits / 10 ^ digits.length)
    rw [← cents_value grammar]
    norm_cast

private theorem shape_iff {raw : String} {whole : List Char} {rest : List (List Char)}
    (parts : raw.toList.splitOn '.' = whole :: rest) :
    ¬(raw = "" ∨ 1 < rest.length ∨ whole = [] ∨ whole.all Char.isDigit = false) ↔
      rest.length ≤ 1 ∧ whole ≠ [] ∧ ∀ c ∈ whole, c.isDigit = true := by
  simp only [not_or, Bool.not_eq_false, List.all_eq_true, not_lt]
  constructor
  · exact fun shape => shape.2
  · intro shape
    refine ⟨?_, shape⟩
    rintro rfl
    have none : whole = [] := by
      have split : [[]] = whole :: rest := parts
      exact (List.cons.inj split).1.symm
    exact shape.2.1 none

theorem parse_eq_some {raw : String} :
    parsePositiveMoneyCentsWithPrecision raw allowTrailingZeros = some n ↔
      ∃ a : Amount, a.Grammar allowTrailingZeros ∧ (trimSpace raw).toList = a.text ∧
        (n : ℚ) = 100 * a.value ∧ 0 < n ∧ n ≤ maxInt64 := by
  unfold parsePositiveMoneyCentsWithPrecision
  dsimp only
  constructor
  · intro read
    split at read
    · cases read
    next whole rest parts =>
      rw [Option.ite_none_left_eq_some, shape_iff parts] at read
      obtain ⟨⟨few, nonempty, all⟩, read⟩ := read
      obtain ⟨w, number, read⟩ := Option.bind_eq_some_iff.mp read
      obtain ⟨f, fraction, amount⟩ := Option.bind_eq_some_iff.mp read
      rw [Decimal.parse_digits nonempty (List.all_eq_true.mpr all),
        Option.ite_none_right_eq_some] at number
      obtain rfl := Option.some.inj number.2
      obtain ⟨grammar, value⟩ := fraction_eq_some.mp fraction
      obtain ⟨sum, positive, bounded⟩ := amountOf_eq_some.mp amount
      refine ⟨⟨whole, rest.head?⟩, ⟨nonempty, all, grammar⟩, text_of_splitOn parts few, ?_,
        positive, bounded⟩
      calc (n : ℚ) = natOf whole * 100 + f := by
            rw [sum]
            push_cast
            rfl
        _ = 100 * (Amount.mk whole rest.head?).value := by
            rw [value, Amount.value]
            ring
  · rintro ⟨a, grammar, text, value, positive, bounded⟩
    have parts : (trimSpace raw).toList.splitOn '.' = a.whole :: a.fraction.toList := by
      rw [text, splitOn_text grammar]
    have first : a.fraction.toList.head? = a.fraction := by cases a.fraction <;> rfl
    obtain ⟨f, fraction⟩ : ∃ f, a.fraction.elim (some 0) (fractionCents allowTrailingZeros) =
        some f := by
      cases there : a.fraction with
      | none => exact ⟨0, rfl⟩
      | some digits => exact ⟨_, fractionCents_eq_some.mpr ⟨grammar.fraction digits there, rfl⟩⟩
    obtain ⟨-, hundredths⟩ := fraction_eq_some.mp fraction
    have sum : n = natOf a.whole * 100 + f := by
      have whole : (n : ℚ) = natOf a.whole * 100 + f := by
        rw [value, hundredths, Amount.value]
        ring
      exact_mod_cast whole
    have natural : 0 ≤ f := by
      have hundred : (0 : ℚ) ≤ f := by
        rw [hundredths]
        exact mul_nonneg (by norm_num) (fractionValue_nonneg a.fraction)
      exact_mod_cast hundred
    have fits : Decimal.Fits (Nat.ofDigitChars 10 a.whole 0) := by
      unfold natOf at sum
      unfold maxInt64 at bounded
      unfold Decimal.Fits
      omega
    have short : a.fraction.toList.length ≤ 1 := by cases a.fraction <;> simp
    rw [parts]
    dsimp only
    rw [if_neg ((shape_iff parts).mpr ⟨short, grammar.nonempty, grammar.all⟩),
      Decimal.parse_digits grammar.nonempty (List.all_eq_true.mpr grammar.all), if_pos fits, first,
      fraction]
    exact amountOf_eq_some.mpr ⟨sum, positive, bounded⟩

private theorem amount_unique {a b : Amount} (ha : a.Grammar allowTrailingZeros)
    (hb : b.Grammar allowTrailingZeros) (same : a.text = b.text) : a = b := by
  have parts := splitOn_text ha
  rw [same, splitOn_text hb, List.cons.injEq] at parts
  obtain ⟨whole, rest⟩ := parts
  have fraction : b.fraction = a.fraction := by
    have heads := congrArg List.head? rest
    cases one : a.fraction <;> cases two : b.fraction <;> simpa [one, two] using heads
  cases a
  cases b
  cases whole
  cases fraction
  rfl

def centsAmount (c : Nat) : Amount := ⟨Nat.toDigits 10 (c / 100), some (twoDigits (c % 100))⟩

private theorem digitChar_isDigit : ∀ n < 10, (Nat.digitChar n).isDigit = true := by decide

private theorem natOf_twoDigits {n : Nat} (small : n < 100) : natOf (twoDigits n) = n := by
  rw [natOf, twoDigits, Nat.ofDigitChars_cons_digitChar_of_lt_ten (by omega),
    Nat.ofDigitChars_cons_digitChar_of_lt_ten (by omega), Nat.ofDigitChars_nil]
  omega

private theorem centsAmount_grammar (c : Nat) (allowTrailingZeros : Bool) :
    (centsAmount c).Grammar allowTrailingZeros := by
  refine ⟨Nat.toDigits_ne_nil, fun d member => Decimal.toDigits_isDigit member, ?_⟩
  intro digits here
  obtain rfl := Option.some.inj here
  refine ⟨List.cons_ne_nil _ _, ?_, .inl le_rfl⟩
  intro d member
  simp only [twoDigits, List.mem_cons, List.not_mem_nil, or_false] at member
  rcases member with rfl | rfl
  · exact digitChar_isDigit _ (by omega)
  · exact digitChar_isDigit _ (by omega)

private theorem centsAmount_value (c : Nat) : 100 * (centsAmount c).value = c := by
  have whole : natOf (Nat.toDigits 10 (c / 100)) = c / 100 := Nat.ofDigitChars_ten_toDigits
  have rest := natOf_twoDigits (Nat.mod_lt c (by norm_num : 0 < 100))
  have value : (centsAmount c).value = (c / 100 : ℕ) + ((c % 100 : ℕ) : ℚ) / 10 ^ 2 := by
    rw [Amount.value]
    change (natOf (Nat.toDigits 10 (c / 100)) : ℚ) + (natOf (twoDigits (c % 100)) : ℚ) / 10 ^ 2 = _
    rw [whole, rest]
  have split : (c : ℚ) = 100 * (c / 100 : ℕ) + (c % 100 : ℕ) := by
    exact_mod_cast (Nat.div_add_mod c 100).symm
  rw [value, split]
  ring

private theorem formatCents_text (c : Nat) :
    (trimSpace (formatCents c)).toList = (centsAmount c).text := by
  have text : (formatCents c).toList = (centsAmount c).text := by
    rw [formatCents, String.toList_ofList]
    rfl
  have visible : ∀ d ∈ (formatCents c).toList, isSpace d = false := by
    intro d member
    rw [text] at member
    have mark : d = '.' ∨ d.isDigit = true := by
      have grammar := centsAmount_grammar c false
      rcases List.mem_append.mp member with whole | fraction
      · exact .inr (grammar.all d whole)
      · rcases List.mem_cons.mp fraction with rfl | digit
        · exact .inl rfl
        · exact .inr ((grammar.fraction _ rfl).all d digit)
    rcases mark with rfl | digit
    · decide
    · exact isSpace_of_isDigit digit
  rw [trimSpace_of_visible visible, text]

theorem parse_formatCents (c : Nat) (allowTrailingZeros : Bool) (n : Int) :
    parsePositiveMoneyCentsWithPrecision (formatCents c) allowTrailingZeros = some n ↔
      n = c ∧ 0 < n ∧ n ≤ maxInt64 := by
  rw [parse_eq_some]
  constructor
  · rintro ⟨a, grammar, text, value, bounds⟩
    rw [formatCents_text] at text
    obtain rfl := amount_unique (centsAmount_grammar c allowTrailingZeros) grammar text
    rw [centsAmount_value] at value
    exact ⟨by exact_mod_cast value, bounds⟩
  · rintro ⟨rfl, bounds⟩
    refine ⟨centsAmount c, centsAmount_grammar c allowTrailingZeros, formatCents_text c, ?_,
      bounds⟩
    rw [centsAmount_value]
    norm_cast

private theorem formatMoney_eq (natural : 0 ≤ n) (bounded : n ≤ maxInt64) :
    formatMoney n = formatCents (roundEven (100 * nearest (nearest n / 100))).natAbs := by
  unfold maxInt64 at bounded
  have cast : (0 : ℚ) ≤ n := by exact_mod_cast natural
  have double : 0 ≤ nearest (n : ℚ) := nearest_nonneg cast
  have size : |nearest (n : ℚ)| ≤ 2 ^ 64 := by
    have rounded := abs_le.mp (abs_nearest_sub_le (n : ℚ))
    have quantum := quantum_le (n : ℚ)
    have top : (n : ℚ) ≤ 9223372036854775807 := by exact_mod_cast bounded
    rw [abs_of_nonneg cast] at quantum
    rw [abs_of_nonneg double]
    norm_num
    linarith
  have hundredth : |nearest (n : ℚ) / 100| ≤ 2 ^ 64 := by
    rw [abs_div, abs_of_pos (by norm_num : (0 : ℚ) < 100)]
    have positive := abs_nonneg (nearest (n : ℚ))
    linarith
  have quotient : 0 ≤ nearest (nearest (n : ℚ) / 100) := nearest_nonneg (by positivity)
  rw [formatMoney, ofInt_eq (abs_le.mpr ⟨by omega, by omega⟩), Float64.divBy, ofRat_eq hundredth,
    formatFixed2]
  rw [if_neg (not_lt.mpr quotient), abs_of_nonneg quotient]

theorem parse_formatMoney (positive : 0 < n) (bounded : n ≤ maxInt64) (allowTrailingZeros : Bool) :
    parsePositiveMoneyCentsWithPrecision (formatMoney n) allowTrailingZeros = some n ↔
      roundEven (100 * nearest (nearest n / 100)) = n := by
  have natural : 0 ≤ roundEven (100 * nearest (nearest (n : ℚ) / 100)) := by
    apply le_roundEven
    have cast : (0 : ℚ) ≤ n := by exact_mod_cast positive.le
    have double := nearest_nonneg cast
    have quotient : 0 ≤ nearest (nearest (n : ℚ) / 100) := nearest_nonneg (by positivity)
    push_cast
    positivity
  rw [formatMoney_eq positive.le bounded, parse_formatCents]
  constructor
  · rintro ⟨same, -⟩
    omega
  · intro same
    exact ⟨by omega, positive, bounded⟩

private theorem roundEven_hundredth (positive : 0 < n) (small : n ≤ 7036874417766400) :
    roundEven (100 * nearest (nearest n / 100)) = n := by
  have cast : (0 : ℚ) < n := by exact_mod_cast positive
  have top : (n : ℚ) ≤ 7036874417766400 := by exact_mod_cast small
  have exact : nearest (n : ℚ) = n := by
    obtain ⟨k, rfl⟩ := Int.eq_ofNat_of_zero_le positive.le
    have bits : k < 2 ^ 53 := by omega
    exact_mod_cast nearest_natCast bits
  rw [exact]
  rcases (Int.le_iff_lt_or_eq.mp small) with less | rfl
  · have quotient : (0 : ℚ) < n / 100 := by positivity
    have log : Int.log 2 |(n : ℚ) / 100| ≤ 45 := by
      rw [abs_of_pos quotient, ← Int.lt_add_one_iff,
        ← Int.lt_zpow_iff_log_lt (by norm_num) quotient]
      have below : (n : ℚ) < 7036874417766400 := by exact_mod_cast less
      norm_num
      linarith
    have unit : quantum ((n : ℚ) / 100) ≤ 2 ^ (-7 : ℤ) :=
      zpow_le_zpow_right₀ (by norm_num) (by omega)
    have rounded := abs_le.mp (abs_nearest_sub_le ((n : ℚ) / 100))
    apply roundEven_of_near
    rw [abs_lt]
    norm_num at unit
    constructor <;> linarith
  · have whole : ((7036874417766400 : ℤ) : ℚ) / 100 = (70368744177664 : ℕ) := by norm_num
    rw [whole, nearest_natCast (by norm_num)]
    have cents : 100 * ((70368744177664 : ℕ) : ℚ) = ((7036874417766400 : ℤ) : ℚ) := by norm_num
    rw [cents, roundEven_int]

/-- Reading is exact on the trimmed text, and an amount survives being written and read as long as
its hundredth as a double is rounded back to it. -/
theorem money_read_exactly :
    (∀ raw allowTrailingZeros n,
      parsePositiveMoneyCentsWithPrecision raw allowTrailingZeros = some n ↔
        ∃ a : Amount, a.Grammar allowTrailingZeros ∧ (trimSpace raw).toList = a.text ∧
          (n : ℚ) = 100 * a.value ∧ 0 < n ∧ n ≤ maxInt64) ∧
    (∀ n allowTrailingZeros, 0 < n → n ≤ maxInt64 →
      (parsePositiveMoneyCentsWithPrecision (formatMoney n) allowTrailingZeros = some n ↔
        roundEven (100 * nearest (nearest n / 100)) = n)) ∧
    ∀ n allowTrailingZeros, 0 < n → n ≤ 7036874417766400 →
      parsePositiveMoneyCentsWithPrecision (formatMoney n) allowTrailingZeros = some n := by
  refine ⟨?_, ?_, ?_⟩
  · exact fun raw allowTrailingZeros n => parse_eq_some
  · exact fun n allowTrailingZeros positive bounded =>
      parse_formatMoney positive bounded allowTrailingZeros
  · intro n allowTrailingZeros positive small
    have bounded : n ≤ maxInt64 := by
      unfold maxInt64
      omega
    exact (parse_formatMoney positive bounded allowTrailingZeros).mpr
      (roundEven_hundredth positive small)

/-- White space around an amount is passed over, and the first amount above the bound is written as
another one. -/
theorem money_not_read_exactly :
    (parsePositiveMoneyCents " 1" = some 100 ∧
      ¬∃ a : Amount, a.Grammar false ∧ " 1".toList = a.text) ∧
    parsePositiveMoneyCents (formatMoney 7036874417766401) ≠ some 7036874417766401 := by
  refine ⟨⟨?_, ?_⟩, ?_⟩
  · rw [parsePositiveMoneyCents, parse_eq_some]
    refine ⟨⟨['1'], none⟩, ⟨List.cons_ne_nil _ _, by decide, fun _ none => by cases none⟩, ?_, ?_,
      by decide, by decide⟩
    · decide
    · have one : natOf ['1'] = 1 := by decide
      rw [Amount.value, fractionValue, Option.elim_none, one]
      norm_num
  · rintro ⟨⟨whole, fraction⟩, grammar, text⟩
    cases whole with
    | nil => exact grammar.nonempty rfl
    | cons c whole =>
      have space : ' ' = c := (List.cons.inj text).1
      have digit := grammar.all c List.mem_cons_self
      rw [← space] at digit
      cases digit
  · intro read
    rw [parsePositiveMoneyCents, parse_formatMoney (by decide) (by decide)] at read
    exact absurd read (by decide +kernel)

end ForestPanel.Payment.Money
