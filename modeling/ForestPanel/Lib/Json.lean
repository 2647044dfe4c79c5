import ForestPanel.Lib.Decimal
import Mathlib.Data.List.Basic

/-!
# JSON texts

`value` recognises the value a text starts with: its shape one level deep, where
the elements of an array and the members of an object stay raw texts, and the text
behind it. A decoder of a record goes on from the raw texts; nothing is lost of
what was written. `Reads` says what a raw text is read as wherever it stands, and
composes over the printers `quote`, `array` and `object`.
-/
namespace Json

/-- White space between tokens. -/
def isSpace (c : Char) : Bool := c = ' ' || c = '\t' || c = '\r' || c = '\n'

def skipSpace (text : List Char) : List Char := text.dropWhile isSpace

/-- What was read of `text` when `rest` is left. -/
def consumed (text rest : List Char) : List Char := text.take (text.length - rest.length)

@[simp] theorem consumed_append (a b : List Char) : consumed (a ++ b) b = a := by
  simp [consumed]

/-! ## Numbers -/

def afterDigits : List Char → Option (List Char)
  | [] => none
  | c :: rest => if c.isDigit then some (rest.dropWhile Char.isDigit) else none

/-- A leading zero stands alone. -/
def afterInteger : List Char → Option (List Char)
  | '0' :: rest => some rest
  | text => afterDigits text

def afterFraction : List Char → Option (List Char)
  | '.' :: rest => afterDigits rest
  | text => some text

def afterSign : List Char → List Char
  | '+' :: rest => rest
  | '-' :: rest => rest
  | text => text

def afterExponent : List Char → Option (List Char)
  | 'e' :: rest => afterDigits (afterSign rest)
  | 'E' :: rest => afterDigits (afterSign rest)
  | text => some text

/-- The text behind the number that `text` starts with. -/
def number (text : List Char) : Option (List Char) := do
  let unsigned := if text.head? = some '-' then text.tail else text
  let rest ← afterInteger unsigned
  let rest ← afterFraction rest
  afterExponent rest

/-! ## Strings -/

/-- A piece of a string literal: a character, or a UTF-16 unit in hexadecimal. -/
inductive Piece
  | char (c : Char)
  | unit (n : Nat)
deriving Repr, DecidableEq

def hexDigit (c : Char) : Option Nat :=
  if '0' ≤ c ∧ c ≤ '9' then some (c.toNat - 48)
  else if 'a' ≤ c ∧ c ≤ 'f' then some (c.toNat - 87)
  else if 'A' ≤ c ∧ c ≤ 'F' then some (c.toNat - 55)
  else none

def hex4 (a b c d : Char) : Option Nat := do
  let a ← hexDigit a
  let b ← hexDigit b
  let c ← hexDigit c
  let d ← hexDigit d
  some (4096 * a + 256 * b + 16 * c + d)

/-- The escapes of one letter. -/
def simpleEscape (c : Char) : Option Char :=
  [('"', '"'), ('\\', '\\'), ('/', '/'), ('b', '\x08'), ('f', '\x0c'), ('n', '\n'), ('r', '\r'),
    ('t', '\t')].lookup c

/-- The pieces up to the closing quote, and the text behind it. -/
def pieces : List Char → Option (List Piece × List Char)
  | [] => none
  | '"' :: rest => some ([], rest)
  | '\\' :: 'u' :: a :: b :: c :: d :: rest => do
    let n ← hex4 a b c d
    let (found, rest) ← pieces rest
    some (.unit n :: found, rest)
  | '\\' :: c :: rest => do
    let c ← simpleEscape c
    let (found, rest) ← pieces rest
    some (.char c :: found, rest)
  | c :: rest => do
    let (found, rest) ← if c.toNat < 32 then none else pieces rest
    some (.char c :: found, rest)

def isHighSurrogate (n : Nat) : Prop := 0xD800 ≤ n ∧ n < 0xDC00

def isLowSurrogate (n : Nat) : Prop := 0xDC00 ≤ n ∧ n < 0xE000

instance (n : Nat) : Decidable (isHighSurrogate n) := inferInstanceAs (Decidable (_ ∧ _))

instance (n : Nat) : Decidable (isLowSurrogate n) := inferInstanceAs (Decidable (_ ∧ _))

/-- A surrogate without its pair stands for the replacement character. -/
def ofUnit (n : Nat) : Char := if n.isValidChar then Char.ofNat n else '\uFFFD'

def contents : List Piece → List Char
  | [] => []
  | .char c :: rest => c :: contents rest
  | .unit high :: .unit low :: rest =>
    if isHighSurrogate high ∧ isLowSurrogate low then
      Char.ofNat (0x10000 + (high - 0xD800) * 0x400 + (low - 0xDC00)) :: contents rest
    else ofUnit high :: contents (.unit low :: rest)
  | .unit n :: rest => ofUnit n :: contents rest

def string (text : List Char) : Option (List Char × List Char) :=
  (pieces text).map fun found => (contents found.1, found.2)

/-! ## Values -/

/-- A value, one level deep. -/
inductive Shape
  | null
  | bool (b : Bool)
  | num (literal : List Char)
  | str (s : List Char)
  | arr (elements : List (List Char))
  | obj (members : List (List Char × List Char))
deriving Repr, DecidableEq

def scalar : List Char → Option (Shape × List Char)
  | 'n' :: 'u' :: 'l' :: 'l' :: rest => some (.null, rest)
  | 't' :: 'r' :: 'u' :: 'e' :: rest => some (.bool true, rest)
  | 'f' :: 'a' :: 'l' :: 's' :: 'e' :: rest => some (.bool false, rest)
  | '"' :: rest => (string rest).map fun found => (.str found.1, found.2)
  | text => (number text).map fun rest => (.num (consumed text rest), rest)

mutual

/-- The value that `text` starts with, and the text behind it. The fuel bounds the
steps; twice the length of the text is enough. -/
def value : Nat → List Char → Option (Shape × List Char)
  | 0, _ => none
  | fuel + 1, '[' :: text =>
    match skipSpace text with
    | ']' :: rest => some (.arr [], rest)
    | text => (elements fuel text).map fun found => (.arr found.1, found.2)
  | fuel + 1, '{' :: text =>
    match skipSpace text with
    | '}' :: rest => some (.obj [], rest)
    | text => (members fuel text).map fun found => (.obj found.1, found.2)
  | _ + 1, text => scalar text

def elements : Nat → List Char → Option (List (List Char) × List Char)
  | 0, _ => none
  | fuel + 1, text => do
    let (_, rest) ← value fuel text
    match skipSpace rest with
    | ',' :: more =>
      let (found, behind) ← elements fuel (skipSpace more)
      some (consumed text rest :: found, behind)
    | ']' :: behind => some ([consumed text rest], behind)
    | _ => none

def members : Nat → List Char → Option (List (List Char × List Char) × List Char)
  | 0, _ => none
  | fuel + 1, text =>
    match text with
    | '"' :: text => do
      let (key, rest) ← string text
      match skipSpace rest with
      | ':' :: text =>
        let text := skipSpace text
        let (_, rest) ← value fuel text
        match skipSpace rest with
        | ',' :: more =>
          let (found, behind) ← members fuel (skipSpace more)
          some ((key, consumed text rest) :: found, behind)
        | '}' :: behind => some ([(key, consumed text rest)], behind)
        | _ => none
      | _ => none
    | _ => none

end

/-- The first value of a stream, whatever follows. -/
def decode (text : String) : Option Shape :=
  (value (2 * text.length + 1) (skipSpace text.toList)).map Prod.fst

/-- The value a text consists of. -/
def unmarshal (text : String) : Option Shape := do
  let (shape, rest) ← value (2 * text.length + 1) (skipSpace text.toList)
  if skipSpace rest = [] then some shape else none

/-! ## Printing -/

def hexChar (n : Nat) : Char := if n < 10 then Char.ofNat (48 + n) else Char.ofNat (87 + n)

def hexEscape (n : Nat) : List Char :=
  ['\\', 'u', hexChar (n / 4096 % 16), hexChar (n / 256 % 16), hexChar (n / 16 % 16),
    hexChar (n % 16)]

/-- Characters that are never written as they are: control characters, the ones HTML
reserves, and the line separators of JavaScript. -/
def unsafeChar (c : Char) : Bool :=
  c.toNat < 32 || c = '<' || c = '>' || c = '&' || c.toNat = 0x2028 || c.toNat = 0x2029

def escape (c : Char) : List Char :=
  match [('"', '"'), ('\\', '\\'), ('\x08', 'b'), ('\x0c', 'f'), ('\n', 'n'), ('\r', 'r'),
    ('\t', 't')].lookup c with
  | some letter => ['\\', letter]
  | none => if unsafeChar c then hexEscape c.toNat else [c]

def quote (s : List Char) : List Char := '"' :: (s.flatMap escape ++ ['"'])

/-- Like `escape`, for what is in a valid text already. -/
def escapeReserved (c : Char) : List Char :=
  if c = '<' ∨ c = '>' ∨ c = '&' ∨ c.toNat = 0x2028 ∨ c.toNat = 0x2029 then hexEscape c.toNat
  else [c]

/-- A text without the white space between its tokens; `inside` a string literal
everything stays. -/
def compact : (inside : Bool) → List Char → List Char
  | _, [] => []
  | true, '\\' :: c :: rest => '\\' :: escapeReserved c ++ compact true rest
  | true, c :: rest => escapeReserved c ++ compact (c ≠ '"') rest
  | false, c :: rest =>
    if isSpace c then compact false rest else escapeReserved c ++ compact (c = '"') rest

def commas : List (List Char) → List Char
  | [] => []
  | [raw] => raw
  | raw :: rest => raw ++ ',' :: commas rest

def array (elements : List (List Char)) : List Char := '[' :: (commas elements ++ [']'])

def member (m : List Char × List Char) : List Char := quote m.1 ++ ':' :: m.2

def object (members : List (List Char × List Char)) : List Char :=
  '\x7b' :: (commas (members.map member) ++ ['\x7d'])

/-! ## Strings are read as they were written -/

private theorem hexDigit_hexChar : ∀ n < 16, hexDigit (hexChar n) = some n := by decide

variable {n : Nat} {c : Char} {rest raw : List Char} {shape : Shape} {raws : List (List Char)}
  {entries : List (List Char × List Char)}

private theorem hex4_hexEscape (small : n < 65536) :
    hex4 (hexChar (n / 4096 % 16)) (hexChar (n / 256 % 16)) (hexChar (n / 16 % 16))
      (hexChar (n % 16)) = some n := by
  have digit : ∀ m, hexDigit (hexChar (m % 16)) = some (m % 16) :=
    fun m => hexDigit_hexChar _ (Nat.mod_lt m (by decide))
  have sum : 4096 * (n / 4096 % 16) + 256 * (n / 256 % 16) + 16 * (n / 16 % 16) + n % 16 = n := by
    omega
  simp [hex4, digit, sum]

/-- The piece that an escaped character is read as. -/
private def pieceOf (c : Char) : Piece :=
  if (['"', '\\', '\x08', '\x0c', '\n', '\r', '\t'].contains c) = false ∧ unsafeChar c then
    .unit c.toNat
  else .char c

private theorem unsafeChar_small (reserved : unsafeChar c = true) : c.toNat < 0x3000 := by
  simp only [unsafeChar, Bool.or_eq_true, decide_eq_true_eq] at reserved
  rcases reserved with ((((control | rfl) | rfl) | rfl) | line) | paragraph
  · omega
  · decide
  · decide
  · decide
  · omega
  · omega

private theorem pieces_plain (quote : c ≠ '"') (backslash : c ≠ '\\') (printed : ¬c.toNat < 32)
    (text : List Char) :
    pieces (c :: text) = (pieces text).map fun found => (.char c :: found.1, found.2) := by
  rw [pieces]
  · simp only [if_neg printed]
    cases pieces text <;> rfl
  · exact fun h => quote h
  · rintro a b d e rest rfl
    exact absurd rfl backslash
  · rintro d rest rfl
    exact absurd rfl backslash

private theorem pieces_letter {letter : Char} (known : simpleEscape letter = some c)
    (text : List Char) : pieces ('\\' :: letter :: text) =
      (pieces text).map fun found => (.char c :: found.1, found.2) := by
  rw [pieces]
  · rw [known]
    cases pieces text <;> rfl
  · rintro a b d e rest rfl -
    cases known

private theorem pieces_hexEscape (small : n < 65536) (text : List Char) :
    pieces (hexEscape n ++ text) =
      (pieces text).map fun found => (.unit n :: found.1, found.2) := by
  simp only [hexEscape, List.cons_append, List.nil_append]
  rw [pieces, hex4_hexEscape small]
  cases pieces text <;> rfl

private theorem escapeReserved_plain (printed : unsafeChar c = false) : escapeReserved c = [c] := by
  simp only [unsafeChar, Bool.or_eq_false_iff, decide_eq_false_iff_not] at printed
  apply if_neg
  tauto

/-- A character is written with a letter, in hexadecimal, or as it is. -/
private theorem escape_cases (c : Char) :
    (∃ letter, escape c = ['\\', letter] ∧ simpleEscape letter = some c ∧
      escapeReserved letter = [letter] ∧ pieceOf c = .char c) ∨
    (escape c = hexEscape c.toNat ∧ c.toNat < 65536 ∧ pieceOf c = .unit c.toNat) ∨
    escape c = [c] ∧ c ≠ '"' ∧ c ≠ '\\' ∧ unsafeChar c = false ∧ pieceOf c = .char c := by
  by_cases listed : ['"', '\\', '\x08', '\x0c', '\n', '\r', '\t'].contains c = true
  · left
    have piece : pieceOf c = .char c := by
      rw [pieceOf, listed]
      rfl
    simp only [List.contains_iff_mem, List.mem_cons, List.not_mem_nil, or_false] at listed
    rcases listed with rfl | rfl | rfl | rfl | rfl | rfl | rfl
    · exact ⟨_, rfl, rfl, rfl, piece⟩
    · exact ⟨_, rfl, rfl, rfl, piece⟩
    · exact ⟨_, rfl, rfl, rfl, piece⟩
    · exact ⟨_, rfl, rfl, rfl, piece⟩
    · exact ⟨_, rfl, rfl, rfl, piece⟩
    · exact ⟨_, rfl, rfl, rfl, piece⟩
    · exact ⟨_, rfl, rfl, rfl, piece⟩
  · right
    have plain := listed
    simp only [List.contains_iff_mem, List.mem_cons, List.not_mem_nil, or_false, not_or] at plain
    obtain ⟨quote, backslash, b, f, n, r, t⟩ := plain
    have unlisted : [('"', '"'), ('\\', '\\'), ('\x08', 'b'), ('\x0c', 'f'), ('\n', 'n'),
        ('\r', 'r'), ('\t', 't')].lookup c = none := by
      rw [List.lookup_eq_none_iff]
      simp [quote, backslash, b, f, n, r, t]
    rw [escape, unlisted, pieceOf, Bool.eq_false_iff.mpr listed]
    dsimp only
    by_cases reserved : unsafeChar c = true
    · left
      have small := unsafeChar_small reserved
      rw [if_pos reserved, if_pos ⟨rfl, reserved⟩]
      exact ⟨rfl, by omega, rfl⟩
    · right
      rw [if_neg reserved, if_neg fun h => reserved h.2]
      exact ⟨rfl, quote, backslash, Bool.eq_false_iff.mpr reserved, rfl⟩

private theorem pieces_escape (c : Char) (text : List Char) :
    pieces (escape c ++ text) =
      (pieces text).map fun found => (pieceOf c :: found.1, found.2) := by
  rcases escape_cases c with ⟨letter, written, known, -, piece⟩ | ⟨written, small, piece⟩ |
    ⟨written, quote, backslash, printed, piece⟩
  · rw [written, piece]
    exact pieces_letter known text
  · rw [written, piece]
    exact pieces_hexEscape small text
  · have visible : ¬c.toNat < 32 := by
      intro control
      simp [unsafeChar, control] at printed
    rw [written, piece]
    exact pieces_plain quote backslash visible text

private theorem contents_unit (low : n < 0x3000) (rest : List Piece) :
    contents (.unit n :: rest) = ofUnit n :: contents rest := by
  have plain : ¬isHighSurrogate n := fun high => absurd high.1 (by omega)
  cases rest with
  | nil => rfl
  | cons p rest =>
    cases p with
    | char c => rfl
    | unit m => rw [contents, if_neg fun pair => plain pair.1]

private theorem ofUnit_toNat (c : Char) : ofUnit c.toNat = c := by
  have valid : c.toNat.isValidChar := c.valid
  rw [ofUnit, if_pos valid, Char.ofNat_toNat]

private theorem contents_pieceOf (c : Char) (rest : List Piece) :
    contents (pieceOf c :: rest) = c :: contents rest := by
  unfold pieceOf
  split
  next reserved => rw [contents_unit (unsafeChar_small reserved.2), ofUnit_toNat]
  next => rw [contents]

theorem string_quote (s rest : List Char) :
    string (s.flatMap escape ++ '"' :: rest) = some (s, rest) := by
  have read : pieces (s.flatMap escape ++ '"' :: rest) = some (s.map pieceOf, rest) := by
    induction s with
    | nil => rw [List.flatMap_nil, List.nil_append, pieces, List.map_nil]
    | cons c s ih => rw [List.flatMap_cons, List.append_assoc, pieces_escape, ih]; rfl
  have whole : contents (s.map pieceOf) = s := by
    clear read
    induction s with
    | nil => rfl
    | cons c s ih => rw [List.map_cons, contents_pieceOf, ih]
  rw [string, read, Option.map_some, whole]

/-! ## Printed texts are compact -/

private theorem compact_inside (quote : c ≠ '"') (backslash : c ≠ '\\')
    (plain : escapeReserved c = [c]) (rest : List Char) :
    compact true (c :: rest) = c :: compact true rest := by
  rw [compact, plain]
  · simp [quote]
  · rintro d tail rfl -
    exact backslash rfl

private theorem compact_hexEscape (n : Nat) (rest : List Char) :
    compact true (hexEscape n ++ rest) = hexEscape n ++ compact true rest := by
  have digit : ∀ m < 16, hexChar m ≠ '"' ∧ hexChar m ≠ '\\' ∧
      escapeReserved (hexChar m) = [hexChar m] := by decide
  have inside : ∀ m rest, compact true (hexChar (m % 16) :: rest) =
      hexChar (m % 16) :: compact true rest := by
    intro m rest
    obtain ⟨quote, backslash, plain⟩ := digit (m % 16) (Nat.mod_lt m (by decide))
    exact compact_inside quote backslash plain rest
  have letter : escapeReserved 'u' = ['u'] := rfl
  simp only [hexEscape, List.cons_append, List.nil_append]
  rw [compact, letter, inside, inside, inside, inside]
  rfl

private theorem compact_escape (c : Char) (rest : List Char) :
    compact true (escape c ++ rest) = escape c ++ compact true rest := by
  rcases escape_cases c with ⟨letter, written, -, plain, -⟩ | ⟨written, -, -⟩ |
    ⟨written, quote, backslash, printed, -⟩
  · rw [written]
    simp only [List.cons_append, List.nil_append]
    rw [compact, plain]
    rfl
  · rw [written, compact_hexEscape]
  · rw [written]
    exact compact_inside quote backslash (escapeReserved_plain printed) rest

theorem compact_quote (s : List Char) : compact false (quote s) = quote s := by
  have inside : ∀ rest, compact true (s.flatMap escape ++ rest) =
      s.flatMap escape ++ compact true rest := by
    intro rest
    induction s with
    | nil => rfl
    | cons c s ih => rw [List.flatMap_cons, List.append_assoc, compact_escape, ih]; simp
  have opening : compact false (quote s) = '"' :: compact true (s.flatMap escape ++ ['"']) := rfl
  rw [opening, inside]
  rfl

theorem compact_format (n : Int) : compact false (Decimal.format n) = Decimal.format n := by
  have visible : ∀ c, c = '-' ∨ c.isDigit = true →
      isSpace c = false ∧ escapeReserved c = [c] ∧ c ≠ '"' := by
    rintro c (rfl | digit)
    · decide
    · have other : ∀ d : Char, d.isDigit = false → c ≠ d := by
        rintro d letter rfl
        rw [letter] at digit
        cases digit
      have small := (Decimal.toNat_of_isDigit digit).2
      refine ⟨?_, if_neg ?_, other _ rfl⟩
      · simp [isSpace, other ' ' rfl, other '\t' rfl, other '\r' rfl, other '\n' rfl]
      · simp only [other '<' rfl, other '>' rfl, other '&' rfl, false_or]
        omega
  have digits : ∀ text : List Char, (∀ c ∈ text, c = '-' ∨ c.isDigit = true) →
      compact false text = text := by
    intro text plain
    induction text with
    | nil => rfl
    | cons c text ih =>
      obtain ⟨printed, kept, quote⟩ := visible c (plain c List.mem_cons_self)
      have rest := ih fun d member => plain d (List.mem_cons_of_mem c member)
      simp [compact, printed, kept, quote, rest]
  exact digits _ fun c member => Decimal.mem_format member

/-! ## What a raw text is read as -/

/-- The end of the text, or of the element or member it is part of. -/
def Ends (rest : List Char) : Prop :=
  ∀ c, rest.head? = some c → c = ',' ∨ c = ']' ∨ c = '}'

/-- Wherever `raw` stands as a whole value, it is read as `shape`. -/
structure Reads (raw : List Char) (shape : Shape) : Prop where
  /-- It starts with the value, not with white space, and not with a closing bracket. -/
  start : ∃ c rest, raw = c :: rest ∧ isSpace c = false ∧ c ≠ ']'
  read : ∀ fuel rest, 2 * raw.length < fuel → Ends rest →
    value fuel (raw ++ rest) = some (shape, rest)

private theorem ends_nil : Ends [] := by
  intro c first
  cases first

private theorem ends_cons (delimiter : c = ',' ∨ c = ']' ∨ c = '}') (rest : List Char) :
    Ends (c :: rest) := by
  intro d first
  cases first
  exact delimiter

theorem skipSpace_cons (visible : isSpace c = false) (rest : List Char) :
    skipSpace (c :: rest) = c :: rest := by
  simp [skipSpace, visible]

theorem value_scalar (array : c ≠ '[') (object : c ≠ '{') (fuel : Nat) (text : List Char) :
    value (fuel + 1) (c :: text) = scalar (c :: text) := by
  rw [value]
  · rintro _ h
    exact array (List.cons.inj h).1
  · rintro _ h
    exact object (List.cons.inj h).1

theorem reads_quote (s : List Char) : Reads (quote s) (.str s) := by
  constructor
  · exact ⟨'"', _, rfl, rfl, by decide⟩
  · intro fuel rest enough ends
    obtain ⟨n, rfl⟩ : ∃ n, fuel = n + 1 := ⟨fuel - 1, by omega⟩
    have text : quote s ++ rest = '"' :: (s.flatMap escape ++ '"' :: rest) := by
      simp [quote]
    rw [text, value_scalar (by decide) (by decide), scalar, string_quote]
    rfl

private theorem dropWhile_digits (ends : Ends rest) : rest.dropWhile Char.isDigit = rest := by
  cases rest with
  | nil => rfl
  | cons c rest =>
    rcases ends c rfl with rfl | rfl | rfl <;> rfl

private theorem afterInteger_toDigits (n : Nat) (ends : Ends rest) :
    afterInteger (Nat.toDigits 10 n ++ rest) = some rest := by
  rcases Decimal.toDigits_leading n with rfl | leading
  · rfl
  · obtain ⟨c, more, digits, digit⟩ := Decimal.head_toDigits n
    have behind : ∀ d ∈ more, d.isDigit = true := by
      intro d member
      apply Decimal.toDigits_isDigit (n := n)
      rw [digits]
      exact List.mem_cons_of_mem c member
    rw [digits] at leading ⊢
    rw [List.cons_append, afterInteger]
    · rw [afterDigits, if_pos digit, List.dropWhile_append_of_pos behind, dropWhile_digits ends]
    · rintro _ h
      exact leading (congrArg some (List.cons.inj h).1)

private theorem number_format (n : Int) (ends : Ends rest) :
    number (Decimal.format n ++ rest) = some rest := by
  have fraction : afterFraction rest = some rest := by
    cases rest with
    | nil => rfl
    | cons c rest => rcases ends c rfl with rfl | rfl | rfl <;> rfl
  have exponent : afterExponent rest = some rest := by
    cases rest with
    | nil => rfl
    | cons c rest => rcases ends c rfl with rfl | rfl | rfl <;> rfl
  have unsigned : (if (Decimal.format n ++ rest).head? = some '-' then
      (Decimal.format n ++ rest).tail else Decimal.format n ++ rest) =
      Nat.toDigits 10 n.natAbs ++ rest := by
    unfold Decimal.format
    split
    next => simp
    next =>
      obtain ⟨c, more, digits, digit⟩ := Decimal.head_toDigits n.natAbs
      rw [digits]
      apply if_neg
      simp only [List.cons_append, List.head?_cons, Option.some.injEq]
      rintro rfl
      cases digit
  rw [number, unsigned, afterInteger_toDigits n.natAbs ends]
  simp [fraction, exponent]

/-- A number starts with a sign or a digit and is read up to the end of the value. -/
theorem reads_number {literal : List Char}
    (start : ∃ c more, literal = c :: more ∧ (c = '-' ∨ c.isDigit = true))
    (read : ∀ rest, Ends rest → number (literal ++ rest) = some rest) :
    Reads literal (.num literal) := by
  obtain ⟨c, more, text, first⟩ := start
  have other : ∀ d : Char, d ≠ '-' → d.isDigit = false → c ≠ d := by
    rintro d minus letter rfl
    rcases first with rfl | digit
    · exact minus rfl
    · rw [letter] at digit
      cases digit
  constructor
  · refine ⟨c, more, text, ?_, other _ (by decide) (by decide)⟩
    simp [isSpace, other ' ' (by decide) (by decide), other '\t' (by decide) (by decide),
      other '\r' (by decide) (by decide), other '\n' (by decide) (by decide)]
  · intro fuel rest enough ends
    obtain ⟨k, rfl⟩ : ∃ k, fuel = k + 1 := ⟨fuel - 1, by omega⟩
    have whole : scalar (literal ++ rest) =
        (number (literal ++ rest)).map fun behind =>
          (.num (consumed (literal ++ rest) behind), behind) := by
      rw [text, List.cons_append, scalar]
      · rintro _ h
        exact other 'n' (by decide) (by decide) (List.cons.inj h).1
      · rintro _ h
        exact other 't' (by decide) (by decide) (List.cons.inj h).1
      · rintro _ h
        exact other 'f' (by decide) (by decide) (List.cons.inj h).1
      · rintro _ h
        exact other '"' (by decide) (by decide) (List.cons.inj h).1
    have step : value (k + 1) (literal ++ rest) = scalar (literal ++ rest) := by
      rw [text, List.cons_append]
      exact value_scalar (other _ (by decide) (by decide)) (other _ (by decide) (by decide)) k _
    rw [step, whole, read rest ends, Option.map_some, consumed_append]

theorem reads_format (n : Int) : Reads (Decimal.format n) (.num (Decimal.format n)) := by
  apply reads_number _ fun rest ends => number_format n ends
  unfold Decimal.format
  split
  · exact ⟨'-', _, rfl, Or.inl rfl⟩
  · obtain ⟨c, more, digits, digit⟩ := Decimal.head_toDigits n.natAbs
    exact ⟨c, more, digits, Or.inr digit⟩

/-- A literal name. -/
theorem reads_word {word : List Char} {more : List Char} (text : word = c :: more)
    (visible : isSpace c = false) (array : c ≠ '[') (closing : c ≠ ']') (object : c ≠ '{')
    (read : ∀ rest, scalar (word ++ rest) = some (shape, rest)) : Reads word shape := by
  constructor
  · exact ⟨c, more, text, visible, closing⟩
  · intro fuel rest enough ends
    obtain ⟨k, rfl⟩ : ∃ k, fuel = k + 1 := ⟨fuel - 1, by omega⟩
    rw [← read rest, text, List.cons_append]
    exact value_scalar array object k _

def marshalBool (b : Bool) : List Char := if b then "true".toList else "false".toList

theorem reads_bool (b : Bool) : Reads (marshalBool b) (.bool b) := by
  cases b with
  | true =>
    exact reads_word rfl (by decide) (by decide) (by decide) (by decide) fun rest => rfl
  | false =>
    exact reads_word rfl (by decide) (by decide) (by decide) (by decide) fun rest => rfl

/-! ## Arrays and objects are read as they were written -/

/-- Commas and texts in front of `rest` start as the first text does. -/
private theorem skipSpace_commas {tail : List Char} (start : raw = c :: tail)
    (visible : isSpace c = false) (raws : List (List Char)) (rest : List Char) :
    skipSpace (commas (raw :: raws) ++ rest) = commas (raw :: raws) ++ rest := by
  cases raws with
  | nil =>
    rw [commas, start]
    exact skipSpace_cons visible _
  | cons next raws =>
    rw [commas, start]
    · exact skipSpace_cons visible _
    · simp

private theorem elements_commas (nonempty : raws ≠ [])
    (reads : ∀ raw ∈ raws, ∃ shape, Reads raw shape) (fuel : Nat) (rest : List Char)
    (enough : 2 * (commas raws).length + 2 ≤ fuel) :
    elements fuel (commas raws ++ ']' :: rest) = some (raws, rest) := by
  induction raws generalizing fuel with
  | nil => exact absurd rfl nonempty
  | cons raw raws ih =>
    obtain ⟨n, rfl⟩ : ∃ n, fuel = n + 1 := ⟨fuel - 1, by omega⟩
    obtain ⟨shape, first⟩ := reads raw List.mem_cons_self
    cases raws with
    | nil =>
      have ends : Ends (']' :: rest) := ends_cons (Or.inr (Or.inl rfl)) rest
      simp only [commas] at enough ⊢
      rw [elements, first.read n _ (by omega) ends]
      simp [skipSpace_cons (c := ']') rfl]
    | cons next raws =>
      obtain ⟨_, second⟩ := reads next (by simp)
      obtain ⟨c, tail, start, visible, -⟩ := second.start
      have enough : 2 * (raw.length + ((commas (next :: raws)).length + 1)) + 2 ≤ n + 1 := by
        simpa [commas] using enough
      have behind := ih (by simp) (fun raw member => reads raw (List.mem_cons_of_mem _ member)) n
        (by omega)
      have text : commas (raw :: next :: raws) ++ ']' :: rest =
          raw ++ ',' :: (commas (next :: raws) ++ ']' :: rest) := by
        simp [commas]
      have ends := ends_cons (c := ',') (Or.inl rfl) (commas (next :: raws) ++ ']' :: rest)
      rw [text, elements, first.read n _ (by omega) ends]
      simp only [Option.bind_eq_bind, Option.bind_some, skipSpace_cons (c := ',') rfl,
        skipSpace_commas start visible, behind, consumed_append]

private theorem members_commas (nonempty : entries ≠ [])
    (reads : ∀ m ∈ entries, ∃ shape, Reads m.2 shape) (fuel : Nat) (rest : List Char)
    (enough : 2 * (commas (entries.map member)).length + 2 ≤ fuel) :
    members fuel (commas (entries.map member) ++ '}' :: rest) = some (entries, rest) := by
  induction entries generalizing fuel with
  | nil => exact absurd rfl nonempty
  | cons m entries ih =>
    obtain ⟨key, raw⟩ := m
    obtain ⟨n, rfl⟩ : ∃ n, fuel = n + 1 := ⟨fuel - 1, by omega⟩
    obtain ⟨shape, first⟩ : ∃ shape, Reads raw shape := reads (key, raw) List.mem_cons_self
    obtain ⟨c, tail, start, visible, -⟩ := first.start
    -- the key, the colon and the raw text in front of a delimiter
    have field : ∀ behind : List Char, member (key, raw) ++ behind =
        '"' :: (key.flatMap escape ++ '"' :: ':' :: (raw ++ behind)) := by
      intro behind
      simp [member, quote]
    have visibleRaw : ∀ behind : List Char, skipSpace (raw ++ behind) = raw ++ behind := by
      intro behind
      rw [start]
      exact skipSpace_cons visible _
    cases entries with
    | nil =>
      have ends : Ends ('}' :: rest) := ends_cons (Or.inr (Or.inr rfl)) rest
      have short : raw.length ≤ (commas ([(key, raw)].map member)).length := by
        simp [commas, member]
        omega
      have text : commas ([(key, raw)].map member) ++ '}' :: rest =
          member (key, raw) ++ '}' :: rest := by
        simp [commas]
      rw [text, field, members]
      simp only [string_quote, Option.bind_eq_bind, Option.bind_some,
        skipSpace_cons (c := ':') rfl, visibleRaw]
      rw [first.read n _ (by omega) ends]
      simp [skipSpace_cons (c := '}') rfl]
    | cons next entries =>
      have long : commas (((key, raw) :: next :: entries).map member) =
          member (key, raw) ++ ',' :: commas ((next :: entries).map member) := by
        simp [commas]
      have short : raw.length ≤ (member (key, raw)).length := by
        simp [member]
        omega
      have enough : 2 * ((member (key, raw)).length +
          ((commas ((next :: entries).map member)).length + 1)) + 2 ≤ n + 1 := by
        rw [long] at enough
        simpa using enough
      have behind := ih (by simp) (fun m known => reads m (List.mem_cons_of_mem _ known)) n
        (by omega)
      have ends := ends_cons (c := ',') (Or.inl rfl)
        (commas ((next :: entries).map member) ++ '}' :: rest)
      have starts : skipSpace (commas ((next :: entries).map member) ++ '}' :: rest) =
          commas ((next :: entries).map member) ++ '}' :: rest := by
        rw [List.map_cons]
        exact @skipSpace_commas _ (member next) _ rfl rfl _ _
      rw [long, List.append_assoc, List.cons_append, field, members]
      simp only [string_quote, Option.bind_eq_bind, Option.bind_some,
        skipSpace_cons (c := ':') rfl, visibleRaw]
      rw [first.read n _ (by omega) ends]
      simp only [Option.bind_some, skipSpace_cons (c := ',') rfl, starts, behind, consumed_append]

private theorem head_commas {tail : List Char} (start : raw = c :: tail) (raws : List (List Char))
    (rest : List Char) : ∃ more, commas (raw :: raws) ++ rest = c :: more := by
  cases raws with
  | nil => exact ⟨tail ++ rest, by rw [commas, start, List.cons_append]⟩
  | cons next raws =>
    refine ⟨tail ++ ',' :: commas (next :: raws) ++ rest, ?_⟩
    rw [commas, start]
    · simp
    · simp

theorem reads_array (reads : ∀ raw ∈ raws, ∃ shape, Reads raw shape) :
    Reads (array raws) (.arr raws) := by
  constructor
  · exact ⟨'[', _, rfl, rfl, by decide⟩
  · intro fuel rest enough ends
    obtain ⟨n, rfl⟩ : ∃ n, fuel = n + 1 := ⟨fuel - 1, by omega⟩
    have text : array raws ++ rest = '[' :: (commas raws ++ ']' :: rest) := by
      simp [array]
    have length : (array raws).length = (commas raws).length + 2 := by
      simp [array]
    rw [text, value]
    cases raws with
    | nil => simp [commas, skipSpace_cons (c := ']') rfl]
    | cons raw raws =>
      obtain ⟨_, first⟩ := reads raw List.mem_cons_self
      obtain ⟨c, tail, start, visible, other⟩ := first.start
      have found := elements_commas (List.cons_ne_nil raw raws) reads n rest (by omega)
      obtain ⟨more, head⟩ := head_commas start raws (']' :: rest)
      rw [skipSpace_commas start visible]
      split
      next closing =>
        rw [head] at closing
        exact absurd (List.cons.inj closing).1 other
      next => rw [found, Option.map_some]

theorem reads_object (reads : ∀ m ∈ entries, ∃ shape, Reads m.2 shape) :
    Reads (object entries) (.obj entries) := by
  constructor
  · exact ⟨'{', _, rfl, rfl, by decide⟩
  · intro fuel rest enough ends
    obtain ⟨n, rfl⟩ : ∃ n, fuel = n + 1 := ⟨fuel - 1, by omega⟩
    have text : object entries ++ rest = '{' :: (commas (entries.map member) ++ '}' :: rest) := by
      simp [object]
    have length : (object entries).length = (commas (entries.map member)).length + 2 := by
      simp [object]
    rw [text, value]
    cases entries with
    | nil => simp [commas, skipSpace_cons (c := '}') rfl]
    | cons m entries =>
      have found := members_commas (List.cons_ne_nil m entries) reads n rest (by omega)
      rw [List.map_cons] at found ⊢
      obtain ⟨more, head⟩ := @head_commas _ (member m) _ rfl (entries.map member) ('}' :: rest)
      rw [@skipSpace_commas _ (member m) _ rfl rfl]
      split
      next closing =>
        rw [head] at closing
        exact absurd (List.cons.inj closing).1 (by decide)
      next => rw [found, Option.map_some]

/-! ## Whole texts -/

theorem Reads.decode (reads : Reads raw shape) : decode (String.ofList raw) = some shape := by
  obtain ⟨c, tail, start, visible, -⟩ := reads.start
  have read := reads.read (2 * raw.length + 1) [] (by omega) ends_nil
  have whole : skipSpace raw = raw := by
    rw [start]
    exact skipSpace_cons visible tail
  rw [List.append_nil] at read
  rw [Json.decode, String.length_ofList, String.toList_ofList, whole, read, Option.map_some]

theorem Reads.unmarshal (reads : Reads raw shape) : unmarshal (String.ofList raw) = some shape := by
  obtain ⟨c, tail, start, visible, -⟩ := reads.start
  have read := reads.read (2 * raw.length + 1) [] (by omega) ends_nil
  have whole : skipSpace raw = raw := by
    rw [start]
    exact skipSpace_cons visible tail
  rw [List.append_nil] at read
  rw [Json.unmarshal, String.length_ofList, String.toList_ofList, whole, read]
  rfl

theorem quote_injective {a b : String} (same : quote a.toList = quote b.toList) : a = b := by
  have first := (reads_quote a.toList).unmarshal
  rw [same, (reads_quote b.toList).unmarshal] at first
  exact (String.toList_inj.mp (Shape.str.inj (Option.some.inj first))).symm

/-- An element is no longer than the whole. -/
theorem length_commas (member : raw ∈ raws) : raw.length ≤ (commas raws).length := by
  induction raws with
  | nil => cases member
  | cons first rest ih =>
    cases rest with
    | nil => exact Nat.le_of_eq (congrArg List.length (List.mem_singleton.mp member))
    | cons next rest =>
      rw [commas]
      · rcases List.mem_cons.mp member with rfl | member
        · simp
        · have later := ih member
          simp only [List.length_append, List.length_cons]
          omega
      · simp

/-! ## What is printed has no control characters -/

def Printed (text : List Char) : Prop := ∀ c ∈ text, 32 ≤ c.toNat

theorem Printed.append {a b : List Char} (first : Printed a) (second : Printed b) :
    Printed (a ++ b) := by
  intro c member
  rcases List.mem_append.mp member with left | right
  · exact first c left
  · exact second c right

theorem Printed.cons {text : List Char} (first : 32 ≤ c.toNat) (rest : Printed text) :
    Printed (c :: text) := by
  intro d member
  rcases List.mem_cons.mp member with rfl | later
  · exact first
  · exact rest d later

/-- A test that runs on letters alone, whatever instances decide `∀`. -/
theorem Printed.of_all {text : List Char} (all : text.all (32 ≤ ·.toNat) = true) : Printed text :=
  fun c member => of_decide_eq_true (List.all_eq_true.mp all c member)

theorem printed_hexEscape (n : Nat) : Printed (hexEscape n) := by
  have digits : ∀ n < 16, 32 ≤ (hexChar n).toNat := by decide
  have digit : ∀ n, 32 ≤ (hexChar (n % 16)).toNat := fun n => digits _ (Nat.mod_lt n (by decide))
  intro c member
  simp only [hexEscape, List.mem_cons, List.not_mem_nil, or_false] at member
  rcases member with rfl | rfl | rfl | rfl | rfl | rfl
  · decide
  · decide
  · exact digit _
  · exact digit _
  · exact digit _
  · exact digit _

theorem printed_escape (c : Char) : Printed (escape c) := by
  unfold escape
  split
  next letter found =>
    obtain ⟨before, after, split, -⟩ := List.lookup_eq_some_iff.mp found
    have member : (c, letter) ∈ [('"', '"'), ('\\', '\\'), ('\x08', 'b'), ('\x0c', 'f'),
        ('\n', 'n'), ('\r', 'r'), ('\t', 't')] := by
      rw [split]
      exact List.mem_append_right _ List.mem_cons_self
    have letters : 32 ≤ letter.toNat := by
      simp only [List.mem_cons, Prod.mk.injEq, List.not_mem_nil, or_false] at member
      rcases member with ⟨-, rfl⟩ | ⟨-, rfl⟩ | ⟨-, rfl⟩ | ⟨-, rfl⟩ | ⟨-, rfl⟩ | ⟨-, rfl⟩ | ⟨-, rfl⟩
      all_goals decide
    exact .cons (by decide) (.cons letters fun _ none => (List.not_mem_nil none).elim)
  next =>
    split
    next => exact printed_hexEscape c.toNat
    next plain =>
      intro d member
      rw [List.mem_singleton.mp member]
      by_contra small
      exact plain (by simp [unsafeChar, Nat.lt_of_not_le small])

theorem printed_quote (s : List Char) : Printed (quote s) := by
  refine .cons (by decide) (.append ?_ (.of_all (by decide)))
  intro c member
  obtain ⟨d, -, escaped⟩ := List.mem_flatMap.mp member
  exact printed_escape d c escaped

theorem printed_format (n : Int) : Printed (Decimal.format n) := by
  intro c member
  rcases Decimal.mem_format member with rfl | digit
  · decide
  · have := (Decimal.toNat_of_isDigit digit).1
    omega

theorem printed_bool (b : Bool) : Printed (marshalBool b) := by
  cases b with
  | true => exact .of_all (by decide)
  | false => exact .of_all (by decide)

theorem printed_commas (printed : ∀ raw ∈ raws, Printed raw) : Printed (commas raws) := by
  induction raws with
  | nil => exact fun _ none => (List.not_mem_nil none).elim
  | cons raw rest ih =>
    have others := ih fun other member => printed other (List.mem_cons_of_mem _ member)
    have first := printed raw List.mem_cons_self
    cases rest with
    | nil => exact first
    | cons next more => exact first.append (.cons (by decide) others)

theorem printed_object (printed : ∀ m ∈ entries, Printed m.2) : Printed (object entries) := by
  refine .cons (by decide) (.append (printed_commas ?_) (.of_all (by decide)))
  intro raw member
  obtain ⟨m, listed, rfl⟩ := List.mem_map.mp member
  exact (printed_quote m.1).append (.cons (by decide) (printed m listed))

end Json
