import ForestPanel.Lib.JsonValue
import Mathlib.Data.List.Infix
import Mathlib.Data.List.TakeWhile

/-!
# Values are read back as they were printed

What is read of a text is a part of it, so that its numbers are read the same wherever
they stand and its arrays are no longer than the text. A `Proper` value has such
numbers and arrays, and maps with their keys in order; its printed text is read as the
value itself.
-/
namespace Json

/-! ## What is left is a part of the text -/

private theorem skipSpace_suffix (text : List Char) : skipSpace text <:+ text :=
  List.dropWhile_suffix _

variable {text rest : List Char} {shape : Shape}

private theorem afterDigits_suffix (read : afterDigits text = some rest) : rest <:+ text := by
  cases text with
  | nil => cases read
  | cons c tail =>
    rw [afterDigits] at read
    split at read
    · cases read
      exact (List.dropWhile_suffix _).trans (List.suffix_cons c tail)
    · cases read

private theorem afterInteger_suffix (read : afterInteger text = some rest) : rest <:+ text := by
  unfold afterInteger at read
  split at read
  · cases read
    exact List.suffix_cons _ _
  · exact afterDigits_suffix read

private theorem afterFraction_suffix (read : afterFraction text = some rest) : rest <:+ text := by
  unfold afterFraction at read
  split at read
  · exact (afterDigits_suffix read).trans (List.suffix_cons _ _)
  · cases read
    exact List.suffix_refl _

private theorem afterSign_suffix (text : List Char) : afterSign text <:+ text := by
  unfold afterSign
  split
  · exact List.suffix_cons _ _
  · exact List.suffix_cons _ _
  · exact List.suffix_refl _

private theorem afterExponent_suffix (read : afterExponent text = some rest) : rest <:+ text := by
  unfold afterExponent at read
  split at read
  · exact ((afterDigits_suffix read).trans (afterSign_suffix _)).trans (List.suffix_cons _ _)
  · exact ((afterDigits_suffix read).trans (afterSign_suffix _)).trans (List.suffix_cons _ _)
  · cases read
    exact List.suffix_refl _

private theorem number_parts (read : number text = some rest) :
    ∃ integer fraction,
      afterInteger (if text.head? = some '-' then text.tail else text) = some integer ∧
      afterFraction integer = some fraction ∧ afterExponent fraction = some rest := by
  simpa [number, Option.bind_eq_some_iff] using read

private theorem number_suffix (read : number text = some rest) : rest <:+ text := by
  obtain ⟨integer, fraction, first, second, third⟩ := number_parts read
  have unsigned : (if text.head? = some '-' then text.tail else text) <:+ text := by
    split
    · exact List.tail_suffix text
    · exact List.suffix_refl text
  exact (((afterExponent_suffix third).trans (afterFraction_suffix second)).trans
    (afterInteger_suffix first)).trans unsigned

private theorem pieces_suffix {found : List Piece} (read : pieces text = some (found, rest)) :
    rest <:+ text := by
  fun_induction pieces text generalizing found with
  | case1 => cases read
  | case2 tail =>
    cases read
    exact List.suffix_cons _ _
  | case3 a b c d tail ih =>
    simp only [Option.bind_eq_bind, Option.bind_eq_some_iff] at read
    obtain ⟨n, -, more, behind, same⟩ := read
    cases same
    exact (ih behind).trans (List.suffix_append ['\\', 'u', a, b, c, d] tail)
  | case4 c tail _ ih =>
    simp only [Option.bind_eq_bind, Option.bind_eq_some_iff] at read
    obtain ⟨n, -, more, behind, same⟩ := read
    cases same
    exact (ih behind).trans (List.suffix_append ['\\', c] tail)
  | case5 => cases read
  | case6 =>
    rename_i ih
    simp only [Option.bind_eq_bind, Option.bind_eq_some_iff] at read
    obtain ⟨more, behind, same⟩ := read
    cases same
    exact (ih behind).trans (List.suffix_cons _ _)

private theorem string_suffix {s : List Char} (read : string text = some (s, rest)) :
    rest <:+ text := by
  obtain ⟨found, pieces, same⟩ := Option.map_eq_some_iff.mp read
  cases same
  exact pieces_suffix pieces

private theorem scalar_suffix (read : scalar text = some (shape, rest)) : rest <:+ text := by
  unfold scalar at read
  split at read
  · cases read
    exact List.suffix_append ['n', 'u', 'l', 'l'] _
  · cases read
    exact List.suffix_append ['t', 'r', 'u', 'e'] _
  · cases read
    exact List.suffix_append ['f', 'a', 'l', 's', 'e'] _
  · obtain ⟨found, string, same⟩ := Option.map_eq_some_iff.mp read
    cases same
    exact (string_suffix string).trans (List.suffix_cons _ _)
  · obtain ⟨found, number, same⟩ := Option.map_eq_some_iff.mp read
    cases same
    exact number_suffix number

/-- The raw texts of a shape are no longer, and no more, than what was read. -/
def Within (fuel length : Nat) : Shape → Prop
  | .arr raws => raws.length ≤ fuel ∧ ∀ raw ∈ raws, raw.length ≤ length
  | .obj members => ∀ m ∈ members, m.2.length ≤ length
  | _ => True

private theorem consumed_length {whole : List Char} (part : text.length ≤ whole.length) :
    (consumed text rest).length ≤ whole.length := by
  rw [consumed, List.length_take]
  omega

private theorem within_scalar {fuel length : Nat} (read : scalar text = some (shape, rest)) :
    Within fuel length shape := by
  unfold scalar at read
  split at read
  · cases read; trivial
  · cases read; trivial
  · cases read; trivial
  · obtain ⟨found, -, same⟩ := Option.map_eq_some_iff.mp read
    cases same
    trivial
  · obtain ⟨found, -, same⟩ := Option.map_eq_some_iff.mp read
    cases same
    trivial

/-- By induction on the fuel, at once for values, elements and members. -/
private theorem read_within (fuel : Nat) :
    (∀ text shape rest, value fuel text = some (shape, rest) →
      rest <:+ text ∧ Within fuel text.length shape) ∧
    (∀ text raws rest, elements fuel text = some (raws, rest) →
      rest <:+ text ∧ raws.length ≤ fuel ∧ ∀ raw ∈ raws, raw.length ≤ text.length) ∧
    (∀ text entries rest, members fuel text = some (entries, rest) →
      rest <:+ text ∧ ∀ m ∈ entries, m.2.length ≤ text.length) := by
  induction fuel with
  | zero =>
    refine ⟨?_, ?_, ?_⟩
    · intro text shape rest read
      rw [value] at read
      cases read
    · intro text raws rest read
      rw [elements] at read
      cases read
    · intro text entries rest read
      rw [members] at read
      cases read
  | succ n ih =>
    obtain ⟨values, elems, mems⟩ := ih
    refine ⟨?_, ?_, ?_⟩
    · intro text shape rest read
      cases text with
      | nil =>
        rw [value] at read
        · exact ⟨scalar_suffix read, within_scalar read⟩
        · simp
        · simp
      | cons c tail =>
        have inside := (skipSpace_suffix tail).trans (List.suffix_cons c tail)
        by_cases array : c = '['
        · subst array
          rw [value] at read
          split at read
          next closing =>
            cases read
            refine ⟨(List.suffix_cons _ _).trans (closing ▸ inside), by simp [Within]⟩
          next =>
            obtain ⟨⟨raws, behind⟩, found, same⟩ := Option.map_eq_some_iff.mp read
            cases same
            obtain ⟨suffix, count, short⟩ := elems _ _ _ found
            refine ⟨suffix.trans inside, Nat.le_succ_of_le count, ?_⟩
            exact fun raw member => (short raw member).trans inside.length_le
        · by_cases object : c = '{'
          · subst object
            rw [value] at read
            split at read
            next closing =>
              cases read
              refine ⟨(List.suffix_cons _ _).trans (closing ▸ inside), by simp [Within]⟩
            next =>
              obtain ⟨⟨entries, behind⟩, found, same⟩ := Option.map_eq_some_iff.mp read
              cases same
              obtain ⟨suffix, short⟩ := mems _ _ _ found
              exact ⟨suffix.trans inside,
                fun m member => (short m member).trans inside.length_le⟩
          · rw [value_scalar array object] at read
            exact ⟨scalar_suffix read, within_scalar read⟩
    · intro text raws rest read
      rw [elements] at read
      simp only [Option.bind_eq_bind, Option.bind_eq_some_iff] at read
      obtain ⟨⟨shape, behind⟩, first, read⟩ := read
      obtain ⟨part, -⟩ := values text shape behind first
      have own : (consumed text behind).length ≤ text.length := consumed_length (Nat.le_refl _)
      split at read
      next more found =>
        simp only [Option.bind_eq_some_iff] at read
        obtain ⟨⟨later, after⟩, second, same⟩ := read
        cases same
        have next : skipSpace more <:+ text :=
          (skipSpace_suffix more).trans
            ((List.suffix_cons _ _).trans (found ▸ (skipSpace_suffix behind).trans part))
        obtain ⟨suffix, count, short⟩ := elems _ _ _ second
        refine ⟨suffix.trans next, by simpa using count, ?_⟩
        intro raw member
        rcases List.mem_cons.mp member with rfl | member
        · exact own
        · exact (short raw member).trans next.length_le
      next closing found =>
        cases read
        refine ⟨(List.suffix_cons _ _).trans (found ▸ (skipSpace_suffix behind).trans part),
          by simp, ?_⟩
        intro raw member
        rw [List.mem_singleton.mp member]
        exact own
      next => cases read
    · intro text entries rest read
      cases text with
      | nil =>
        rw [members] at read
        · cases read
        · simp
      | cons c tail =>
        by_cases quote : c = '"'
        · subst quote
          rw [members] at read
          simp only [Option.bind_eq_bind, Option.bind_eq_some_iff] at read
          obtain ⟨⟨key, behind⟩, first, read⟩ := read
          have named := (string_suffix first).trans (List.suffix_cons '"' tail)
          split at read
          next colon found =>
            have start : skipSpace colon <:+ '"' :: tail :=
              (skipSpace_suffix colon).trans ((List.suffix_cons _ _).trans
                (found ▸ (skipSpace_suffix behind).trans named))
            obtain ⟨⟨shape, after⟩, second, read⟩ := Option.bind_eq_some_iff.mp read
            have part := (values _ _ _ second).1.trans start
            have own : (consumed (skipSpace colon) after).length ≤ ('"' :: tail).length :=
              consumed_length start.length_le
            split at read
            next more delimiter =>
              simp only [Option.bind_eq_some_iff] at read
              obtain ⟨⟨later, last⟩, third, same⟩ := read
              cases same
              have next : skipSpace more <:+ '"' :: tail :=
                (skipSpace_suffix more).trans ((List.suffix_cons _ _).trans
                  (delimiter ▸ (skipSpace_suffix after).trans part))
              obtain ⟨suffix, short⟩ := mems _ _ _ third
              refine ⟨suffix.trans next, ?_⟩
              intro m member
              rcases List.mem_cons.mp member with rfl | member
              · exact own
              · exact (short m member).trans next.length_le
            next closing delimiter =>
              cases read
              refine ⟨(List.suffix_cons _ _).trans
                (delimiter ▸ (skipSpace_suffix after).trans part), ?_⟩
              intro m member
              rw [List.mem_singleton.mp member]
              exact own
            next => cases read
          next => cases read
        · rw [members] at read
          · cases read
          · rintro _ h
            exact quote (List.cons.inj h).1

/-! ## A number is read the same wherever it stands -/

/-- The text does not start with such a character. -/
private def Free (p : Char → Bool) (text : List Char) : Prop :=
  ∀ c, text.head? = some c → p c = false

private theorem afterDigits_local (read : afterDigits text = some rest) :
    ∃ c digits, text = c :: digits ++ rest ∧ c.isDigit = true ∧
      ∀ rest', Free Char.isDigit rest' → afterDigits (c :: digits ++ rest') = some rest' := by
  cases text with
  | nil => cases read
  | cons c tail =>
    rw [afterDigits] at read
    split at read
    next digit =>
      cases read
      refine ⟨c, tail.takeWhile Char.isDigit, by simp, digit, ?_⟩
      intro rest' free
      have stops : rest'.dropWhile Char.isDigit = rest' := by
        cases rest' with
        | nil => rfl
        | cons d rest' => simp [free d rfl]
      have digits : ∀ d ∈ tail.takeWhile Char.isDigit, d.isDigit = true :=
        fun d member => List.mem_takeWhile_imp member
      rw [List.cons_append, afterDigits, if_pos digit, List.dropWhile_append_of_pos digits, stops]
    next => cases read

private theorem afterInteger_local (read : afterInteger text = some rest) :
    ∃ c digits, text = c :: digits ++ rest ∧ c.isDigit = true ∧
      ∀ rest', Free Char.isDigit rest' → afterInteger (c :: digits ++ rest') = some rest' := by
  unfold afterInteger at read
  split at read
  next =>
    cases read
    exact ⟨'0', [], rfl, rfl, fun _ _ => rfl⟩
  next other =>
    obtain ⟨c, digits, text, digit, again⟩ := afterDigits_local read
    refine ⟨c, digits, text, digit, ?_⟩
    intro rest' free
    rw [List.cons_append, afterInteger]
    · exact again rest' free
    · rintro _ h
      rw [(List.cons.inj h).1] at text
      exact other _ text

private theorem afterFraction_local (read : afterFraction text = some rest) :
    ∃ literal, text = literal ++ rest ∧ (literal = [] ∨ literal.head? = some '.') ∧
      ∀ rest', Free (fun c => c.isDigit || c = '.') rest' →
        afterFraction (literal ++ rest') = some rest' := by
  unfold afterFraction at read
  split at read
  next =>
    obtain ⟨c, digits, text, digit, again⟩ := afterDigits_local read
    refine ⟨'.' :: c :: digits, by rw [text]; rfl, Or.inr rfl, ?_⟩
    intro rest' free
    exact again rest' fun d first => (Bool.or_eq_false_iff.mp (free d first)).1
  next =>
    cases read
    refine ⟨[], rfl, Or.inl rfl, ?_⟩
    intro rest' free
    rw [List.nil_append, afterFraction]
    rintro tail rfl
    exact absurd (free '.' rfl) (by decide)

private theorem afterSign_local (read : afterDigits (afterSign text) = some rest) :
    ∃ literal, text = literal ++ rest ∧
      ∀ rest', Free Char.isDigit rest' →
        afterDigits (afterSign (literal ++ rest')) = some rest' := by
  unfold afterSign at read
  split at read
  next =>
    obtain ⟨c, digits, text, -, again⟩ := afterDigits_local read
    exact ⟨'+' :: c :: digits, by rw [text]; rfl, again⟩
  next =>
    obtain ⟨c, digits, text, -, again⟩ := afterDigits_local read
    exact ⟨'-' :: c :: digits, by rw [text]; rfl, again⟩
  next plus minus =>
    obtain ⟨c, digits, text, -, again⟩ := afterDigits_local read
    refine ⟨c :: digits, text, ?_⟩
    intro rest' free
    rw [List.cons_append, afterSign]
    · exact again rest' free
    · rintro _ h
      rw [(List.cons.inj h).1] at text
      exact plus _ text
    · rintro _ h
      rw [(List.cons.inj h).1] at text
      exact minus _ text

private theorem afterExponent_local (read : afterExponent text = some rest) :
    ∃ literal, text = literal ++ rest ∧
      (literal = [] ∨ literal.head? = some 'e' ∨ literal.head? = some 'E') ∧
      ∀ rest', Free (fun c => c.isDigit || c = 'e' || c = 'E') rest' →
        afterExponent (literal ++ rest') = some rest' := by
  have digitless : ∀ rest', Free (fun c => c.isDigit || c = 'e' || c = 'E') rest' →
      Free Char.isDigit rest' := by
    intro rest' free c first
    have none := free c first
    simp only [Bool.or_eq_false_iff] at none
    exact none.1.1
  unfold afterExponent at read
  split at read
  next =>
    obtain ⟨literal, text, again⟩ := afterSign_local read
    exact ⟨'e' :: literal, by rw [text]; rfl, Or.inr (Or.inl rfl),
      fun rest' free => again rest' (digitless rest' free)⟩
  next =>
    obtain ⟨literal, text, again⟩ := afterSign_local read
    exact ⟨'E' :: literal, by rw [text]; rfl, Or.inr (Or.inr rfl),
      fun rest' free => again rest' (digitless rest' free)⟩
  next =>
    cases read
    refine ⟨[], rfl, Or.inl rfl, ?_⟩
    intro rest' free
    rw [List.nil_append, afterExponent]
    · rintro tail rfl
      exact absurd (free 'e' rfl) (by decide)
    · rintro tail rfl
      exact absurd (free 'E' rfl) (by decide)

/-- What is read as a number is read as that number wherever it stands. -/
private theorem reads_scalar_number {literal : List Char}
    (read : scalar text = some (.num literal, rest)) : Reads literal (.num literal) := by
  have numeral : ∃ behind, number text = some behind ∧ consumed text behind = literal := by
    unfold scalar at read
    split at read
    · cases read
    · cases read
    · cases read
    · obtain ⟨found, -, same⟩ := Option.map_eq_some_iff.mp read
      cases same
    · obtain ⟨behind, number, same⟩ := Option.map_eq_some_iff.mp read
      cases same
      exact ⟨_, number, rfl⟩
  obtain ⟨behind, numeral, rfl⟩ := numeral
  obtain ⟨integer, fraction, first, second, third⟩ := number_parts numeral
  obtain ⟨c, digits, unsigned, digit, againInteger⟩ := afterInteger_local first
  obtain ⟨point, rfl, dot, againFraction⟩ := afterFraction_local second
  obtain ⟨power, rfl, letter, againExponent⟩ := afterExponent_local third
  -- the digits, the fraction and the exponent, in front of any other end
  have again : ∀ rest', Ends rest' → ((afterInteger (c :: digits ++ (point ++ (power ++ rest')))).bind
      afterFraction).bind afterExponent = some rest' := by
    intro rest' ends
    have last : ∀ p : Char → Bool, p ',' = false → p ']' = false → p '}' = false →
        Free p rest' := by
      intro p comma array object d first
      rcases ends d first with rfl | rfl | rfl
      · exact comma
      · exact array
      · exact object
    have middle : ∀ p : Char → Bool, p ',' = false → p ']' = false → p '}' = false →
        p 'e' = false → p 'E' = false → Free p (power ++ rest') := by
      intro p comma array object small capital
      cases power with
      | nil => exact last p comma array object
      | cons d power =>
        intro d' head
        cases head
        rcases letter with none | same | same
        · cases none
        · cases same
          exact small
        · cases same
          exact capital
    have front : Free Char.isDigit (point ++ (power ++ rest')) := by
      cases point with
      | nil => exact middle _ rfl rfl rfl rfl rfl
      | cons d point =>
        intro d' head
        cases head
        rcases dot with none | same
        · cases none
        · cases same
          rfl
    rw [againInteger _ front, Option.bind_some,
      againFraction _ (middle _ (by decide) (by decide) (by decide) (by decide) (by decide)),
      Option.bind_some, againExponent _ (last _ (by decide) (by decide) (by decide))]
  have plain : c ≠ '-' := by
    rintro rfl
    cases digit
  by_cases signed : text.head? = some '-'
  · rw [if_pos signed] at unsigned
    have whole : text = '-' :: (c :: digits ++ (point ++ power)) ++ behind := by
      cases text with
      | nil => cases signed
      | cons d tail =>
        cases signed
        rw [List.tail_cons] at unsigned
        rw [unsigned]
        simp
    rw [whole, consumed_append]
    apply reads_number ⟨'-', _, rfl, Or.inl rfl⟩
    intro rest' ends
    have tail := again rest' ends
    simpa [number, Option.bind_assoc] using tail
  · rw [if_neg signed] at unsigned
    have whole : text = c :: digits ++ (point ++ power) ++ behind := by
      rw [unsigned]
      simp
    rw [whole, consumed_append]
    apply reads_number ⟨c, _, rfl, Or.inr digit⟩
    intro rest' ends
    have tail := again rest' ends
    simpa [number, plain, Option.bind_assoc] using tail

private theorem value_num {fuel : Nat} {literal : List Char}
    (read : value fuel text = some (.num literal, rest)) : Reads literal (.num literal) := by
  cases fuel with
  | zero =>
    rw [value] at read
    cases read
  | succ n =>
    cases text with
    | nil =>
      rw [value] at read
      · exact reads_scalar_number read
      · simp
      · simp
    | cons c tail =>
      by_cases array : c = '['
      · subst array
        rw [value] at read
        split at read
        · cases read
        · obtain ⟨_, -, same⟩ := Option.map_eq_some_iff.mp read
          cases same
      · by_cases object : c = '{'
        · subst object
          rw [value] at read
          split at read
          · cases read
          · obtain ⟨_, -, same⟩ := Option.map_eq_some_iff.mp read
            cases same
        · rw [value_scalar array object] at read
          exact reads_scalar_number read

private theorem unmarshal_value {text : String} (read : unmarshal text = some shape) :
    ∃ rest, value (2 * text.length + 1) (skipSpace text.toList) = some (shape, rest) := by
  simp only [unmarshal, Option.bind_eq_bind, Option.bind_eq_some_iff] at read
  obtain ⟨⟨found, rest⟩, value, read⟩ := read
  split at read
  · cases read
    exact ⟨rest, value⟩
  · cases read

namespace Value

/-! ## Values that can be printed -/

mutual

/-- The numbers are read as they are written, and no array is longer than `limit`. -/
def Printable (limit : Nat) : Value → Prop
  | .null => True
  | .bool _ => True
  | .num literal => Reads literal (.num literal)
  | .str _ => True
  | .arr elements => elements.length ≤ limit ∧ PrintableElements limit elements
  | .obj members => PrintableMembers limit members

def PrintableElements (limit : Nat) : List Value → Prop
  | [] => True
  | v :: rest => Printable limit v ∧ PrintableElements limit rest

def PrintableMembers (limit : Nat) : List (List Char × Value) → Prop
  | [] => True
  | (_, v) :: rest => Printable limit v ∧ PrintableMembers limit rest

end

variable {limit : Nat} {v w : Value} {key : List Char}
  {members before after : List (List Char × Value)}

theorem printableElements_iff {elements : List Value} :
    PrintableElements limit elements ↔ ∀ v ∈ elements, Printable limit v := by
  induction elements with
  | nil => simp [PrintableElements]
  | cons v rest ih => simp [PrintableElements, ih]

theorem printableMembers_iff {entries : List (List Char × Value)} :
    PrintableMembers limit entries ↔ ∀ m ∈ entries, Printable limit m.2 := by
  induction entries with
  | nil => simp [PrintableMembers]
  | cons m rest ih => simp [PrintableMembers, ih]

private theorem forall_of_mapM {α β : Type} {f : α → Option β} {l : List α} {found : List β}
    {P : β → Prop} (each : ∀ a ∈ l, ∀ b, f a = some b → P b) (read : l.mapM f = some found) :
    found.length = l.length ∧ ∀ b ∈ found, P b := by
  induction l generalizing found with
  | nil =>
    cases read
    simp
  | cons a l ih =>
    rw [List.mapM_cons] at read
    simp only [Option.bind_eq_bind, Option.bind_eq_some_iff, Option.pure_def] at read
    obtain ⟨b, first, more, later, same⟩ := read
    cases same
    obtain ⟨length, rest⟩ := ih (fun a member => each a (List.mem_cons_of_mem _ member)) later
    refine ⟨by simp [length], ?_⟩
    intro b' member
    rcases List.mem_cons.mp member with rfl | member
    · exact each a List.mem_cons_self b' first
    · exact rest b' member

/-- What a text is read as can be printed. -/
theorem read_printable {length fuel : Nat} {raw : List Char} (short : raw.length ≤ length)
    (found : read fuel raw = some v) : Printable (2 * length + 1) v := by
  induction fuel generalizing raw v with
  | zero => cases found
  | succ n ih =>
    rw [read] at found
    cases shape : unmarshal (String.ofList raw) with
    | none =>
      rw [shape] at found
      cases found
    | some s =>
      rw [shape] at found
      obtain ⟨rest, value⟩ := unmarshal_value shape
      have text : (skipSpace (String.ofList raw).toList).length ≤ length := by
        rw [String.toList_ofList]
        exact Nat.le_trans (skipSpace_suffix raw).length_le short
      have within := ((read_within _).1 _ _ _ value).2
      have fuel : 2 * (String.ofList raw).length + 1 ≤ 2 * length + 1 := by
        rw [String.length_ofList]
        omega
      cases s with
      | null => cases found; trivial
      | bool b => cases found; trivial
      | num literal => cases found; exact value_num value
      | str s => cases found; trivial
      | arr raws =>
        obtain ⟨elements, each, same⟩ := Option.map_eq_some_iff.mp found
        cases same
        obtain ⟨count, short⟩ := within
        obtain ⟨same, printable⟩ := forall_of_mapM (P := Printable (2 * length + 1))
          (fun raw member v found => ih (Nat.le_trans (short raw member) text) found) each
        exact ⟨by omega, printableElements_iff.mpr printable⟩
      | obj raws =>
        obtain ⟨members, each, same⟩ := Option.map_eq_some_iff.mp found
        cases same
        have short : ∀ m ∈ raws, m.2.length ≤ _ := within
        apply printableMembers_iff.mpr
        apply (forall_of_mapM (P := fun m => Printable (2 * length + 1) m.2) _ each).2
        intro m member entry found
        obtain ⟨v, own, same⟩ := Option.map_eq_some_iff.mp found
        cases same
        exact ih (Nat.le_trans (short m member) text) own

/-! ## What was printed is read back -/

private theorem mapM_map_some {α β : Type} {f : α → Option β} {g : β → α} {l : List β}
    (each : ∀ b ∈ l, f (g b) = some b) : (l.map g).mapM f = some l := by
  induction l with
  | nil => rfl
  | cons b l ih =>
    rw [List.map_cons, List.mapM_cons, each b List.mem_cons_self,
      ih fun b member => each b (List.mem_cons_of_mem _ member)]
    rfl

private theorem marshalElements_eq (elements : List Value) :
    marshalElements elements = elements.map marshal := by
  induction elements with
  | nil => rw [marshalElements, List.map_nil]
  | cons v rest ih => rw [marshalElements, ih, List.map_cons]

private theorem marshalMembers_eq (members : List (List Char × Value)) :
    marshalMembers members = members.map fun m => (m.1, marshal m.2) := by
  induction members with
  | nil => rw [marshalMembers, List.map_nil]
  | cons m rest ih => rw [marshalMembers, ih, List.map_cons]

/-- The shape of a printed value. -/
private def shapeOf : Value → Shape
  | .null => .null
  | .bool b => .bool b
  | .num literal => .num literal
  | .str s => .str s
  | .arr elements => .arr (elements.map marshal)
  | .obj members => .obj (members.map fun m => (m.1, marshal m.2))

mutual

private theorem reads_marshal {limit : Nat} : ∀ v, Printable limit v →
    Reads (marshal v) (shapeOf v)
  | .null, _ => by
    rw [marshal]
    exact @reads_word 'n' _ _ _ rfl rfl (by decide) (by decide) (by decide) fun _ => rfl
  | .bool true, _ => by
    rw [marshal]
    exact @reads_word 't' _ _ _ rfl rfl (by decide) (by decide) (by decide) fun _ => rfl
  | .bool false, _ => by
    rw [marshal]
    exact @reads_word 'f' _ _ _ rfl rfl (by decide) (by decide) (by decide) fun _ => rfl
  | .num literal, printable => by
    rw [marshal]
    exact printable
  | .str s, _ => by
    rw [marshal]
    exact reads_quote s
  | .arr elements, printable => by
    rw [marshal, marshalElements_eq]
    apply reads_array
    intro raw member
    obtain ⟨v, listed, rfl⟩ := List.mem_map.mp member
    exact ⟨_, reads_elements elements printable.2 v listed⟩
  | .obj members, printable => by
    rw [marshal, marshalMembers_eq]
    apply reads_object
    intro m member
    obtain ⟨entry, listed, rfl⟩ := List.mem_map.mp member
    exact ⟨_, reads_members members printable entry listed⟩

private theorem reads_elements {limit : Nat} : ∀ elements, PrintableElements limit elements →
    ∀ v ∈ elements, Reads (marshal v) (shapeOf v)
  | [], _, _, member => by cases member
  | first :: rest, printable, v, member => by
    rcases List.mem_cons.mp member with same | member
    · exact same ▸ reads_marshal first printable.1
    · exact reads_elements rest printable.2 v member

private theorem reads_members {limit : Nat} : ∀ members, PrintableMembers limit members →
    ∀ m ∈ members, Reads (marshal m.2) (shapeOf m.2)
  | [], _, _, member => by cases member
  | (key, first) :: rest, printable, m, member => by
    rcases List.mem_cons.mp member with same | member
    · exact same ▸ reads_marshal first printable.1
    · exact reads_members rest printable.2 m member

end

/-- A printed value is read as itself, when the fuel reaches as deep as its text. -/
theorem read_marshal (fuel : Nat) (v : Value) (printable : Printable limit v)
    (enough : (marshal v).length < fuel) : read fuel (marshal v) = some v := by
  induction fuel generalizing v with
  | zero => omega
  | succ n ih =>
    rw [read, (reads_marshal v printable).unmarshal]
    cases v with
    | null => rfl
    | bool b => rfl
    | num literal => rfl
    | str s => rfl
    | arr elements =>
      have inner : ∀ v ∈ elements, read n (marshal v) = some v := by
        intro v member
        apply ih v (printableElements_iff.mp printable.2 v member)
        have short := length_commas (List.mem_map_of_mem (f := marshal) member)
        rw [marshal, marshalElements_eq, array] at enough
        simp only [List.length_cons, List.length_append] at enough
        omega
      simp [shapeOf, mapM_map_some inner]
    | obj members =>
      have inner : ∀ m ∈ members, (fun m : List Char × List Char =>
          (read n m.2).map (Prod.mk m.1)) (m.1, marshal m.2) = some m := by
        intro m member
        have printed : read n (marshal m.2) = some m.2 := by
          apply ih m.2 (printableMembers_iff.mp printable m member)
          have short := length_commas (List.mem_map_of_mem (f := Json.member)
            (List.mem_map_of_mem (f := fun m : List Char × Value => (m.1, marshal m.2)) member))
          rw [marshal, marshalMembers_eq, object] at enough
          simp only [List.length_cons, List.length_append] at enough
          simp only [Json.member, List.length_append, List.length_cons] at short
          omega
        simp [printed]
      simp only [shapeOf]
      rw [mapM_map_some inner]
      rfl

theorem ofText_marshal (printable : Printable limit v) :
    ofText (String.ofList (marshal v)) = some v := by
  rw [ofText, String.length_ofList, String.toList_ofList]
  exact read_marshal _ v printable (Nat.lt_succ_self _)

/-- It is the first value of its own text. -/
theorem firstOf_marshal (printable : Printable limit v) :
    firstOf (String.ofList (marshal v)) = some v := by
  have reads := reads_marshal v printable
  obtain ⟨c, tail, start, visible, -⟩ := reads.start
  have ends : Ends [] := by
    intro c first
    cases first
  have whole : skipSpace (marshal v) = marshal v := by
    rw [start]
    exact skipSpace_cons visible tail
  have found := reads.read (2 * (marshal v).length + 1) [] (by omega) ends
  have text := consumed_append (marshal v) []
  rw [List.append_nil] at found text
  rw [firstOf, String.length_ofList, String.toList_ofList, whole, found]
  dsimp only [Option.bind_eq_bind, Option.bind_some]
  rw [text]
  exact ofText_marshal printable

theorem ofText_printable {text : String} (found : ofText text = some v) :
    Printable (2 * text.length + 1) v :=
  read_printable (by rw [String.length_toList]) found

/-! ## Maps keep their keys in order -/

private theorem keyBefore_trans {a b c : List Char} (first : keyBefore a b = true)
    (second : keyBefore b c = true) : keyBefore a c = true := by
  induction a generalizing b c with
  | nil =>
    cases c with
    | nil => rw [keyBefore] at second; cases second
    | cons => rfl
  | cons d a ih =>
    cases b with
    | nil => rw [keyBefore] at first; cases first
    | cons e b =>
      cases c with
      | nil => rw [keyBefore] at second; cases second
      | cons f c =>
        simp only [keyBefore, Bool.or_eq_true, Bool.and_eq_true, decide_eq_true_eq] at first second ⊢
        rcases first with less | ⟨same, first⟩
        · rcases second with less' | ⟨same', -⟩
          · exact Or.inl (by omega)
          · exact Or.inl (by omega)
        · rcases second with less' | ⟨same', second⟩
          · exact Or.inl (by omega)
          · exact Or.inr ⟨by omega, ih first second⟩

theorem keyBefore_irrefl (a : List Char) : keyBefore a a = false := by
  induction a with
  | nil => rfl
  | cons c a ih => simp [keyBefore, ih]

private theorem keyBefore_total (a b : List Char) :
    keyBefore a b = true ∨ a = b ∨ keyBefore b a = true := by
  induction a generalizing b with
  | nil =>
    cases b with
    | nil => exact Or.inr (Or.inl rfl)
    | cons => exact Or.inl rfl
  | cons c a ih =>
    cases b with
    | nil => exact Or.inr (Or.inr rfl)
    | cons d b =>
      simp only [keyBefore, Bool.or_eq_true, Bool.and_eq_true, decide_eq_true_eq]
      rcases Nat.lt_trichotomy c.toNat d.toNat with less | same | more
      · exact Or.inl (Or.inl less)
      · have letter : c = d := Char.toNat_inj.mp same
        subst letter
        rcases ih b with before | rfl | behind
        · exact Or.inl (Or.inr ⟨rfl, before⟩)
        · exact Or.inr (Or.inl rfl)
        · exact Or.inr (Or.inr (Or.inr ⟨rfl, behind⟩))
      · exact Or.inr (Or.inr (Or.inl more))

private theorem keyBefore_asymm {a b : List Char} (before : keyBefore a b = true) :
    ¬keyBefore b a = true ∧ b ≠ a := by
  constructor
  · intro behind
    have own := keyBefore_trans before behind
    rw [keyBefore_irrefl] at own
    cases own
  · rintro rfl
    rw [keyBefore_irrefl] at before
    cases before

/-- The keys of the members come in order, each once. -/
def KeysOrdered (members : List (List Char × Value)) : Prop :=
  members.Pairwise fun a b => keyBefore a.1 b.1 = true

mutual

def Ordered : Value → Prop
  | .arr elements => OrderedElements elements
  | .obj members => KeysOrdered members ∧ OrderedMembers members
  | _ => True

def OrderedElements : List Value → Prop
  | [] => True
  | v :: rest => Ordered v ∧ OrderedElements rest

def OrderedMembers : List (List Char × Value) → Prop
  | [] => True
  | (_, v) :: rest => Ordered v ∧ OrderedMembers rest

end

theorem orderedElements_iff {elements : List Value} :
    OrderedElements elements ↔ ∀ v ∈ elements, Ordered v := by
  induction elements with
  | nil => simp [OrderedElements]
  | cons v rest ih => simp [OrderedElements, ih]

theorem orderedMembers_iff {entries : List (List Char × Value)} :
    OrderedMembers entries ↔ ∀ m ∈ entries, Ordered m.2 := by
  induction entries with
  | nil => simp [OrderedMembers]
  | cons m rest ih => simp [OrderedMembers, ih]

theorem mem_insertMember {m : List Char × Value} (member : m ∈ insertMember key v members) :
    m = (key, v) ∨ m ∈ members := by
  induction members with
  | nil => exact Or.inl (List.mem_singleton.mp member)
  | cons head rest ih =>
    rw [insertMember] at member
    split at member
    · rcases List.mem_cons.mp member with same | member
      · exact Or.inl same
      · exact Or.inr member
    · split at member
      · rcases List.mem_cons.mp member with same | member
        · exact Or.inl same
        · exact Or.inr (List.mem_cons_of_mem _ member)
      · rcases List.mem_cons.mp member with same | member
        · exact Or.inr (same ▸ List.mem_cons_self)
        · rcases ih member with same | member
          · exact Or.inl same
          · exact Or.inr (List.mem_cons_of_mem _ member)

theorem insertMember_ordered (key : List Char) (v : Value) (ordered : KeysOrdered members) :
    KeysOrdered (insertMember key v members) := by
  induction members with
  | nil => exact List.pairwise_singleton _ _
  | cons head rest ih =>
    obtain ⟨first, later⟩ := List.pairwise_cons.mp ordered
    rw [insertMember]
    split
    next smaller =>
      apply List.pairwise_cons.mpr
      refine ⟨?_, ordered⟩
      intro m member
      rcases List.mem_cons.mp member with rfl | member
      · exact smaller
      · exact keyBefore_trans smaller (first m member)
    next notSmaller =>
      split
      next same =>
        subst same
        exact List.pairwise_cons.mpr ⟨first, later⟩
      next other =>
        apply List.pairwise_cons.mpr
        refine ⟨?_, ih later⟩
        intro m member
        rcases mem_insertMember member with rfl | member
        · exact ((keyBefore_total key head.1).resolve_left notSmaller).resolve_left other
        · exact first m member

/-- A key behind all others comes last. -/
theorem insertMember_append (last : ∀ m ∈ members, keyBefore m.1 key = true) :
    insertMember key v members = members ++ [(key, v)] := by
  induction members with
  | nil => rfl
  | cons head rest ih =>
    obtain ⟨behind, other⟩ := keyBefore_asymm (last head List.mem_cons_self)
    rw [insertMember, if_neg behind, if_neg other,
      ih fun m member => last m (List.mem_cons_of_mem _ member)]
    rfl

/-- A key that is there keeps its place. -/
theorem insertMember_replace (ordered : KeysOrdered (before ++ (key, w) :: after)) :
    insertMember key v (before ++ (key, w) :: after) = before ++ (key, v) :: after := by
  induction before with
  | nil => rw [List.nil_append, insertMember, if_neg (by simp [keyBefore_irrefl]), if_pos rfl,
      List.nil_append]
  | cons head rest ih =>
    obtain ⟨first, later⟩ := List.pairwise_cons.mp ordered
    obtain ⟨behind, other⟩ := keyBefore_asymm (first (key, w) (by simp))
    rw [List.cons_append, insertMember, if_neg behind, if_neg other, ih later, List.cons_append]

/-- What was inserted last is found. -/
theorem lookup_insertMember (key : List Char) (v : Value) (members : List (List Char × Value)) :
    (insertMember key v members).lookup key = some v := by
  induction members with
  | nil => simp [insertMember]
  | cons head rest ih =>
    rw [insertMember]
    split
    next => simp
    next =>
      split
      next => simp
      next other =>
        rw [List.lookup_cons, beq_eq_false_iff_ne.mpr other]
        exact ih

theorem insertMember_again (key : List Char) (v w : Value) (members : List (List Char × Value)) :
    insertMember key w (insertMember key v members) = insertMember key w members := by
  have own : keyBefore key key = false := keyBefore_irrefl key
  induction members with
  | nil => simp [insertMember, own]
  | cons head rest ih =>
    rw [insertMember]
    split
    next before => simp [insertMember, own, before]
    next behind =>
      split
      next same =>
        subst same
        simp [insertMember, own]
      next other => simp [insertMember, behind, other, ih]

/-- A key is found at its place. -/
theorem lookup_of_ordered (ordered : KeysOrdered (before ++ (key, w) :: after)) :
    (before ++ (key, w) :: after).lookup key = some w := by
  induction before with
  | nil => simp
  | cons head rest ih =>
    obtain ⟨first, later⟩ := List.pairwise_cons.mp ordered
    have other := (keyBefore_asymm (first (key, w) (by simp))).2
    rw [List.cons_append, List.lookup_cons, beq_eq_false_iff_ne.mpr other]
    exact ih later

/-- The keys beside a key are other ones. -/
theorem ne_of_ordered (ordered : KeysOrdered (before ++ (key, w) :: after)) :
    ∀ m ∈ before ++ after, m.1 ≠ key := by
  intro m member same
  obtain ⟨-, behind, front⟩ := List.pairwise_append.mp ordered
  rcases List.mem_append.mp member with member | member
  · have own := front m member (key, w) List.mem_cons_self
    rw [same, keyBefore_irrefl] at own
    cases own
  · have own := (List.pairwise_cons.mp behind).1 m member
    rw [same, keyBefore_irrefl] at own
    cases own

mutual

theorem canonical_eq : ∀ v, Ordered v → canonical v = v
  | .null, _ => rfl
  | .bool _, _ => rfl
  | .num _, _ => rfl
  | .str _, _ => rfl
  | .arr elements, ordered => by rw [canonical, canonicalElements_eq elements ordered]
  | .obj members, ordered => by
    rw [canonical, canonicalMembers_eq members ordered.2 [] (by simpa using ordered.1),
      List.nil_append]

private theorem canonicalElements_eq : ∀ elements, OrderedElements elements →
    canonicalElements elements = elements
  | [], _ => rfl
  | v :: rest, ordered => by
    rw [canonicalElements, canonical_eq v ordered.1, canonicalElements_eq rest ordered.2]

private theorem canonicalMembers_eq : ∀ members, OrderedMembers members →
    ∀ found, KeysOrdered (found ++ members) → canonicalMembers found members = found ++ members
  | [], _, found, _ => by rw [canonicalMembers, List.append_nil]
  | (key, v) :: rest, ordered, found, keys => by
    have last : ∀ m ∈ found, keyBefore m.1 key = true := by
      intro m member
      exact (List.pairwise_append.mp keys).2.2 m member (key, v) List.mem_cons_self
    rw [canonicalMembers, canonical_eq v ordered.1, insertMember_append last,
      canonicalMembers_eq rest ordered.2 _ (by simpa using keys)]
    simp

end

mutual

theorem canonical_ordered : ∀ v, Ordered (canonical v)
  | .null => trivial
  | .bool _ => trivial
  | .num _ => trivial
  | .str _ => trivial
  | .arr elements => by
    rw [canonical]
    exact canonicalElements_ordered elements
  | .obj members => by
    rw [canonical]
    exact canonicalMembers_ordered members [] ⟨List.Pairwise.nil, trivial⟩

private theorem canonicalElements_ordered : ∀ elements, OrderedElements (canonicalElements elements)
  | [] => trivial
  | v :: rest => ⟨canonical_ordered v, canonicalElements_ordered rest⟩

private theorem canonicalMembers_ordered : ∀ members found,
    KeysOrdered found ∧ OrderedMembers found →
    KeysOrdered (canonicalMembers found members) ∧ OrderedMembers (canonicalMembers found members)
  | [], _, ordered => ordered
  | (key, v) :: rest, found, ordered => by
    apply canonicalMembers_ordered rest
    refine ⟨insertMember_ordered _ _ ordered.1, orderedMembers_iff.mpr ?_⟩
    intro m member
    rcases mem_insertMember member with rfl | member
    · exact canonical_ordered v
    · exact orderedMembers_iff.mp ordered.2 m member

end

mutual

theorem canonical_printable {limit : Nat} : ∀ v, Printable limit v → Printable limit (canonical v)
  | .null, _ => trivial
  | .bool _, _ => trivial
  | .num _, printable => printable
  | .str _, _ => trivial
  | .arr elements, printable => by
    obtain ⟨length, each⟩ := canonicalElements_printable elements printable.2
    exact ⟨length ▸ printable.1, each⟩
  | .obj members, printable => by
    rw [canonical]
    exact canonicalMembers_printable members printable [] trivial

private theorem canonicalElements_printable {limit : Nat} : ∀ elements,
    PrintableElements limit elements → (canonicalElements elements).length = elements.length ∧
      PrintableElements limit (canonicalElements elements)
  | [], _ => ⟨rfl, trivial⟩
  | v :: rest, printable => by
    obtain ⟨length, each⟩ := canonicalElements_printable rest printable.2
    exact ⟨congrArg Nat.succ length, canonical_printable v printable.1, each⟩

private theorem canonicalMembers_printable {limit : Nat} : ∀ members,
    PrintableMembers limit members → ∀ found, PrintableMembers limit found →
      PrintableMembers limit (canonicalMembers found members)
  | [], _, _, printed => printed
  | (key, v) :: rest, printable, found, printed => by
    apply canonicalMembers_printable rest printable.2
    apply printableMembers_iff.mpr
    intro m member
    rcases mem_insertMember member with rfl | member
    · exact canonical_printable v printable.1
    · exact printableMembers_iff.mp printed m member

end

end Value

end Json
