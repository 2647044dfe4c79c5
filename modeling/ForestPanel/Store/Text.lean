import ForestPanel.Lib.Address
import ForestPanel.Lib.Decimal
import Mathlib.Data.List.DropRight
import Mathlib.Data.List.SplitOn

/-!
# Text

`strings.TrimSpace` over Unicode white space, the empty-text tests the code
writes with it, and the text of the integers in error messages.
-/
namespace ForestPanel

/-- A property of the letters of a text is decided letter by letter. -/
instance (priority := high) decidableLetters (p : Char → Prop) [DecidablePred p]
    (letters : List Char) : Decidable (∀ c ∈ letters, p c) :=
  List.decidableBAll p letters

def isSpace (c : Char) : Bool :=
  c.toNat ∈ [9, 10, 11, 12, 13, 32, 133, 160, 5760, 8232, 8233, 8239, 8287, 12288] ||
    (8192 ≤ c.toNat && c.toNat ≤ 8202)

theorem isSpace_of_isDigit {c : Char} (digit : c.isDigit = true) : isSpace c = false := by
  obtain ⟨low, high⟩ := Decimal.toNat_of_isDigit digit
  simp only [isSpace, List.mem_cons, List.not_mem_nil, or_false, Bool.or_eq_false_iff,
    decide_eq_false_iff_not, Bool.and_eq_false_iff]
  omega

def trimSpace (s : String) : String :=
  String.ofList ((s.toList.dropWhile isSpace).rdropWhile isSpace)

private theorem dropWhile_trimmed (p : Char → Bool) (l : List Char) :
    ((l.dropWhile p).rdropWhile p).dropWhile p = (l.dropWhile p).rdropWhile p := by
  rw [List.dropWhile_eq_self_iff]
  intro nonempty
  have start : (l.dropWhile p).rdropWhile p <+: l.dropWhile p := List.rdropWhile_prefix p _
  rw [start.getElem nonempty]
  exact List.dropWhile_get_zero_not p l _

@[simp] theorem trimSpace_trimSpace (s : String) : trimSpace (trimSpace s) = trimSpace s := by
  simp only [trimSpace, String.toList_ofList]
  rw [dropWhile_trimmed, List.rdropWhile_idempotent]

theorem trimSpace_append (mark text : String) (nonempty : mark.toList ≠ [])
    (first : ¬isSpace (mark.toList.head nonempty) = true)
    (last : ¬isSpace (mark.toList.getLast nonempty) = true) :
    trimSpace (mark ++ trimSpace text) = mark ++ trimSpace text := by
  have start : (mark ++ trimSpace text).toList.dropWhile isSpace =
      (mark ++ trimSpace text).toList := by
    rw [List.dropWhile_eq_self_iff]
    intro long
    simpa [String.toList_append, List.getElem_append, List.length_pos_iff.mpr nonempty,
      List.head_eq_getElem] using first
  have finish : (mark ++ trimSpace text).toList.rdropWhile isSpace =
      (mark ++ trimSpace text).toList := by
    rw [List.rdropWhile_eq_self_iff]
    intro long
    simp only [String.toList_append] at long ⊢
    by_cases empty : (trimSpace text).toList = []
    · simpa [empty] using last
    · rw [List.getLast_append_of_ne_nil _ empty]
      simp only [trimSpace, String.toList_ofList] at empty ⊢
      exact List.rdropWhile_last_not isSpace _ empty
  rw [trimSpace, start, finish, String.ofList_toList]
theorem trimSpace_eq_self_iff {s : String} : trimSpace s = s ↔
    (∀ c ∈ s.toList.head?, isSpace c = false) ∧ ∀ c ∈ s.toList.getLast?, isSpace c = false := by
  have dropped : trimSpace s = s ↔ s.toList.dropWhile isSpace = s.toList ∧
      s.toList.rdropWhile isSpace = s.toList := by
    constructor
    · intro trimmed
      have same : (s.toList.dropWhile isSpace).rdropWhile isSpace = s.toList := by
        have chars := congrArg String.toList trimmed
        rwa [trimSpace, String.toList_ofList] at chars
      have front : s.toList.dropWhile isSpace = s.toList := by
        apply (List.dropWhile_suffix isSpace).eq_of_length_le
        have shorter := (List.rdropWhile_prefix isSpace (s.toList.dropWhile isSpace)).length_le
        rwa [same] at shorter
      rw [front] at same
      exact ⟨front, same⟩
    · rintro ⟨front, back⟩
      rw [trimSpace, front, back, String.ofList_toList]
  rw [dropped, List.dropWhile_eq_self_iff, List.rdropWhile_eq_self_iff]
  cases chars : s.toList with
  | nil => simp
  | cons c rest => simp [List.getLast?_eq_some_getLast]

theorem trimSpace_between {a b : Char} (first : isSpace a = false) (last : isSpace b = false)
    (body : List Char) :
    trimSpace (String.ofList (a :: (body ++ [b]))) = String.ofList (a :: (body ++ [b])) := by
  have text := String.toList_ofList (l := a :: (body ++ [b]))
  have final : (a :: (body ++ [b])).getLast (by simp) = b := by simp
  have kept := trimSpace_append (String.ofList (a :: (body ++ [b]))) "" (by rw [text]; simp)
    (by simp only [text, List.head_cons, first]; decide)
    (by simp only [text, final, last]; decide)
  simpa [trimSpace] using kept

theorem trimSpace_of_visible {s : String} (visible : ∀ c ∈ s.toList, isSpace c = false) :
    trimSpace s = s := by
  by_cases empty : s.toList = []
  · rw [String.toList_eq_nil_iff.mp empty]
    rfl
  · have kept := trimSpace_append s "" empty
      (by rw [visible _ (List.head_mem empty)]; decide)
      (by rw [visible _ (List.getLast_mem empty)]; decide)
    simpa [trimSpace] using kept

theorem length_le_utf8ByteSize (s : String) : s.length ≤ s.utf8ByteSize := by
  have bytes : ∀ l : List Char, l.length ≤ (String.ofList l).utf8ByteSize := by
    intro l
    induction l with
    | nil => exact Nat.zero_le _
    | cons c l ih =>
      have split : String.ofList (c :: l) = String.ofList [c] ++ String.ofList l := by
        rw [← String.ofList_append, List.singleton_append]
      have one : (String.ofList [c]).utf8ByteSize = c.utf8Size := String.utf8ByteSize_singleton
      have visible := c.utf8Size_pos
      rw [split, String.utf8ByteSize_append, one, List.length_cons]
      omega
  have bound := bytes s.toList
  rwa [String.length_toList, String.ofList_toList] at bound

/-- `strings.TrimRight(s, "/")`. -/
def trimRightSlash (s : String) : String := String.ofList (s.toList.rdropWhile fun c => c = '/')

/-- `isHostnameLabel` of package addrutil: letters, digits, and hyphens inside. -/
def isHostnameLabel (label : List Char) : Bool :=
  label ≠ [] && (String.ofList label).utf8ByteSize ≤ 63 &&
    label.all (fun c => c.isAlphanum || c = '-') && label.head? ≠ some '-' &&
    label.getLast? ≠ some '-'

def isHostname (raw : String) : Bool :=
  let raw := (trimSpace raw).toList
  let raw := if raw.getLast? = some '.' then raw.dropLast else raw
  raw ≠ [] && (String.ofList raw).utf8ByteSize ≤ 253 && (raw.splitOn '.').all isHostnameLabel

def isIPOrHostname (raw : String) : Bool :=
  let raw := trimSpace raw
  raw ≠ "" && (Address.parseIP raw.toList || isHostname raw)

theorem isIPOrHostname_length {raw : String} (valid : isIPOrHostname raw = true) :
    (trimSpace raw).toList.length ≤ 254 := by
  simp only [isIPOrHostname, Bool.and_eq_true, Bool.or_eq_true] at valid
  rcases valid.2 with address | name
  · exact le_trans (Address.parseIP_length address) (by decide)
  · simp only [isHostname, trimSpace_trimSpace, Bool.and_eq_true, decide_eq_true_eq] at name
    have bytes := le_trans (length_le_utf8ByteSize _) name.1.2
    rw [String.length_ofList] at bytes
    split at bytes
    · rw [List.length_dropLast] at bytes
      omega
    · omega

theorem isIPOrHostname_trimSpace (raw : String) :
    isIPOrHostname (trimSpace raw) = isIPOrHostname raw := by
  rw [isIPOrHostname, isIPOrHostname, trimSpace_trimSpace]

/-- A nullable text column that holds nothing but white space, or nothing. -/
def blank (s : Option String) : Bool := trimSpace (s.getD "") = ""

end ForestPanel
