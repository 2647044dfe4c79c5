import ForestPanel.ClientEntry.Conditions

/-!
# Entry hosts

`NormalizeHost` accepts one DNS name or IP address. What it returns is written without
white space and is never empty, so a rule or leaf that has a host shows it.
-/
namespace ForestPanel.ClientEntry

open Outcome

/-- What the rules use of the libraries besides the text functions: the canonical text
`netip` gives an address without a zone, and the normal form of extra nodes. -/
structure EntryLibrary extends StandardLibrary where
  parseAddr : String → Option String
  parseAddr_visible : ∀ s address, parseAddr s = some address →
    address ≠ "" ∧ ∀ c ∈ address.toList, isSpace c = false
  normalizeList : List String → Except String (List String)

/-- A text that is there and stays as it is when trimmed. -/
def Shown (host : String) : Prop := host ≠ "" ∧ trimSpace host = host

theorem shown_of_visible {host : String} (nonempty : host ≠ "")
    (visible : ∀ c ∈ host.toList, isSpace c = false) : Shown host :=
  ⟨nonempty, trimSpace_of_visible visible⟩

/-- `strings.EqualFold`, on ASCII texts. -/
def EntryLibrary.equalFold (lib : EntryLibrary) (a b : String) : Bool := lib.lower a = lib.lower b

def reservedInHost : List Char :=
  [',', '，', '(', ')', '/', '?', '#', '@', '[', ']', ' ', '\t', '\r', '\n']

def hostCharacter (c : Char) : Bool := ('a' ≤ c && c ≤ 'z') || ('0' ≤ c && c ≤ '9') || c = '-'

def hostLabel (label : List Char) : Bool :=
  label ≠ [] && label.length ≤ 63 && label.head? ≠ some '-' && label.getLast? ≠ some '-' &&
    label.all hostCharacter

/-- `strings.TrimSuffix` of a dot. -/
def trimDot (host : String) : String :=
  if host.toList.getLast? = some '.' then String.ofList host.toList.dropLast else host

def normalizeHost (lib : EntryLibrary) (value : String) : Except String String := do
  let host := trimSpace value
  ensure (host ≠ "") "地址不能为空"
  ensure (∀ c ∈ host.toList, c ∉ reservedInHost) "地址必须是单个域名或 IP"
  match lib.parseAddr host with
  | some address => pure address
  | none => do
    let host := trimDot (lib.lower host)
    ensure (host ≠ "" ∧ host.utf8ByteSize ≤ 253 ∧ ':' ∉ host.toList) "地址必须是单个域名或 IP"
    ensure (∀ label ∈ host.toList.splitOn '.', hostLabel label) "地址必须是单个域名或 IP"
    pure host

private theorem mem_intercalate {x c : Char} {parts : List (List Char)}
    (member : c ∈ [x].intercalate parts) : c = x ∨ ∃ part ∈ parts, c ∈ part := by
  induction parts with
  | nil => cases member
  | cons part parts ih =>
    cases parts with
    | nil =>
      rw [List.intercalate_singleton] at member
      exact Or.inr ⟨part, List.mem_singleton_self part, member⟩
    | cons next rest =>
      rw [List.intercalate_cons_cons, List.mem_append, List.mem_append,
        List.mem_singleton] at member
      rcases member with (first | dot) | later
      · exact Or.inr ⟨part, List.mem_cons_self, first⟩
      · exact Or.inl dot
      · rcases ih later with dot | ⟨other, listed, inside⟩
        · exact Or.inl dot
        · exact Or.inr ⟨other, List.mem_cons_of_mem part listed, inside⟩

private theorem isSpace_of_hostCharacter {c : Char} (valid : hostCharacter c = true) :
    isSpace c = false := by
  have lower : ∀ a b : Char, (a ≤ b) = (a.toNat ≤ b.toNat) := fun _ _ => rfl
  simp only [hostCharacter, lower, Bool.or_eq_true, Bool.and_eq_true, decide_eq_true_eq] at valid
  rcases valid with (letter | digit) | rfl
  · have bounds : 97 ≤ c.toNat ∧ c.toNat ≤ 122 := letter
    simp only [isSpace, List.mem_cons, List.not_mem_nil, or_false, Bool.or_eq_false_iff,
      decide_eq_false_iff_not, Bool.and_eq_false_iff]
    omega
  · have bounds : 48 ≤ c.toNat ∧ c.toNat ≤ 57 := digit
    simp only [isSpace, List.mem_cons, List.not_mem_nil, or_false, Bool.or_eq_false_iff,
      decide_eq_false_iff_not, Bool.and_eq_false_iff]
    omega
  · decide

theorem normalizeHost_shown (lib : EntryLibrary) {value host : String}
    (accepted : normalizeHost lib value = .ok host) : Shown host := by
  simp only [normalizeHost, bind_eq_ok, ensure_eq_ok, exists_const] at accepted
  obtain ⟨-, -, accepted⟩ := accepted
  split at accepted
  next address parsed =>
    rw [pure_eq_ok] at accepted
    subst accepted
    obtain ⟨nonempty, visible⟩ := lib.parseAddr_visible _ _ parsed
    exact shown_of_visible nonempty visible
  next =>
    simp only [bind_eq_ok, ensure_eq_ok, exists_const, pure_eq_ok] at accepted
    obtain ⟨⟨nonempty, -, -⟩, labels, rfl⟩ := accepted
    apply shown_of_visible nonempty
    intro c member
    rw [← @List.intercalate_splitOn _ (String.toList _) _ _ '.'] at member
    rcases mem_intercalate member with rfl | ⟨label, listed, inside⟩
    · decide
    · have valid := labels label listed
      simp only [hostLabel, Bool.and_eq_true, List.all_eq_true] at valid
      exact isSpace_of_hostCharacter (valid.2 c inside)

end ForestPanel.ClientEntry
