import Mathlib.Data.List.Infix
import ForestPanel.Lib.JsonValue
import ForestPanel.Lib.Replace

/-!
# The preview of an operation's parameters

The values under keys that may hold a credential are shown as a mark. What they hold is collected on
the way, in the order in which the maps happen to be visited, and is then replaced by the mark in
every other text, one secret after the other.
-/
namespace ForestPanel.AIOps

open Json Json.Value Replacing

abbrev Letters := List Char

/-- `unicode.ToLower`, as far as a letter becomes one of ASCII. -/
def lowerRune (c : Char) : Char :=
  if c = '\u212A' then 'k' else if c = '\u0130' then 'i' else c.toLower

def openSuffixes : List String :=
  ["_enabled", "_enable", "_configured", "_count", "_limit", "_expires_at", "_expire", "_in_path"]

def sensitiveTokens : List String :=
  ["password", "passwd", "secret", "token", "privatekey", "publickey", "apikey", "accesskey",
    "credential", "authorization", "cookie", "security", "serverkey", "encryptionkey", "appkey",
    "smtpkey"]

def sensitiveNames : List String := ["key", "auth", "uuid", "pass", "mailpass", "smtppass"]

def panelSensitiveField (key : Letters) : Bool :=
  let key := key.map lowerRune
  if openSuffixes.any (fun suffix => suffix.toList <:+ key) then false
  else if "_limit_".toList <:+: key then false
  else
    let key := key.filter (fun c => c ≠ '_' ∧ c ≠ '-')
    sensitiveTokens.any (fun token => token.toList <:+: key) ||
      sensitiveNames.any (fun name => key = name.toList)

def redactedMark : Letters := "[REDACTED]".toList

mutual

def collect : Value → List Letters
  | .str s => if s ≠ [] then [s] else []
  | .obj members => collectMembers members
  | .arr elements => collectElements elements
  | _ => []

def collectElements : List Value → List Letters
  | [] => []
  | v :: rest => collect v ++ collectElements rest

def collectMembers : List (Letters × Value) → List Letters
  | [] => []
  | (_, v) :: rest => collect v ++ collectMembers rest

end

mutual

/-- The secrets `scrub` collects, in the order of its walk. -/
def secretsOf : Value → List Letters
  | .obj members => secretsOfMembers members
  | .arr elements => secretsOfElements elements
  | _ => []

def secretsOfElements : List Value → List Letters
  | [] => []
  | v :: rest => secretsOf v ++ secretsOfElements rest

def secretsOfMembers : List (Letters × Value) → List Letters
  | [] => []
  | (key, v) :: rest =>
    (if panelSensitiveField key then collect v else secretsOf v) ++ secretsOfMembers rest

end

mutual

def scrub : Value → Value
  | .obj members => .obj (scrubMembers members)
  | .arr elements => .arr (scrubElements elements)
  | v => v

def scrubElements : List Value → List Value
  | [] => []
  | v :: rest => scrub v :: scrubElements rest

def scrubMembers : List (Letters × Value) → List (Letters × Value)
  | [] => []
  | (key, v) :: rest =>
    (key, if panelSensitiveField key then .str redactedMark else scrub v) :: scrubMembers rest

end

def redactText (secrets : List Letters) (text : Letters) : Letters :=
  replaceEach id secrets redactedMark text

mutual

def redactKnown (secrets : List Letters) : Value → Value
  | .str s => .str (redactText secrets s)
  | .obj members => .obj (redactMembers secrets members)
  | .arr elements => .arr (redactElements secrets elements)
  | v => v

def redactElements (secrets : List Letters) : List Value → List Value
  | [] => []
  | v :: rest => redactKnown secrets v :: redactElements secrets rest

def redactMembers (secrets : List Letters) : List (Letters × Value) → List (Letters × Value)
  | [] => []
  | (key, v) :: rest => (key, redactKnown secrets v) :: redactMembers secrets rest

end

mutual

/-- The same value, with the members of its maps in the order of a walk. -/
inductive Reordered : Value → Value → Prop
  | null : Reordered .null .null
  | bool (b : Bool) : Reordered (.bool b) (.bool b)
  | num (literal : Letters) : Reordered (.num literal) (.num literal)
  | str (s : Letters) : Reordered (.str s) (.str s)
  | arr {elements visited : List Value} : ReorderedElements elements visited →
      Reordered (.arr elements) (.arr visited)
  | obj {members visited : List (Letters × Value)} : ReorderedMembers members visited →
      Reordered (.obj members) (.obj visited)

inductive ReorderedElements : List Value → List Value → Prop
  | nil : ReorderedElements [] []
  | cons {v w : Value} {rest visited : List Value} : Reordered v w →
      ReorderedElements rest visited → ReorderedElements (v :: rest) (w :: visited)

inductive ReorderedMembers : List (Letters × Value) → List (Letters × Value) → Prop
  | nil : ReorderedMembers [] []
  | cons {key : Letters} {v w : Value} {rest visited : List (Letters × Value)} : Reordered v w →
      ReorderedMembers rest visited → ReorderedMembers ((key, v) :: rest) ((key, w) :: visited)
  | swap (first second : Letters × Value) (rest : List (Letters × Value)) :
      ReorderedMembers (first :: second :: rest) (second :: first :: rest)
  | trans {members between visited : List (Letters × Value)} : ReorderedMembers members between →
      ReorderedMembers between visited → ReorderedMembers members visited

end

/-- What the walk over an object returns; `visited` has its maps in the order of the walk. -/
def preview (value visited : Value) : Value := redactKnown (secretsOf visited) (scrub value)

/-- The runs on a text: the decoded value holds each key once, and is printed with its keys in
order. -/
inductive PreviewPanelParameters (raw : String) : Letters → List Letters → Prop
  | unread : Value.firstOf raw = none → PreviewPanelParameters raw "\x7b\x7d".toList []
  | read {value visited : Value} : Value.firstOf raw = some value →
      Reordered value.canonical visited →
      PreviewPanelParameters raw (preview value.canonical visited).marshal (secretsOf visited)

mutual

def sensitiveValues : Value → List Value
  | .obj members => sensitiveMembers members
  | .arr elements => sensitiveElements elements
  | _ => []

def sensitiveElements : List Value → List Value
  | [] => []
  | v :: rest => sensitiveValues v ++ sensitiveElements rest

def sensitiveMembers : List (Letters × Value) → List Value
  | [] => []
  | (key, v) :: rest =>
    (if panelSensitiveField key then [v] else sensitiveValues v) ++ sensitiveMembers rest

end

mutual

/-- The texts that are not under such a key. -/
def openTexts : Value → List Letters
  | .str s => [s]
  | .obj members => openTextsMembers members
  | .arr elements => openTextsElements elements
  | _ => []

def openTextsElements : List Value → List Letters
  | [] => []
  | v :: rest => openTexts v ++ openTextsElements rest

def openTextsMembers : List (Letters × Value) → List Letters
  | [] => []
  | (key, v) :: rest =>
    (if panelSensitiveField key then [] else openTexts v) ++ openTextsMembers rest

end

/-- The passes with the letters of the text told from those of the marks. -/
def redactPlaced (secrets : List Letters) (text : Letters) : List (Char × Option Nat) :=
  replaceEach Prod.fst secrets (stamped redactedMark) (placed text)

/-- The places of a text whose letters the passes keep. -/
def keptPlaces (secrets : List Letters) (text : Letters) : List Nat :=
  (redactPlaced secrets text).filterMap Prod.snd

/-- Marks under the keys, nothing of a secret elsewhere, and one result for all orders. -/
structure HidesSecrets (raw : String) : Prop where
  marks : ∀ value visited, Value.firstOf raw = some value → Reordered value.canonical visited →
    ∀ v ∈ sensitiveValues (preview value.canonical visited), v = .str redactedMark
  outside : ∀ value visited, Value.firstOf raw = some value → Reordered value.canonical visited →
    ∀ text ∈ openTexts value.canonical, ∀ i ∈ keptPlaces (secretsOf visited) text,
      ¬ Inside (secretsOf value.canonical) text i
  same : ∀ {one other : Letters} {secrets secrets' : List Letters},
    PreviewPanelParameters raw one secrets → PreviewPanelParameters raw other secrets' → one = other

/-- No secret is part of the mark, the secrets do not overlap in the texts, and none is met where it
takes a letter of a mark. -/
structure Untangled (value : Value) : Prop where
  mark : ∀ secret ∈ secretsOf value, secret <:+: redactedMark → secret = redactedMark
  separate : ∀ text ∈ openTexts value, Separate (secretsOf value) text
  clear : ∀ text ∈ openTexts value,
    Clear Prod.fst Stamped (secretsOf value) (stamped redactedMark) (placed text)

mutual

theorem collect_perm {v w : Value} : Reordered v w → (collect v).Perm (collect w)
  | .null => .refl _
  | .bool _ => .refl _
  | .num _ => .refl _
  | .str _ => .refl _
  | .arr elements => collectElements_perm elements
  | .obj members => collectMembers_perm members

theorem collectElements_perm {elements visited : List Value} :
    ReorderedElements elements visited → (collectElements elements).Perm (collectElements visited)
  | .nil => .refl _
  | .cons first rest => (collect_perm first).append (collectElements_perm rest)

theorem collectMembers_perm {members visited : List (Letters × Value)} :
    ReorderedMembers members visited → (collectMembers members).Perm (collectMembers visited)
  | .nil => .refl _
  | .cons first rest => (collect_perm first).append (collectMembers_perm rest)
  | .swap first second rest => by
    simp only [collectMembers, ← List.append_assoc]
    exact List.perm_append_comm.append_right _
  | .trans first second => (collectMembers_perm first).trans (collectMembers_perm second)

end

mutual

theorem secretsOf_perm {v w : Value} : Reordered v w → (secretsOf v).Perm (secretsOf w)
  | .null => .refl _
  | .bool _ => .refl _
  | .num _ => .refl _
  | .str _ => .refl _
  | .arr elements => secretsOfElements_perm elements
  | .obj members => secretsOfMembers_perm members

theorem secretsOfElements_perm {elements visited : List Value} :
    ReorderedElements elements visited →
      (secretsOfElements elements).Perm (secretsOfElements visited)
  | .nil => .refl _
  | .cons first rest => (secretsOf_perm first).append (secretsOfElements_perm rest)

theorem secretsOfMembers_perm {members visited : List (Letters × Value)} :
    ReorderedMembers members visited → (secretsOfMembers members).Perm (secretsOfMembers visited)
  | .nil => .refl _
  | @ReorderedMembers.cons key v w rest visited first others => by
    refine List.Perm.append ?_ (secretsOfMembers_perm others)
    cases panelSensitiveField key with
    | true => exact collect_perm first
    | false => exact secretsOf_perm first
  | .swap first second rest => by
    simp only [secretsOfMembers, ← List.append_assoc]
    exact List.perm_append_comm.append_right _
  | .trans first second => (secretsOfMembers_perm first).trans (secretsOfMembers_perm second)

end

mutual

theorem collect_nonempty : ∀ v : Value, ∀ secret ∈ collect v, secret ≠ []
  | .null, _, member => (List.not_mem_nil member).elim
  | .bool _, _, member => (List.not_mem_nil member).elim
  | .num _, _, member => (List.not_mem_nil member).elim
  | .str s, secret, member => by
    unfold collect at member
    split at member
    next some =>
      obtain rfl := List.mem_singleton.mp member
      exact some
    next => exact (List.not_mem_nil member).elim
  | .arr elements, secret, member => collectElements_nonempty elements secret member
  | .obj members, secret, member => collectMembers_nonempty members secret member

theorem collectElements_nonempty : ∀ elements, ∀ secret ∈ collectElements elements, secret ≠ []
  | [], _, member => (List.not_mem_nil member).elim
  | v :: rest, secret, member => by
    rcases List.mem_append.mp member with first | later
    · exact collect_nonempty v secret first
    · exact collectElements_nonempty rest secret later

theorem collectMembers_nonempty : ∀ members, ∀ secret ∈ collectMembers members, secret ≠ []
  | [], _, member => (List.not_mem_nil member).elim
  | (_, v) :: rest, secret, member => by
    rcases List.mem_append.mp member with first | later
    · exact collect_nonempty v secret first
    · exact collectMembers_nonempty rest secret later

end

mutual

theorem secretsOf_nonempty : ∀ v : Value, ∀ secret ∈ secretsOf v, secret ≠ []
  | .null, _, member => (List.not_mem_nil member).elim
  | .bool _, _, member => (List.not_mem_nil member).elim
  | .num _, _, member => (List.not_mem_nil member).elim
  | .str _, _, member => (List.not_mem_nil member).elim
  | .arr elements, secret, member => secretsOfElements_nonempty elements secret member
  | .obj members, secret, member => secretsOfMembers_nonempty members secret member

theorem secretsOfElements_nonempty :
    ∀ elements, ∀ secret ∈ secretsOfElements elements, secret ≠ []
  | [], _, member => (List.not_mem_nil member).elim
  | v :: rest, secret, member => by
    rcases List.mem_append.mp member with first | later
    · exact secretsOf_nonempty v secret first
    · exact secretsOfElements_nonempty rest secret later

theorem secretsOfMembers_nonempty : ∀ members, ∀ secret ∈ secretsOfMembers members, secret ≠ []
  | [], _, member => (List.not_mem_nil member).elim
  | (key, v) :: rest, secret, member => by
    rcases List.mem_append.mp member with first | later
    · split at first
      next => exact collect_nonempty v secret first
      next => exact secretsOf_nonempty v secret first
    · exact secretsOfMembers_nonempty rest secret later

end

section

variable {secrets secrets' : List Letters}

mutual

theorem redactKnown_congr
    (mark : redactText secrets redactedMark = redactText secrets' redactedMark) :
    ∀ v : Value, (∀ text ∈ openTexts v, redactText secrets text = redactText secrets' text) →
      redactKnown secrets (scrub v) = redactKnown secrets' (scrub v)
  | .null, _ => rfl
  | .bool _, _ => rfl
  | .num _, _ => rfl
  | .str s, same => congrArg Value.str (same s (List.mem_singleton.mpr rfl))
  | .arr elements, same => congrArg Value.arr (redactElements_congr mark elements same)
  | .obj members, same => congrArg Value.obj (redactMembers_congr mark members same)

theorem redactElements_congr
    (mark : redactText secrets redactedMark = redactText secrets' redactedMark) :
    ∀ elements : List Value,
      (∀ text ∈ openTextsElements elements, redactText secrets text = redactText secrets' text) →
        redactElements secrets (scrubElements elements) =
          redactElements secrets' (scrubElements elements)
  | [], _ => rfl
  | v :: rest, same => by
    have first := redactKnown_congr mark v
      (fun text member => same text (List.mem_append_left _ member))
    have later := redactElements_congr mark rest
      (fun text member => same text (List.mem_append_right _ member))
    simp only [scrubElements, redactElements, first, later]

theorem redactMembers_congr
    (mark : redactText secrets redactedMark = redactText secrets' redactedMark) :
    ∀ members : List (Letters × Value),
      (∀ text ∈ openTextsMembers members, redactText secrets text = redactText secrets' text) →
        redactMembers secrets (scrubMembers members) =
          redactMembers secrets' (scrubMembers members)
  | [], _ => rfl
  | (key, v) :: rest, same => by
    have later := redactMembers_congr mark rest
      (fun text member => same text (List.mem_append_right _ member))
    simp only [scrubMembers, redactMembers, later]
    cases e : panelSensitiveField key with
    | true => simp only [if_true, redactKnown, mark]
    | false =>
      have first := redactKnown_congr mark v (fun text member => same text (by
        rw [openTextsMembers, e]
        exact List.mem_append_left _ member))
      simp only [Bool.false_eq_true, if_false, first]

end

mutual

theorem sensitiveValues_redactKnown (mark : redactText secrets redactedMark = redactedMark) :
    ∀ v : Value, ∀ w ∈ sensitiveValues (redactKnown secrets (scrub v)), w = .str redactedMark
  | .null, _, member => (List.not_mem_nil member).elim
  | .bool _, _, member => (List.not_mem_nil member).elim
  | .num _, _, member => (List.not_mem_nil member).elim
  | .str _, _, member => (List.not_mem_nil member).elim
  | .arr elements, w, member => sensitiveElements_redactKnown mark elements w member
  | .obj members, w, member => sensitiveMembers_redactKnown mark members w member

theorem sensitiveElements_redactKnown (mark : redactText secrets redactedMark = redactedMark) :
    ∀ elements, ∀ w ∈ sensitiveElements (redactElements secrets (scrubElements elements)),
      w = .str redactedMark
  | [], _, member => (List.not_mem_nil member).elim
  | v :: rest, w, member => by
    rcases List.mem_append.mp member with first | later
    · exact sensitiveValues_redactKnown mark v w first
    · exact sensitiveElements_redactKnown mark rest w later

theorem sensitiveMembers_redactKnown (mark : redactText secrets redactedMark = redactedMark) :
    ∀ members, ∀ w ∈ sensitiveMembers (redactMembers secrets (scrubMembers members)),
      w = .str redactedMark
  | [], _, member => (List.not_mem_nil member).elim
  | (key, v) :: rest, w, member => by
    rcases List.mem_append.mp member with first | later
    · cases e : panelSensitiveField key with
      | true =>
        rw [e] at first
        obtain rfl := List.mem_singleton.mp first
        exact congrArg Value.str mark
      | false =>
        rw [e] at first
        exact sensitiveValues_redactKnown mark v w first
    · exact sensitiveMembers_redactKnown mark rest w later

end

end

theorem map_fst_redactPlaced (secrets : List Letters) (text : Letters) :
    (redactPlaced secrets text).map Prod.fst = redactText secrets text := by
  unfold redactPlaced redactText
  rw [@map_replaceEach _ _ _ Prod.fst _ _ id Prod.fst (fun _ => rfl), map_fst_stamped,
    map_fst_placed]

section

variable {value visited : Value}

private theorem order_listed (order : Reordered value visited) :
    secretsOf visited ⊆ secretsOf value := (secretsOf_perm order).symm.subset

theorem redactText_mark (untangled : Untangled value) (order : Reordered value visited) :
    redactText (secretsOf visited) redactedMark = redactedMark := by
  apply replaceEach_new
  · exact fun secret member => secretsOf_nonempty visited secret member
  · intro secret member part
    rw [List.map_id] at part ⊢
    exact untangled.mark secret (order_listed order member) part

theorem redactPlaced_eq (untangled : Untangled value) (order : Reordered value visited)
    {text : Letters} (member : text ∈ openTexts value) :
    redactPlaced (secretsOf visited) text = conceal Prod.fst (secretsOf value) (secretsOf value)
      (stamped redactedMark) (placed text) := by
  have plain : Plain Prod.fst Stamped (secretsOf value) (stamped redactedMark) (placed text) := by
    refine ⟨?_, untangled.clear text member, original_placed text⟩
    rw [map_fst_placed]
    exact untangled.separate text member
  have marked : Replacement Stamped (stamped redactedMark) := replacement_stamped (by decide)
  unfold redactPlaced
  rw [replaceEach_eq (secretsOf_nonempty value) marked plain (order_listed order)]
  exact conceal_congr (fun secret => (secretsOf_perm order).symm.mem_iff)

private theorem preview_eq (untangled : Untangled value) (order : Reordered value visited)
    {other : Value} (order' : Reordered value other) :
    preview value visited = preview value other := by
  apply redactKnown_congr
  · rw [redactText_mark untangled order, redactText_mark untangled order']
  · intro text member
    rw [← map_fst_redactPlaced, ← map_fst_redactPlaced, redactPlaced_eq untangled order member,
      redactPlaced_eq untangled order' member]

end

/-- The preview hides the secrets when they do not meet each other or the mark. -/
theorem preview_hides_secrets {raw : String}
    (untangled : ∀ value, Value.firstOf raw = some value → Untangled value.canonical) :
    HidesSecrets raw := by
  constructor
  case marks =>
    intro value visited read order
    exact sensitiveValues_redactKnown (redactText_mark (untangled value read) order) _
  case outside =>
    intro value visited read order text member i kept
    obtain ⟨b, listed, same⟩ := List.mem_filterMap.mp kept
    rw [redactPlaced_eq (untangled value read) order member] at listed
    exact conceal_outside (secretsOf_nonempty _) ((untangled value read).separate text member)
      listed same
  case same =>
    intro one other secrets secrets' first second
    cases first with
    | unread missing =>
      cases second with
      | unread => rfl
      | read found order' =>
        rw [missing] at found
        cases found
    | read read order =>
      cases second with
      | unread missing =>
        rw [missing] at read
        cases read
      | read read' order' =>
        obtain rfl := Option.some.inj (read.symm.trans read')
        rw [preview_eq (untangled _ read) order order']

/-- One secret is the start of another, and the shorter one is visited first. -/
def nestedSecrets : String :=
  "\x7b\"note\":\"abcdef\",\"password\":\"abcdef\",\"token\":\"abc\"\x7d"

/-- The rest of the longer secret stays in the preview. -/
theorem rest_of_longer_secret_kept : ¬ HidesSecrets nestedSecrets := by
  intro hides
  let members := [("note".toList, Value.str "abcdef".toList),
    ("password".toList, .str "abcdef".toList), ("token".toList, .str "abc".toList)]
  let visited := [("note".toList, Value.str "abcdef".toList),
    ("token".toList, .str "abc".toList), ("password".toList, .str "abcdef".toList)]
  have read : Value.firstOf nestedSecrets = some (.obj members) := by decide +kernel
  have order : Reordered (Value.obj members).canonical (.obj visited) := by
    have same : (Value.obj members).canonical = .obj members := by decide +kernel
    rw [same]
    exact .obj (.cons (.str _) (.swap _ _ _))
  apply hides.outside _ _ read order "abcdef".toList (by decide +kernel) 3 (by decide +kernel)
  exact ⟨"abcdef".toList, by decide +kernel, 0, by decide +kernel, by decide, by decide⟩

/-- A password that the note repeats. -/
def repeatedSecret : String := "\x7b\"note\":\"x abc\",\"password\":\"abc\"\x7d"

private theorem repeated_place {p : Nat} (occurs : "abc".toList <+: "x abc".toList.drop p) :
    p = 2 := by
  have within : p < 5 := by
    by_contra beyond
    have size := occurs.length_le
    rw [List.length_drop] at size
    have three : "abc".toList.length = 3 := by decide
    have five : "x abc".toList.length = 5 := by decide
    omega
  have small : ∀ p < 5, "abc".toList <+: "x abc".toList.drop p → p = 2 := by decide +kernel
  exact small p within occurs

/-- The note and the password of `repeatedSecret` are hidden in every order. -/
theorem preview_hides_repeated : HidesSecrets repeatedSecret := by
  apply preview_hides_secrets
  intro value read
  let object :=
    Value.obj [("note".toList, .str "x abc".toList), ("password".toList, .str "abc".toList)]
  have same : Value.firstOf repeatedSecret = some object := by decide +kernel
  obtain rfl := Option.some.inj (same.symm.trans read)
  have canonical : object.canonical = object := by decide +kernel
  have secrets : secretsOf object = ["abc".toList] := by decide +kernel
  have texts : openTexts object = ["x abc".toList] := by decide +kernel
  rw [canonical]
  constructor
  case mark =>
    rw [secrets]
    decide +kernel
  case separate =>
    rw [secrets, texts]
    intro text member one known other known' p q first second _ _
    obtain rfl := List.mem_singleton.mp member
    obtain rfl := List.mem_singleton.mp known
    obtain rfl := List.mem_singleton.mp known'
    exact ⟨rfl, by rw [repeated_place first, repeated_place second]⟩
  case clear =>
    rw [secrets, texts]
    intro text member hidden listed w part letters
    obtain rfl := List.mem_singleton.mp member
    right
    by_cases covered : "abc".toList ∈ hidden
    · have all : ∀ word, word ∈ hidden ↔ word ∈ ["abc".toList] := by
        intro word
        exact ⟨fun found => listed found, fun found => by rwa [List.mem_singleton.mp found]⟩
      rw [conceal_congr all] at part
      have found := part.map Prod.fst
      rw [List.mem_singleton.mp letters] at found
      exact absurd found (by decide +kernel)
    · have none : ∀ word, word ∈ hidden ↔ word ∈ ([] : List Letters) := by
        intro word
        refine ⟨fun found => ?_, fun found => (List.not_mem_nil found).elim⟩
        rw [List.mem_singleton.mp (listed found)] at found
        exact absurd found covered
      rw [conceal_congr none, conceal_nil] at part
      exact fun b inside => original_placed _ b (part.subset inside)

end ForestPanel.AIOps
