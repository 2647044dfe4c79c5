import ForestPanel.ClientEntry.Conditions

/-!
# The normal form of conditions

Normalising twice changes nothing, and what is saved is read back as the normal form.
-/
namespace ForestPanel.ClientEntry

open Outcome

/-! ## Text -/

section

variable (lib : StandardLibrary)

theorem StandardLibrary.lower_lower (s : String) : lib.lower (lib.lower s) = lib.lower s := by
  have twice : lib.toLower ∘ lib.toLower = lib.toLower := funext lib.toLower_toLower
  simp [lower, twice]

theorem StandardLibrary.lower_word {word : String}
    (ascii : ∀ c ∈ word.toList, c.toNat < 128 ∧ c.toLower = c) : lib.lower word = word := by
  have same : word.toList.map lib.toLower = word.toList := by
    rw [List.map_congr_left (g := id), List.map_id]
    intro c member
    obtain ⟨small, lower⟩ := ascii c member
    rw [lib.toLower_ascii c small, lower, id]
  rw [StandardLibrary.lower, same, String.ofList_toList]

theorem StandardLibrary.trimSpace_lower {s : String} (trimmed : trimSpace s = s) :
    trimSpace (lib.lower s) = lib.lower s := by
  obtain ⟨first, last⟩ := trimSpace_eq_self_iff.mp trimmed
  rw [trimSpace_eq_self_iff]
  simp only [lower, String.toList_ofList, List.head?_map, List.getLast?_map, Option.mem_def,
    Option.map_eq_some_iff]
  constructor
  · rintro - ⟨c, found, rfl⟩
    exact lib.toLower_isSpace c (first c found)
  · rintro - ⟨c, found, rfl⟩
    exact lib.toLower_isSpace c (last c found)

end

/-! ## Raw values are read as they were written -/

theorem rawInt64_rawNumber {value : Int} (fits : Decimal.Fits value) :
    rawInt64 (rawNumber value) = some value := by
  have visible : ∀ c ∈ (rawNumber value).toList, isSpace c = false := by
    intro c member
    rw [rawNumber, String.toList_ofList] at member
    rcases Decimal.mem_format member with rfl | digit
    · rfl
    · exact isSpace_of_isDigit digit
  have read := (Json.reads_format value).decode
  have read' : Json.decode (rawNumber value) = some (.num (Decimal.format value)) := read
  have parsed := Decimal.parse_format fits
  have number : rawNumber value ≠ "" ∧ rawNumber value ≠ "null" := by
    constructor
    · intro same
      rw [same] at read'
      cases read'
    · intro same
      rw [same] at read'
      cases read'
  rw [rawInt64, trimSpace_of_visible visible]
  simp only [number, or_self, if_false]
  rw [jsonNumber, rawNumber, read]
  simp [parsed]

theorem rawString_rawQuoted (value : String) : rawString (rawQuoted value) = some value := by
  have trimmed : trimSpace (rawQuoted value) = rawQuoted value := trimSpace_between rfl rfl _
  have read := (Json.reads_quote value.toList).unmarshal
  have quoted : rawQuoted value ≠ "" ∧ rawQuoted value ≠ "null" := by
    constructor <;> (intro same; have := congrArg String.toList same; simp [rawQuoted, Json.quote] at this)
  rw [rawString, trimmed]
  simp only [quoted, or_self, if_false]
  rw [rawQuoted, read]
  simp

variable {raw text key : String} {raws kepts : List String} {c n : Condition} {ns : List Condition}

private theorem rawInt64_fits {value : Int} (read : rawInt64 raw = some value) :
    Decimal.Fits value := by
  unfold rawInt64 at read
  dsimp only at read
  split at read
  · cases read
  split at read
  next number =>
    obtain ⟨literal, -, parsed⟩ := Option.bind_eq_some_iff.mp number
    rw [Option.some.inj read] at parsed
    exact Decimal.parse_fits parsed
  next =>
    split at read
    · exact Decimal.parse_fits read
    · cases read

/-- A raw value as the code writes it: read wherever it stands, and compact. -/
def Clean (raw : String) : Prop :=
  (∃ shape, Json.Reads raw.toList shape) ∧ Json.compact false raw.toList = raw.toList

theorem clean_rawNumber (value : Int) : Clean (rawNumber value) := by
  rw [Clean, rawNumber, String.toList_ofList]
  exact ⟨⟨_, Json.reads_format value⟩, Json.compact_format value⟩

theorem clean_rawQuoted (value : String) : Clean (rawQuoted value) := by
  rw [Clean, rawQuoted, String.toList_ofList]
  exact ⟨⟨_, Json.reads_quote value.toList⟩, Json.compact_quote value.toList⟩

/-! ## The loops over `Values` -/

section

variable {κ : Type} [DecidableEq κ] {item : String → Except String (κ × String)}

private theorem distinctValues_again
    (again : ∀ raw key kept, item raw = .ok (key, kept) → item kept = .ok (key, kept))
    {seen : List κ} (kept : distinctValues item seen raws = .ok kepts) :
    distinctValues item seen kepts = .ok kepts := by
  induction raws generalizing seen kepts with
  | nil =>
    cases kept
    rfl
  | cons raw raws ih =>
    simp only [distinctValues, bind_eq_ok] at kept
    obtain ⟨⟨key, text⟩, read, kept⟩ := kept
    split at kept
    next => exact ih kept
    next unseen =>
      simp only [bind_eq_ok, pure_eq_ok] at kept
      obtain ⟨others, rest, rfl⟩ := kept
      simp only [distinctValues, again raw key text read, bind_ok, if_neg unseen, ih rest]
      rfl

private theorem distinctValues_item {seen : List κ}
    (kept : distinctValues item seen raws = .ok kepts) (member : text ∈ kepts) :
    ∃ raw key, item raw = .ok (key, text) := by
  induction raws generalizing seen kepts with
  | nil =>
    cases kept
    cases member
  | cons raw raws ih =>
    simp only [distinctValues, bind_eq_ok] at kept
    obtain ⟨⟨key, first⟩, read, kept⟩ := kept
    split at kept
    next => exact ih kept member
    next =>
      simp only [bind_eq_ok, pure_eq_ok] at kept
      obtain ⟨others, rest, rfl⟩ := kept
      rcases List.mem_cons.mp member with rfl | later
      · exact ⟨raw, key, read⟩
      · exact ih rest later

private theorem distinctValues_nonempty (some : raws ≠ [])
    (kept : distinctValues item [] raws = .ok kepts) : kepts ≠ [] := by
  cases raws with
  | nil => exact absurd rfl some
  | cons raw raws =>
    simp only [distinctValues, bind_eq_ok, List.not_mem_nil, if_false, pure_eq_ok] at kept
    obtain ⟨⟨key, first⟩, -, others, -, rfl⟩ := kept
    exact List.cons_ne_nil _ _

end

private theorem numericItem_again {field : String} {key : Int}
    (read : numericItem field raw = .ok (key, text)) :
    numericItem field text = .ok (key, text) ∧ Clean text := by
  simp only [numericItem, bind_eq_ok, require_eq_ok, pure_eq_ok, Prod.mk.injEq] at read
  obtain ⟨number, parsed, _, valid, rfl, rfl⟩ := read
  refine ⟨?_, clean_rawNumber number⟩
  simp only [numericItem, rawInt64_rawNumber (rawInt64_fits parsed), require, bind_ok, valid]
  rfl

private theorem emailItem_again (lib : StandardLibrary) (read : emailItem lib raw = .ok (key, text))
    :
    emailItem lib text = .ok (key, text) ∧ Clean text := by
  simp only [emailItem, bind_eq_ok, require_eq_ok, ensure_eq_ok, exists_const, pure_eq_ok,
    Prod.mk.injEq] at read
  obtain ⟨email, -, valid, rfl, rfl⟩ := read
  refine ⟨?_, clean_rawQuoted _⟩
  have trimmed := lib.trimSpace_lower (trimSpace_trimSpace email)
  simp only [emailItem, rawString_rawQuoted, require, bind_ok, trimmed, lib.lower_lower,
    ensure_of _ valid]
  rfl

private theorem uaItem_again (lib : StandardLibrary) (read : uaItem lib raw = .ok (key, text)) :
    uaItem lib text = .ok (key, text) ∧ Clean text := by
  simp only [uaItem, bind_eq_ok, require_eq_ok, ensure_eq_ok, exists_const, pure_eq_ok,
    Prod.mk.injEq] at read
  obtain ⟨keyword, -, visible, rfl, rfl⟩ := read
  refine ⟨?_, clean_rawQuoted _⟩
  simp only [uaItem, rawString_rawQuoted, require, bind_ok, trimSpace_trimSpace,
    ensure_of _ visible]
  rfl

/-! ## Conditions -/

/-- A condition that is saved without loss. -/
structure Normal (c : Condition) : Prop where
  value : c.value = "" ∨ Clean c.value
  min : c.min = "" ∨ Clean c.min
  max : c.max = "" ∨ Clean c.max
  values : ∀ raws, c.values = some raws →
    (∀ raw ∈ raws, Clean raw) ∧ (raws = [] → c.field = "email" ∧ c.operator = "in")
  listed : c.field = "email" → c.operator = "in" → c.values.isSome

/-- Normalising a condition again changes nothing, and it can be saved. -/
structure Settles (normalize : Condition → Except String Condition) (c n : Condition) : Prop where
  field : n.field = c.field
  operator : n.operator = c.operator
  again : normalize n = .ok n
  normal : Normal n

private theorem normalizeNumericCondition_settles (returned : normalizeNumericCondition c = .ok n) :
    Settles normalizeNumericCondition c n := by
  unfold normalizeNumericCondition at returned
  split at returned
  next ordered =>
    simp only [bind_eq_ok, require_eq_ok, pure_eq_ok] at returned
    obtain ⟨number, parsed, _, valid, rfl⟩ := returned
    refine ⟨rfl, rfl, ?_, Or.inr (clean_rawNumber number), Or.inl rfl, Or.inl rfl, ?_, ?_⟩
    · simp only [normalizeNumericCondition, if_pos ordered, require, bind_ok, valid,
        rawInt64_rawNumber (rawInt64_fits parsed)]
      rfl
    · rintro raws listed
      cases listed
    · intro _ listed
      rw [show c.operator = "in" from listed] at ordered
      exact absurd ordered (by decide)
  next unordered =>
    split at returned
    next listed =>
      simp only [bind_eq_ok, ensure_eq_ok, exists_const, pure_eq_ok] at returned
      obtain ⟨nonempty, values, kept, rfl⟩ := returned
      have again := distinctValues_again
        (fun raw key text read => (numericItem_again read).1) kept
      have some := distinctValues_nonempty nonempty kept
      refine ⟨rfl, rfl, ?_, Or.inl rfl, Or.inl rfl, Or.inl rfl, ?_, fun _ _ => rfl⟩
      · simp only [normalizeNumericCondition, if_neg unordered, if_pos listed, Option.getD_some,
          ensure_of _ some, bind_ok, again]
        rfl
      · rintro raws same
        cases same
        refine ⟨fun raw member => ?_, fun none => absurd none some⟩
        obtain ⟨_, _, read⟩ := distinctValues_item kept member
        exact (numericItem_again read).2
    next unlisted =>
      split at returned
      next between =>
        simp only [bind_eq_ok, require_eq_ok, ensure_eq_ok, exists_const, pure_eq_ok] at returned
        obtain ⟨minimum, low, maximum, high, _, validLow, _, validHigh, ordered, rfl⟩ := returned
        refine ⟨rfl, rfl, ?_, Or.inl rfl, Or.inr (clean_rawNumber minimum),
          Or.inr (clean_rawNumber maximum), ?_, fun _ listed => absurd listed unlisted⟩
        · simp only [normalizeNumericCondition, if_neg unordered, if_neg unlisted, if_pos between,
            rawInt64_rawNumber (rawInt64_fits low), rawInt64_rawNumber (rawInt64_fits high),
            require, bind_ok, validLow, validHigh, ensure_of _ ordered]
          rfl
        · rintro raws listed
          cases listed
      next => cases returned

private theorem normalizeEmailCondition_settles (lib : StandardLibrary) (email : c.field = "email")
    (returned : normalizeEmailCondition lib c = .ok n) :
    Settles (normalizeEmailCondition lib) c n := by
  simp only [normalizeEmailCondition, bind_eq_ok, ensure_eq_ok, exists_const, pure_eq_ok]
    at returned
  obtain ⟨listed, values, kept, rfl⟩ := returned
  have again := distinctValues_again
    (fun raw key text read => (emailItem_again lib read).1) kept
  refine ⟨rfl, rfl, ?_, Or.inl rfl, Or.inl rfl, Or.inl rfl, ?_, fun _ _ => rfl⟩
  · simp only [normalizeEmailCondition, ensure_of _ listed, bind_ok, Option.getD_some, again]
    rfl
  · rintro raws same
    cases same
    refine ⟨fun raw member => ?_, fun _ => ⟨email, listed⟩⟩
    obtain ⟨_, _, read⟩ := distinctValues_item kept member
    exact (emailItem_again lib read).2

private theorem normalizeUACondition_settles (lib : StandardLibrary)
    (returned : normalizeUACondition lib c = .ok n) : Settles (normalizeUACondition lib) c n := by
  unfold normalizeUACondition at returned
  split at returned
  next listed =>
    simp only [bind_eq_ok, ensure_eq_ok, exists_const, pure_eq_ok] at returned
    obtain ⟨nonempty, values, kept, rfl⟩ := returned
    have again := distinctValues_again
      (fun raw key text read => (uaItem_again lib read).1) kept
    have some := distinctValues_nonempty nonempty kept
    refine ⟨rfl, rfl, ?_, Or.inl rfl, Or.inl rfl, Or.inl rfl, ?_, fun _ _ => rfl⟩
    · simp only [normalizeUACondition, if_pos listed, Option.getD_some, ensure_of _ some, bind_ok,
        again]
      rfl
    · rintro raws same
      cases same
      refine ⟨fun raw member => ?_, fun none => absurd none some⟩
      obtain ⟨_, _, read⟩ := distinctValues_item kept member
      exact (uaItem_again lib read).2
  next unlisted =>
    split at returned
    next plain =>
      cases returned
      refine ⟨rfl, rfl, ?_, Or.inl rfl, Or.inl rfl, Or.inl rfl, ?_, ?_⟩
      · simp only [normalizeUACondition, if_neg unlisted, if_pos plain]
      · rintro raws listed
        cases listed
      · intro _ listed
        rw [show c.operator = "in" from listed] at plain
        exact absurd plain (by decide)
    next => cases returned

theorem StandardLibrary.lower_trimSpace_again (lib : StandardLibrary) (value : String) :
    lib.lower (trimSpace (lib.lower (trimSpace value))) = lib.lower (trimSpace value) := by
  rw [lib.trimSpace_lower (trimSpace_trimSpace value), lib.lower_lower]

private theorem normalizeOperator_word (lib : StandardLibrary) {word : String}
    (trimmed : trimSpace word = word)
    (ascii : ∀ c ∈ word.toList, c.toNat < 128 ∧ c.toLower = c)
    (proper : word ≠ "is_empty" ∧ word ≠ "is_not_empty") : normalizeOperator lib word = word := by
  simp [normalizeOperator, trimmed, lib.lower_word ascii, proper]

private theorem normalizeOperator_again (lib : StandardLibrary) (value : String) :
    normalizeOperator lib (normalizeOperator lib value) = normalizeOperator lib value := by
  generalize word : normalizeOperator lib value = operator
  unfold normalizeOperator at word
  dsimp only at word
  split at word
  next =>
    subst word
    exact normalizeOperator_word lib (by decide) (by decide) (by decide)
  next notEmpty =>
    split at word
    next =>
      subst word
      exact normalizeOperator_word lib (by decide) (by decide) (by decide)
    next notFull =>
      subst word
      simp only [normalizeOperator, lib.lower_trimSpace_again, if_neg notEmpty, if_neg notFull]

theorem normalizeCondition_settles (lib : StandardLibrary)
    (returned : normalizeCondition lib c = .ok n) :
    normalizeCondition lib n = .ok n ∧ Normal n := by
  have field := lib.lower_trimSpace_again c.field
  have operator := normalizeOperator_again lib c.operator
  unfold normalizeCondition at returned
  dsimp only at returned
  generalize lib.lower (trimSpace c.field) = word at *
  generalize normalizeOperator lib c.operator = test at *
  -- the words of the normalised condition are normal already
  have words : n.field = word → n.operator = test →
      ({ n with
        field := lib.lower (trimSpace n.field)
        operator := normalizeOperator lib n.operator } : Condition) = n := by
    rintro rfl rfl
    rw [field, operator]
  split at returned
  next numeric =>
    have settles := normalizeNumericCondition_settles returned
    rw [← show n.field = word from settles.field] at numeric
    refine ⟨?_, settles.normal⟩
    rw [normalizeCondition, words settles.field settles.operator]
    rw [if_pos numeric]
    exact settles.again
  next notNumeric =>
    split at returned
    next email =>
      have settles := normalizeEmailCondition_settles lib email returned
      rw [← show n.field = word from settles.field] at notNumeric email
      refine ⟨?_, settles.normal⟩
      rw [normalizeCondition, words settles.field settles.operator]
      rw [if_neg notNumeric, if_pos email]
      exact settles.again
    next notEmail =>
      split at returned
      next ua =>
        have settles := normalizeUACondition_settles lib returned
        rw [← show n.field = word from settles.field] at notNumeric notEmail ua
        refine ⟨?_, settles.normal⟩
        rw [normalizeCondition, words settles.field settles.operator]
        rw [if_neg notNumeric, if_neg notEmail, if_pos ua]
        exact settles.again
      next => cases returned

/-! ## Lists of conditions -/

theorem normalizeFrom_settles (lib : StandardLibrary) {index : Nat} {cs : List Condition}
    (returned : normalizeFrom lib index cs = .ok ns) :
    (∀ index', normalizeFrom lib index' ns = .ok ns) ∧ (∀ n ∈ ns, Normal n) ∧
      List.Forall₂ (fun c n => normalizeCondition lib c = .ok n) cs ns := by
  induction cs generalizing index ns with
  | nil =>
    cases returned
    exact ⟨fun _ => rfl, fun n member => absurd member List.not_mem_nil, .nil⟩
  | cons c cs ih =>
    simp only [normalizeFrom, bind_eq_ok, pure_eq_ok] at returned
    obtain ⟨n, first, others, rest, rfl⟩ := returned
    have first : normalizeCondition lib c = .ok n := by
      cases result : normalizeCondition lib c with
      | ok value =>
        rw [result] at first
        cases first
        rfl
      | error e =>
        rw [result] at first
        cases first
    obtain ⟨again, normal⟩ := normalizeCondition_settles lib first
    obtain ⟨agains, normals, related⟩ := ih rest
    refine ⟨fun index' => ?_, ?_, .cons first related⟩
    · simp only [normalizeFrom, again, Except.mapError, bind_ok, agains]
      rfl
    · intro m member
      rcases List.mem_cons.mp member with rfl | later
      · exact normal
      · exact normals m later

/-! ## Saving and loading -/

private theorem Clean.nonempty (clean : Clean raw) : raw ≠ "" := by
  obtain ⟨⟨shape, reads⟩, -⟩ := clean
  obtain ⟨c, rest, start, -⟩ := reads.start
  rintro rfl
  cases start

private theorem Clean.marshal (clean : Clean raw) : marshalRaw raw = some raw.toList := by
  obtain ⟨⟨shape, reads⟩, compact⟩ := clean
  have read := reads.unmarshal
  rw [String.ofList_toList] at read
  rw [marshalRaw, if_neg (Clean.nonempty ⟨⟨shape, reads⟩, compact⟩), read, compact]
  rfl

/-- An optional raw value, where it is written. -/
private def optional (key raw : String) : List (List Char × List Char) :=
  if raw = "" then [] else [(key.toList, raw.toList)]

private theorem omitEmpty_clean (key : String) (clean : raw = "" ∨ Clean raw) :
    omitEmpty key raw = some (optional key raw) := by
  rw [omitEmpty, optional]
  split
  · rfl
  next nonempty =>
    rw [(clean.resolve_left nonempty).marshal]
    rfl

private theorem mapM_marshalRaw (clean : ∀ raw ∈ raws, Clean raw) :
    raws.mapM marshalRaw = some (raws.map String.toList) := by
  induction raws with
  | nil => rfl
  | cons raw raws ih =>
    have first := (clean raw List.mem_cons_self).marshal
    have rest := ih fun other member => clean other (List.mem_cons_of_mem raw member)
    simp [List.mapM_cons, first, rest]

private def valuesMember (c : Condition) : List Char × List Char :=
  ("values".toList, Json.array ((c.values.getD []).map String.toList))

private theorem valuesMember_some (listed : c.values = some raws) :
    valuesMember c = ("values".toList, Json.array (raws.map String.toList)) :=
  congrArg (fun values : Option (List String) =>
    ("values".toList, Json.array ((values.getD []).map String.toList))) listed

/-- The members a normal condition is written with, in the order of `MarshalJSON`. -/
private def membersOf (c : Condition) : List (List Char × List Char) :=
  [("field".toList, Json.quote c.field.toList), ("operator".toList, Json.quote c.operator.toList)] ++
    optional "value" c.value ++
    match c.values with
    | none => optional "min" c.min ++ optional "max" c.max
    | some [] => optional "min" c.min ++ optional "max" c.max ++ [valuesMember c]
    | some (_ :: _) => valuesMember c :: (optional "min" c.min ++ optional "max" c.max)

private theorem marshalCondition_normal (normal : Normal c) :
    marshalCondition c = some (Json.object (membersOf c)) := by
  have value := omitEmpty_clean "value" normal.value
  have min := omitEmpty_clean "min" normal.min
  have max := omitEmpty_clean "max" normal.max
  rw [marshalCondition, value, min, max]
  simp only [Option.bind_eq_bind, Option.bind_some]
  cases listed : c.values with
  | none =>
    have unlisted : ¬(c.field = "email" ∧ c.operator = "in") := by
      rintro ⟨email, within⟩
      have present := normal.listed email within
      rw [listed] at present
      cases present
    rw [membersOf, listed, Option.getD_none, List.mapM_nil, Option.pure_def, Option.bind_some]
    simp only [ne_eq, not_true_eq_false, if_false, if_neg unlisted, List.append_assoc]
  | some raws =>
    obtain ⟨clean, empty⟩ := normal.values raws listed
    rw [Option.getD_some, mapM_marshalRaw clean, Option.bind_some, membersOf, listed]
    cases raws with
    | nil =>
      rw [valuesMember_some listed]
      simp only [List.map_nil, ne_eq, not_true_eq_false, if_false, if_pos (empty rfl),
        List.append_assoc]
    | cons raw raws =>
      rw [valuesMember_some listed]
      simp only [List.map_cons, ne_eq, reduceCtorEq, not_false_eq_true, if_true,
        List.append_assoc, List.cons_append, List.nil_append]

/-! ### Reading the members back -/

private theorem setMember_field (c : Condition) (field : String) :
    setMember c ("field".toList, Json.quote field.toList) = some { c with field } := by
  have known : fieldOf "field".toList = some "field" := by decide
  have read : setString (Json.quote field.toList) c.field = some field := by
    rw [setString, (Json.reads_quote field.toList).decode]
    simp
  rw [setMember, known]
  simp only [read, Option.map_some]

private theorem setMember_operator (c : Condition) (operator : String) :
    setMember c ("operator".toList, Json.quote operator.toList) = some { c with operator } := by
  have known : fieldOf "operator".toList = some "operator" := by decide
  have read : setString (Json.quote operator.toList) c.operator = some operator := by
    rw [setString, (Json.reads_quote operator.toList).decode]
    simp
  rw [setMember, known]
  simp only [read, Option.map_some]

private theorem reads_values (clean : ∀ raw ∈ raws, Clean raw) :
    Json.Reads (Json.array (raws.map String.toList)) (.arr (raws.map String.toList)) := by
  apply Json.reads_array
  intro raw member
  obtain ⟨text, listed, rfl⟩ := List.mem_map.mp member
  exact (clean text listed).1

private theorem setMember_values (c : Condition) (clean : ∀ raw ∈ raws, Clean raw) :
    setMember c ("values".toList, Json.array (raws.map String.toList)) =
      some { c with values := some raws } := by
  have known : fieldOf "values".toList = some "values" := by decide
  have read : setValues (Json.array (raws.map String.toList)) = some (some raws) := by
    rw [setValues, (reads_values clean).decode]
    simp [Function.comp_def]
  rw [setMember, known]
  simp only [read, Option.map_some]

private theorem foldlM_value (c : Condition) (value : String) (absent : c.value = "") :
    (optional "value" value).foldlM setMember c = some { c with value } := by
  have known : fieldOf "value".toList = some "value" := by decide
  unfold optional
  split
  next empty =>
    rw [List.foldlM_nil, empty, ← absent]
    rfl
  next =>
    rw [List.foldlM_cons, setMember, known]
    simp only [String.ofList_toList, Option.bind_eq_bind, Option.bind_some, List.foldlM_nil,
      Option.pure_def]

private theorem foldlM_min (c : Condition) (min : String) (absent : c.min = "") :
    (optional "min" min).foldlM setMember c = some { c with min } := by
  have known : fieldOf "min".toList = some "min" := by decide
  unfold optional
  split
  next empty =>
    rw [List.foldlM_nil, empty, ← absent]
    rfl
  next =>
    rw [List.foldlM_cons, setMember, known]
    simp only [String.ofList_toList, Option.bind_eq_bind, Option.bind_some, List.foldlM_nil,
      Option.pure_def]

private theorem foldlM_max (c : Condition) (max : String) (absent : c.max = "") :
    (optional "max" max).foldlM setMember c = some { c with max } := by
  have known : fieldOf "max".toList = some "max" := by decide
  unfold optional
  split
  next empty =>
    rw [List.foldlM_nil, empty, ← absent]
    rfl
  next =>
    rw [List.foldlM_cons, setMember, known]
    simp only [String.ofList_toList, Option.bind_eq_bind, Option.bind_some, List.foldlM_nil,
      Option.pure_def]

private theorem foldlM_membersOf (normal : Normal c) :
    (membersOf c).foldlM setMember emptyCondition = some c := by
  obtain ⟨field, operator, value, values, min, max⟩ := c
  rw [membersOf]
  simp only [List.foldlM_append, List.foldlM_cons, List.foldlM_nil, setMember_field,
    setMember_operator, Option.bind_eq_bind, Option.bind_some, Option.pure_def]
  rw [foldlM_value _ _ rfl, Option.bind_some]
  cases values with
  | none =>
    dsimp only
    rw [List.foldlM_append, foldlM_min _ _ rfl, Option.bind_eq_bind, Option.bind_some,
      foldlM_max _ _ rfl]
    rfl
  | some raws =>
    obtain ⟨clean, -⟩ := normal.values raws rfl
    have written := valuesMember_some (c := ⟨field, operator, value, some raws, min, max⟩) rfl
    cases raws with
    | nil =>
      dsimp only
      rw [List.foldlM_append, List.foldlM_append, foldlM_min _ _ rfl, Option.bind_eq_bind,
        Option.bind_some, foldlM_max _ _ rfl, Option.bind_some, List.foldlM_cons, written,
        setMember_values _ clean]
      rfl
    | cons raw raws =>
      dsimp only
      rw [List.foldlM_cons, written, setMember_values _ clean,
        Option.bind_eq_bind, Option.bind_some, List.foldlM_append, foldlM_min _ _ rfl,
        Option.bind_eq_bind, Option.bind_some, foldlM_max _ _ rfl]

private theorem reads_optional (clean : raw = "" ∨ Clean raw) {m : List Char × List Char}
    (member : m ∈ optional key raw) : ∃ shape, Json.Reads m.2 shape := by
  unfold optional at member
  split at member
  · cases member
  next written =>
    rw [List.mem_singleton.mp member]
    exact (clean.resolve_left written).1

private theorem reads_members (normal : Normal c) :
    ∀ m ∈ membersOf c, ∃ shape, Json.Reads m.2 shape := by
  intro m member
  have bounds : m ∈ optional "min" c.min ++ optional "max" c.max →
      ∃ shape, Json.Reads m.2 shape := by
    rw [List.mem_append]
    rintro (min | max)
    · exact reads_optional normal.min min
    · exact reads_optional normal.max max
  have values : ∀ raws, c.values = some raws → m = valuesMember c →
      ∃ shape, Json.Reads m.2 shape := by
    rintro raws listed rfl
    rw [valuesMember_some listed]
    exact ⟨_, reads_values (normal.values raws listed).1⟩
  rw [membersOf, List.mem_append, List.mem_append] at member
  rcases member with (words | value) | rest
  · simp only [List.mem_cons, List.not_mem_nil, or_false] at words
    rcases words with rfl | rfl
    · exact ⟨_, Json.reads_quote c.field.toList⟩
    · exact ⟨_, Json.reads_quote c.operator.toList⟩
  · exact reads_optional normal.value value
  · split at rest
    next => exact bounds rest
    next listed =>
      rcases List.mem_append.mp rest with early | last
      · exact bounds early
      · exact values _ listed (List.mem_singleton.mp last)
    next listed =>
      rcases List.mem_cons.mp rest with first | later
      · exact values _ listed first
      · exact bounds later

private theorem unmarshalCondition_members (normal : Normal c) :
    unmarshalCondition (Json.object (membersOf c)) = some c := by
  rw [unmarshalCondition, (Json.reads_object (reads_members normal)).decode]
  exact foldlM_membersOf normal

private theorem unmarshalConditions_marshal (normal : ∀ n ∈ ns, Normal n) :
    ns.mapM marshalCondition = some (ns.map fun n => Json.object (membersOf n)) ∧
      unmarshalConditions (String.ofList (Json.array (ns.map fun n => Json.object (membersOf n)))) =
        some ns := by
  have written : ns.mapM marshalCondition = some (ns.map fun n => Json.object (membersOf n)) ∧
      (ns.map fun n => Json.object (membersOf n)).mapM unmarshalCondition = some ns := by
    induction ns with
    | nil => exact ⟨rfl, rfl⟩
    | cons n ns ih =>
      have first := normal n List.mem_cons_self
      obtain ⟨marshal, unmarshal⟩ := ih fun m member => normal m (List.mem_cons_of_mem n member)
      constructor
      · simp [List.mapM_cons, marshalCondition_normal first, marshal]
      · simp [List.mapM_cons, unmarshalCondition_members first, unmarshal]
  refine ⟨written.1, ?_⟩
  have reads : Json.Reads (Json.array (ns.map fun n => Json.object (membersOf n)))
      (.arr (ns.map fun n => Json.object (membersOf n))) := by
    apply Json.reads_array
    intro raw member
    obtain ⟨n, listed, rfl⟩ := List.mem_map.mp member
    exact ⟨_, Json.reads_object (reads_members (normal n listed))⟩
  rw [unmarshalConditions, reads.decode]
  exact written.2

theorem decodeConditions_encodeConditions (lib : StandardLibrary) {cs : List Condition}
    (normalized : normalizeConditions lib cs = .ok ns) :
    ∃ text, encodeConditions lib cs = .ok text ∧ decodeConditions lib text = .ok ns := by
  obtain ⟨again, normal, -⟩ := normalizeFrom_settles lib normalized
  obtain ⟨marshal, unmarshal⟩ := unmarshalConditions_marshal normal
  generalize ns.map (fun n => Json.object (membersOf n)) = raws at marshal unmarshal
  refine ⟨String.ofList (Json.array raws), ?_, ?_⟩
  · rw [encodeConditions, normalized, bind_ok, marshal]
    rfl
  · have trimmed : trimSpace (String.ofList (Json.array raws)) = String.ofList (Json.array raws) :=
      trimSpace_between rfl rfl _
    have nonempty : String.ofList (Json.array raws) ≠ "" := by
      intro empty
      have chars := congrArg String.toList empty
      rw [String.toList_ofList] at chars
      cases chars
    rw [decodeConditions, trimmed, if_neg nonempty, unmarshal]
    exact again 0

/-! ## An empty email list -/

theorem matchAll_of_empty_email (lib : StandardLibrary) (member : n ∈ ns)
    (email : n.field = "email") (empty : n.values = some []) (subject : Subject) :
    matchAll lib ns subject = false := by
  have unmatched : matchCondition lib n subject = false := by
    simp [matchCondition, email, matchEmail, empty]
  rw [matchAll, List.all_eq_false]
  exact ⟨n, member, by simp [unmatched]⟩

private theorem normalizeCondition_empty_email (lib : StandardLibrary)
    (returned : normalizeCondition lib c = .ok n) (email : lib.lower (trimSpace c.field) = "email")
    (empty : c.values.getD [] = []) : n = ⟨"email", "in", "", some [], "", ""⟩ := by
  have notNumeric : "email" ∉ ["user_id", "registration_days", "plan_id"] := by decide
  rw [normalizeCondition, email, if_neg notNumeric, if_pos rfl] at returned
  simp only [normalizeEmailCondition, empty, bind_eq_ok, ensure_eq_ok, exists_const,
    pure_eq_ok] at returned
  obtain ⟨listed, values, kept, rfl⟩ := returned
  cases kept
  rw [listed]

theorem related_of_mem {α β : Type} {R : α → β → Prop} {as : List α} {bs : List β}
    (related : List.Forall₂ R as bs) {a : α} (member : a ∈ as) : ∃ b ∈ bs, R a b := by
  induction related with
  | nil => cases member
  | cons first _ ih =>
    rcases List.mem_cons.mp member with rfl | later
    · exact ⟨_, List.mem_cons_self, first⟩
    · obtain ⟨b, listed, found⟩ := ih later
      exact ⟨b, List.mem_cons_of_mem _ listed, found⟩

/-- Conditions survive saving and loading: normalising twice changes nothing, the
saved text is read as the normal form and matches what it matches, a set that is not
accepted is not saved, and an empty email list stays and matches nobody. -/
theorem conditions_survive_saving (lib : StandardLibrary) (cs : List Condition) :
    (∀ e, normalizeConditions lib cs = .error e → encodeConditions lib cs = .error e) ∧
    ∀ ns, normalizeConditions lib cs = .ok ns →
      normalizeConditions lib ns = .ok ns ∧
      ∃ text, encodeConditions lib cs = .ok text ∧ decodeConditions lib text = .ok ns ∧
        (∀ ds, decodeConditions lib text = .ok ds →
          ∀ subject, matchAll lib ds subject = matchAll lib ns subject) ∧
        ∀ c ∈ cs, lib.lower (trimSpace c.field) = "email" → c.values.getD [] = [] →
          ⟨"email", "in", "", some [], "", ""⟩ ∈ ns ∧
            ∀ subject, matchAll lib ns subject = false := by
  constructor
  · intro e refused
    rw [encodeConditions, refused]
    rfl
  · intro ns normalized
    obtain ⟨again, -, related⟩ := normalizeFrom_settles lib normalized
    obtain ⟨text, encoded, decoded⟩ := decodeConditions_encodeConditions lib normalized
    refine ⟨again 0, text, encoded, decoded, ?_, ?_⟩
    · intro ds loaded subject
      rw [decoded] at loaded
      cases loaded
      rfl
    · intro c member email empty
      obtain ⟨n, listed, returned⟩ := related_of_mem related member
      rw [normalizeCondition_empty_email lib returned email empty] at listed
      exact ⟨listed, fun subject => matchAll_of_empty_email lib listed rfl rfl subject⟩

private theorem toLower_of_not_upper {c : Char} (other : ¬(c.val ≥ 'A'.val ∧ c.val ≤ 'Z'.val)) :
    c.toLower = c := dif_neg other

private theorem toLower_of_upper {c : Char} (upper : c.val ≥ 'A'.val ∧ c.val ≤ 'Z'.val) :
    65 ≤ c.val.toNat ∧ c.val.toNat ≤ 90 ∧ c.toLower.val.toNat = c.val.toNat + 32 := by
  have low : 65 ≤ c.val.toNat := UInt32.le_iff_toNat_le.mp upper.1
  have high : c.val.toNat ≤ 90 := UInt32.le_iff_toNat_le.mp upper.2
  have moved : (c.val + ('a'.val - 'A'.val)).toNat = c.val.toNat + 32 := by
    rw [UInt32.toNat_add, show ('a'.val - 'A'.val).toNat = 32 from rfl]
    exact Nat.mod_eq_of_lt (by omega)
  have lowered : c.toLower.val = c.val + ('a'.val - 'A'.val) := congrArg Char.val (dif_pos upper)
  rw [lowered]
  exact ⟨low, high, moved⟩

private theorem toLower_toLower_ascii (c : Char) : c.toLower.toLower = c.toLower := by
  by_cases upper : c.val ≥ 'A'.val ∧ c.val ≤ 'Z'.val
  · obtain ⟨low, high, lowered⟩ := toLower_of_upper upper
    -- the lowered letter is past 'Z', so it is not lowered again
    have past : ¬(c.toLower.val ≥ 'A'.val ∧ c.toLower.val ≤ 'Z'.val) := by
      rintro ⟨-, below⟩
      have below : c.toLower.val.toNat ≤ 90 := UInt32.le_iff_toNat_le.mp below
      omega
    exact toLower_of_not_upper past
  · rw [toLower_of_not_upper upper, toLower_of_not_upper upper]

private theorem isSpace_toLower_ascii (c : Char) (visible : isSpace c = false) :
    isSpace c.toLower = false := by
  by_cases upper : c.val ≥ 'A'.val ∧ c.val ≤ 'Z'.val
  · have letter : 97 ≤ c.toLower.toNat ∧ c.toLower.toNat ≤ 122 := by
      obtain ⟨low, high, lowered⟩ := toLower_of_upper upper
      rw [← Char.toNat_val]
      omega
    simp only [isSpace, List.mem_cons, List.not_mem_nil, or_false, Bool.or_eq_false_iff,
      decide_eq_false_iff_not, Bool.and_eq_false_iff]
    omega
  · rw [toLower_of_not_upper upper]
    exact visible

/-- A library that knows the ASCII letters only and takes every text for an address. -/
def asciiLibrary : StandardLibrary where
  toLower := Char.toLower
  toLower_toLower := toLower_toLower_ascii
  toLower_ascii := fun _ _ => rfl
  toLower_isSpace := isSpace_toLower_ascii
  parseAddress := some

private def savedConditions : List Condition :=
  [⟨" Email", "IN", "7", none, "", ""⟩, ⟨"plan_id", "between", "", none, " \"3\" ", "12"⟩]

theorem empty_email_list_saved :
    ∀ subject, matchAll asciiLibrary
      [⟨"email", "in", "", some [], "", ""⟩, ⟨"plan_id", "between", "", none, "3", "12"⟩]
      subject = false := by
  have normalized : normalizeConditions asciiLibrary savedConditions =
      .ok [⟨"email", "in", "", some [], "", ""⟩, ⟨"plan_id", "between", "", none, "3", "12"⟩] := by
    decide +kernel
  obtain ⟨-, _, -, -, -, denied⟩ :=
    (conditions_survive_saving asciiLibrary savedConditions).2 _ normalized
  have listed : ⟨" Email", "IN", "7", none, "", ""⟩ ∈ savedConditions := by decide
  exact (denied _ listed (by decide +kernel) rfl).2

end ForestPanel.ClientEntry
