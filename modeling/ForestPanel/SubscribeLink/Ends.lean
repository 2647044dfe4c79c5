import ForestPanel.SubscribeLink.Parse
import Mathlib.Data.List.TakeWhile

/-!
# When parsing a link ends

Decoding makes a payload shorter, and nothing but the query and the fragment is added to it. An
empty payload is decoded to itself, so the parser gets the same link again and again.
-/
namespace ForestPanel.SubscribeLink

private theorem dropMarks_length (marks : List Bytes) (count : Nat) (raw : Bytes) :
    (dropMarks marks count raw).length ≤ raw.length := by
  induction count generalizing raw with
  | zero => exact le_refl _
  | succ count ih =>
    rw [dropMarks]
    split
    · exact le_refl _
    next mark found =>
      have shorter := ih (raw.drop mark.length)
      rw [List.length_drop] at shorter
      omega

theorem trimSpace_length (raw : Bytes) : (trimSpace raw).length ≤ raw.length := by
  have front := dropMarks_length spaces raw.length raw
  have back := dropMarks_length (spaces.map List.reverse)
    (dropMarks spaces raw.length raw).length (dropMarks spaces raw.length raw).reverse
  rw [List.length_reverse] at back
  rw [trimSpace, List.length_reverse]
  exact back.trans front

private theorem bytes_length (groups : List Nat) (decoded : Bytes)
    (read : Base64.bytes groups = some decoded) : 4 * decoded.length ≤ 3 * groups.length := by
  induction groups using Base64.bytes.induct generalizing decoded with
  | case1 a b c d rest ih =>
    rw [Base64.bytes, Option.map_eq_some_iff] at read
    obtain ⟨later, found, rfl⟩ := read
    have shorter := ih later found
    simp only [List.length_cons]
    omega
  | case2 a b c =>
    cases read
    simp
  | case3 a b =>
    cases read
    simp
  | case4 a => cases read
  | case5 =>
    cases read
    simp

private theorem mapM_length {α β : Type} {f : α → Option β} {l : List α} {out : List β}
    (mapped : l.mapM f = some out) : out.length = l.length := by
  induction l generalizing out with
  | nil =>
    cases mapped
    rfl
  | cons a l ih =>
    rw [List.mapM_cons] at mapped
    obtain ⟨first, -, rest⟩ := Option.bind_eq_some_iff.mp mapped
    obtain ⟨others, later, done⟩ := Option.bind_eq_some_iff.mp rest
    cases done
    rw [List.length_cons, List.length_cons, ih later]

private theorem unpadded_length {text digits : Bytes} (read : unpadded text = some digits) :
    digits.length ≤ text.length := by
  unfold unpadded at read
  split at read
  · cases read
  · split at read
    · cases read
      simp only [List.length_dropLast]
      omega
    · split at read
      · cases read
        simp only [List.length_dropLast]
        omega
      · cases read
        exact le_refl _

private theorem decodeString_length {urlSafe padded : Bool} {raw decoded : Bytes}
    (read : decodeString urlSafe padded raw = some decoded) :
    4 * decoded.length ≤ 3 * raw.length := by
  simp only [decodeString, Option.bind_eq_bind, Option.bind_eq_some_iff] at read
  obtain ⟨digits, stripped, groups, mapped, last⟩ := read
  have filtered := List.length_filter_le (fun b => decide (b ≠ 10 ∧ b ≠ 13)) raw
  have fewer : digits.length ≤ raw.length := by
    unfold digitsOf at stripped
    split at stripped
    · exact (unpadded_length stripped).trans filtered
    · cases stripped
      exact filtered
  have read := bytes_length groups decoded last
  rw [mapM_length mapped] at read
  omega

theorem decodeFlexibleBase64_length {raw decoded : Bytes}
    (read : decodeFlexibleBase64 raw = some decoded) : 4 * decoded.length ≤ 3 * raw.length := by
  have trimmed := trimSpace_length raw
  obtain ⟨encoding, -, found⟩ := List.exists_of_findSome?_eq_some read
  have text := decodeString_length found
  omega

theorem decodeFlexibleBase64_nil : decodeFlexibleBase64 [] = some [] := by decide

def payload (raw : Bytes) : Bytes := (payloadParts raw).1

private theorem splitAt_append (mark : UInt8) (text : Bytes) :
    (splitAt mark text).1 ++ (splitAt mark text).2 = text := List.takeWhile_append_dropWhile

theorem link_eq_parts {raw : Bytes} (start : ssStart <+: raw) :
    raw = ssStart ++ payload raw ++ (payloadParts raw).2.1 ++ (payloadParts raw).2.2 := by
  obtain ⟨rest, rfl⟩ := start
  have trimmed : trimStart (ssStart ++ rest) = rest := by
    rw [trimStart, if_pos (List.isPrefixOf_iff_prefix.mpr (List.prefix_append _ _))]
    rfl
  simp only [payload, payloadParts, trimmed]
  rw [List.append_assoc, List.append_assoc, ← List.append_assoc (splitAt 63 _).1, splitAt_append,
    splitAt_append]

theorem decodedLink_eq (raw : Bytes) : decodedLink raw =
    (decodeFlexibleBase64 (payload raw)).map fun decoded =>
      ssStart ++ decoded ++ (payloadParts raw).2.1 ++ (payloadParts raw).2.2 := rfl

private theorem takeWhile_tail {p : UInt8 → Bool} (text : Bytes) {tail : Bytes}
    (stops : ∀ b ∈ tail.head?, p b = false) :
    ((text ++ tail).takeWhile p).length ≤ text.length := by
  have none : tail.takeWhile p = [] := by
    cases tail with
    | nil => rfl
    | cons b tail => exact List.takeWhile_cons_of_neg (by simp [stops b rfl])
  rw [List.takeWhile_append]
  split
  · rw [none, List.append_nil]
  · exact (List.takeWhile_sublist p).length_le

private theorem head_dropWhile (mark : UInt8) (text : Bytes) :
    ∀ b ∈ (text.dropWhile (· ≠ mark)).head?, b = mark := by
  intro b first
  have nonempty : text.dropWhile (· ≠ mark) ≠ [] := by
    intro empty
    rw [empty] at first
    cases first
  have stopped := List.head_dropWhile_not (· ≠ mark) nonempty
  rw [List.head?_eq_some_head nonempty] at first
  cases first
  simpa using stopped

private theorem payload_eq {rest : Bytes} :
    payload (ssStart ++ rest) = rest.takeWhile fun b => b ≠ 63 ∧ b ≠ 35 := by
  have trimmed : trimStart (ssStart ++ rest) = rest := by
    rw [trimStart, if_pos (List.isPrefixOf_iff_prefix.mpr (List.prefix_append _ _))]
    rfl
  simp only [payload, payloadParts, trimmed, splitAt]
  rw [List.takeWhile_takeWhile]
  simp only [decide_eq_true_eq]

theorem payload_decodedLink {raw link : Bytes} (decoded : decodedLink raw = some link) :
    ssStart <+: link ∧ 4 * (payload link).length ≤ 3 * (payload raw).length := by
  rw [decodedLink_eq] at decoded
  obtain ⟨text, read, rfl⟩ := Option.map_eq_some_iff.mp decoded
  rw [List.append_assoc, List.append_assoc]
  refine ⟨List.prefix_append _ _, ?_⟩
  rw [payload_eq]
  have shorter := decodeFlexibleBase64_length read
  have marks : ∀ b ∈ ((payloadParts raw).2.1 ++ (payloadParts raw).2.2).head?,
      decide (b ≠ 63 ∧ b ≠ 35) = false := by
    intro b first
    rw [List.head?_append] at first
    rcases Option.or_eq_some_iff.mp first with query | ⟨-, fragment⟩
    · rw [head_dropWhile 63 _ b query]
      rfl
    · rw [head_dropWhile 35 _ b fragment]
      rfl
  calc 4 * _ ≤ 4 * text.length := Nat.mul_le_mul_left 4 (takeWhile_tail text marks)
    _ ≤ 3 * (payload raw).length := shorter

theorem decodedLink_of_empty {raw : Bytes} (start : ssStart <+: raw) (empty : payload raw = []) :
    decodedLink raw = some raw := by
  have whole := link_eq_parts start
  rw [empty] at whole
  rw [decodedLink_eq, empty, decodeFlexibleBase64_nil, Option.map_some]
  exact congrArg some whole.symm

theorem decodedLink_length {raw link : Bytes} (start : ssStart <+: raw)
    (decoded : decodedLink raw = some link) : link.length < raw.length ↔ payload raw ≠ [] := by
  have whole := congrArg List.length (link_eq_parts start)
  rw [decodedLink_eq] at decoded
  obtain ⟨text, read, rfl⟩ := Option.map_eq_some_iff.mp decoded
  have shorter := decodeFlexibleBase64_length read
  simp only [List.length_append] at whole ⊢
  rw [ne_eq, ← List.length_eq_zero_iff]
  omega

section

variable {lib : Library} {raw link : Bytes}

def next (lib : Library) (raw : Bytes) : Option Bytes :=
  match lib.urlParse raw with
  | none => none
  | some parsed =>
    match if parsed.hostname = [] then none else parsed.user with
    | some _ => none
    | none => decodedLink raw

theorem parseShadowsocks_of_next (fuel : Nat) (found : next lib raw = some link) :
    parseShadowsocks lib (fuel + 1) raw = parseShadowsocks lib fuel link := by
  unfold next at found
  rw [parseShadowsocks]
  cases parsed : lib.urlParse raw with
  | none =>
    rw [parsed] at found
    cases found
  | some url =>
    rw [parsed] at found
    dsimp only at found ⊢
    cases user : (if url.hostname = [] then none else url.user) with
    | some present =>
      rw [user] at found
      cases found
    | none =>
      rw [user] at found
      dsimp only at found ⊢
      rw [found]

theorem parseShadowsocks_of_last (fuel : Nat) (last : next lib raw = none) :
    ∃ result, parseShadowsocks lib (fuel + 1) raw = some result := by
  unfold next at last
  rw [parseShadowsocks]
  cases parsed : lib.urlParse raw with
  | none => exact ⟨_, rfl⟩
  | some url =>
    rw [parsed] at last
    dsimp only at last ⊢
    cases user : (if url.hostname = [] then none else url.user) with
    | some present => exact ⟨_, rfl⟩
    | none =>
      rw [user] at last
      dsimp only at last ⊢
      rw [last]
      exact ⟨_, rfl⟩

theorem decodedLink_of_next (found : next lib raw = some link) : decodedLink raw = some link := by
  unfold next at found
  split at found
  · cases found
  · split at found
    · cases found
    · exact found

/-- A link that unwraps to a link without a payload, which has no host or no user either. -/
inductive Hollow (lib : Library) : Bytes → Prop
  | empty {raw : Bytes} (start : ssStart <+: raw) (empty : payload raw = [])
      (parsed : next lib raw ≠ none) : Hollow lib raw
  | wrapped {raw link : Bytes} (found : next lib raw = some link) (hollow : Hollow lib link) :
      Hollow lib raw

theorem parseShadowsocks_of_hollow (hollow : Hollow lib raw) (fuel : Nat) :
    parseShadowsocks lib fuel raw = none := by
  induction hollow generalizing fuel with
  | @empty raw start empty parsed =>
    obtain ⟨link, found⟩ := Option.ne_none_iff_exists'.mp parsed
    -- the link is followed by itself
    have same : link = raw := by
      have decoded := decodedLink_of_next found
      rw [decodedLink_of_empty start empty] at decoded
      exact (Option.some.inj decoded).symm
    subst same
    induction fuel with
    | zero => rfl
    | succ fuel ih => rw [parseShadowsocks_of_next fuel found, ih]
  | wrapped found hollow ih =>
    cases fuel with
    | zero => rfl
    | succ fuel => rw [parseShadowsocks_of_next fuel found, ih]

private theorem parseShadowsocks_of_solid (size : Nat) (start : ssStart <+: raw)
    (bound : (payload raw).length < size) (solid : ¬Hollow lib raw) :
    ∃ fuel result, parseShadowsocks lib fuel raw = some result := by
  induction size generalizing raw with
  | zero => exact absurd bound (Nat.not_lt_zero _)
  | succ size ih =>
    cases found : next lib raw with
    | none => exact ⟨1, parseShadowsocks_of_last 0 found⟩
    | some link =>
      have full : payload raw ≠ [] := fun empty =>
        solid (.empty start empty (by rw [found]; exact Option.some_ne_none link))
      obtain ⟨start', shorter⟩ := payload_decodedLink (decodedLink_of_next found)
      have positive := List.length_pos_of_ne_nil full
      obtain ⟨fuel, result, parsed⟩ :=
        ih start' (by omega) fun hollow => solid (.wrapped found hollow)
      exact ⟨fuel + 1, result, (parseShadowsocks_of_next fuel found).trans parsed⟩

theorem parseShadowsocks_ends_iff :
    (∃ fuel result, parseShadowsocks lib fuel raw = some result) ↔ ¬Hollow lib raw := by
  constructor
  · rintro ⟨fuel, result, parsed⟩ hollow
    rw [parseShadowsocks_of_hollow hollow] at parsed
    cases parsed
  · intro solid
    cases found : next lib raw with
    | none => exact ⟨1, parseShadowsocks_of_last 0 found⟩
    | some link =>
      obtain ⟨start, -⟩ := payload_decodedLink (decodedLink_of_next found)
      obtain ⟨fuel, result, parsed⟩ := parseShadowsocks_of_solid _ start (Nat.lt_succ_self _)
        fun hollow => solid (.wrapped found hollow)
      exact ⟨fuel + 1, result, (parseShadowsocks_of_next fuel found).trans parsed⟩

/-- The inputs that `parse` gives to the parser of Shadowsocks links. -/
structure IsShadowsocks (lib : Library) (raw : Bytes) : Prop where
  nonempty : trimSpace raw ≠ []
  short : (trimSpace raw).length ≤ 8192
  visible : hasBlank (trimSpace raw) = false
  other : vmessStart.isPrefixOf (lib.lower (trimSpace raw)) = false
  start : ssStart.isPrefixOf (lib.lower (trimSpace raw)) = true

private theorem parse_of_shadowsocks (shadowsocks : IsShadowsocks lib raw) (fuel : Nat) :
    parse lib fuel raw = parseShadowsocks lib fuel (trimSpace raw) := by
  obtain ⟨nonempty, short, visible, other, start⟩ := shadowsocks
  simp [parse, nonempty, short, visible, other, start]

private theorem parse_of_other (shadowsocks : ¬IsShadowsocks lib raw) (fuel : Nat) :
    ∃ result, parse lib fuel raw = some result := by
  unfold parse
  dsimp only
  split
  · exact ⟨_, rfl⟩
  next nonempty =>
    split
    · exact ⟨_, rfl⟩
    next short =>
      split
      · exact ⟨_, rfl⟩
      next visible =>
        split
        · exact ⟨_, rfl⟩
        next other =>
          split
          next start =>
            refine absurd ⟨nonempty, not_lt.mp short, ?_, ?_, start⟩ shadowsocks
            · exact Bool.eq_false_of_not_eq_true visible
            · exact Bool.eq_false_of_not_eq_true other
          next =>
            split
            · exact ⟨_, rfl⟩
            · split
              · exact ⟨_, rfl⟩
              · exact ⟨_, rfl⟩

/-- Parsing ends unless the link is a hollow Shadowsocks link, and what is decoded and parsed again
is shorter unless the payload is empty. -/
theorem parse_ends_iff (lib : Library) :
    (∀ raw, (∃ fuel result, parse lib fuel raw = some result) ↔
      ¬(IsShadowsocks lib raw ∧ Hollow lib (trimSpace raw))) ∧
    ∀ raw link, ssStart <+: raw → next lib raw = some link →
      (link.length < raw.length ↔ payload raw ≠ []) := by
  constructor
  · intro raw
    by_cases shadowsocks : IsShadowsocks lib raw
    · simp only [parse_of_shadowsocks shadowsocks, parseShadowsocks_ends_iff, shadowsocks,
        true_and]
    · have ends : ∃ fuel result, parse lib fuel raw = some result := ⟨0, parse_of_other shadowsocks 0⟩
      simp only [ends, shadowsocks, false_and, not_false_eq_true]
  · intro raw link start found
    exact decodedLink_length start (decodedLink_of_next found)

end

/-- The last part behind a mark, and what is in front of it. -/
def cutLast (mark : UInt8) (text : Bytes) : Option (Bytes × Bytes) :=
  (cut mark text.reverse).map fun parts => (parts.2.reverse, parts.1.reverse)

/-- `url.Parse` for links with an authority and without escapes and brackets. -/
def plainUrl (raw : Bytes) : Option Url := do
  let (text, fragment) := (cut 35 raw).getD (raw, [])
  let (text, query) := (cut 63 text).getD (text, [])
  let (scheme, rest) ← cut 58 text
  let plain := scheme ≠ [] && scheme.all (fun b => 97 ≤ b && b ≤ 122) &&
    [47, 47].isPrefixOf rest && raw.all fun b => 33 ≤ b && b ≤ 126 && b ∉ [37, 91, 93]
  if plain then
    let authority := (rest.drop 2).takeWhile (· ≠ 47)
    let (user, host) := (cutLast 64 authority).elim (none, authority) fun parts =>
      (some ((cut 58 parts.1).elim (parts.1, none) fun pair => (pair.1, some pair.2)), parts.2)
    let (hostname, port) := (cutLast 58 host).getD (host, [])
    if port.all fun b => 48 ≤ b && b ≤ 57 then
      some
        { scheme, user, hostname, port, fragment
          query := (query.splitOn 38).filterMap fun part => cut 61 part }
    else none
  else none

def plainLibrary : Library where
  urlParse := plainUrl
  lower text := text.map fun b => if 65 ≤ b ∧ b ≤ 90 then b + 32 else b
  cacheKey := id
  parseVMess _ := .error "VMess 分享链接编码无效"
  parseURLNode _ _ _ := .error "分享链接缺少认证信息"

/-- The link `ss://` is parsed for ever. -/
theorem parse_ss_never_ends :
    ¬∃ fuel result, parse plainLibrary fuel [115, 115, 58, 47, 47] = some result := by
  have shadowsocks : IsShadowsocks plainLibrary [115, 115, 58, 47, 47] := by
    constructor <;> decide +kernel
  have hollow : Hollow plainLibrary (trimSpace [115, 115, 58, 47, 47]) := by
    apply Hollow.empty
    · decide +kernel
    · decide +kernel
    · decide +kernel
  rintro ⟨fuel, result, parsed⟩
  rw [parse_of_shadowsocks shadowsocks, parseShadowsocks_of_hollow hollow] at parsed
  cases parsed

end ForestPanel.SubscribeLink
