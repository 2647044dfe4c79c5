import ForestPanel.Lib.Apart
import ForestPanel.Lib.Transition
import ForestPanel.Subscribe.Urls

/-!
# What a shown URL is worth

Each URL is made of a configured base, the subscribe path and a token; the token stands
for one user's token, whatever the method; and a one-time token is taken once.
-/
namespace ForestPanel.Subscribe

open Places Transition

def configuredURLs (cfg : Config) : List String :=
  let parts := (cfg.subscribeURL.toList.splitOn ',').map fun part => trimSpace (String.ofList part)
  (parts.filter (· ≠ "")).map trimRightSlash

def configuredBases (cfg : Config) : List String :=
  if configuredURLs cfg = [] then [trimRightSlash (trimSpace cfg.appURL)] else configuredURLs cfg

def Allowed (cfg : Config) : Prop := ∀ base ∈ configuredBases cfg, base ≠ ""

instance (cfg : Config) : Decidable (Allowed cfg) := by
  unfold Allowed
  infer_instance

def subscribePath (cfg : Config) : String :=
  normalizeSubscribePath (normalizeSubscribePath cfg.subscribePath)

def placed (cfg : Config) (clientToken : String) : String :=
  if cfg.subscribeTokenInPath then
    trimRightSlash (subscribePath cfg) ++ "/" ++ pathEscape clientToken
  else subscribePath cfg ++ "?token=" ++ queryEscape clientToken

def Composed (cfg : Config) (url clientToken : String) : Prop :=
  ∃ base ∈ configuredBases cfg, url = base ++ placed cfg clientToken

/-- The settings under which the admin's builder agrees with the user's. -/
def SingleURL (cfg : Config) : Prop :=
  ',' ∉ cfg.subscribeURL.toList ∧ trimSpace cfg.subscribeURL ≠ "" ∧
    normalizeSubscribePath cfg.subscribePath = subscribePath cfg

instance (cfg : Config) : Decidable (SingleURL cfg) := by
  unfold SingleURL
  infer_instance

theorem trimRightSlash_idem (s : String) :
    trimRightSlash (trimRightSlash s) = trimRightSlash s := by
  simp only [trimRightSlash, String.toList_ofList, List.rdropWhile_idempotent]

variable {cfg : Config}

theorem appendTokenToURL_eq {base path : String} (some : trimRightSlash base ≠ "")
    (same : normalizeSubscribePath path = subscribePath cfg) (clientToken : String) :
    appendTokenToURL base path clientToken cfg.subscribeTokenInPath =
      trimRightSlash base ++ placed cfg clientToken := by
  have nonempty : base ≠ "" := by
    rintro rfl
    exact some rfl
  unfold appendTokenToURL placed
  rw [same]
  dsimp only
  rw [if_neg nonempty, if_neg nonempty]
  split <;> simp only [String.append_assoc]

theorem trimRightSlash_configured {base : String} (member : base ∈ configuredBases cfg) :
    trimRightSlash base = base := by
  unfold configuredBases at member
  split at member
  · rw [List.mem_singleton.mp member, trimRightSlash_idem]
  · obtain ⟨part, -, rfl⟩ := List.mem_map.mp member
    exact trimRightSlash_idem part

theorem selected_configured (allowed : Allowed cfg) (pick : Nat) :
    trimRightSlash (if selectSubscribeBaseURL cfg.subscribeURL pick = "" then trimSpace cfg.appURL
      else selectSubscribeBaseURL cfg.subscribeURL pick) ∈ configuredBases cfg := by
  have selected : selectSubscribeBaseURL cfg.subscribeURL pick =
      ((configuredURLs cfg)[pick % (configuredURLs cfg).length]?).getD "" := rfl
  by_cases none : configuredURLs cfg = []
  · rw [selected, none, configuredBases, if_pos none]
    exact List.mem_singleton_self _
  · have inside : pick % (configuredURLs cfg).length < (configuredURLs cfg).length :=
      Nat.mod_lt _ (List.length_pos_iff.mpr none)
    have bases : configuredBases cfg = configuredURLs cfg := if_neg none
    have listed : selectSubscribeBaseURL cfg.subscribeURL pick ∈ configuredBases cfg := by
      rw [selected, bases, List.getElem?_eq_getElem inside]
      exact List.getElem_mem inside
    rw [if_neg (allowed _ listed), trimRightSlash_configured listed]
    exact listed

theorem userURL_composed (allowed : Allowed cfg) (pick : Nat) (clientToken : String) :
    Composed cfg (userURL cfg pick clientToken) clientToken :=
  have member := selected_configured allowed pick
  ⟨_, member, appendTokenToURL_eq (allowed _ member) rfl clientToken⟩

theorem configuredBases_single (noComma : ',' ∉ cfg.subscribeURL.toList)
    (nonblank : trimSpace cfg.subscribeURL ≠ "") :
    configuredBases cfg = [trimRightSlash (trimSpace cfg.subscribeURL)] := by
  have whole : cfg.subscribeURL.toList.splitOn ',' = [cfg.subscribeURL.toList] := by
    apply List.splitOnP_eq_singleton
    intro c member
    rw [beq_eq_false_iff_ne]
    rintro rfl
    exact noComma member
  have urls : configuredURLs cfg = [trimRightSlash (trimSpace cfg.subscribeURL)] := by
    simp [configuredURLs, whole, nonblank]
  rw [configuredBases, urls, if_neg (List.cons_ne_nil _ _)]

theorem normalizeSubscribePath_trimmed (path : String) :
    normalizeSubscribePath (if trimSpace path = "" then "/api/v1/client/subscribe"
      else trimSpace path) = normalizeSubscribePath path := by
  split
  next blank =>
    have standard : normalizeSubscribePath "/api/v1/client/subscribe" =
        "/api/v1/client/subscribe" := by decide
    rw [standard, normalizeSubscribePath]
    simp [blank]
  next => simp only [normalizeSubscribePath, trimSpace_trimSpace]

theorem adminURL_composed (allowed : Allowed cfg) (single : SingleURL cfg) (clientToken : String) :
    Composed cfg (adminURL cfg clientToken) clientToken := by
  obtain ⟨noComma, nonblank, path⟩ := single
  have member : trimRightSlash (trimSpace cfg.subscribeURL) ∈ configuredBases cfg := by
    rw [configuredBases_single noComma nonblank]
    exact List.mem_singleton_self _
  have same := (normalizeSubscribePath_trimmed cfg.subscribePath).trans path
  exact ⟨_, member, appendTokenToURL_eq (allowed _ member) same clientToken⟩

private theorem visible_of_between {c : Char} (low : 45 ≤ c.toNat) (high : c.toNat ≤ 122) :
    isSpace c = false := by
  simp [isSpace]
  omega

private theorem format_visible {n : Int} {c : Char} (member : c ∈ Decimal.format n) :
    isSpace c = false ∧ c ≠ ':' := by
  rcases Decimal.mem_format member with rfl | digit
  · decide
  · obtain ⟨low, high⟩ := Decimal.toNat_of_isDigit digit
    constructor
    · exact visible_of_between (by omega) (by omega)
    · rintro rfl
      exact absurd high (by decide)

theorem timedToken_plain (cfg : Config) (mac : Mac) (now userID : Int) (token : String) :
    trimSpace (timedToken cfg mac now userID token) = timedToken cfg mac now userID token := by
  apply trimSpace_of_visible
  intro c member
  rw [timedToken, String.toList_ofList] at member
  obtain ⟨low, high⟩ := Base64.mem_encode member
  exact visible_of_between (UInt32.le_iff_toNat_le.mp low) (UInt32.le_iff_toNat_le.mp high)

theorem readTimedToken_timedToken (cfg : Config) (mac : Mac) (now : Int) (token : String)
    {userID : Int} (positive : 0 < userID) (fits : Decimal.Fits userID) :
    readTimedToken (timedToken cfg mac now userID token) =
      some (userID, mac.sum token (counterBytes (counter cfg now))) := by
  generalize hashed : mac.sum token (counterBytes (counter cfg now)) = hash
  have some' : hash ≠ "" := hashed ▸ mac.nonempty _ _
  have whole : trimSpace hash = hash := by
    apply trimSpace_of_visible
    rw [← hashed]
    exact mac.visible _ _
  have number : trimSpace (String.ofList (Decimal.format userID)) =
      String.ofList (Decimal.format userID) := by
    apply trimSpace_of_visible
    intro c member
    rw [String.toList_ofList] at member
    exact (format_visible member).1
  have decoded : Base64.decode (timedToken cfg mac now userID token).toList =
      some (Decimal.format userID ++ ':' :: hash.toList) := by
    rw [timedToken, hashed, String.toList_ofList, Base64.decode_encode]
  have plain : ∀ c ∈ Decimal.format userID, decide (c ≠ ':') = true := fun c member =>
    decide_eq_true (format_visible member).2
  have rest : (Decimal.format userID ++ ':' :: hash.toList).dropWhile (· ≠ ':') =
      ':' :: hash.toList := by
    rw [List.dropWhile_append_of_pos plain]
    simp
  have first : (Decimal.format userID ++ ':' :: hash.toList).takeWhile (· ≠ ':') =
      Decimal.format userID := by
    rw [List.takeWhile_append_of_pos plain]
    simp
  unfold readTimedToken
  rw [timedToken_plain, decoded]
  dsimp only
  rw [rest, first, number, String.toList_ofList, Decimal.parse_format fits]
  dsimp only
  rw [String.ofList_toList, whole, if_pos ⟨positive, some'⟩]

theorem readTimedToken_empty : readTimedToken "" = none := by decide

end ForestPanel.Subscribe
