import ForestPanel.ServerNode.Keys

/-!
# Keys that belong together

Missing halves are filled in one by one from a pair that is drawn, so what is stored is a pair for
all draws exactly when a payload supplies both halves or none. The written configuration is read
back exactly for names of at most 255 bytes.
-/
namespace ForestPanel.ServerNode

open Frames Outcome

/-! ## Encodings -/

theorem rawURLEncoding_injective {first second : Bytes}
    (same : rawURLEncoding first = rawURLEncoding second) : first = second :=
  Base64.digits_injective (String.ofList_injective same)

def urlDigit (c : Char) : Char := if c = '+' then '-' else if c = '/' then '_' else c

theorem urlDigit_std {n : Nat} (small : n < 64) :
    urlDigit (stdDigit n) = Base64.digit n ∧ stdDigit n ≠ '=' := by
  have all : ∀ n : Fin 64, urlDigit (stdDigit n) = Base64.digit n ∧ stdDigit n ≠ '=' := by decide
  exact all ⟨n, small⟩

theorem stdEncoding_digits (bytes : Bytes) :
    ((stdEncoding bytes).toList.filter (· ≠ '=')).map urlDigit =
      (Base64.sextets bytes).map Base64.digit := by
  have digits : ((Base64.sextets bytes).map stdDigit).filter (· ≠ '=') =
      (Base64.sextets bytes).map stdDigit := by
    rw [List.filter_eq_self]
    intro c member
    obtain ⟨n, group, rfl⟩ := List.mem_map.mp member
    exact decide_eq_true (urlDigit_std (Base64.sextets_lt _ n group)).2
  have padding : ∀ n, (List.replicate n '=').filter (· ≠ '=') = [] := by
    intro n
    simp
  unfold stdEncoding
  dsimp only
  rw [String.toList_ofList, List.filter_append, digits, padding, List.append_nil, List.map_map]
  apply List.map_congr_left
  intro n group
  exact (urlDigit_std (Base64.sextets_lt _ n group)).1

theorem stdEncoding_injective {first second : Bytes}
    (same : stdEncoding first = stdEncoding second) : first = second := by
  apply Base64.digits_injective
  rw [← stdEncoding_digits, ← stdEncoding_digits, same]

section

variable {ω : Type} (lib : KeyLibrary ω)

/-! ## What is owed -/

def Supplied (settings : Settings ω) (field : String) : Prop :=
  nonEmptyString lib (settings field) = true

def Both (settings : Settings ω) (first second : String) : Prop :=
  Supplied lib settings first ∧ Supplied lib settings second

def Together (settings : Settings ω) (first second : String) : Prop :=
  Supplied lib settings first ↔ Supplied lib settings second

def Paired (publicField privateField : String) (settings : Settings ω) : Prop :=
  ∃ privateKey : Key, settings privateField = .text (rawURLEncoding privateKey) ∧
    settings publicField = .text (rawURLEncoding (lib.pub privateKey))

/-- The configuration is of the public key for the private key in the file. -/
def ECHPaired (settings : Settings ω) : Prop :=
  ∃ (privateKey : Key) (kept config : Bytes) (read : ECHConfig),
    settings "ech_key" = .text (stdEncoding (keyFile privateKey kept)) ∧
    settings "ech_config" = .text (stdEncoding config) ∧
    readECHConfig config = some read ∧ read.publicKey = lib.pub privateKey

def utf8 (text : String) : Bytes := text.toList.flatMap String.utf8EncodeChar

/-- The configuration reads as the name, the key that was drawn and the id. -/
def ECHNamed (drawn : Option Key) (settings : Settings ω) (name : String) : Prop :=
  ∃ (privateKey : Key) (config : Bytes) (read : ECHConfig), drawn = some privateKey ∧
    settings "ech_config" = .text (stdEncoding config) ∧ readECHConfig config = some read ∧
    read.publicName = utf8 name ∧ read.publicKey = lib.pub privateKey ∧ read.configID = 0

def Custom (settings : Settings ω) : Prop :=
  trimSpace (lib.sprint (settings "ech")) = "custom" ∧ outerName lib settings ≠ "" ∧
    outerName lib settings ≠ "<nil>"

/-- The fields of settings that may be absent. -/
def fieldsOf (settings : Option (Settings ω)) : Settings ω := settings.getD fun _ => .null

/-- Keys that are in use and were not supplied whole belong together, and a configuration that was
not supplied reads as it was meant. -/
structure KeysBelong (kind : Kind) (payload : Settings ω) (draws : Draws) (stored : Stored ω) :
    Prop where
  reality : tlsMode lib kind payload = .ok 2 →
    ∀ given, mapField lib payload "tls_settings" = .ok given →
      ¬Both lib (fieldsOf given) "public_key" "private_key" →
      Paired lib "public_key" "private_key" (fieldsOf stored.tlsSettings)
  mlkem : usesMLKEM lib payload = true →
    ∀ given, mapField lib payload "encryption_settings" = .ok given →
      ¬Both lib (fieldsOf given) "password" "private_key" →
      Paired lib "password" "private_key" (fieldsOf stored.encryptionSettings)
  ech : ∀ given, mapField lib payload "tls_settings" = .ok given → Custom lib (fieldsOf given) →
    ¬Both lib (fieldsOf given) "ech_key" "ech_config" →
    ECHPaired lib (fieldsOf stored.tlsSettings)
  echConfig : ∀ given, mapField lib payload "tls_settings" = .ok given →
    Custom lib (fieldsOf given) → ¬Supplied lib (fieldsOf given) "ech_config" →
    ECHNamed lib draws.ech (fieldsOf stored.tlsSettings) (outerName lib (fieldsOf given))

/-- Of each pair that is in use both halves are supplied, or none, and a configuration is only
written for a name of at most 255 bytes. -/
structure HalvesTogether (kind : Kind) (payload : Settings ω) : Prop where
  reality : tlsMode lib kind payload = .ok 2 →
    ∀ given, mapField lib payload "tls_settings" = .ok given →
      Together lib (fieldsOf given) "public_key" "private_key"
  mlkem : usesMLKEM lib payload = true →
    ∀ given, mapField lib payload "encryption_settings" = .ok given →
      Together lib (fieldsOf given) "password" "private_key"
  ech : ∀ given, mapField lib payload "tls_settings" = .ok given → Custom lib (fieldsOf given) →
    Together lib (fieldsOf given) "ech_key" "ech_config"
  name : ∀ given, mapField lib payload "tls_settings" = .ok given → Custom lib (fieldsOf given) →
    ¬Supplied lib (fieldsOf given) "ech_config" →
    (utf8 (outerName lib (fieldsOf given))).length < 256

end

/-! ## Filling in -/

section

variable {ω : Type} {lib : KeyLibrary ω} {settings : Settings ω} {key value field : String}

theorem put_other (other : field ≠ key) : put settings key value field = settings field :=
  Function.update_of_ne other _ _

@[simp] theorem put_same : put settings key value key = .text value := Function.update_self ..

theorem putMissing_other (other : field ≠ key) :
    putMissing lib settings key value field = settings field := by
  unfold putMissing
  split
  next => rfl
  next => exact put_other other

theorem putMissing_supplied (supplied : Supplied lib settings key) :
    putMissing lib settings key value = settings := if_pos supplied

theorem putMissing_missing (missing : ¬Supplied lib settings key) :
    putMissing lib settings key value key = .text value := by
  have written : putMissing lib settings key value = put settings key value := if_neg missing
  rw [written, put_same]

theorem supplied_putMissing_other (other : field ≠ key) :
    Supplied lib (putMissing lib settings key value) field ↔ Supplied lib settings field := by
  rw [Supplied, Supplied, putMissing_other other]

def fillBoth (lib : KeyLibrary ω) (settings : Settings ω) (first value second value' : String) :
    Settings ω :=
  putMissing lib (putMissing lib settings first value) second value'

variable {first second value' : String}

theorem fillBoth_other (apart : field ≠ first) (apart' : field ≠ second) :
    fillBoth lib settings first value second value' field = settings field := by
  rw [fillBoth, putMissing_other apart', putMissing_other apart]

theorem fillBoth_first (apart : first ≠ second) (missing : ¬Supplied lib settings first) :
    fillBoth lib settings first value second value' first = .text value := by
  rw [fillBoth, putMissing_other apart, putMissing_missing missing]

theorem fillBoth_first_supplied (apart : first ≠ second) (supplied : Supplied lib settings first) :
    fillBoth lib settings first value second value' first = settings first := by
  rw [fillBoth, putMissing_other apart, putMissing_supplied supplied]

theorem fillBoth_second (apart : second ≠ first) (missing : ¬Supplied lib settings second) :
    fillBoth lib settings first value second value' second = .text value' := by
  rw [fillBoth, putMissing_missing]
  rwa [supplied_putMissing_other apart]

theorem fillBoth_second_supplied (apart : second ≠ first)
    (supplied : Supplied lib settings second) :
    fillBoth lib settings first value second value' second = settings second := by
  rw [fillBoth, putMissing_supplied, putMissing_other apart]
  rwa [supplied_putMissing_other apart]

/-! ## Pairs -/

variable {publicField privateField : String} {drawn : Option Key} {filled : Settings ω}

theorem fillKeyPair_some (returned : fillKeyPair lib publicField privateField settings drawn =
      some filled) :
    (Both lib settings publicField privateField ∧ filled = settings) ∨
      ¬Both lib settings publicField privateField ∧ ∃ privateKey, drawn = some privateKey ∧
        filled = fillBoth lib settings publicField (rawURLEncoding (lib.pub privateKey))
          privateField (rawURLEncoding privateKey) := by
  unfold fillKeyPair at returned
  split at returned
  next both =>
    obtain rfl := Option.some.inj returned
    exact .inl ⟨both, rfl⟩
  next missing =>
    obtain ⟨privateKey, given, rfl⟩ := Option.map_eq_some_iff.mp returned
    exact .inr ⟨missing, privateKey, given, rfl⟩

theorem fillKeyPair_other (returned : fillKeyPair lib publicField privateField settings drawn =
      some filled) (apart : field ≠ publicField) (apart' : field ≠ privateField) :
    filled field = settings field := by
  rcases fillKeyPair_some returned with ⟨-, rfl⟩ | ⟨-, privateKey, -, rfl⟩
  · rfl
  · exact fillBoth_other apart apart'

theorem fillKeyPair_paired (apart : publicField ≠ privateField)
    (together : Together lib settings publicField privateField)
    (missing : ¬Both lib settings publicField privateField)
    (returned : fillKeyPair lib publicField privateField settings drawn = some filled) :
    Paired lib publicField privateField filled := by
  have neither : ¬Supplied lib settings publicField := fun supplied =>
    missing ⟨supplied, together.mp supplied⟩
  have neither' : ¬Supplied lib settings privateField := fun supplied =>
    neither (together.mpr supplied)
  rcases fillKeyPair_some returned with ⟨both, -⟩ | ⟨-, privateKey, -, rfl⟩
  · exact absurd both missing
  · exact ⟨privateKey, fillBoth_second apart.symm neither', fillBoth_first apart neither⟩

theorem together_of_paired (apart : publicField ≠ privateField)
    (paired : ∀ privateKey : Key, ¬Both lib settings publicField privateField →
      Paired lib publicField privateField
        (fillBoth lib settings publicField (rawURLEncoding (lib.pub privateKey)) privateField
          (rawURLEncoding privateKey))) :
    Together lib settings publicField privateField := by
  by_contra half
  have missing : ¬Both lib settings publicField privateField := fun both =>
    half ⟨fun _ => both.2, fun _ => both.1⟩
  obtain ⟨one, two, differs⟩ := lib.pub_differs
  apply differs
  obtain ⟨k, privateHalf, publicHalf⟩ := paired one missing
  obtain ⟨k', privateHalf', publicHalf'⟩ := paired two missing
  by_cases supplied : Supplied lib settings publicField
  · have absent : ¬Supplied lib settings privateField := fun other =>
      missing ⟨supplied, other⟩
    rw [fillBoth_second apart.symm absent] at privateHalf privateHalf'
    rw [fillBoth_first_supplied apart supplied] at publicHalf publicHalf'
    have same := rawURLEncoding_injective (Setting.text.inj privateHalf)
    have same' := rawURLEncoding_injective (Setting.text.inj privateHalf')
    have halves := rawURLEncoding_injective
      (Setting.text.inj (publicHalf.symm.trans publicHalf'))
    rw [Subtype.ext same, Subtype.ext same']
    exact Subtype.ext halves
  · have other : Supplied lib settings privateField := by
      by_contra absent
      exact half ⟨fun yes => absurd yes supplied, fun yes => absurd yes absent⟩
    rw [fillBoth_second_supplied apart.symm other] at privateHalf privateHalf'
    rw [fillBoth_first apart supplied] at publicHalf publicHalf'
    have same := rawURLEncoding_injective
      (Setting.text.inj (privateHalf.symm.trans privateHalf'))
    have half := rawURLEncoding_injective (Setting.text.inj publicHalf)
    have half' := rawURLEncoding_injective (Setting.text.inj publicHalf')
    rw [Subtype.ext half, Subtype.ext half', Subtype.ext same]

/-! ## The three helpers -/

variable {given secured completed : Option (Settings ω)}

theorem paired_congr {other : Settings ω} (same : other publicField = settings publicField)
    (same' : other privateField = settings privateField) :
    Paired lib publicField privateField other ↔ Paired lib publicField privateField settings := by
  unfold Paired
  rw [same, same']

theorem ensureReality_some {stored : Settings ω}
    (returned : ensureRealitySettings lib given drawn = some stored) :
    ∃ filled, fillKeyPair lib "public_key" "private_key" (fieldsOf given) drawn = some filled ∧
      ∀ field, field ≠ "short_id" → field ≠ "server_port" → stored field = filled field := by
  obtain ⟨filled, filling, rfl⟩ := Option.map_eq_some_iff.mp returned
  exact ⟨filled, filling, fun field apart apart' => fillBoth_other apart apart'⟩

def noTicket (lib : KeyLibrary ω) (settings : Settings ω) : Settings ω :=
  if lib.sprint (settings "rtt") = "1rtt" then put settings "ticket" "0s" else settings

def mlkemBase (lib : KeyLibrary ω) (given : Option (Settings ω)) (includeDefaults : Bool) :
    Settings ω :=
  noTicket lib (if includeDefaults = true then mlkemDefaults lib (fieldsOf given)
    else fieldsOf given)

theorem ensureMLKEM_eq (includeDefaults : Bool) :
    ensureMLKEMSettings lib given includeDefaults drawn =
      fillKeyPair lib "password" "private_key" (mlkemBase lib given includeDefaults) drawn := rfl

theorem mlkemDefaults_other (mode : field ≠ "mode") (rtt : field ≠ "rtt")
    (ticket : field ≠ "ticket") : mlkemDefaults lib settings field = settings field := by
  unfold mlkemDefaults
  split
  next => exact putMissing_other mode
  next => rw [put_other ticket, put_other rtt, putMissing_other mode]

theorem mlkemBase_other {includeDefaults : Bool} (mode : field ≠ "mode") (rtt : field ≠ "rtt")
    (ticket : field ≠ "ticket") :
    mlkemBase lib given includeDefaults field = fieldsOf given field := by
  have ticketed : ∀ settings : Settings ω, noTicket lib settings field = settings field := by
    intro settings
    unfold noTicket
    split
    next => exact put_other ticket
    next => rfl
  rw [mlkemBase, ticketed]
  split
  next => exact mlkemDefaults_other mode rtt ticket
  next => rfl

theorem normalizeECH_some (returned : normalizeECHSettings lib secured drawn = some completed) :
    (∃ privateKey config, Custom lib (fieldsOf secured) ∧
        ¬Both lib (fieldsOf secured) "ech_key" "ech_config" ∧ drawn = some privateKey ∧
        generateECHConfig (lib.pub privateKey) (utf8 (outerName lib (fieldsOf secured))) =
          some config ∧
        fieldsOf completed = fillBoth lib (fieldsOf secured) "ech_key"
          (stdEncoding (keyFile privateKey config)) "ech_config" (stdEncoding config)) ∨
      (Custom lib (fieldsOf secured) → Both lib (fieldsOf secured) "ech_key" "ech_config") ∧
        ∀ field, field ≠ "ech" → fieldsOf completed field = fieldsOf secured field := by
  cases secured with
  | none =>
    obtain rfl := Option.some.inj returned
    refine .inr ⟨fun custom => ?_, fun _ _ => rfl⟩
    exact absurd (show trimSpace "<nil>" = "custom" from custom.1) (by decide)
  | some settings =>
    simp only [normalizeECHSettings] at returned
    split at returned
    next plain =>
      obtain rfl := Option.some.inj returned
      refine .inr ⟨fun custom => ?_, fun _ _ => rfl⟩
      rw [show trimSpace (lib.sprint (settings "ech")) = "custom" from custom.1] at plain
      exact absurd plain (by decide)
    next =>
      split at returned
      next mode =>
        split at returned
        next unnamed =>
          obtain rfl := Option.some.inj returned
          refine .inr ⟨fun custom => ?_, fun field apart => put_other apart⟩
          exact absurd unnamed (not_or.mpr custom.2)
        next named =>
          split at returned
          next both =>
            obtain rfl := Option.some.inj returned
            exact .inr ⟨fun _ => both, fun _ _ => rfl⟩
          next missing =>
            obtain ⟨⟨echKey, echConfig⟩, material, rfl⟩ := Option.map_eq_some_iff.mp returned
            simp only [generateECHMaterial, Option.bind_eq_bind, Option.bind_eq_some_iff] at material
            obtain ⟨privateKey, drew, config, written, same⟩ := material
            obtain ⟨rfl, rfl⟩ := Prod.mk.inj (Option.some.inj same)
            exact .inl ⟨privateKey, config, ⟨mode, not_or.mp named⟩, missing, drew, written, rfl⟩
      next mode =>
        obtain rfl := Option.some.inj returned
        exact .inr ⟨fun custom => absurd custom.1 mode, fun field apart => put_other apart⟩

/-! ## What is stored -/

def securing (lib : KeyLibrary ω) (tls : Int) (given : Option (Settings ω)) (drawn : Option Key) :
    Option (Option (Settings ω)) :=
  if tls = 2 then (ensureRealitySettings lib given drawn).map some else some given

def encrypting (lib : KeyLibrary ω) (kind : Kind) (payload : Settings ω)
    (given : Option (Settings ω)) (drawn : Option Key) : Option (Option (Settings ω)) :=
  if usesMLKEM lib payload = true then
    (ensureMLKEMSettings lib given (kind = .v2node) drawn).map some
  else some given

variable {kind : Kind} {payload : Settings ω} {draws : Draws} {stored : Stored ω}

structure Parts (lib : KeyLibrary ω) (kind : Kind) (payload : Settings ω) (draws : Draws)
    (stored : Stored ω) (tls : Int) (given secured encryption : Option (Settings ω)) : Prop where
  mode : tlsMode lib kind payload = .ok tls
  network : ∃ network, requiredStringField lib payload "network" "传输协议不能为空" = .ok network
  tlsSettings : mapField lib payload "tls_settings" = .ok given
  securing : securing lib tls given draws.reality = some secured
  completed : normalizeECHSettings lib secured draws.ech = some stored.tlsSettings
  read : mapField lib payload "encryption_settings" = .ok encryption
  encrypted : encrypting lib kind payload encryption draws.mlkem = some stored.encryptionSettings
  others : lib.others kind payload = .ok ()

theorem normalizeServerKeys_ok :
    normalizeServerKeys lib kind payload draws = .ok stored ↔
      ∃ tls given secured encryption,
        Parts lib kind payload draws stored tls given secured encryption := by
  simp only [normalizeServerKeys, bind_eq_ok, require_eq_ok, mapError_eq_ok, pure_eq_ok]
  constructor
  · rintro ⟨tls, mode, network, named, given, read, secured, first, tlsSettings, second, encryption,
      read', encryptionSettings, third, done, fine, rfl⟩
    exact ⟨tls, given, secured, encryption, mode, ⟨network, named⟩, read, first, second, read', third,
      fine⟩
  · rintro ⟨tls, given, secured, encryption, parts⟩
    obtain ⟨network, named⟩ := parts.network
    exact ⟨tls, parts.mode, network, named, given, parts.tlsSettings, secured, parts.securing, _,
      parts.completed, encryption, parts.read, _, parts.encrypted, (), parts.others, rfl⟩

theorem securing_other {tls : Int} (returned : securing lib tls given drawn = some secured)
    (pub : field ≠ "public_key") (priv : field ≠ "private_key") (short : field ≠ "short_id")
    (port : field ≠ "server_port") : fieldsOf secured field = fieldsOf given field := by
  unfold securing at returned
  split at returned
  next =>
    obtain ⟨settings, ensured, rfl⟩ := Option.map_eq_some_iff.mp returned
    obtain ⟨filled, filling, same⟩ := ensureReality_some ensured
    exact (same field short port).trans (fillKeyPair_other filling pub priv)
  next =>
    obtain rfl := Option.some.inj returned
    rfl

theorem custom_congr {other : Settings ω} (mode : other "ech" = settings "ech")
    (name : other "ech_server_name" = settings "ech_server_name") :
    (Custom lib other ↔ Custom lib settings) ∧ outerName lib other = outerName lib settings := by
  unfold Custom outerName
  rw [mode, name]
  exact ⟨Iff.rfl, rfl⟩

theorem supplied_congr {other : Settings ω} (same : other field = settings field) :
    Supplied lib other field ↔ Supplied lib settings field := by
  rw [Supplied, same, Supplied]

/-- What the helper for configurations reads is what the payload gave. -/
structure SameECH (lib : KeyLibrary ω) (secured given : Settings ω) : Prop where
  custom : Custom lib secured ↔ Custom lib given
  name : outerName lib secured = outerName lib given
  key : secured "ech_key" = given "ech_key"
  config : secured "ech_config" = given "ech_config"

theorem sameECH_of_securing {tls : Int} (returned : securing lib tls given drawn = some secured) :
    SameECH lib (fieldsOf secured) (fieldsOf given) := by
  have kept := fun field pub priv short port =>
    @securing_other ω lib field drawn given secured tls returned pub priv short port
  have congr := @custom_congr ω lib (fieldsOf given) (fieldsOf secured)
    (kept "ech" (by decide) (by decide) (by decide) (by decide))
    (kept "ech_server_name" (by decide) (by decide) (by decide) (by decide))
  exact ⟨congr.1, congr.2, kept "ech_key" (by decide) (by decide) (by decide) (by decide),
    kept "ech_config" (by decide) (by decide) (by decide) (by decide)⟩

theorem SameECH.both {other : Settings ω} (same : SameECH lib other settings) :
    Both lib other "ech_key" "ech_config" ↔ Both lib settings "ech_key" "ech_config" :=
  and_congr (supplied_congr same.key) (supplied_congr same.config)

/-! ## Any draws -/

theorem generateECHConfig_length {publicKey other : Key} {name config : Bytes}
    (written : generateECHConfig publicKey name = some config) :
    ∃ config', generateECHConfig other name = some config' := by
  have size := length_echContents publicKey name
  have size' := length_echContents other name
  simp only [generateECHConfig] at written ⊢
  split at written
  next fits => exact ⟨_, if_pos (by omega)⟩
  next => cases written

theorem fillKeyPair_drawn (privateKey : Key) :
    ∃ filled, fillKeyPair lib publicField privateField settings (some privateKey) =
      some filled := by
  unfold fillKeyPair
  split
  next => exact ⟨_, rfl⟩
  next => exact ⟨_, rfl⟩

theorem securing_drawn (tls : Int) (given : Option (Settings ω)) (privateKey : Key) :
    ∃ secured, securing lib tls given (some privateKey) = some secured := by
  unfold securing
  split
  next =>
    obtain ⟨filled, filling⟩ := @fillKeyPair_drawn ω lib (fieldsOf given) "public_key"
      "private_key" privateKey
    unfold ensureRealitySettings
    rw [show (given.getD fun _ => .null) = fieldsOf given from rfl, filling]
    exact ⟨_, rfl⟩
  next => exact ⟨_, rfl⟩

theorem encrypting_drawn (given : Option (Settings ω)) (privateKey : Key) :
    ∃ encrypted, encrypting lib kind payload given (some privateKey) = some encrypted := by
  unfold encrypting
  split
  next =>
    obtain ⟨filled, filling⟩ := @fillKeyPair_drawn ω lib (mlkemBase lib given (kind = .v2node))
      "password" "private_key" privateKey
    rw [ensureMLKEM_eq, filling]
    exact ⟨_, rfl⟩
  next => exact ⟨_, rfl⟩

theorem normalizeECH_drawn {privateKey : Key}
    (written : Custom lib (fieldsOf secured) →
      ¬Both lib (fieldsOf secured) "ech_key" "ech_config" →
      ∃ config, generateECHConfig (lib.pub privateKey)
        (utf8 (outerName lib (fieldsOf secured))) = some config) :
    ∃ completed, normalizeECHSettings lib secured (some privateKey) = some completed := by
  cases secured with
  | none => exact ⟨_, rfl⟩
  | some settings =>
    simp only [normalizeECHSettings]
    split
    next => exact ⟨_, rfl⟩
    next =>
      split
      next mode =>
        split
        next => exact ⟨_, rfl⟩
        next named =>
          split
          next => exact ⟨_, rfl⟩
          next missing =>
            obtain ⟨config, generated⟩ := written ⟨mode, not_or.mp named⟩ missing
            simp only [generateECHMaterial, Option.bind_eq_bind, Option.bind_some]
            change generateECHConfig (lib.pub privateKey)
              (List.flatMap String.utf8EncodeChar (outerName lib settings).toList) = _ at generated
            rw [generated]
            exact ⟨_, rfl⟩
      next => exact ⟨_, rfl⟩

theorem accepted_drawn (accepted : normalizeServerKeys lib kind payload draws = .ok stored)
    (reality ech mlkem : Key) :
    ∃ stored', normalizeServerKeys lib kind payload ⟨some reality, some ech, some mlkem⟩ =
      .ok stored' := by
  obtain ⟨tls, given, secured, encryption, parts⟩ := normalizeServerKeys_ok.mp accepted
  obtain ⟨secured', securing'⟩ := @securing_drawn ω lib tls given reality
  obtain ⟨encrypted, encrypting'⟩ := @encrypting_drawn ω lib kind payload encryption mlkem
  have before := sameECH_of_securing parts.securing
  have after := sameECH_of_securing securing'
  obtain ⟨completed, completing⟩ := @normalizeECH_drawn ω lib secured' ech (by
    intro custom missing
    rw [after.custom, ← before.custom] at custom
    rw [after.both, ← before.both] at missing
    rw [after.name, ← before.name]
    rcases normalizeECH_some parts.completed with ⟨privateKey, config, -, -, -, written, -⟩ |
      ⟨whole, -⟩
    · exact generateECHConfig_length written
    · exact absurd (whole custom) missing)
  exact ⟨⟨completed, encrypted⟩, normalizeServerKeys_ok.mpr ⟨tls, given, secured', encryption,
    parts.mode, parts.network, parts.tlsSettings, securing', completing, parts.read, encrypting',
    parts.others⟩⟩

/-! ## Halves that are together -/

section

variable {tls : Int} {encryption : Option (Settings ω)}

theorem completed_pair (completed' : normalizeECHSettings lib secured drawn = some completed)
    (key : field ≠ "ech_key") (config : field ≠ "ech_config") (mode : field ≠ "ech") :
    fieldsOf completed field = fieldsOf secured field := by
  rcases normalizeECH_some completed' with ⟨privateKey, written, -, -, -, -, filled⟩ | ⟨-, same⟩
  · rw [filled]
    exact fillBoth_other key config
  · exact same field mode

theorem reality_belongs (parts : Parts lib kind payload draws stored tls given secured encryption)
    (mode : tls = 2) (together : Together lib (fieldsOf given) "public_key" "private_key")
    (missing : ¬Both lib (fieldsOf given) "public_key" "private_key") :
    Paired lib "public_key" "private_key" (fieldsOf stored.tlsSettings) := by
  have securing' := parts.securing
  rw [securing, if_pos mode] at securing'
  obtain ⟨settings, ensured, same⟩ := Option.map_eq_some_iff.mp securing'
  obtain ⟨filled, filling, kept⟩ := ensureReality_some ensured
  have pair := fillKeyPair_paired (by decide) together missing filling
  have stays := fun field key config mode =>
    @completed_pair ω lib field _ secured _ parts.completed key config mode
  subst same
  rw [paired_congr (stays "public_key" (by decide) (by decide) (by decide))
    (stays "private_key" (by decide) (by decide) (by decide))]
  exact (paired_congr (kept "public_key" (by decide) (by decide))
    (kept "private_key" (by decide) (by decide))).mpr pair

theorem mlkemBase_same {includeDefaults : Bool} :
    mlkemBase lib given includeDefaults "password" = fieldsOf given "password" ∧
      mlkemBase lib given includeDefaults "private_key" = fieldsOf given "private_key" :=
  ⟨mlkemBase_other (by decide) (by decide) (by decide),
    mlkemBase_other (by decide) (by decide) (by decide)⟩

theorem mlkem_belongs (parts : Parts lib kind payload draws stored tls given secured encryption)
    (uses : usesMLKEM lib payload = true)
    (together : Together lib (fieldsOf encryption) "password" "private_key")
    (missing : ¬Both lib (fieldsOf encryption) "password" "private_key") :
    Paired lib "password" "private_key" (fieldsOf stored.encryptionSettings) := by
  have encrypted := parts.encrypted
  rw [encrypting, if_pos uses] at encrypted
  obtain ⟨settings, ensured, same⟩ := Option.map_eq_some_iff.mp encrypted
  rw [ensureMLKEM_eq] at ensured
  obtain ⟨password, privateHalf⟩ := @mlkemBase_same ω lib encryption (kind = .v2node)
  rw [← same]
  apply fillKeyPair_paired (by decide) ?_ ?_ ensured
  · rw [Together, supplied_congr password, supplied_congr privateHalf]
    exact together
  · rw [Both, supplied_congr password, supplied_congr privateHalf]
    exact missing

theorem ech_belongs (parts : Parts lib kind payload draws stored tls given secured encryption)
    (custom : Custom lib (fieldsOf given))
    (short : ¬Supplied lib (fieldsOf given) "ech_config" →
      (utf8 (outerName lib (fieldsOf given))).length < 256)
    (together : Together lib (fieldsOf given) "ech_key" "ech_config")
    (missing : ¬Both lib (fieldsOf given) "ech_key" "ech_config") :
    ECHPaired lib (fieldsOf stored.tlsSettings) := by
  have same := sameECH_of_securing parts.securing
  have noConfig : ¬Supplied lib (fieldsOf given) "ech_config" := fun supplied =>
    missing ⟨together.mpr supplied, supplied⟩
  have noKey : ¬Supplied lib (fieldsOf given) "ech_key" := fun supplied =>
    noConfig (together.mp supplied)
  rw [← supplied_congr same.config] at noConfig
  rw [← supplied_congr same.key] at noKey
  rcases normalizeECH_some parts.completed with ⟨privateKey, config, -, -, -, written, filled⟩ |
    ⟨whole, -⟩
  · rw [same.name] at written
    have read := readECHConfig_written (short (by rwa [← supplied_congr same.config])) written
    rw [filled]
    exact ⟨privateKey, config, config, _, fillBoth_first (by decide) noKey,
      fillBoth_second (by decide) noConfig, read, rfl⟩
  · exact absurd (same.both.mp (whole (same.custom.mpr custom))) missing

theorem echConfig_belongs (parts : Parts lib kind payload draws stored tls given secured encryption)
    (custom : Custom lib (fieldsOf given))
    (short : (utf8 (outerName lib (fieldsOf given))).length < 256)
    (missing : ¬Supplied lib (fieldsOf given) "ech_config") :
    ECHNamed lib draws.ech (fieldsOf stored.tlsSettings) (outerName lib (fieldsOf given)) := by
  have same := sameECH_of_securing parts.securing
  rcases normalizeECH_some parts.completed with ⟨privateKey, config, -, -, drew, written, filled⟩ |
    ⟨whole, -⟩
  · rw [same.name] at written
    have read := readECHConfig_written short written
    have stays : ¬Supplied lib (fieldsOf secured) "ech_config" := by
      rwa [supplied_congr same.config]
    rw [filled]
    refine ⟨privateKey, config, writtenConfig (lib.pub privateKey)
      (utf8 (outerName lib (fieldsOf given))), drew, fillBoth_second (by decide) stays, read, ?_, ?_,
      ?_⟩
    · rfl
    · rfl
    · rfl
  · exact absurd (same.both.mp (whole (same.custom.mpr custom))).2 missing

theorem keysBelong_of_together (halves : HalvesTogether lib kind payload)
    (accepted : normalizeServerKeys lib kind payload draws = .ok stored) :
    KeysBelong lib kind payload draws stored := by
  obtain ⟨tls, given, secured, encryption, parts⟩ := normalizeServerKeys_ok.mp accepted
  have read : ∀ other, mapField lib payload "tls_settings" = .ok other → other = given :=
    fun other same => Except.ok.inj (same.symm.trans parts.tlsSettings)
  constructor
  case reality =>
    intro mode other same missing
    obtain rfl := read other same
    exact reality_belongs parts (Except.ok.inj (parts.mode.symm.trans mode))
      (halves.reality mode other same) missing
  case mlkem =>
    intro uses other same missing
    obtain rfl := Except.ok.inj (same.symm.trans parts.read)
    exact mlkem_belongs parts uses (halves.mlkem uses other same) missing
  case ech =>
    intro other same custom missing
    obtain rfl := read other same
    exact ech_belongs parts custom (halves.name other same custom) (halves.ech other same custom)
      missing
  case echConfig =>
    intro other same custom missing
    obtain rfl := read other same
    exact echConfig_belongs parts custom (halves.name other same custom missing) missing

/-! ## Halves that are apart -/

theorem together_of_reality (accepted : normalizeServerKeys lib kind payload draws = .ok stored)
    (belong : ∀ draws stored, normalizeServerKeys lib kind payload draws = .ok stored →
      KeysBelong lib kind payload draws stored)
    (mode : tlsMode lib kind payload = .ok 2)
    (read : mapField lib payload "tls_settings" = .ok given) :
    Together lib (fieldsOf given) "public_key" "private_key" := by
  apply together_of_paired (by decide)
  intro privateKey missing
  obtain ⟨stored', accepted'⟩ := accepted_drawn accepted privateKey privateKey privateKey
  have pair := (belong _ _ accepted').reality mode given read missing
  obtain ⟨tls, other, secured, encryption, parts⟩ := normalizeServerKeys_ok.mp accepted'
  obtain rfl := Except.ok.inj (read.symm.trans parts.tlsSettings)
  obtain rfl := Except.ok.inj (mode.symm.trans parts.mode)
  have securing' := parts.securing
  rw [securing, if_pos rfl] at securing'
  obtain ⟨settings, ensured, same⟩ := Option.map_eq_some_iff.mp securing'
  obtain ⟨filled, filling, kept⟩ := ensureReality_some ensured
  have stays := fun field key config mode =>
    @completed_pair ω lib field _ secured _ parts.completed key config mode
  rw [paired_congr (stays "public_key" (by decide) (by decide) (by decide))
    (stays "private_key" (by decide) (by decide) (by decide)), ← same] at pair
  have pair := (paired_congr (kept "public_key" (by decide) (by decide))
    (kept "private_key" (by decide) (by decide))).mp pair
  rcases fillKeyPair_some filling with ⟨both, -⟩ | ⟨-, drew, given', rfl⟩
  · exact absurd both missing
  · obtain rfl := Option.some.inj given'
    exact pair

theorem together_of_mlkem (accepted : normalizeServerKeys lib kind payload draws = .ok stored)
    (belong : ∀ draws stored, normalizeServerKeys lib kind payload draws = .ok stored →
      KeysBelong lib kind payload draws stored)
    (uses : usesMLKEM lib payload = true)
    (read : mapField lib payload "encryption_settings" = .ok given) :
    Together lib (fieldsOf given) "password" "private_key" := by
  obtain ⟨password, privateHalf⟩ := @mlkemBase_same ω lib given (kind = .v2node)
  rw [Together, ← supplied_congr password, ← supplied_congr privateHalf]
  apply together_of_paired (by decide)
  intro privateKey missing
  have absent := missing
  rw [Both, supplied_congr password, supplied_congr privateHalf] at absent
  obtain ⟨stored', accepted'⟩ := accepted_drawn accepted privateKey privateKey privateKey
  have pair := (belong _ _ accepted').mlkem uses given read absent
  obtain ⟨tls, other, secured, encryption, parts⟩ := normalizeServerKeys_ok.mp accepted'
  obtain rfl := Except.ok.inj (read.symm.trans parts.read)
  have encrypted := parts.encrypted
  rw [encrypting, if_pos uses] at encrypted
  obtain ⟨settings, ensured, same⟩ := Option.map_eq_some_iff.mp encrypted
  rw [ensureMLKEM_eq] at ensured
  rw [← same] at pair
  rcases fillKeyPair_some ensured with ⟨both, -⟩ | ⟨-, drew, given', rfl⟩
  · exact absurd both missing
  · obtain rfl := Option.some.inj given'
    exact pair

theorem drawn_ech (accepted : normalizeServerKeys lib kind payload draws = .ok stored)
    (belong : ∀ draws stored, normalizeServerKeys lib kind payload draws = .ok stored →
      KeysBelong lib kind payload draws stored)
    (read : mapField lib payload "tls_settings" = .ok given) (custom : Custom lib (fieldsOf given))
    (missing : ¬Both lib (fieldsOf given) "ech_key" "ech_config") (privateKey : Key) :
    ∃ (completed : Settings ω) (config : Bytes), ECHPaired lib completed ∧
      (¬Supplied lib (fieldsOf given) "ech_config" →
        ECHNamed lib (some privateKey) completed (outerName lib (fieldsOf given))) ∧
      (Supplied lib (fieldsOf given) "ech_key" →
        completed "ech_key" = fieldsOf given "ech_key") ∧
      (¬Supplied lib (fieldsOf given) "ech_key" →
        completed "ech_key" = .text (stdEncoding (keyFile privateKey config))) ∧
      (Supplied lib (fieldsOf given) "ech_config" →
        completed "ech_config" = fieldsOf given "ech_config") := by
  obtain ⟨stored', accepted'⟩ := accepted_drawn accepted privateKey privateKey privateKey
  have keys := belong _ _ accepted'
  obtain ⟨tls, other, secured, encryption, parts⟩ := normalizeServerKeys_ok.mp accepted'
  obtain rfl := Except.ok.inj (read.symm.trans parts.tlsSettings)
  have same := sameECH_of_securing parts.securing
  rcases normalizeECH_some parts.completed with ⟨drew, config, -, -, given', -, filled⟩ | ⟨whole, -⟩
  · obtain rfl := Option.some.inj given'
    refine ⟨fieldsOf stored'.tlsSettings, config, keys.ech given read custom missing,
      keys.echConfig given read custom, ?_, ?_, ?_⟩
    · intro supplied
      rw [filled, fillBoth_first_supplied (by decide) ((supplied_congr same.key).mpr supplied),
        same.key]
    · intro absent
      rw [filled, fillBoth_first (by decide) (by rwa [supplied_congr same.key])]
    · intro supplied
      rw [filled, fillBoth_second_supplied (by decide) ((supplied_congr same.config).mpr supplied),
        same.config]
  · exact absurd (same.both.mp (whole (same.custom.mpr custom))) missing

theorem together_of_ech (accepted : normalizeServerKeys lib kind payload draws = .ok stored)
    (belong : ∀ draws stored, normalizeServerKeys lib kind payload draws = .ok stored →
      KeysBelong lib kind payload draws stored)
    (read : mapField lib payload "tls_settings" = .ok given)
    (custom : Custom lib (fieldsOf given)) :
    Together lib (fieldsOf given) "ech_key" "ech_config" := by
  by_contra half
  have missing : ¬Both lib (fieldsOf given) "ech_key" "ech_config" := fun both =>
    half ⟨fun _ => both.2, fun _ => both.1⟩
  obtain ⟨one, two, differs⟩ := lib.pub_differs
  apply differs
  have drawn := drawn_ech accepted belong read custom missing
  obtain ⟨first, config, ⟨k, _, _, info, file, text, reads, key⟩, named, keyKept, keyDrawn,
    configKept⟩ := drawn one
  obtain ⟨second, config', ⟨k', _, _, info', file', text', reads', key'⟩, named', keyKept',
    keyDrawn', configKept'⟩ := drawn two
  by_cases supplied : Supplied lib (fieldsOf given) "ech_key"
  · -- The key is the one that was supplied; each configuration is of the key that was drawn.
    have absent : ¬Supplied lib (fieldsOf given) "ech_config" := fun other =>
      missing ⟨supplied, other⟩
    obtain ⟨_, _, _, drew, written, understood, -, fresh, -⟩ := named absent
    obtain ⟨_, _, _, drew', written', understood', -, fresh', -⟩ := named' absent
    obtain rfl := Option.some.inj drew
    obtain rfl := Option.some.inj drew'
    have files := (file.symm.trans (keyKept supplied)).trans ((keyKept' supplied).symm.trans file')
    have keys := keyFile_injective (stdEncoding_injective (Setting.text.inj files))
    obtain rfl := stdEncoding_injective (Setting.text.inj (text.symm.trans written))
    obtain rfl := stdEncoding_injective (Setting.text.inj (text'.symm.trans written'))
    obtain rfl := Option.some.inj (reads.symm.trans understood)
    obtain rfl := Option.some.inj (reads'.symm.trans understood')
    apply Subtype.ext
    rw [← fresh, ← fresh', key, key', keys]
  · -- The configuration is the one that was supplied, for each key that is drawn.
    have other : Supplied lib (fieldsOf given) "ech_config" := by
      by_contra absent
      exact half ⟨fun yes => absurd yes supplied, fun yes => absurd yes absent⟩
    have texts := (text.symm.trans (configKept other)).trans
      ((configKept' other).symm.trans text')
    obtain rfl := stdEncoding_injective (Setting.text.inj texts)
    obtain rfl := Option.some.inj (reads.symm.trans reads')
    obtain rfl := keyFile_injective (stdEncoding_injective
      (Setting.text.inj (file.symm.trans (keyDrawn supplied))))
    obtain rfl := keyFile_injective (stdEncoding_injective
      (Setting.text.inj (file'.symm.trans (keyDrawn' supplied))))
    apply Subtype.ext
    rw [← key, ← key']

theorem together_of_belong (accepted : normalizeServerKeys lib kind payload draws = .ok stored)
    (belong : ∀ draws stored, normalizeServerKeys lib kind payload draws = .ok stored →
      KeysBelong lib kind payload draws stored) :
    HalvesTogether lib kind payload := by
  constructor
  case reality => exact fun mode given read => together_of_reality accepted belong mode read
  case mlkem => exact fun uses given read => together_of_mlkem accepted belong uses read
  case ech => exact fun given read custom => together_of_ech accepted belong read custom
  case name =>
    intro given read custom missing
    obtain ⟨one, -⟩ := lib.pub_differs
    have half : ¬Both lib (fieldsOf given) "ech_key" "ech_config" := fun both => missing both.2
    obtain ⟨completed, config, -, named, -⟩ := drawn_ech accepted belong read custom half one
    obtain ⟨_, _, info, -, -, reads, name, -⟩ := named missing
    rw [← name]
    exact readECHConfig_name reads

end

/-- For every payload that is accepted, the keys that are stored belong together for all draws
exactly when the payload supplies both halves of each pair in use or none, and no configuration is
written for a name of more than 255 bytes. -/
theorem keys_belong_iff {ω : Type} (lib : KeyLibrary ω) (kind : Kind) (payload : Settings ω)
    (accepted : ∃ draws stored, normalizeServerKeys lib kind payload draws = .ok stored) :
    (∀ draws stored, normalizeServerKeys lib kind payload draws = .ok stored →
      KeysBelong lib kind payload draws stored) ↔ HalvesTogether lib kind payload := by
  obtain ⟨draws, stored, accepted⟩ := accepted
  constructor
  · exact together_of_belong accepted
  · exact fun halves draws stored => keysBelong_of_together halves

end

/-! Two private keys with their public keys, and the payload of a server with REALITY. -/

private def ones : Key := ⟨List.replicate 32 1, rfl⟩
private def twos : Key := ⟨List.replicate 32 2, rfl⟩

private def onesPublic : Key :=
  ⟨[164, 224, 146, 146, 182, 81, 194, 120, 185, 119, 44, 86, 159, 95, 169, 187, 19, 217, 6, 180,
    106, 182, 140, 157, 249, 220, 43, 68, 9, 248, 162, 9], rfl⟩

private def twosPublic : Key :=
  ⟨[206, 141, 58, 209, 204, 182, 51, 236, 123, 112, 193, 120, 20, 165, 199, 110, 205, 2, 150, 133,
    5, 13, 52, 71, 69, 186, 5, 135, 14, 88, 125, 89], rfl⟩

private def curve : KeyLibrary Int where
  showObject _ := "map[]"
  showOther := toString
  readText _ := none
  readObject _ := none
  readOther := some
  decode _ := none
  pub k := if k = ones then onesPublic else twosPublic
  pub_differs := ⟨ones, twos, by decide⟩
  sha1 text := if text = rawURLEncoding ones.1 then "b0254645db8c2f9fe4f71eb1b1eca06e567cd142"
    else "38624a6ead87eca73fe87b94cb337806bb685af2"
  others _ _ := .ok ()

private def givenFields (given : List (String × Setting Int)) : Settings Int := fun field =>
  (given.lookup field).getD .null

private def realityPayload (given : List (String × Setting Int)) : Settings Int :=
  givenFields [("tls", .other 2), ("network", .text "tcp"), ("tls_settings", .object (givenFields given))]

private theorem ok_of_isOk {α : Type} {result : Except String α} (accepted : result.isOk = true) :
    ∃ value, result = .ok value := by
  cases result with
  | error e => cases accepted
  | ok value => exact ⟨value, rfl⟩

private theorem reality_accepted (given : List (String × Setting Int))
    (accepted : (normalizeServerKeys curve .vless (realityPayload given)
      ⟨some ones, some ones, some ones⟩).isOk = true) :
    ∃ draws stored, normalizeServerKeys curve .vless (realityPayload given) draws = .ok stored :=
  ⟨_, ok_of_isOk accepted⟩

/-- Nothing was supplied. -/
theorem keys_belong_fresh :
    (∀ draws stored, normalizeServerKeys curve .vless (realityPayload []) draws = .ok stored →
      KeysBelong curve .vless (realityPayload []) draws stored) ↔
    HalvesTogether curve .vless (realityPayload []) :=
  keys_belong_iff curve .vless (realityPayload []) (reality_accepted [] (by decide +kernel))

/-- A private key was supplied, and is stored with the public key of another one. -/
theorem private_key_without_its_public_key :
    ¬∀ (lib : KeyLibrary Int) (kind : Kind) (payload : Settings Int) (draws : Draws)
      (stored : Stored Int), normalizeServerKeys lib kind payload draws = .ok stored →
      KeysBelong lib kind payload draws stored := by
  intro belong
  obtain ⟨draws, stored, accepted⟩ := reality_accepted
    [("private_key", .text (rawURLEncoding twos.1))] (by decide +kernel)
  have halves := (together_of_belong accepted (belong curve .vless _)).reality (by decide +kernel)
    (some (givenFields [("private_key", .text (rawURLEncoding twos.1))])) rfl
  exact absurd (halves.mpr (show nonEmptyString curve _ = true by decide +kernel))
    (show ¬nonEmptyString curve _ = true by decide +kernel)

end ForestPanel.ServerNode
