import ForestPanel.Lib.Base64
import ForestPanel.Lib.Outcome
import ForestPanel.ServerNode.ECHConfig
import ForestPanel.Store.Text

/-!
# The keys of a server

The part of `SaveManagedServer` that reads and completes key material: `normalizeVlessServer` and
`normalizeV2nodeServer` with the three helpers that fill in what is missing. The other columns only
matter where their checks refuse the payload.
-/
namespace ForestPanel.ServerNode

open Frames Outcome

/-- A value of a decoded payload; `ω` holds numbers, booleans and lists. -/
inductive Setting (ω : Type)
  | null
  | text (value : String)
  | object (fields : String → Setting ω)
  | other (value : ω)

/-- An absent field is null. -/
abbrev Settings (ω : Type) := String → Setting ω

inductive Kind
  | vless
  | v2node
deriving DecidableEq

/-- The code outside: how values are printed and read as numbers, JSON texts of objects, the curve,
a digest, and the checks of the other columns. -/
structure KeyLibrary (ω : Type) where
  /-- `fmt.Sprint` of an object, and of what is no text. -/
  showObject : Settings ω → String
  showOther : ω → String
  /-- The numbers that `anyToInt64Strict` reads. -/
  readText : String → Option Int
  readObject : Settings ω → Option Int
  readOther : ω → Option Int
  /-- `json.Unmarshal` into an object: an error, `null`, or its fields. -/
  decode : String → Option (Option (Settings ω))
  /-- X25519 with the base point. -/
  pub : Key → Key
  /-- Not all private keys have one public key. -/
  pub_differs : ∃ first second, pub first ≠ pub second
  /-- Hexadecimal SHA-1. -/
  sha1 : String → String
  others : Kind → Settings ω → Except String Unit

/-- The private keys that are drawn; none where the source of randomness fails. -/
structure Draws where
  reality : Option Key
  ech : Option Key
  mlkem : Option Key

structure Stored (ω : Type) where
  tlsSettings : Option (Settings ω)
  encryptionSettings : Option (Settings ω)

def rawURLEncoding (bytes : Bytes) : String :=
  String.ofList ((Base64.sextets bytes).map Base64.digit)

/-- The digit of the alphabet that is not for URLs. -/
def stdDigit (n : Nat) : Char :=
  if n = 62 then '+' else if n = 63 then '/' else Base64.digit n

def stdEncoding (bytes : Bytes) : String :=
  let digits := (Base64.sextets bytes).map stdDigit
  String.ofList (digits ++ List.replicate ((4 - digits.length % 4) % 4) '=')

section

variable {ω : Type} (lib : KeyLibrary ω)

def KeyLibrary.sprint : Setting ω → String
  | .null => "<nil>"
  | .text value => value
  | .object fields => lib.showObject fields
  | .other value => lib.showOther value

/-- `strings.EqualFold(raw, "null")` -/
def isNullText (raw : String) : Bool := raw.toLower = "null"

def nonEmptyString (value : Setting ω) : Bool :=
  let raw := trimSpace (lib.sprint value)
  match value with
  | .null => false
  | _ => raw ≠ "" && raw ≠ "<nil>" && !isNullText raw

def mapField (payload : Settings ω) (key : String) : Except String (Option (Settings ω)) :=
  match payload key with
  | .null => .ok none
  | .object fields => .ok (some fields)
  | .text value =>
    let trimmed := trimSpace value
    if trimmed = "" ∨ isNullText trimmed = true then .ok none
    else require (lib.decode trimmed) "invalid"
  | .other _ => .error "invalid"

def requiredStringField (payload : Settings ω) (key message : String) : Except String String :=
  let raw := trimSpace (lib.sprint (payload key))
  match payload key with
  | .null => .error message
  | _ => if raw = "" ∨ isNullText raw = true then .error message else .ok raw

def anyToInt64Strict : Setting ω → Option Int
  | .null => none
  | .text value => lib.readText value
  | .object fields => lib.readObject fields
  | .other value => lib.readOther value

def requiredAllowedIntField (payload : Settings ω) (key : String) (allowed : List Int)
    (required format : String) : Except String Int := do
  ensure (trimSpace (lib.sprint (payload key)) ≠ "" ∧
    (match payload key with | .null => false | _ => true) = true) required
  let value ← require (anyToInt64Strict lib (payload key)) format
  ensure (allowed.contains value = true) format
  return value

/-- The text of an optional field; `none` where it is absent or null. -/
def optionalNullableStringField (payload : Settings ω) (key : String) : Option String :=
  let raw := trimSpace (lib.sprint (payload key))
  match payload key with
  | .null => none
  | _ => if raw = "" ∨ isNullText raw = true then none else some raw

def put (settings : Settings ω) (key value : String) : Settings ω :=
  Function.update settings key (.text value)

def putMissing (settings : Settings ω) (key value : String) : Settings ω :=
  if nonEmptyString lib (settings key) = true then settings else put settings key value

/-- The halves of a key pair that are missing, from `generateURLSafeKeyPair`. -/
def fillKeyPair (publicField privateField : String) (settings : Settings ω) (drawn : Option Key) :
    Option (Settings ω) :=
  if nonEmptyString lib (settings publicField) = true ∧
      nonEmptyString lib (settings privateField) = true then some settings
  else drawn.map fun privateKey =>
    putMissing lib (putMissing lib settings publicField (rawURLEncoding (lib.pub privateKey)))
      privateField (rawURLEncoding privateKey)

def ensureRealitySettings (settings : Option (Settings ω)) (drawn : Option Key) :
    Option (Settings ω) :=
  (fillKeyPair lib "public_key" "private_key" (settings.getD fun _ => .null) drawn).map
    fun settings =>
      let sum := lib.sha1 (lib.sprint (settings "private_key"))
      putMissing lib (putMissing lib settings "short_id" (String.ofList (sum.toList.take 8)))
        "server_port" "443"

def mlkemDefaults (settings : Settings ω) : Settings ω :=
  let settings := putMissing lib settings "mode" "native"
  if nonEmptyString lib (settings "rtt") = true then settings
  else put (put settings "rtt" "0rtt") "ticket" "600s"

def ensureMLKEMSettings (settings : Option (Settings ω)) (includeDefaults : Bool)
    (drawn : Option Key) : Option (Settings ω) :=
  let settings := settings.getD fun _ => .null
  let settings := if includeDefaults = true then mlkemDefaults lib settings else settings
  let settings :=
    if lib.sprint (settings "rtt") = "1rtt" then put settings "ticket" "0s" else settings
  fillKeyPair lib "password" "private_key" settings drawn

/-- The key file and the configuration for a private key that is drawn. -/
def generateECHMaterial (publicName : String) (drawn : Option Key) : Option (String × String) := do
  let privateKey ← drawn
  let config ← generateECHConfig (lib.pub privateKey) (publicName.toList.flatMap
    String.utf8EncodeChar)
  return (stdEncoding (keyFile privateKey config), stdEncoding config)

def outerName (settings : Settings ω) : String := trimSpace (lib.sprint (settings "ech_server_name"))

def normalizeECHSettings (settings : Option (Settings ω)) (drawn : Option Key) :
    Option (Option (Settings ω)) :=
  match settings with
  | none => some none
  | some settings =>
    let mode := trimSpace (lib.sprint (settings "ech"))
    if mode = "" ∨ mode = "<nil>" ∨ mode = "cloudflare" then some (some settings)
    else if mode = "custom" then
      if outerName lib settings = "" ∨ outerName lib settings = "<nil>" then
        some (some (put settings "ech" ""))
      else if nonEmptyString lib (settings "ech_key") = true ∧
          nonEmptyString lib (settings "ech_config") = true then some (some settings)
      else (generateECHMaterial lib (outerName lib settings) drawn).map fun (echKey, echConfig) =>
        some (putMissing lib (putMissing lib settings "ech_key" echKey) "ech_config" echConfig)
    else some (some (put settings "ech" ""))

/-- The protocols of a node that always run over TLS. -/
def tlsMode (kind : Kind) (payload : Settings ω) : Except String Int := do
  let protocol ←
    if kind = .v2node then requiredStringField lib payload "protocol" "协议不能为空" else .ok ""
  let tls ← requiredAllowedIntField lib payload "tls" [0, 1, 2] "TLS不能为空" "TLS格式不正确"
  return if kind = .v2node ∧ ["anytls", "hysteria2", "trojan", "tuic"].contains protocol = true
    then 1 else tls

def usesMLKEM (payload : Settings ω) : Bool :=
  optionalNullableStringField lib payload "encryption" = some "mlkem768x25519plus"

/-- The settings with keys that a payload stores. -/
def normalizeServerKeys (kind : Kind) (payload : Settings ω) (draws : Draws) :
    Except String (Stored ω) := do
  let tls ← tlsMode lib kind payload
  let _ ← requiredStringField lib payload "network" "传输协议不能为空"
  let given ← (mapField lib payload "tls_settings").mapError fun _ => "tls配置有误"
  let secured ← require
    (if tls = 2 then (ensureRealitySettings lib given draws.reality).map some else some given)
    "保存失败"
  let tlsSettings ← require (normalizeECHSettings lib secured draws.ech) "保存失败"
  let encryption ← (mapField lib payload "encryption_settings").mapError fun _ => "保存失败"
  let encryptionSettings ← require
    (if usesMLKEM lib payload = true then
      (ensureMLKEMSettings lib encryption (kind = .v2node) draws.mlkem).map some
    else some encryption) "保存失败"
  lib.others kind payload
  return ⟨tlsSettings, encryptionSettings⟩

end

end ForestPanel.ServerNode
