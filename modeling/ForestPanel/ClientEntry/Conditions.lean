import ForestPanel.Lib.Json
import ForestPanel.Lib.Outcome
import ForestPanel.Store.Text
import Mathlib.Data.List.Infix

/-!
# Conditions of client-entry rules

The conditions of a rule as the API and the database carry them: raw JSON values in
a record. `NormalizeConditions` brings them into one form, `EncodeConditions` writes
them, `DecodeConditions` reads them, and `MatchAll` applies them to a subject.

An absent `json.RawMessage` is the empty text; `Values` may be absent or empty.
-/
namespace ForestPanel.ClientEntry

open Outcome

/-- What the conditions use of the standard library: `unicode.ToLower`, and the address
that `mail.ParseAddress` finds. -/
structure StandardLibrary where
  toLower : Char → Char
  toLower_toLower : ∀ c, toLower (toLower c) = toLower c
  toLower_ascii : ∀ c, c.toNat < 128 → toLower c = c.toLower
  toLower_isSpace : ∀ c, isSpace c = false → isSpace (toLower c) = false
  parseAddress : String → Option String

/-- `strings.ToLower`. -/
def StandardLibrary.lower (lib : StandardLibrary) (s : String) : String :=
  String.ofList (s.toList.map lib.toLower)

structure Condition where
  field : String
  operator : String
  value : String
  values : Option (List String)
  min : String
  max : String
deriving Repr, DecidableEq

structure Subject where
  userID : Int
  email : String
  registrationDays : Int
  planID : Int
  ua : String
deriving Repr, DecidableEq

def rawNumber (value : Int) : String := String.ofList (Decimal.format value)

/-- `json.Marshal` of a string. -/
def rawQuoted (value : String) : String := String.ofList (Json.quote value.toList)

/-- A `json.Number` with the value of the text: a number, or a string that is one. -/
def jsonNumber (raw : String) : Option (List Char) :=
  match Json.decode raw with
  | some (.num literal) => some literal
  | some (.str s) => if Json.number s = some [] then some s else none
  | _ => none

def rawInt64 (raw : String) : Option Int :=
  let raw := trimSpace raw
  if raw = "" ∨ raw = "null" then none
  else
    match (jsonNumber raw).bind Decimal.parse with
    | some value => some value
    | none =>
      match Json.unmarshal raw with
      | some (.str text) => Decimal.parse (trimSpace (String.ofList text)).toList
      | _ => none

def rawString (raw : String) : Option String :=
  let raw := trimSpace raw
  if raw = "" ∨ raw = "null" then none
  else
    match Json.unmarshal raw with
    | some (.str value) => some (String.ofList value)
    | _ => none

def normalizeOperator (lib : StandardLibrary) (value : String) : String :=
  let value := lib.lower (trimSpace value)
  if value = "is_empty" then "empty" else if value = "is_not_empty" then "not_empty" else value

def validateNumericValue (field : String) (value : Int) : Except String Unit := do
  ensure (0 ≤ value) "数值不能小于 0"
  ensure (field = "user_id" → 0 < value) "用户 ID 必须大于 0"

/-- The loops over `Values`: each raw value gives a key and the text that is kept, and a
key that was seen is skipped. -/
def distinctValues {κ : Type} [DecidableEq κ] (item : String → Except String (κ × String)) :
    List κ → List String → Except String (List String)
  | _, [] => .ok []
  | seen, raw :: rest => do
    let (key, kept) ← item raw
    if key ∈ seen then distinctValues item seen rest
    else do
      let kepts ← distinctValues item (key :: seen) rest
      pure (kept :: kepts)

def numericItem (field raw : String) : Except String (Int × String) := do
  let number ← require (rawInt64 raw) "values 必须是整数数组"
  validateNumericValue field number
  pure (number, rawNumber number)

def emailItem (lib : StandardLibrary) (raw : String) : Except String (String × String) := do
  let email ← require (rawString raw) "values 必须是邮箱字符串数组"
  let email := lib.lower (trimSpace email)
  ensure (lib.parseAddress email = some email ∧ '@' ∈ email.toList) "values 包含无效邮箱"
  pure (email, rawQuoted email)

def uaItem (lib : StandardLibrary) (raw : String) : Except String (String × String) := do
  let keyword ← require (rawString raw) "values 必须是非空字符串数组"
  let keyword := trimSpace keyword
  ensure (keyword ≠ "") "values 必须是非空字符串数组"
  pure (lib.lower keyword, rawQuoted keyword)

def normalizeEmailCondition (lib : StandardLibrary) (c : Condition) :
    Except String Condition := do
  ensure (c.operator = "in") "邮箱仅支持指定邮箱匹配"
  let values ← distinctValues (emailItem lib) [] (c.values.getD [])
  pure { c with value := "", values := some values, min := "", max := "" }

def normalizeNumericCondition (c : Condition) : Except String Condition :=
  if c.operator ∈ ["eq", "gte", "lte", "gt", "lt"] then do
    let number ← require (rawInt64 c.value) "value 必须是整数"
    validateNumericValue c.field number
    pure { c with value := rawNumber number, values := none, min := "", max := "" }
  else if c.operator = "in" then do
    ensure (c.values.getD [] ≠ []) "values 不能为空"
    let values ← distinctValues (numericItem c.field) [] (c.values.getD [])
    pure { c with value := "", values := some values, min := "", max := "" }
  else if c.operator = "between" then do
    let minimum ← require (rawInt64 c.min) "min 必须是整数"
    let maximum ← require (rawInt64 c.max) "max 必须是整数"
    validateNumericValue c.field minimum
    validateNumericValue c.field maximum
    ensure (minimum ≤ maximum) "min 不能大于 max"
    pure { c with value := "", values := none, min := rawNumber minimum, max := rawNumber maximum }
  else .error "不支持的操作符"

def normalizeUACondition (lib : StandardLibrary) (c : Condition) : Except String Condition :=
  if c.operator ∈ ["contains_any", "excludes_any"] then do
    ensure (c.values.getD [] ≠ []) "values 不能为空"
    let values ← distinctValues (uaItem lib) [] (c.values.getD [])
    pure { c with value := "", values := some values, min := "", max := "" }
  else if c.operator ∈ ["empty", "not_empty"] then
    .ok { c with value := "", values := none, min := "", max := "" }
  else .error "不支持的操作符"

def normalizeCondition (lib : StandardLibrary) (c : Condition) : Except String Condition :=
  let c := { c with
    field := lib.lower (trimSpace c.field)
    operator := normalizeOperator lib c.operator }
  if c.field ∈ ["user_id", "registration_days", "plan_id"] then normalizeNumericCondition c
  else if c.field = "email" then normalizeEmailCondition lib c
  else if c.field = "ua" then normalizeUACondition lib c
  else .error "不支持的字段"

/-- The loop of `NormalizeConditions` from the condition number `index` on. -/
def normalizeFrom (lib : StandardLibrary) (index : Nat) :
    List Condition → Except String (List Condition)
  | [] => .ok []
  | c :: rest => do
    let normalized ← (normalizeCondition lib c).mapError fun text =>
      "第 " ++ toString (index + 1) ++ " 个匹配条件无效：" ++ text
    let others ← normalizeFrom lib (index + 1) rest
    pure (normalized :: others)

def normalizeConditions (lib : StandardLibrary) (values : List Condition) :
    Except String (List Condition) := normalizeFrom lib 0 values

/-- A `json.RawMessage` in an encoded value: `null` when absent, and compacted. -/
def marshalRaw (raw : String) : Option (List Char) :=
  if raw = "" then some "null".toList
  else if (Json.unmarshal raw).isSome then some (Json.compact false raw.toList) else none

/-- A field with `omitempty`. -/
def omitEmpty (key raw : String) : Option (List (List Char × List Char)) :=
  if raw = "" then some [] else (marshalRaw raw).map fun text => [(key.toList, text)]

/-- The method `MarshalJSON`: an empty email list is written, any other empty list is not. -/
def marshalCondition (c : Condition) : Option (List Char) := do
  let value ← omitEmpty "value" c.value
  let min ← omitEmpty "min" c.min
  let max ← omitEmpty "max" c.max
  let values ← (c.values.getD []).mapM marshalRaw
  let head := [("field".toList, Json.quote c.field.toList),
    ("operator".toList, Json.quote c.operator.toList)] ++ value
  if values ≠ [] then
    some (Json.object (head ++ [("values".toList, Json.array values)] ++ min ++ max))
  else if c.field = "email" ∧ c.operator = "in" then
    some (Json.object (head ++ min ++ max ++ [("values".toList, Json.array [])]))
  else some (Json.object (head ++ min ++ max))

def encodeConditions (lib : StandardLibrary) (values : List Condition) : Except String String := do
  let normalized ← normalizeConditions lib values
  let raws ← require (normalized.mapM marshalCondition) "编码匹配条件失败"
  pure (String.ofList (Json.array raws))

/-- The letter that stands for all letters equal to it under `bytes.EqualFold`; only the
Kelvin sign and the long s fold to letters of the field names. -/
def foldChar (c : Char) : Char :=
  if c.toNat = 0x212A then 'K' else if c.toNat = 0x17F then 'S' else c.toUpper

def fieldNames : List String := ["field", "operator", "value", "values", "min", "max"]

/-- The field that a key is decoded into. -/
def fieldOf (key : List Char) : Option String :=
  match fieldNames.find? fun name => name.toList = key with
  | some name => some name
  | none => fieldNames.find? fun name => name.toList.map foldChar = key.map foldChar

/-- A string in an encoded value; `null` leaves what is there. -/
def setString (raw : List Char) (old : String) : Option String :=
  match Json.decode (String.ofList raw) with
  | some .null => some old
  | some (.str s) => some (String.ofList s)
  | _ => none

def setValues (raw : List Char) : Option (Option (List String)) :=
  match Json.decode (String.ofList raw) with
  | some .null => some none
  | some (.arr raws) => some (some (raws.map String.ofList))
  | _ => none

def setMember (c : Condition) (member : List Char × List Char) : Option Condition :=
  match fieldOf member.1 with
  | some "field" => (setString member.2 c.field).map fun field => { c with field }
  | some "operator" => (setString member.2 c.operator).map fun operator => { c with operator }
  | some "value" => some { c with value := String.ofList member.2 }
  | some "values" => (setValues member.2).map fun values => { c with values }
  | some "min" => some { c with min := String.ofList member.2 }
  | some "max" => some { c with max := String.ofList member.2 }
  | _ => some c

def emptyCondition : Condition := ⟨"", "", "", none, "", ""⟩

def unmarshalCondition (raw : List Char) : Option Condition :=
  match Json.decode (String.ofList raw) with
  | some .null => some emptyCondition
  | some (.obj members) => members.foldlM setMember emptyCondition
  | _ => none

def unmarshalConditions (raw : String) : Option (List Condition) :=
  match Json.decode raw with
  | some .null => some []
  | some (.arr raws) => raws.mapM unmarshalCondition
  | _ => none

def decodeConditions (lib : StandardLibrary) (raw : String) : Except String (List Condition) := do
  let raw := if trimSpace raw = "" then "[]" else trimSpace raw
  let values ← require (unmarshalConditions raw) "解析匹配条件失败"
  normalizeConditions lib values

def contains (text part : String) : Bool := part.toList <:+: text.toList

def matchNumeric (c : Condition) (actual : Int) : Bool :=
  let holds (raw : String) (test : Int → Bool) := (rawInt64 raw).any test
  match c.operator with
  | "eq" => holds c.value fun expected => actual = expected
  | "gte" => holds c.value fun expected => expected ≤ actual
  | "lte" => holds c.value fun expected => actual ≤ expected
  | "gt" => holds c.value fun expected => expected < actual
  | "lt" => holds c.value fun expected => actual < expected
  | "in" => (c.values.getD []).any fun raw => holds raw fun expected => actual = expected
  | "between" => holds c.min (fun minimum => minimum ≤ actual) &&
      holds c.max fun maximum => actual ≤ maximum
  | _ => false

def matchEmail (lib : StandardLibrary) (c : Condition) (actual : String) : Bool :=
  let actual := lib.lower (trimSpace actual)
  if actual = "" ∨ c.operator ≠ "in" then false
  else (c.values.getD []).any fun raw =>
    (rawString raw).any fun expected => actual = lib.lower (trimSpace expected)

def matchUA (lib : StandardLibrary) (c : Condition) (ua : String) : Bool :=
  let ua := trimSpace ua
  let found := (c.values.getD []).any fun raw =>
    (rawString raw).any fun keyword => contains (lib.lower ua) (lib.lower keyword)
  match c.operator with
  | "empty" => ua = ""
  | "not_empty" => ua ≠ ""
  | "contains_any" => found
  | "excludes_any" => !found
  | _ => false

def matchCondition (lib : StandardLibrary) (c : Condition) (subject : Subject) : Bool :=
  match c.field with
  | "user_id" => matchNumeric c subject.userID
  | "email" => matchEmail lib c subject.email
  | "registration_days" => 0 ≤ subject.registrationDays && matchNumeric c subject.registrationDays
  | "plan_id" => matchNumeric c subject.planID
  | "ua" => matchUA lib c subject.ua
  | _ => false

def matchAll (lib : StandardLibrary) (values : List Condition) (subject : Subject) : Bool :=
  values.all fun c => matchCondition lib c subject

end ForestPanel.ClientEntry
