import ForestPanel.Lib.JsonValue
import ForestPanel.Store.Text

/-!
# The request of a panel operation

`Execute` sends the approved parameters twice, as a JSON body and as form fields with
brackets, and `readStructuredInputs` merges the two again. A map is the list of its
members with the keys in order; the form is a map from field names to texts, and it is
merged in any order.
-/
namespace ForestPanel

namespace Panel

open Json (Value)

abbrev Members := List (List Char × Value)

abbrev Form := List (List Char × List Char)

/-- `strings.TrimSpace`. -/
def trim (s : List Char) : List Char := (trimSpace (String.ofList s)).toList

def reserved (c : Char) : Bool := c = '[' || c = ']' || c = '\x00'

def parameterName (key : List Char) : Bool :=
  trim key = key && key ≠ [] && !Value.sameName "auth_data" key &&
    !Value.sameName "authorization" key && !key.any reserved

def panelOperationParams (raw : String) : Option Members :=
  if 32768 < raw.utf8ByteSize then none
  else match Value.ofText (if raw = "" then "{}" else raw) with
    | some (.obj members) =>
      let params := Value.canonicalMembers [] members
      if params.all (fun m => parameterName m.1) then some params else none
    | _ => none

structure Operation where
  name : String
  method : String
  path : String
deriving Repr, DecidableEq

def nodeProtocols : List String :=
  ["shadowsocks", "vmess", "vless", "trojan", "tuic", "hysteria", "anytls", "v2node"]

/-- The registered operations whose handler reads structured inputs. -/
def structuredOperations : List Operation :=
  nodeProtocols.flatMap fun protocol =>
    [⟨"nodes." ++ protocol ++ ".save", "POST", "/server/" ++ protocol ++ "/save"⟩,
      ⟨"nodes." ++ protocol ++ ".update", "POST", "/server/" ++ protocol ++ "/update"⟩]

/-- The path has the place of a record's number. -/
def pathWithID (path : String) : Bool :=
  path.toList.tails.any fun tail => "{id}".toList.isPrefixOf tail

def remove (key : String) (params : Members) : Members :=
  params.filter fun m => m.1 ≠ key.toList

/-- The filters of a member of staff leave out the operators. -/
def panelScopeUserFilters (path : String) (params : Members) : Members :=
  if ["/user/ban", "/user/unban", "/user/allDel", "/user/sendMail", "/user/dumpCSV"].contains path
  then
    let filters := match params.lookup "filter".toList with
      | some (.arr filters) => filters
      | _ => []
    let ordinary := fun key : String => Value.obj [("condition".toList, .str "=".toList),
      ("key".toList, .str key.toList), ("value".toList, .str "0".toList)]
    Value.insertMember "filter".toList
      (.arr (filters ++ [ordinary "is_admin", ordinary "is_staff"])) params
  else if path = "/user/update" then
    Value.insertMember "is_staff".toList (.num "0".toList)
      (Value.insertMember "is_admin".toList (.num "0".toList) params)
  else params

/-- What `Execute` takes out of the parameters or adds to them. -/
def preparedParams (path : String) (isAdmin : Bool) (params : Members) : Members :=
  let params := if path = "/server/manage/getNodes" then
      remove "node_id" (remove "include_install_command" params)
    else params
  let params := if path = "/config/fetch" then remove "include_credentials" params else params
  let params := if pathWithID path then remove "id" params else params
  if isAdmin then params else panelScopeUserFilters path params

/-- `fmt.Sprint` of a value that is neither a map nor a slice. -/
def sprint : Value → List Char
  | .bool b => if b then "true".toList else "false".toList
  | .num literal => literal
  | .str s => s
  | _ => []

def fieldName (key name : List Char) : List Char :=
  if key = [] then name else key ++ '[' :: (name ++ [']'])

mutual

/-- The form fields of a value; a depth of more than ten is refused. -/
def panelFlattenParams (key : List Char) (depth : Nat) : Value → Option Form
  | .obj members => if 10 < depth then none else flattenMembers key depth members
  | .arr elements => if 10 < depth then none else flattenElements key depth 0 elements
  | .null => if 10 < depth then none else some [(key, [])]
  | .bool b => if 10 < depth then none else some [(key, sprint (.bool b))]
  | .num literal => if 10 < depth then none else some [(key, sprint (.num literal))]
  | .str s => if 10 < depth then none else some [(key, sprint (.str s))]

def flattenMembers (key : List Char) (depth : Nat) : Members → Option Form
  | [] => some []
  | (name, item) :: rest =>
    if name = [] ∨ name.any reserved = true then none
    else do
      let first ← panelFlattenParams (fieldName key name) (depth + 1) item
      let later ← flattenMembers key depth rest
      some (first ++ later)

def flattenElements (key : List Char) (depth index : Nat) : List Value → Option Form
  | [] => some []
  | item :: rest => do
    let first ← panelFlattenParams (key ++ '[' :: (Decimal.format index ++ [']'])) (depth + 1) item
    let later ← flattenElements key depth (index + 1) rest
    some (first ++ later)

end

structure Request where
  method : String
  /-- The content type is JSON. -/
  json : Bool
  body : List Char
  form : Form
deriving Repr, DecidableEq

/-- The request that is handed to the router. -/
def buildRequest (op : Operation) (params : Members) : Option Request := do
  let values ← panelFlattenParams [] 0 (.obj params)
  if op.method = "GET" then some ⟨op.method, false, [], values⟩
  else some ⟨op.method, true, Value.marshal (.obj params), values⟩

inductive InputError
  | json
  | arrayContainer
  | objectContainer
  /-- The run-time error of an index below zero. -/
  | negativeIndex
deriving Repr, DecidableEq

def segments : Nat → List Char → Option (List (List Char))
  | _, [] => some []
  | 0, _ => none
  | fuel + 1, '[' :: rest =>
    match rest.dropWhile (· ≠ ']') with
    | [] => none
    | _ :: behind => (segments fuel behind).map fun more =>
      if rest.takeWhile (· ≠ ']') = [] then more else rest.takeWhile (· ≠ ']') :: more
  | _, _ => none

def parseStructuredInputPath (key : List Char) : List (List Char) :=
  let key := trim key
  if key = [] then []
  else match key.dropWhile (· ≠ '[') with
    | [] => [key]
    | rest => match segments rest.length rest with
      | none => [key]
      | some found => key.takeWhile (· ≠ '[') :: found

def extend (list : List Value) (length : Nat) : List Value :=
  list ++ List.replicate (length - list.length) .null

/-- `assignStructuredValue`. A segment that `strconv.Atoi` accepts is an index. -/
def assignStructuredValue (value : List Char) :
    List (List Char) → Value → Except InputError Value
  | [], _ => .ok (.str value)
  | segment :: rest, current =>
    match Decimal.parse segment with
    | some index =>
      match current with
      | .null =>
        if index < 0 then .error .negativeIndex
        else do
          let next ← assignStructuredValue value rest .null
          .ok (.arr ((extend [] (index.toNat + 1)).set index.toNat next))
      | .arr list =>
        if index < 0 then .error .negativeIndex
        else do
          let next ← assignStructuredValue value rest ((list[index.toNat]?).getD .null)
          .ok (.arr ((extend list (index.toNat + 1)).set index.toNat next))
      | _ => .error .arrayContainer
    | none =>
      match current with
      | .null => do
        let next ← assignStructuredValue value rest .null
        .ok (.obj [(segment, next)])
      | .obj members => do
        let next ← assignStructuredValue value rest ((members.lookup segment).getD .null)
        .ok (.obj (Value.insertMember segment next members))
      | _ => .error .objectContainer

def mergeStructuredInput (target : Members) (field : List Char × List Char) :
    Except InputError Members :=
  match parseStructuredInputPath field.1 with
  | [] => .ok target
  | [key] =>
    if (target.lookup key).isSome then .ok target
    else .ok (Value.insertMember key (.str (trim field.2)) target)
  | key :: path => do
    let next ← assignStructuredValue (trim field.2) path ((target.lookup key).getD .null)
    .ok (Value.insertMember key next target)

/-- The object that the body starts with, and none where the body is blank. -/
def bodyValues (request : Request) : Except InputError Members :=
  if request.json = false ∨ trim request.body = [] then .ok []
  else match Value.firstOf (String.ofList request.body) with
    | some (.obj members) => .ok (Value.canonicalMembers [] members)
    | _ => .error .json

def readStructuredInputs (request : Request) : Except InputError Members := do
  let values ← bodyValues request
  request.form.foldlM mergeStructuredInput values

end Panel

end ForestPanel
