import ForestPanel.Lib.Decimal
import ForestPanel.Store.Text
import Mathlib.Logic.Function.Basic

/-!
# Structured form values

A form key names a place in a tree of objects and lists: a base, and segments in brackets. A segment
that `strconv.Atoi` reads is the index of a list. Every key of the form writes its text at its place
and makes the containers on the way. Lists are as long as memory allows.
-/
namespace ForestPanel.StructuredForm

/-- A Go value of the tree: `nil`, a string, a `[]any`, or a `map[string]any`, where a key that is
absent is `nil`. -/
inductive Node
  | null
  | text (value : String)
  | list (items : List Node)
  | object (fields : String → Node)

inductive Failure
  /-- An index outside a list, or a list of negative length. -/
  | panic
  | container (text : String)
deriving DecidableEq, Repr

def Node.isNull : Node → Bool
  | .null => true
  | _ => false

/-- The type as `%T` prints it. -/
def Node.goType : Node → String
  | .null => "<nil>"
  | .text _ => "string"
  | .list _ => "[]interface {}"
  | .object _ => "map[string]interface {}"

inductive Step
  | index (idx : Int)
  | key (name : String)
deriving DecidableEq, Repr

def Step.isIndex : Step → Bool
  | .index _ => true
  | .key _ => false

/-- `strconv.Atoi` of a segment. -/
def stepOf (segment : String) : Step :=
  match Decimal.parse segment.toList with
  | some idx => .index idx
  | none => .key segment

/-- The segments in brackets; `inside` holds what was read of an open one. Empty segments are left
out, and other text between brackets, or a bracket that is not closed, is no path. -/
def segmentsOf : (inside : Option (List Char)) → List Char → Option (List String)
  | none, [] => some []
  | none, c :: rest => if c = '[' then segmentsOf (some []) rest else none
  | some _, [] => none
  | some segment, c :: rest =>
    if c = ']' then
      (segmentsOf none rest).map fun segments =>
        if segment = [] then segments else String.ofList segment :: segments
    else segmentsOf (some (segment ++ [c])) rest

def parseStructuredInputPath (key : String) : List String :=
  let key := trimSpace key
  if key = "" then []
  else if '[' ∈ key.toList then
    let base := key.toList.takeWhile fun c => c ≠ '['
    match segmentsOf none (key.toList.dropWhile fun c => c ≠ '[') with
    | some segments => String.ofList base :: segments
    | none => [key]
  else [key]

/-- An `int` after an operation that may overflow. -/
def wrapInt (n : Int) : Int := n.bmod 18446744073709551616

/-- The list at a node; a new one is made just long enough. -/
def listFor (idx : Int) : Node → Except Failure (List Node)
  | .null =>
    if 0 ≤ wrapInt (idx + 1) then .ok (List.replicate (wrapInt (idx + 1)).toNat .null)
    else .error .panic
  | .list items => .ok items
  | other => .error (.container ("unexpected array container " ++ other.goType))

def objectFor : Node → Except Failure (String → Node)
  | .null => .ok fun _ => .null
  | .object fields => .ok fields
  | other => .error (.container ("unexpected object container " ++ other.goType))

/-- `for len(list) <= idx { list = append(list, nil) }`. -/
def pad (idx : Int) (items : List Node) : List Node :=
  items ++ List.replicate ((idx + 1).toNat - items.length) .null

def assignStructuredValue : Node → List Step → String → Except Failure Node
  | _, [], value => .ok (.text value)
  | current, .index idx :: path, value => do
    let items ← listFor idx current
    let items := pad idx items
    if idx < 0 then .error .panic
    else
      let next ← assignStructuredValue (items.getD idx.toNat .null) path value
      return .list (items.set idx.toNat next)
  | current, .key name :: path, value => do
    let fields ← objectFor current
    let next ← assignStructuredValue (fields name) path value
    return .object (Function.update fields name next)

abbrev Target := String → Node

def mergeStructuredInput (target : Target) (key value : String) : Except Failure Target :=
  match parseStructuredInputPath key with
  | [] => .ok target
  | [base] =>
    if (target base).isNull = false then .ok target
    else .ok (Function.update target base (.text (trimSpace value)))
  | base :: path => do
    let next ← assignStructuredValue (target base) (path.map stepOf) (trimSpace value)
    return Function.update target base next

def emptyTarget : Target := fun _ => .null

/-- The keys of a form without a JSON body, in the order a map gives them. -/
def readStructuredInputs (order : List (String × String)) : Except Failure Target :=
  order.foldlM (fun target entry => mergeStructuredInput target entry.1 entry.2) emptyTarget

end ForestPanel.StructuredForm
