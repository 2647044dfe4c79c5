import ForestPanel.Lib.Json

/-!
# JSON values

A whole value: what a text stands for once every raw text in it has been read. The
members of an object stay in the order of the text, with those that were written
twice; `canonical` is what a map keeps of them, and `marshal` prints a map with its
keys in order.
-/
namespace Json

inductive Value
  | null
  | bool (b : Bool)
  | num (literal : List Char)
  | str (s : List Char)
  | arr (elements : List Value)
  | obj (members : List (List Char × Value))
deriving Repr, Inhabited

namespace Value

mutual

def beq : Value → Value → Bool
  | .null, .null => true
  | .bool a, .bool b => a = b
  | .num a, .num b => a = b
  | .str a, .str b => a = b
  | .arr a, .arr b => beqElements a b
  | .obj a, .obj b => beqMembers a b
  | _, _ => false

def beqElements : List Value → List Value → Bool
  | [], [] => true
  | a :: as, b :: bs => beq a b && beqElements as bs
  | _, _ => false

def beqMembers : List (List Char × Value) → List (List Char × Value) → Bool
  | [], [] => true
  | (k, a) :: as, (l, b) :: bs => k = l && beq a b && beqMembers as bs
  | _, _ => false

end

mutual

private theorem beq_iff : ∀ a b : Value, beq a b = true ↔ a = b
  | .null, b => by cases b <;> simp [beq]
  | .bool a, b => by cases b <;> simp [beq]
  | .num a, b => by cases b <;> simp [beq]
  | .str a, b => by cases b <;> simp [beq]
  | .arr a, b => by
    cases b with
    | arr b => simp [beq, beqElements_iff a b]
    | _ => simp [beq]
  | .obj a, b => by
    cases b with
    | obj b => simp [beq, beqMembers_iff a b]
    | _ => simp [beq]

private theorem beqElements_iff : ∀ a b : List Value, beqElements a b = true ↔ a = b
  | [], b => by cases b <;> simp [beqElements]
  | a :: as, b => by
    cases b with
    | nil => simp [beqElements]
    | cons b bs => simp [beqElements, beq_iff a b, beqElements_iff as bs]

private theorem beqMembers_iff : ∀ a b : List (List Char × Value), beqMembers a b = true ↔ a = b
  | [], b => by cases b <;> simp [beqMembers]
  | (k, a) :: as, b => by
    cases b with
    | nil => simp [beqMembers]
    | cons m bs => simp [beqMembers, beq_iff a m.2, beqMembers_iff as bs, Prod.ext_iff]

end

instance : DecidableEq Value := fun a b => decidable_of_iff _ (beq_iff a b)

/-- The value a text consists of. The fuel bounds the depth of the brackets. -/
def read : Nat → List Char → Option Value
  | 0, _ => none
  | fuel + 1, raw =>
    match unmarshal (String.ofList raw) with
    | none => none
    | some .null => some .null
    | some (.bool b) => some (.bool b)
    | some (.num literal) => some (.num literal)
    | some (.str s) => some (.str s)
    | some (.arr raws) => (raws.mapM (read fuel)).map .arr
    | some (.obj raws) => (raws.mapM fun m => (read fuel m.2).map (Prod.mk m.1)).map .obj

def ofText (text : String) : Option Value := read (text.length + 1) text.toList

/-- The first value of a stream, whatever follows. -/
def firstOf (text : String) : Option Value := do
  let (_, rest) ← value (2 * text.length + 1) (skipSpace text.toList)
  ofText (String.ofList (consumed (skipSpace text.toList) rest))

/-- Keys are compared letter by letter. -/
def keyBefore : List Char → List Char → Bool
  | _, [] => false
  | [], _ :: _ => true
  | a :: as, b :: bs => a.toNat < b.toNat || a.toNat = b.toNat && keyBefore as bs

/-- Members whose keys come in order, with one more. -/
def insertMember (key : List Char) (v : Value) :
    List (List Char × Value) → List (List Char × Value)
  | [] => [(key, v)]
  | (k, w) :: rest =>
    if keyBefore key k then (key, v) :: (k, w) :: rest
    else if key = k then (key, v) :: rest
    else (k, w) :: insertMember key v rest

mutual

/-- The value with every object as the map it is read into: of a key that was written
twice the last value stays, and the keys come in order. -/
def canonical : Value → Value
  | .null => .null
  | .bool b => .bool b
  | .num literal => .num literal
  | .str s => .str s
  | .arr elements => .arr (canonicalElements elements)
  | .obj members => .obj (canonicalMembers [] members)

def canonicalElements : List Value → List Value
  | [] => []
  | v :: rest => canonical v :: canonicalElements rest

def canonicalMembers (found : List (List Char × Value)) :
    List (List Char × Value) → List (List Char × Value)
  | [] => found
  | (key, v) :: rest => canonicalMembers (insertMember key (canonical v) found) rest

end

mutual

def marshal : Value → List Char
  | .null => "null".toList
  | .bool b => if b then "true".toList else "false".toList
  | .num literal => literal
  | .str s => quote s
  | .arr elements => array (marshalElements elements)
  | .obj members => object (marshalMembers members)

def marshalElements : List Value → List (List Char)
  | [] => []
  | v :: rest => marshal v :: marshalElements rest

def marshalMembers : List (List Char × Value) → List (List Char × List Char)
  | [] => []
  | (key, v) :: rest => (key, marshal v) :: marshalMembers rest

end

/-- Field names are compared up to case; two letters beyond ASCII have an ASCII letter
as their other case. -/
def foldRune (c : Char) : Char :=
  if c = '\u017F' then 's' else if c = '\u212A' then 'k' else c.toLower

def sameName (name : String) (key : List Char) : Bool :=
  key.map foldRune = name.toList.map foldRune

/-- A field of the record that an object is read into: the values under its name in
turn. `null` leaves the field as it is, and a value of another type fails the record. -/
def field {α : Type} (typed : Value → Option α) (zero : α) (name : String) : Value → Option α
  | .null => some zero
  | .obj members => members.foldlM (fun old m =>
      if sameName name m.1 then match m.2 with
        | .null => some old
        | v => typed v
      else some old) zero
  | _ => none

/-- A field that keeps the value itself, also `null`. -/
def rawField (name : String) : Value → Option Value
  | .obj members => members.foldl (fun old m =>
      if sameName name m.1 then some m.2 else old) none
  | _ => none

def asString : Value → Option String
  | .str s => some (String.ofList s)
  | _ => none

/-- `int64`, and `int` on a 64-bit machine. -/
def asInt : Value → Option Int
  | .num literal => Decimal.parse literal
  | _ => none

end Value

end Json
