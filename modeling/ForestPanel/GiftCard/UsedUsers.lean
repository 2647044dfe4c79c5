import ForestPanel.Lib.Json
import ForestPanel.Store.Text

/-!
# The used-user list

`used_user_ids` is text. `parseIDString` reads it whatever wrote it, `marshalIDs`
writes it, and what is written is read as the same list.

`json.Unmarshal` into `[]any` makes floating-point numbers of the elements. What
`fmt.Sprint` prints of an element is the parameter `sprintAny`, which is `none` when
the element does not decode.
-/
namespace ForestPanel

/-- An element of a `[]int64`; `null` leaves the zero it was made with. -/
def int64Element (raw : List Char) : Option Int :=
  match Json.decode (String.ofList raw) with
  | some .null => some 0
  | some (.num literal) => Decimal.parse literal
  | _ => none

def stringElement (raw : List Char) : Option String :=
  match Json.decode (String.ofList raw) with
  | some .null => some ""
  | some (.str s) => some (String.ofList s)
  | _ => none

/-- `json.Unmarshal` into a slice. -/
def unmarshalSlice {α : Type} (element : List Char → Option α) (raw : String) : Option (List α) :=
  match Json.unmarshal raw with
  | some .null => some []
  | some (.arr elements) => elements.mapM element
  | _ => none

/-- `strconv.ParseInt` of the trimmed items, where it succeeds; empty items count as
failures. -/
def parseItems (items : List String) : List Int :=
  items.filterMap fun item => Decimal.parse (trimSpace item).toList

/-- A text list that is no JSON array: comma-separated, perhaps in braces, each item
perhaps in quotation marks. -/
def parsePlainIDs (raw : String) : List Int :=
  let text := raw.toList
  let text := if text.head? = some '{' ∧ text.getLast? = some '}' then text.dropLast.tail else text
  let unquoted := fun c => c = '"' || c = '\''
  parseItems ((text.splitOn ',').map fun part =>
    String.ofList ((part.dropWhile unquoted).rdropWhile unquoted))

def parseIDString (sprintAny : List Char → Option String) (raw : String) : List Int :=
  let raw := trimSpace raw
  if raw = "" then []
  else if raw.toList.head? = some '[' then
    match unmarshalSlice int64Element raw with
    | some ids => ids
    | none =>
      match unmarshalSlice stringElement raw with
      | some items => parseItems items
      | none => ((unmarshalSlice sprintAny raw).map parseItems).getD []
  else parsePlainIDs raw

/-- `json.Marshal` of a `[]int64` that has elements. -/
def marshalIDs (ids : List Int) : String := String.ofList (Json.array (ids.map Decimal.format))

private theorem parseItems_fits {items : List String} {id : Int} (member : id ∈ parseItems items) :
    Decimal.Fits id := by
  obtain ⟨item, -, parsed⟩ := List.mem_filterMap.mp member
  exact Decimal.parse_fits parsed

private theorem int64Element_fits {raw : List Char} {id : Int}
    (element : int64Element raw = some id) : Decimal.Fits id := by
  unfold int64Element at element
  split at element
  · cases element
    decide
  · exact Decimal.parse_fits element
  · cases element

private theorem mapM_int64Element_fits {raws : List (List Char)} {ids : List Int}
    (read : raws.mapM int64Element = some ids) {id : Int} (member : id ∈ ids) :
    Decimal.Fits id := by
  induction raws generalizing ids with
  | nil =>
    cases read
    cases member
  | cons raw raws ih =>
    simp only [List.mapM_cons, Option.bind_eq_bind, Option.bind_eq_some_iff, Option.pure_def,
      Option.some.injEq] at read
    obtain ⟨first, element, rest, others, rfl⟩ := read
    rcases List.mem_cons.mp member with rfl | later
    · exact int64Element_fits element
    · exact ih others later

theorem parseIDString_fits {sprintAny : List Char → Option String} {raw : String} {id : Int}
    (member : id ∈ parseIDString sprintAny raw) : Decimal.Fits id := by
  unfold parseIDString at member
  dsimp only at member
  split at member
  · cases member
  split at member
  · split at member
    next ids read =>
      unfold unmarshalSlice at read
      split at read
      · cases read
        cases member
      · exact mapM_int64Element_fits read member
      · cases read
    next =>
      split at member
      next => exact parseItems_fits member
      next =>
        cases generic : unmarshalSlice sprintAny (trimSpace raw) with
        | none =>
          rw [generic] at member
          cases member
        | some items =>
          rw [generic] at member
          exact parseItems_fits member
  · exact parseItems_fits member

private theorem int64Element_format {id : Int} (fits : Decimal.Fits id) :
    int64Element (Decimal.format id) = some id := by
  rw [int64Element, (Json.reads_format id).decode]
  exact Decimal.parse_format fits

theorem parseIDString_marshalIDs (sprintAny : List Char → Option String) {ids : List Int}
    (fits : ∀ id ∈ ids, Decimal.Fits id) : parseIDString sprintAny (marshalIDs ids) = ids := by
  have reads : Json.Reads (Json.array (ids.map Decimal.format)) (.arr (ids.map Decimal.format)) := by
    apply Json.reads_array
    intro raw member
    obtain ⟨id, -, rfl⟩ := List.mem_map.mp member
    exact ⟨_, Json.reads_format id⟩
  have elements : (ids.map Decimal.format).mapM int64Element = some ids := by
    clear reads
    induction ids with
    | nil => rfl
    | cons id ids ih =>
      have first := int64Element_format (fits id List.mem_cons_self)
      have rest := ih fun other member => fits other (List.mem_cons_of_mem id member)
      simp [List.mapM_cons, first, rest]
  have slice : unmarshalSlice int64Element (marshalIDs ids) = some ids := by
    rw [unmarshalSlice, marshalIDs, reads.unmarshal]
    exact elements
  have bracket : (marshalIDs ids).toList.head? = some '[' := by
    rw [marshalIDs, String.toList_ofList]
    rfl
  have nonempty : marshalIDs ids ≠ "" := by
    intro empty
    rw [empty] at bracket
    cases bracket
  have trimmed : trimSpace (marshalIDs ids) = marshalIDs ids := trimSpace_between rfl rfl _
  rw [parseIDString, trimmed]
  simp only [nonempty, if_false, bracket, if_true, slice]

end ForestPanel
