import ForestPanel.Lib.JsonRound
import ForestPanel.AIOps.Messages
import Mathlib.Algebra.Order.Ring.Int

/-!
# The output budget of a request

A reply that reaches the output limit is asked for again with twice the budget, up to a
maximum. The request is read into a map of its fields, the budget replaced, and printed
again; a field is kept as its value, whose strings are printed as every other text is.
-/
namespace ForestPanel.AIOps

open Json Json.Value

def initialCompletionTokens : Int := 4096
def maxCompletionTokens : Int := 16384
def maxProviderRequestBytes : Nat := 524288

def fieldMap (members : List (List Char × Value)) : List (List Char × Value) :=
  members.foldl (fun found m => insertMember m.1 m.2 found) []

/-- The fields of a payload, unless it is not an object. -/
def requestFields (payload : List Char) : Option (List (List Char × Value)) :=
  match ofText (String.ofList payload) with
  | some (.obj members) => some (fieldMap members)
  | _ => none

def maxTokens : List Char := "max_tokens".toList

/-- The budget of a request; `null` leaves the one requests start with. -/
def outputBudget (request : List (List Char × Value)) : Option Int :=
  match request.lookup maxTokens with
  | none => some initialCompletionTokens
  | some .null => some initialCompletionTokens
  | some budget => (asInt budget).filter fun n => 0 < n

def withBudget (request : List (List Char × Value)) (budget : Int) : List (List Char × Value) :=
  insertMember maxTokens (.num (Decimal.format budget)) request

def expandCompletionOutputBudget (payload : List Char) : Option (List Char) := do
  let request ← requestFields payload
  let budget ← outputBudget request
  if maxCompletionTokens ≤ budget then none
  else
    let encoded := marshal (.obj (withBudget request (min (budget * 2) maxCompletionTokens)))
    if byteLength encoded ≤ maxProviderRequestBytes then some encoded else none

/-- How often a budget is doubled until it is the maximum. -/
def doublingsOf (budget : Int) : Nat :=
  if 0 < budget ∧ budget < maxCompletionTokens then doublingsOf (budget * 2) + 1 else 0
termination_by (maxCompletionTokens - budget).toNat
decreasing_by
  rename_i small
  simp only [maxCompletionTokens] at small ⊢
  omega

variable {budget : Int} {members request : List (List Char × Value)}

def doublings (payload : List Char) : Nat :=
  match (requestFields payload).bind outputBudget with
  | some budget => doublingsOf budget
  | none => 0

private theorem foldl_insertMember {found : List (List Char × Value)}
    (ordered : KeysOrdered (found ++ members)) :
    members.foldl (fun found m => insertMember m.1 m.2 found) found = found ++ members := by
  induction members generalizing found with
  | nil => simp
  | cons m rest ih =>
    have last : ∀ other ∈ found, keyBefore other.1 m.1 = true := fun other member =>
      (List.pairwise_append.mp ordered).2.2 other member m List.mem_cons_self
    rw [List.foldl_cons, insertMember_append last, ih (by simpa using ordered)]
    simp

theorem fieldMap_of_ordered (ordered : KeysOrdered members) :
    fieldMap members = members := foldl_insertMember ordered

theorem fieldMap_ordered {limit : Nat} (printable : PrintableMembers limit members) :
    KeysOrdered (fieldMap members) ∧ PrintableMembers limit (fieldMap members) := by
  have kept : ∀ found : List (List Char × Value),
      KeysOrdered found ∧ PrintableMembers limit found →
      KeysOrdered (members.foldl (fun found m => insertMember m.1 m.2 found) found) ∧
        PrintableMembers limit (members.foldl (fun found m => insertMember m.1 m.2 found) found) := by
    induction members with
    | nil => exact fun found holds => holds
    | cons m rest ih =>
      obtain ⟨first, later⟩ := List.forall_mem_cons.mp (printableMembers_iff.mp printable)
      rintro found ⟨ordered, printed⟩
      apply ih (printableMembers_iff.mpr later)
      refine ⟨insertMember_ordered _ _ ordered, printableMembers_iff.mpr ?_⟩
      intro other member
      rcases mem_insertMember member with rfl | member
      · exact first
      · exact printableMembers_iff.mp printed other member
  exact kept [] ⟨List.Pairwise.nil, trivial⟩

theorem requestFields_marshal {limit : Nat} (ordered : KeysOrdered members)
    (printable : PrintableMembers limit members) :
    requestFields (marshal (.obj members)) = some members := by
  have read : ofText (String.ofList (marshal (.obj members))) = some (.obj members) :=
    @ofText_marshal limit (.obj members) printable
  rw [requestFields, read]
  exact congrArg some (fieldMap_of_ordered ordered)

theorem requestFields_printable {payload : List Char} (read : requestFields payload = some request)
    :
    KeysOrdered request ∧ PrintableMembers (2 * payload.length + 1) request := by
  unfold requestFields at read
  split at read
  next members found =>
    cases read
    have printable := ofText_printable found
    rw [String.length_ofList] at printable
    exact fieldMap_ordered printable
  next => cases read

theorem outputBudget_positive (named : outputBudget request = some budget) : 0 < budget := by
  unfold outputBudget at named
  split at named
  next =>
    cases named
    decide
  next =>
    cases named
    decide
  next => exact of_decide_eq_true (Option.filter_eq_some_iff.mp named).2

theorem outputBudget_withBudget (positive : 0 < budget) (fits : Decimal.Fits budget) :
    outputBudget (withBudget request budget) = some budget := by
  rw [outputBudget, withBudget, lookup_insertMember]
  simp [asInt, Decimal.parse_format fits, positive]

/-- A payload that is `payload` with another budget, larger than its own. -/
def RaisedBudget (payload raised : List Char) : Prop :=
  ∃ request old new, requestFields payload = some request ∧ outputBudget request = some old ∧
    old < new ∧ new ≤ maxCompletionTokens ∧
    raised = marshal (.obj (withBudget request new)) ∧
    requestFields raised = some (withBudget request new)

theorem expandCompletionOutputBudget_raises {payload larger : List Char}
    (expanded : expandCompletionOutputBudget payload = some larger) :
    RaisedBudget payload larger ∧ doublings larger + 1 = doublings payload := by
  simp only [expandCompletionOutputBudget, Option.bind_eq_bind, Option.bind_eq_some_iff] at expanded
  obtain ⟨request, read, old, named, raised⟩ := expanded
  split at raised
  next => cases raised
  next small =>
    rw [Option.ite_none_right_eq_some] at raised
    obtain ⟨-, same⟩ := raised
    have encoded := (Option.some.inj same).symm
    have positive : 0 < old := outputBudget_positive named
    set new := min (old * 2) maxCompletionTokens with newEq
    have bounds : old < new ∧ new ≤ maxCompletionTokens := by
      simp only [maxCompletionTokens] at small newEq ⊢
      omega
    obtain ⟨ordered, printable⟩ := requestFields_printable read
    have again : requestFields larger = some (withBudget request new) := by
      rw [encoded]
      apply requestFields_marshal (insertMember_ordered _ _ ordered)
      apply printableMembers_iff.mpr
      intro m member
      rcases mem_insertMember member with rfl | member
      · exact reads_format new
      · exact printableMembers_iff.mp printable m member
    refine ⟨⟨request, old, new, read, named, bounds.1, bounds.2, encoded, again⟩, ?_⟩
    have budget : outputBudget (withBudget request new) = some new :=
      outputBudget_withBudget (by omega) (by
        simp only [maxCompletionTokens] at bounds
        constructor <;> omega)
    have step : doublingsOf old = doublingsOf (old * 2) + 1 := by
      rw [doublingsOf, if_pos ⟨positive, not_le.mp small⟩]
    have same : doublingsOf new = doublingsOf (old * 2) := by
      by_cases below : old * 2 ≤ maxCompletionTokens
      · rw [newEq, min_eq_left below]
      · rw [newEq, min_eq_right (le_of_not_ge below), doublingsOf, if_neg (by omega),
          doublingsOf, if_neg (by omega)]
    rw [doublings, doublings, again, read, Option.bind_some, Option.bind_some, budget, named]
    dsimp only
    rw [same, step]

theorem RaisedBudget.trans {first second third : List Char} (raised : RaisedBudget first second)
    (again : RaisedBudget second third) : RaisedBudget first third := by
  obtain ⟨request, old, new, read, named, larger, most, -, fields⟩ := raised
  obtain ⟨request', old', new', read', named', larger', most', printed', fields'⟩ := again
  rw [fields] at read'
  cases read'
  have budget : outputBudget (withBudget request new) = some new := by
    have positive := outputBudget_positive named
    apply outputBudget_withBudget (by omega)
    simp only [maxCompletionTokens] at most
    constructor <;> omega
  rw [budget] at named'
  cases named'
  have once : withBudget (withBudget request new) new' = withBudget request new' :=
    insertMember_again _ _ _ _
  rw [once] at printed' fields'
  exact ⟨request, old, new', read, named, by omega, most', printed', fields'⟩

end ForestPanel.AIOps
