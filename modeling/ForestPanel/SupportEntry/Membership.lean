import ForestPanel.ClientEntry.Delivery
import ForestPanel.Lib.Decimal

/-!
# E-mail lists of the rules

Support staff may change one list: that of the only e-mail condition of a standard rule with an
entry of its own. The rules keep their conditions as text; they are decoded, changed and encoded.
-/
namespace ForestPanel.SupportEntry

open ClientEntry Outcome Relational

/-- What the lists use of the library besides the rules: the letter that stands for all letters
of a `unicode.SimpleFold` orbit. -/
structure FoldLibrary extends EntryLibrary where
  fold : Char → Char

/-- `strings.EqualFold`. -/
def FoldLibrary.foldsTo (lib : FoldLibrary) (a b : String) : Bool :=
  a.toList.map lib.fold = b.toList.map lib.fold

/-- `strings.ToLower(strings.TrimSpace(email))`. -/
def normalEmail (lib : FoldLibrary) (email : String) : String := lib.lower (trimSpace email)

structure SupportEntryMembershipPolicy where
  policyID : Int
  sort : Int
  memberFingerprint : String
  name : String
  enabled : Bool
  entryHost : String
  resolveEntryHost : Bool
  hasMembers : Bool
  conditions : List Condition
  emailIndex : Nat
deriving DecidableEq

def Condition.isEmailList (c : Condition) : Bool := c.field = "email" && c.operator = "in"

def emailIndexOf (conditions : List Condition) : Option Nat :=
  if conditions.countP Condition.isEmailList = 1 then
    conditions.findIdx? Condition.isEmailList
  else none

def PolicyRow.hasEntry (p : PolicyRow) : Bool := p.mode = .standard && p.action = .override

/-- `string_agg(m.server_type||':'||m.server_id::TEXT, ',' ORDER BY …)`. -/
def memberFingerprint (rules : RuleBase) (policyID : Int) : String :=
  let rows := (rules.members.rows.filter fun m => m.policyId = policyID).insertionSort
    fun a b => a.serverType < b.serverType ∨ a.serverType = b.serverType ∧ a.serverId ≤ b.serverId
  String.intercalate "," (rows.map fun m =>
    m.serverType ++ ":" ++ String.ofList (Decimal.format m.serverId))

section

variable (lib : FoldLibrary)

def membershipPolicy (rules : RuleBase) (p : PolicyRow) :
    Except String (Option SupportEntryMembershipPolicy) := do
  let conditions ← decodeConditions lib.toStandardLibrary p.conditions
  return (emailIndexOf conditions).map fun emailIndex =>
    { policyID := p.id
      sort := p.sort
      memberFingerprint := memberFingerprint rules p.id
      name := p.name
      enabled := p.enabled ≠ 0
      entryHost := p.entryHost
      resolveEntryHost := p.resolveEntryHost ≠ 0
      hasMembers := rules.members.rows.any fun m => m.policyId = p.id
      conditions
      emailIndex }

def loadSupportEntryMembershipPolicies (rules : RuleBase) :
    Except String (List SupportEntryMembershipPolicy) := do
  let rows := (rules.policies.rows.filter PolicyRow.hasEntry).insertionSort fun a b => a.id ≤ b.id
  let policies ← rows.mapM (membershipPolicy lib rules)
  return policies.reduceOption

/-- `json.Unmarshal` into a string. -/
def unmarshalString (raw : String) : Option String :=
  match Json.unmarshal raw with
  | some (.str value) => some (String.ofList value)
  | some .null => some ""
  | _ => none

def SupportEntryMembershipPolicy.values (p : SupportEntryMembershipPolicy) : List String :=
  match p.conditions[p.emailIndex]? with
  | none => []
  | some c => c.values.getD []

def supportEntryPolicyContainsEmail (p : SupportEntryMembershipPolicy) (email : String) : Bool :=
  p.values.any fun raw =>
    (unmarshalString raw).any fun value => lib.foldsTo (trimSpace value) (normalEmail lib email)

def valuesWithout (email : String) : List String → Except String (List String)
  | [] => .ok []
  | raw :: rest => do
    let value ← require (unmarshalString raw) "invalid email value"
    let others ← valuesWithout email rest
    return if lib.foldsTo (trimSpace value) email then others else raw :: others

def replaceValues (conditions : List Condition) (index : Nat) (values : List String) :
    List Condition :=
  conditions.modify index fun c => { c with values := some values }

/-- The conditions to store, when the e-mail has to go into the list or out of it. -/
def supportEntryPolicyEmailUpdate (p : SupportEntryMembershipPolicy) (email : String)
    (include_ : Bool) : Except String (Option String) :=
  let email := normalEmail lib email
  if p.conditions.length ≤ p.emailIndex then
    .error "entry policy has no editable email condition"
  else if supportEntryPolicyContainsEmail lib p email = include_ then .ok none
  else do
    let kept ← valuesWithout lib email p.values
    let values := if include_ then kept ++ [rawQuoted email] else kept
    let encoded ← encodeConditions lib.toStandardLibrary
      (replaceValues p.conditions p.emailIndex values)
    return some encoded

structure SupportEntryOverride where
  sourcePolicyID : Int
  targetPolicyID : Int
  targetGroupID : Int
  targetKey : String
  active : Bool
  expiresAt : Int
  version : Int
deriving DecidableEq

structure SupportEntryMembershipGroup where
  policyID : Int
  name : String
  entryHost : String
  enabled : Bool
  effective : Bool
deriving DecidableEq

/-- The fields of a target that are set for a membership. -/
structure SupportEntryTarget where
  key : String
  policyID : Int
  name : String
  entryHost : String
  resolveEntryHost : Bool
deriving DecidableEq

structure SupportEntryMembership where
  version : Int
  currentGroups : List SupportEntryMembershipGroup
  targets : List SupportEntryTarget
  hasLegacyOverride : Bool
  policies : List SupportEntryMembershipPolicy
deriving DecidableEq

/-- What the version of a membership tells of a policy; the list is left out. -/
structure VersionPolicy where
  id : Int
  sort : Int
  members : String
  name : String
  host : String
  enabled : Bool
  resolve : Bool
  hasMembers : Bool
  member : Bool
  conditions : List Condition
deriving DecidableEq

def policyKey (id : Int) : String := "policy:" ++ String.ofList (Decimal.format id)

def SupportEntryMembershipPolicy.group (p : SupportEntryMembershipPolicy) (effective : Int → Bool) :
    SupportEntryMembershipGroup :=
  ⟨p.policyID, p.name, p.entryHost, p.enabled, effective p.policyID⟩

def SupportEntryMembershipPolicy.version (p : SupportEntryMembershipPolicy) (email : String) :
    VersionPolicy :=
  ⟨p.policyID, p.sort, p.memberFingerprint, p.name, p.entryHost, p.enabled, p.resolveEntryHost,
    p.hasMembers, supportEntryPolicyContainsEmail lib p email,
    p.conditions.modify p.emailIndex fun c => { c with values := none }⟩

/-- A policy the user may be put into: the other conditions match. -/
def SupportEntryMembershipPolicy.target (p : SupportEntryMembershipPolicy) (subject : Subject) :
    Option SupportEntryTarget :=
  if p.enabled = false ∨ p.hasMembers = false ∨
      matchAll lib.toStandardLibrary (p.conditions.eraseIdx p.emailIndex) subject = false then none
  else
    match normalizeHost lib.toEntryLibrary p.entryHost with
    | .error _ => none
    | .ok host => some ⟨policyKey p.policyID, p.policyID, p.name, host, p.resolveEntryHost⟩

/-- `digest` is the hash over the JSON text, cut to 52 bits. -/
def loadSupportEntryMembership
    (digest : String → List VersionPolicy → List SupportEntryOverride → Int) (rules : RuleBase)
    (subject : Subject) (effective : Int → Bool) (records : List SupportEntryOverride) (now : Int) :
    Except String SupportEntryMembership := do
  let policies ← loadSupportEntryMembershipPolicies lib rules
  let members := policies.filter fun p => supportEntryPolicyContainsEmail lib p subject.email
  return {
    version := digest subject.email (policies.map fun p => p.version lib subject.email) records
    currentGroups := members.map fun p => p.group effective
    targets := policies.filterMap fun p => p.target lib subject
    hasLegacyOverride := records.any fun record =>
      record.active && (record.expiresAt = 0 || now < record.expiresAt)
    policies }

end

end ForestPanel.SupportEntry
