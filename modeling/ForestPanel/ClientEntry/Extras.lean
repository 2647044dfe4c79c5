import ForestPanel.ClientEntry.Delivery
import ForestPanel.Lib.Machine

/-!
# The first policy that matches decides

A subscription is put together in one pass over the servers, with one walk over the policies for
each. The policies that decided a server are remembered; the first of them with extra nodes adds
these before or after the servers.
-/
namespace ForestPanel.ClientEntry.Extras

open Machine

inductive ExtraNodesPosition
  | before
  | after
deriving DecidableEq, Repr

structure ExtraPolicy extends LoadedPolicy where
  extraNodes : List String
  extraNodesPosition : ExtraNodesPosition

/-- A server as a map of fields: those that are read or written here, and the rest. -/
structure ServerEntry (ρ : Type) extends Server where
  sort : Option Int
  rest : ρ

section

variable {ρ : Type} (lib : EntryLibrary) (parse : String → Option (ServerEntry ρ))
  (resolve : String → Int → Int → String)

/-! ## The walk over the policies -/

/-- What the walk for one server has found out. -/
structure Walk (ρ : Type) where
  server : ServerEntry ρ
  hide : Bool
  granted : Bool
  matchedPolicyIDs : List Int

def policyMatches (subject : Subject) (policy : ExtraPolicy) : Bool :=
  let matched := matchAll lib.toStandardLibrary
    (runtimeConditions policy.mode policy.conditions) subject
  if policy.mode = .split then matched && policy.assignedEntryHost ≠ "" else matched

def overrideHost (userID : Int) (policy : ExtraPolicy) (server : ServerEntry ρ) : ServerEntry ρ :=
  if policy.action = .override then
    let entryHost := if policy.mode = .split then policy.assignedEntryHost else policy.entryHost
    { server with
      host :=
        if policy.resolveEntryHost then resolve entryHost userID policy.id else entryHost }
  else server

def walkPolicies (subject : Subject) (serverType : String) (serverID : Int) :
    List ExtraPolicy → Walk ρ → Walk ρ
  | [], walk => walk
  | policy :: policies, walk =>
    if clientEntryPolicyHasMember lib policy.members (serverType, serverID) = false then
      walkPolicies subject serverType serverID policies walk
    else if policyMatches lib subject policy = false then
      walkPolicies subject serverType serverID policies walk
    else if policy.action = .hide then { walk with hide := true }
    else
      { walk with
        matchedPolicyIDs := policy.id :: walk.matchedPolicyIDs
        granted := true
        server := { overrideHost resolve subject.userID policy walk.server with
          policyId := some policy.id } }

def normalType (server : ServerEntry ρ) : String := lib.lower (trimSpace server.serverType)

/-- The walk for one server; `client_entry_only` is taken out of it. -/
def walkServer (subject : Subject) (policies : List ExtraPolicy) (matchedPolicyIDs : List Int)
    (server : ServerEntry ρ) : Walk ρ :=
  walkPolicies lib resolve subject (normalType lib server) server.id policies
    ⟨{ server with entryOnly := false }, false, !server.entryOnly, matchedPolicyIDs⟩

/-- One server of the pass: the result so far and the policies that decided. -/
def passServer (subject : Subject) (policies : List ExtraPolicy)
    (state : List (ServerEntry ρ) × List Int) (server : ServerEntry ρ) :
    List (ServerEntry ρ) × List Int :=
  let walk := walkServer lib resolve subject policies state.2 server
  if walk.hide || !walk.granted then (state.1, walk.matchedPolicyIDs)
  else (state.1 ++ [walk.server], walk.matchedPolicyIDs)

def walkServers (subject : Subject) (policies : List ExtraPolicy) (servers : List (ServerEntry ρ)) :
    List (ServerEntry ρ) × List Int :=
  servers.foldl (passServer lib resolve subject policies) ([], [])

/-! ## The extra nodes -/

def minInt64 : Int := -9223372036854775808

def maxInt64 : Int := 9223372036854775807

/-- A server without a number does not count. -/
def tighten (position : ExtraNodesPosition) (bound : Option Int) (server : ServerEntry ρ) :
    Option Int :=
  match server.sort, bound with
  | none, bound => bound
  | some value, none => some value
  | some value, some bound =>
    if position = .before ∧ value < bound then some value
    else if position ≠ .before ∧ bound < value then some value
    else some bound

/-- The least number of the servers, or the greatest. -/
def sortBound (position : ExtraNodesPosition) (servers : List (ServerEntry ρ)) : Option Int :=
  servers.foldl (tighten position) none

def clientEntryExtraNodeSortStart (servers : List (ServerEntry ρ)) (position : ExtraNodesPosition)
    (count : Nat) : Int :=
  if count = 0 then 0
  else
    match position, sortBound position servers with
    | .before, none => -count
    | .before, some bound => if bound < minInt64 + count then minInt64 else bound - count
    | .after, none => 1
    | .after, some bound => if maxInt64 - count < bound then maxInt64 - count + 1 else bound + 1

def extraID (policyID : Int) (index : Nat) : Int :=
  wrap (-wrap (wrap (policyID * 1000) + (index + 1)))

/-- The extra nodes of a policy; a link that is not understood is passed over. -/
def extraServers (policy : ExtraPolicy) : List (ServerEntry ρ) :=
  (policy.extraNodes.zipIdx).filterMap fun (raw, index) => (parse raw).map fun extra =>
    { extra with id := extraID policy.id index, policyId := some policy.id }

def numberFrom (sortStart : Int) (extras : List (ServerEntry ρ)) : List (ServerEntry ρ) :=
  extras.mapIdx fun index extra => { extra with sort := some (sortStart + index) }

def numberedExtras (result : List (ServerEntry ρ)) (policy : ExtraPolicy) : List (ServerEntry ρ) :=
  let extras := extraServers parse policy
  numberFrom (clientEntryExtraNodeSortStart result policy.extraNodesPosition extras.length) extras

def addExtras (matchedPolicyIDs : List Int) (result : List (ServerEntry ρ)) :
    List ExtraPolicy → List (ServerEntry ρ)
  | [] => result
  | policy :: policies =>
    if policy.extraNodes = [] then addExtras matchedPolicyIDs result policies
    else if policy.id ∉ matchedPolicyIDs then addExtras matchedPolicyIDs result policies
    else
      match policy.extraNodesPosition with
      | .before => numberedExtras parse result policy ++ result
      | .after => result ++ numberedExtras parse result policy

def applyClientEntryUserPoliciesWithResolver (servers : List (ServerEntry ρ)) (subject : Subject)
    (policies : List ExtraPolicy) : List (ServerEntry ρ) :=
  let walked := walkServers lib resolve subject policies servers
  addExtras parse walked.2 walked.1 policies

/-! ## The policy that decides -/

variable {lib : EntryLibrary} {parse : String → Option (ServerEntry ρ)}
  {resolve : String → Int → Int → String} {subject : Subject} {policies : List ExtraPolicy}
  {servers : List (ServerEntry ρ)} {server : ServerEntry ρ} {policy : ExtraPolicy}

def contains (lib : EntryLibrary) (server : ServerEntry ρ) (policy : ExtraPolicy) : Bool :=
  clientEntryPolicyHasMember lib policy.members (normalType lib server, server.id)

/-- A policy applies when it contains the server, its conditions match and, when it is split, the
user has a host in it. -/
structure Applies (lib : EntryLibrary) (subject : Subject) (server : ServerEntry ρ)
    (policy : ExtraPolicy) : Prop where
  contained : contains lib server policy = true
  conditions : matchAll lib.toStandardLibrary
    (runtimeConditions policy.mode policy.conditions) subject = true
  assigned : policy.mode = .split → policy.assignedEntryHost ≠ ""

def Decides (lib : EntryLibrary) (subject : Subject) (policies : List ExtraPolicy)
    (server : ServerEntry ρ) (policy : ExtraPolicy) : Prop :=
  ∃ earlier later, policies = earlier ++ policy :: later ∧ Applies lib subject server policy ∧
    ∀ other ∈ earlier, ¬Applies lib subject server other

def ruled (resolve : String → Int → Int → String) (userID : Int) (server : ServerEntry ρ)
    (policy : ExtraPolicy) : Option (ServerEntry ρ) :=
  match policy.action with
  | .hide => none
  | .original => some { server with entryOnly := false, policyId := some policy.id }
  | .override =>
    let entryHost := if policy.mode = .split then policy.assignedEntryHost else policy.entryHost
    some { server with
      entryOnly := false
      policyId := some policy.id
      host := if policy.resolveEntryHost then resolve entryHost userID policy.id else entryHost }

/-- A server without a policy is delivered unless it is an entry only. -/
def unruled (server : ServerEntry ρ) : Option (ServerEntry ρ) :=
  if server.entryOnly then none else some { server with entryOnly := false }

theorem applies_iff : Applies lib subject server policy ↔
    contains lib server policy = true ∧ policyMatches lib subject policy = true := by
  unfold policyMatches
  constructor
  · rintro ⟨contained, conditions, assigned⟩
    refine ⟨contained, ?_⟩
    dsimp only
    split
    next split => simp [conditions, assigned split]
    next standard => exact conditions
  · rintro ⟨contained, matched⟩
    dsimp only at matched
    split at matched
    next split =>
      rw [Bool.and_eq_true, decide_eq_true_eq] at matched
      exact ⟨contained, matched.1, fun _ => matched.2⟩
    next standard => exact ⟨contained, matched, fun split => absurd split standard⟩

private theorem decides_or_not (lib : EntryLibrary) (subject : Subject)
    (policies : List ExtraPolicy) (server : ServerEntry ρ) :
    (∃ policy, Decides lib subject policies server policy) ∨
      ∀ policy ∈ policies, ¬Applies lib subject server policy := by
  induction policies with
  | nil => exact .inr fun _ member => (List.not_mem_nil member).elim
  | cons first policies ih =>
    by_cases applies : Applies lib subject server first
    · left
      exact ⟨first, [], policies, rfl, applies, fun _ member => (List.not_mem_nil member).elim⟩
    rcases ih with ⟨policy, earlier, later, rfl, here, none⟩ | none
    · left
      refine ⟨policy, first :: earlier, later, rfl, here, ?_⟩
      intro other member
      rcases List.mem_cons.mp member with rfl | before
      · exact applies
      · exact none other before
    · right
      intro other member
      rcases List.mem_cons.mp member with rfl | before
      · exact applies
      · exact none other before

/-! ## One server -/

def Walk.decided (resolve : String → Int → Int → String) (userID : Int) (policy : ExtraPolicy)
    (walk : Walk ρ) : Walk ρ :=
  if policy.action = .hide then { walk with hide := true }
  else
    { walk with
      matchedPolicyIDs := policy.id :: walk.matchedPolicyIDs
      granted := true
      server := { overrideHost resolve userID policy walk.server with
        policyId := some policy.id } }

private theorem walkPolicies_skip {earlier later : List ExtraPolicy} {walk : Walk ρ}
    (none : ∀ policy ∈ earlier, ¬Applies lib subject server policy) :
    walkPolicies lib resolve subject (normalType lib server) server.id (earlier ++ later) walk =
      walkPolicies lib resolve subject (normalType lib server) server.id later walk := by
  induction earlier with
  | nil => rfl
  | cons policy earlier ih =>
    have rest := ih fun other member => none other (List.mem_cons_of_mem policy member)
    have here := none policy List.mem_cons_self
    rw [applies_iff, not_and] at here
    rw [List.cons_append, walkPolicies]
    split
    next absent => exact rest
    next contained =>
      have matched := here (Bool.of_not_eq_false contained)
      rw [if_pos (Bool.of_not_eq_true matched), rest]

private theorem walkPolicies_decided {walk : Walk ρ}
    (decides : Decides lib subject policies server policy) :
    walkPolicies lib resolve subject (normalType lib server) server.id policies walk =
      walk.decided resolve subject.userID policy := by
  obtain ⟨earlier, later, rfl, applies, none⟩ := decides
  obtain ⟨contained, matched⟩ := applies_iff.mp applies
  rw [walkPolicies_skip none, walkPolicies, if_neg, if_neg]
  · rfl
  · simp [matched]
  · rw [Bool.not_eq_false]
    exact contained

private theorem walkPolicies_undecided {walk : Walk ρ}
    (none : ∀ policy ∈ policies, ¬Applies lib subject server policy) :
    walkPolicies lib resolve subject (normalType lib server) server.id policies walk = walk := by
  have skipped : walkPolicies lib resolve subject (normalType lib server) server.id
      (policies ++ []) walk = walk := walkPolicies_skip none
  rw [List.append_nil] at skipped
  exact skipped

def Walk.delivered (walk : Walk ρ) : Option (ServerEntry ρ) :=
  if walk.hide || !walk.granted then none else some walk.server

def delivered (lib : EntryLibrary) (resolve : String → Int → Int → String) (subject : Subject)
    (policies : List ExtraPolicy) (server : ServerEntry ρ) : Option (ServerEntry ρ) :=
  (walkServer lib resolve subject policies [] server).delivered

def Serves (lib : EntryLibrary) (subject : Subject) (policies : List ExtraPolicy)
    (server : ServerEntry ρ) (policy : ExtraPolicy) : Prop :=
  Decides lib subject policies server policy ∧ policy.action ≠ .hide

variable (resolve) in
private theorem walkServer_decided (ids : List Int)
    (decides : Decides lib subject policies server policy) :
    (walkServer lib resolve subject policies ids server).delivered =
      ruled resolve subject.userID server policy ∧
    (walkServer lib resolve subject policies ids server).matchedPolicyIDs =
      if policy.action = .hide then ids else policy.id :: ids := by
  rw [walkServer, walkPolicies_decided decides]
  cases action : policy.action with
  | hide => simp [Walk.decided, Walk.delivered, ruled, action]
  | original => simp [Walk.decided, Walk.delivered, ruled, overrideHost, action]
  | override => simp [Walk.decided, Walk.delivered, ruled, overrideHost, action]

variable (resolve) in
private theorem walkServer_undecided (ids : List Int)
    (none : ∀ policy ∈ policies, ¬Applies lib subject server policy) :
    (walkServer lib resolve subject policies ids server).delivered = unruled server ∧
    (walkServer lib resolve subject policies ids server).matchedPolicyIDs = ids := by
  rw [walkServer, walkPolicies_undecided none]
  constructor
  · cases entry : server.entryOnly with
    | true => simp [Walk.delivered, unruled, entry]
    | false => simp [Walk.delivered, unruled, entry]
  · rfl

theorem delivered_of_decides (decides : Decides lib subject policies server policy) :
    delivered lib resolve subject policies server = ruled resolve subject.userID server policy :=
  (walkServer_decided resolve [] decides).1

theorem delivered_of_none (none : ∀ policy ∈ policies, ¬Applies lib subject server policy) :
    delivered lib resolve subject policies server = unruled server :=
  (walkServer_undecided resolve [] none).1

theorem Decides.unique {other : ExtraPolicy} (first : Decides lib subject policies server policy)
    (second : Decides lib subject policies server other) : policy = other := by
  obtain ⟨earlier, later, rfl, applies, none⟩ := first
  obtain ⟨earlier', later', same, applies', none'⟩ := second
  rcases List.append_eq_append_iff.mp same with ⟨between, rfl, rest⟩ | ⟨between, rfl, rest⟩
  · cases between with
    | nil => exact (List.cons.inj rest).1
    | cons first between =>
      obtain ⟨rfl, -⟩ := List.cons.inj rest
      exact absurd applies (none' _ (by simp))
  · cases between with
    | nil => exact (List.cons.inj rest).1.symm
    | cons first between =>
      obtain ⟨rfl, -⟩ := List.cons.inj rest
      exact absurd applies' (none _ (by simp))

private theorem walkServer_spec (lib : EntryLibrary) (resolve : String → Int → Int → String)
    (subject : Subject) (policies : List ExtraPolicy) (ids : List Int) (server : ServerEntry ρ) :
    (walkServer lib resolve subject policies ids server).delivered =
      delivered lib resolve subject policies server ∧
    ∀ id, id ∈ (walkServer lib resolve subject policies ids server).matchedPolicyIDs ↔
      id ∈ ids ∨ ∃ policy, Serves lib subject policies server policy ∧ policy.id = id := by
  rcases decides_or_not lib subject policies server with ⟨policy, decides⟩ | none
  · obtain ⟨out, matched⟩ := walkServer_decided resolve ids decides
    refine ⟨out.trans (delivered_of_decides decides).symm, ?_⟩
    intro id
    rw [matched]
    split
    next hides =>
      constructor
      · exact .inl
      · rintro (before | ⟨other, ⟨decides', shown⟩, -⟩)
        · exact before
        · exact absurd (decides.unique decides' ▸ hides) shown
    next shown =>
      rw [List.mem_cons]
      constructor
      · rintro (rfl | before)
        · exact .inr ⟨policy, ⟨decides, shown⟩, rfl⟩
        · exact .inl before
      · rintro (before | ⟨other, ⟨decides', -⟩, rfl⟩)
        · exact .inr before
        · exact .inl (congrArg (fun p => p.id) (decides'.unique decides))
  · obtain ⟨out, matched⟩ := walkServer_undecided resolve ids none
    refine ⟨out.trans (delivered_of_none none).symm, ?_⟩
    intro id
    rw [matched]
    constructor
    · exact .inl
    · rintro (before | ⟨other, ⟨⟨earlier, later, rfl, applies, -⟩, -⟩, -⟩)
      · exact before
      · exact absurd applies (none other (by simp))

/-! ## All servers -/

theorem walkServers_spec (lib : EntryLibrary) (resolve : String → Int → Int → String)
    (subject : Subject) (policies : List ExtraPolicy) (servers : List (ServerEntry ρ)) :
    (walkServers lib resolve subject policies servers).1 =
      servers.filterMap (delivered lib resolve subject policies) ∧
    ∀ id, id ∈ (walkServers lib resolve subject policies servers).2 ↔
      ∃ server ∈ servers, ∃ policy, Serves lib subject policies server policy ∧ policy.id = id := by
  have step : ∀ state : List (ServerEntry ρ) × List Int,
      (servers.foldl (passServer lib resolve subject policies) state).1 =
          state.1 ++ servers.filterMap (delivered lib resolve subject policies) ∧
        ∀ id, id ∈ (servers.foldl (passServer lib resolve subject policies) state).2 ↔
          id ∈ state.2 ∨ ∃ server ∈ servers, ∃ policy,
            Serves lib subject policies server policy ∧ policy.id = id := by
    induction servers with
    | nil => intro state; simp
    | cons server servers ih =>
      rintro ⟨result, ids⟩
      obtain ⟨out, matched⟩ := walkServer_spec lib resolve subject policies ids server
      rw [List.foldl_cons, List.filterMap_cons, ← out, Walk.delivered, passServer]
      dsimp only
      split
      next gone =>
        obtain ⟨list, all⟩ := ih (result, _)
        refine ⟨list, fun id => (all id).trans ?_⟩
        rw [matched]
        simp [or_assoc]
      next shown =>
        obtain ⟨list, all⟩ := ih (result ++ [_], _)
        refine ⟨list.trans (List.append_assoc _ _ _), fun id => (all id).trans ?_⟩
        rw [matched]
        simp [or_assoc]
  obtain ⟨list, ids⟩ := step ([], [])
  refine ⟨list, fun id => (ids id).trans ?_⟩
  simp

/-! ## What a delivered server keeps -/

/-- A delivered server is the server up to its host and the marks of its policy. -/
structure Kept (server entry : ServerEntry ρ) : Prop where
  serverType : entry.serverType = server.serverType
  id : entry.id = server.id
  sort : entry.sort = server.sort
  rest : entry.rest = server.rest

private theorem ruled_kept {userID : Int} {entry : ServerEntry ρ}
    (shown : ruled resolve userID server policy = some entry) :
    Kept server entry ∧ entry.policyId = some policy.id := by
  unfold ruled at shown
  split at shown
  · cases shown
  · obtain rfl := Option.some.inj shown
    exact ⟨⟨rfl, rfl, rfl, rfl⟩, rfl⟩
  · obtain rfl := Option.some.inj shown
    exact ⟨⟨rfl, rfl, rfl, rfl⟩, rfl⟩

private theorem unruled_kept {entry : ServerEntry ρ} (shown : unruled server = some entry) :
    Kept server entry := by
  rw [unruled, Option.ite_none_left_eq_some] at shown
  obtain ⟨-, same⟩ := shown
  obtain rfl := Option.some.inj same
  exact ⟨rfl, rfl, rfl, rfl⟩

theorem delivered_kept {entry : ServerEntry ρ}
    (shown : delivered lib resolve subject policies server = some entry) : Kept server entry := by
  rcases decides_or_not lib subject policies server with ⟨policy, decides⟩ | none
  · rw [delivered_of_decides decides] at shown
    exact (ruled_kept shown).1
  · rw [delivered_of_none none] at shown
    exact unruled_kept shown

theorem delivered_sublist (lib : EntryLibrary) (resolve : String → Int → Int → String)
    (subject : Subject) (policies : List ExtraPolicy) (servers : List (ServerEntry ρ)) :
    ∃ remaining, remaining.Sublist servers ∧
      List.Forall₂ Kept remaining
        (servers.filterMap (delivered lib resolve subject policies)) := by
  induction servers with
  | nil => exact ⟨[], List.Sublist.refl _, .nil⟩
  | cons server servers ih =>
    obtain ⟨remaining, sublist, kept⟩ := ih
    rw [List.filterMap_cons]
    split
    next hidden => exact ⟨remaining, sublist.cons server, kept⟩
    next entry shown =>
      exact ⟨server :: remaining, sublist.cons_cons server, .cons (delivered_kept shown) kept⟩

private theorem Applies.same_key {other : ServerEntry ρ}
    (types : other.serverType = server.serverType)
    (ids : other.id = server.id) :
    Applies lib subject other policy ↔ Applies lib subject server policy := by
  have contained : contains lib other policy = contains lib server policy := by
    rw [contains, contains, normalType, normalType, types, ids]
  rw [applies_iff, applies_iff, contained]

private theorem Decides.same_key {other : ServerEntry ρ}
    (types : other.serverType = server.serverType)
    (ids : other.id = server.id) (decides : Decides lib subject policies server policy) :
    Decides lib subject policies other policy := by
  obtain ⟨earlier, later, same, applies, none⟩ := decides
  exact ⟨earlier, later, same, (Applies.same_key types ids).mpr applies,
    fun q member => mt (Applies.same_key types ids).mp (none q member)⟩

theorem not_delivered_of_hidden (decides : Decides lib subject policies server policy)
    (hidden : policy.action = .hide) {entry : ServerEntry ρ}
    (member : entry ∈ servers.filterMap (delivered lib resolve subject policies)) :
    ¬(entry.serverType = server.serverType ∧ entry.id = server.id) := by
  rintro ⟨types, ids⟩
  obtain ⟨origin, -, shown⟩ := List.mem_filterMap.mp member
  have kept := delivered_kept shown
  have decides' : Decides lib subject policies origin policy :=
    decides.same_key (kept.serverType.symm.trans types) (kept.id.symm.trans ids)
  rw [delivered_of_decides decides', ruled, hidden] at shown
  cases shown

/-! ## Other policies -/

private theorem walkPolicies_filter (lib : EntryLibrary) (resolve : String → Int → Int → String)
    (subject : Subject) (policies : List ExtraPolicy) (server : ServerEntry ρ) (walk : Walk ρ) :
    walkPolicies lib resolve subject (normalType lib server) server.id
        (policies.filter (contains lib server)) walk =
      walkPolicies lib resolve subject (normalType lib server) server.id policies walk := by
  induction policies with
  | nil => rfl
  | cons policy policies ih =>
    by_cases contained : contains lib server policy = true
    · rw [List.filter_cons_of_pos contained, walkPolicies, walkPolicies, ih]
    · have absent : clientEntryPolicyHasMember lib policy.members
          (normalType lib server, server.id) = false := Bool.eq_false_of_not_eq_true contained
      rw [List.filter_cons_of_neg contained, ih, walkPolicies, if_pos absent]

theorem delivered_filter (lib : EntryLibrary) (resolve : String → Int → Int → String)
    (subject : Subject) (policies : List ExtraPolicy) (server : ServerEntry ρ) :
    delivered lib resolve subject (policies.filter (contains lib server)) server =
      delivered lib resolve subject policies server := by
  rw [delivered, delivered, walkServer, walkServer, walkPolicies_filter]

/-! ## The walk of the delivery -/

/-! ## Extra nodes -/

variable (parse policies) in
private theorem addExtras_spec (ids : List Int) (result : List (ServerEntry ρ)) :
    (∀ policy ∈ policies, policy.extraNodes = [] ∨ policy.id ∉ ids) ∧
      addExtras parse ids result policies = result ∨
    ∃ earlier policy later, policies = earlier ++ policy :: later ∧
      (∀ other ∈ earlier, other.extraNodes = [] ∨ other.id ∉ ids) ∧
      policy.extraNodes ≠ [] ∧ policy.id ∈ ids ∧
      addExtras parse ids result policies =
        match policy.extraNodesPosition with
        | .before => numberedExtras parse result policy ++ result
        | .after => result ++ numberedExtras parse result policy := by
  induction policies with
  | nil => exact .inl ⟨fun _ member => (List.not_mem_nil member).elim, rfl⟩
  | cons first policies ih =>
    by_cases passed : first.extraNodes = [] ∨ first.id ∉ ids
    · have next : addExtras parse ids result (first :: policies) =
          addExtras parse ids result policies := by
        rw [addExtras]
        rcases passed with empty | unmatched
        · exact if_pos empty
        · rw [if_pos unmatched, ite_self]
      rw [next]
      rcases ih with ⟨none, same⟩ | ⟨earlier, policy, later, rfl, before, extras, matched, same⟩
      · left
        refine ⟨?_, same⟩
        intro policy member
        rcases List.mem_cons.mp member with rfl | later
        · exact passed
        · exact none policy later
      · right
        refine ⟨first :: earlier, policy, later, rfl, ?_, extras, matched, same⟩
        intro other member
        rcases List.mem_cons.mp member with rfl | later
        · exact passed
        · exact before other later
    · right
      rw [not_or, not_not] at passed
      refine ⟨[], first, policies, rfl, fun _ member => (List.not_mem_nil member).elim, passed.1,
        passed.2, ?_⟩
      rw [addExtras, if_neg passed.1, if_neg (not_not.mpr passed.2)]

theorem extraID_negative {policyID : Int} {index : Nat} (positive : 0 < policyID)
    (fits : policyID * 1000 + (index + 1) ≤ maxInt64) : extraID policyID index < 0 := by
  unfold maxInt64 at fits
  have product : wrap (policyID * 1000) = policyID * 1000 := by
    apply wrap_of_fits
    unfold Decimal.Fits
    omega
  have sum : wrap (policyID * 1000 + (index + 1)) = policyID * 1000 + (index + 1) := by
    apply wrap_of_fits
    unfold Decimal.Fits
    omega
  have negated : wrap (-(policyID * 1000 + (index + 1))) = -(policyID * 1000 + (index + 1)) := by
    apply wrap_of_fits
    unfold Decimal.Fits
    omega
  rw [extraID, product, sum, negated]
  omega

private theorem extraServers_negative {entry : ServerEntry ρ} (positive : 0 < policy.id)
    (fits : policy.id * 1000 + policy.extraNodes.length ≤ maxInt64)
    (member : entry ∈ extraServers parse policy) : entry.id < 0 := by
  obtain ⟨⟨raw, index⟩, listed, found⟩ := List.mem_filterMap.mp member
  obtain ⟨extra, -, rfl⟩ := Option.map_eq_some_iff.mp found
  have below : index < policy.extraNodes.length := by
    have bound := (List.mem_zipIdx listed).2.1
    omega
  apply extraID_negative positive
  omega

private theorem numberedExtras_negative {result : List (ServerEntry ρ)} {entry : ServerEntry ρ}
    (positive : 0 < policy.id)
    (fits : policy.id * 1000 + policy.extraNodes.length ≤ maxInt64)
    (member : entry ∈ numberedExtras parse result policy) : entry.id < 0 := by
  obtain ⟨index, below, rfl⟩ := List.mem_mapIdx.mp member
  have negative := extraServers_negative positive fits (List.getElem_mem below)
  exact negative

/-! ## What a user gets -/

/-- The id of a policy that decided one of the servers and did not hide it. -/
def Served (lib : EntryLibrary) (subject : Subject) (policies : List ExtraPolicy)
    (servers : List (ServerEntry ρ)) (id : Int) : Prop :=
  ∃ server ∈ servers, ∃ policy, Serves lib subject policies server policy ∧ policy.id = id

structure FirstDecides (lib : EntryLibrary) (parse : String → Option (ServerEntry ρ))
    (resolve : String → Int → Int → String) (subject : Subject) (policies : List ExtraPolicy)
    (servers kept result : List (ServerEntry ρ)) : Prop where
  pass : kept = servers.filterMap (delivered lib resolve subject policies)
  decided : ∀ (server : ServerEntry ρ) policy, Decides lib subject policies server policy →
    delivered lib resolve subject policies server = ruled resolve subject.userID server policy
  undecided : ∀ server : ServerEntry ρ,
    (∀ policy ∈ policies, ¬Applies lib subject server policy) →
      delivered lib resolve subject policies server = unruled server
  hidden : ∀ (server : ServerEntry ρ) policy, Decides lib subject policies server policy →
    policy.action = .hide → ∀ entry ∈ kept,
      ¬(entry.serverType = server.serverType ∧ entry.id = server.id)
  independent : ∀ (server : ServerEntry ρ) others,
    others.filter (contains lib server) = policies.filter (contains lib server) →
      delivered lib resolve subject others server = delivered lib resolve subject policies server
  ordered : ∃ remaining, remaining.Sublist servers ∧ List.Forall₂ Kept remaining kept
  extras :
    (∀ policy ∈ policies, policy.extraNodes = [] ∨ ¬Served lib subject policies servers policy.id) ∧
      result = kept ∨
    ∃ earlier policy later, policies = earlier ++ policy :: later ∧
      (∀ other ∈ earlier,
        other.extraNodes = [] ∨ ¬Served lib subject policies servers other.id) ∧
      policy.extraNodes ≠ [] ∧ Served lib subject policies servers policy.id ∧
      result = match policy.extraNodesPosition with
        | .before => numberedExtras parse kept policy ++ kept
        | .after => kept ++ numberedExtras parse kept policy
  serving : (policies.map fun p => p.id).Nodup → ∀ policy ∈ policies,
    (Served lib subject policies servers policy.id ↔
      ∃ server ∈ servers, Serves lib subject policies server policy)
  absent : (∀ policy ∈ policies,
      0 < policy.id ∧ policy.id * 1000 + policy.extraNodes.length ≤ maxInt64) →
    ∀ (server : ServerEntry ρ) policy, 0 ≤ server.id →
      Decides lib subject policies server policy → policy.action = .hide → ∀ entry ∈ result,
        ¬(entry.serverType = server.serverType ∧ entry.id = server.id)

/-- The first policy that applies decides what becomes of a server, and the first policy with
extra nodes that decided a server adds these. -/
theorem first_policy_decides (lib : EntryLibrary) (parse : String → Option (ServerEntry ρ))
    (resolve : String → Int → Int → String) (subject : Subject) (policies : List ExtraPolicy)
    (servers : List (ServerEntry ρ)) :
    ∃ kept, FirstDecides lib parse resolve subject policies servers kept
      (applyClientEntryUserPoliciesWithResolver lib parse resolve servers subject policies) := by
  obtain ⟨list, ids⟩ := walkServers_spec lib resolve subject policies servers
  have served : ∀ id, id ∈ (walkServers lib resolve subject policies servers).2 ↔
      Served lib subject policies servers id := ids
  have extras := addExtras_spec parse policies
    (walkServers lib resolve subject policies servers).2
    (walkServers lib resolve subject policies servers).1
  simp only [served, list] at extras
  refine ⟨servers.filterMap (delivered lib resolve subject policies), ?_⟩
  have result : applyClientEntryUserPoliciesWithResolver lib parse resolve servers subject
      policies = addExtras parse (walkServers lib resolve subject policies servers).2
        (servers.filterMap (delivered lib resolve subject policies)) policies := by
    rw [applyClientEntryUserPoliciesWithResolver, list]
  constructor
  case pass => rfl
  case decided => exact fun server policy => delivered_of_decides
  case undecided => exact fun server => delivered_of_none
  case hidden =>
    exact fun server policy decides hides entry => not_delivered_of_hidden decides hides
  case independent =>
    intro server others same
    rw [← delivered_filter lib resolve subject others, same, delivered_filter]
  case ordered => exact delivered_sublist lib resolve subject policies servers
  case extras =>
    rw [result]
    exact extras
  case serving =>
    intro distinct policy member
    constructor
    · rintro ⟨server, listed, other, serves, same⟩
      obtain ⟨earlier, later, whole, -⟩ := serves.1
      have here : other ∈ policies := by simp [whole]
      exact ⟨server, listed, List.inj_on_of_nodup_map distinct here member same ▸ serves⟩
    · rintro ⟨server, listed, serves⟩
      exact ⟨server, listed, policy, serves, rfl⟩
  case absent =>
    intro bounded server policy natural decides hides entry member
    rw [result] at member
    have apart : entry ∈ servers.filterMap (delivered lib resolve subject policies) →
        ¬(entry.serverType = server.serverType ∧ entry.id = server.id) :=
      not_delivered_of_hidden decides hides
    rcases extras with ⟨-, same⟩ | ⟨earlier, adding, later, whole, -, -, -, same⟩
    · exact apart (same ▸ member)
    · have listed : adding ∈ policies := by simp [whole]
      obtain ⟨positive, fits⟩ := bounded adding listed
      have added : entry ∈ numberedExtras parse
          (servers.filterMap (delivered lib resolve subject policies)) adding →
          ¬(entry.serverType = server.serverType ∧ entry.id = server.id) := by
        rintro extra ⟨-, ids⟩
        have negative := numberedExtras_negative positive fits extra
        omega
      rw [same] at member
      split at member
      · exact (List.mem_append.mp member).elim added apart
      · exact (List.mem_append.mp member).elim apart added

end

end ForestPanel.ClientEntry.Extras
