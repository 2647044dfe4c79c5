import ForestPanel.ClientEntry.Integrity
import ForestPanel.SupportEntry.Deciding

/-!
# A change does what was asked

A change that is accepted moves the address of its user, and nothing else. A request that is known
changes nothing more: it is answered with what is true now, or refused when its content is another.
It is known until a clean-up passes its time.
-/
namespace ForestPanel.SupportEntry

open ClientEntry Outcome Relational Transition

def decidingRule (lib : EntryLibrary) (rules : RuleBase) (user : UserRow) (ua : String) (now : Int)
    (serverType : String) (serverId : Int) : Except String (Option Ruling) :=
  (loadClientEntryUserPolicies lib rules user.id).map fun loaded =>
    (matchedPolicy lib (subscriptionSubject user ua now) loaded serverType serverId).map
      LoadedPolicy.ruling

/-- No listed address folds to the user's without being it. -/
def PlainFor (lib : FoldLibrary) (rules : RuleBase) (user : UserRow) : Prop :=
  ∀ row ∈ rules.policies, ∀ conditions index emails, Editable lib row conditions index emails →
    Plain lib emails (normalEmail lib user.email)

/-- The list of a rule after a change: without the address, or with it when the rule was chosen. -/
structure ListAsked (lib : FoldLibrary) (email : String) (chosen : Bool)
    (conditions : List Condition) (index : Nat) (emails : List String) (after : PolicyRow)
    (emails' : List String) : Prop where
  stored : Editable lib after (replaceValues conditions index (emails'.map rawQuoted)) index emails'
  members : ∀ other, other ∈ emails' ↔
    (other ∈ emails ∧ other ≠ email) ∨ (other = email ∧ chosen = true)
  order : emails'.filter (fun other => other ≠ email) = emails.filter fun other => other ≠ email
  denied : emails' = [] → ∀ subject, matchAll lib.toStandardLibrary
    (replaceValues conditions index (emails'.map rawQuoted)) subject = false

variable {ρ ε : Type}

structure ChangedAsAsked (lib : SupportLibrary ρ ε) (base base' : SupportBase) (user : UserRow)
    (chosen : Option Int) : Prop where
  tables : base'.rules = { base.rules with policies := base'.rules.policies }
  accounts : base'.accounts = base.accounts
  rows : List.Forall₂ (fun before after : PolicyRow =>
      after = { before with conditions := after.conditions, updatedAt := after.updatedAt })
    base.rules.policies.rows base'.rules.policies.rows
  lists : ∀ before ∈ base.rules.policies, ∀ conditions index emails,
    Editable lib.toFoldLibrary before conditions index emails →
    ∃ after ∈ base'.rules.policies, after.id = before.id ∧ ∃ emails',
      ListAsked lib.toFoldLibrary (normalEmail lib.toFoldLibrary user.email)
        (chosen = some before.id) conditions index emails after emails'
  others : ∀ before ∈ base.rules.policies,
    (¬∃ conditions index emails, Editable lib.toFoldLibrary before conditions index emails) →
    before ∈ base'.rules.policies
  deciding : ∀ other ∈ base.rules.users, other.id ≠ user.id → ∀ ua now serverType serverId,
    decidingRule lib.toEntryLibrary base'.rules other ua now serverType serverId =
      decidingRule lib.toEntryLibrary base.rules other ua now serverType serverId
  nobody : ∀ before ∈ base.rules.policies, ∀ after ∈ base'.rules.policies, after.id = before.id →
    ∀ old new, decodeConditions lib.toStandardLibrary before.conditions = .ok old →
      decodeConditions lib.toStandardLibrary after.conditions = .ok new →
      (∀ subject, matchAll lib.toStandardLibrary old subject = false) →
      ∃ subject, matchAll lib.toStandardLibrary new subject = false
  overrides : ∀ o : OverrideRow, o.userID ≠ user.id → (o ∈ base'.overrides ↔ o ∈ base.overrides)

variable {before after : PolicyRow} {email : String} {chosen : Option Int}
  {receipt : RequestReceipt}

section

variable {lib : SupportLibrary ρ ε} {base base' : SupportBase} {actorID now : Int}
  {req : SupportEntryChangeRequest} {result : SupportUserResult ρ ε}

theorem row_after {R : PolicyRow → PolicyRow → Prop} {policies policies' : PolicyTable}
    (rows : List.Forall₂ R policies.rows policies'.rows) (keeps : ∀ a b, R a b → b.id = a.id)
    (member : before ∈ policies) : ∃ after ∈ policies', after.id = before.id ∧ R before after := by
  obtain ⟨after, listed, related⟩ := related_of_mem rows member
  exact ⟨after, listed, keeps _ _ related, related⟩

theorem row_related {R : PolicyRow → PolicyRow → Prop} {policies policies' : PolicyTable}
    (rows : List.Forall₂ R policies.rows policies'.rows) (keeps : ∀ a b, R a b → b.id = a.id)
    (member : before ∈ policies) (listed : after ∈ policies') (same : after.id = before.id) :
    R before after := by
  obtain ⟨other, among, id, related⟩ := row_after rows keeps member
  rw [policies'.eq_of_key listed among (same.trans id.symm)]
  exact related

theorem RowChanged.id {lib : FoldLibrary} {a b : PolicyRow}
    (changed : RowChanged lib email chosen a b) : b.id = a.id := by rw [changed.frame]

structure Applied (lib : SupportLibrary ρ ε) (base base' : SupportBase) (actorID : Int)
    (req : SupportEntryChangeRequest) (now : Int) (preview : SupportEntryPreview ρ)
    (target : Option SupportEntryTarget) (listed : Bool) : Prop where
  shown : previewSupportEntries lib base req.userID req.ua now = .ok preview
  version : req.version = preview.membership.version
  chosen : chooseTarget preview.membership req = .ok target
  apart : emailCollisions lib base preview.user = 0
  lists : preview.membership.policies.foldlM (updateList lib preview.user.email
    (target.map fun t => t.policyID) now) (base.rules, false) = .ok (base'.rules, listed)
  accounts : base'.accounts = base.accounts
  overrides : base'.overrides = clearOverrides base.overrides req.userID actorID now
  record : ∃ o : Operation SupportOperationState, base.log.record? o = some base'.log ∧
    o.receipt = ⟨actorID, req.requestID, "entry_membership", supportChangeHash lib req, now⟩

theorem applied_of_ok (accepted : applyChange lib base actorID req now = .ok (result, base')) :
    ∃ preview target listed, Applied lib base base' actorID req now preview target listed := by
  simp only [applyChange, bind_eq_ok, ensure_eq_ok, exists_const, require_eq_ok] at accepted
  obtain ⟨preview, shown, version, target, chosen, apart, ⟨rules, listed⟩, lists, -, after, -, log,
    recorded, answer, -, returned⟩ := accepted
  obtain ⟨rfl, rfl⟩ := Prod.mk.inj (Except.ok.inj returned)
  exact ⟨preview, target, listed, shown, version, chosen, apart, lists, rfl, rfl, _, recorded, rfl⟩

theorem preview_ok {userID : Int} {ua : String} {preview : SupportEntryPreview ρ}
    (shown : previewSupportEntries lib base userID ua now = .ok preview) :
    base.rules.users.find? userID = some preview.user ∧
      loadSupportEntryMembershipPolicies lib.toFoldLibrary base.rules =
        .ok preview.membership.policies ∧
      ∀ t ∈ preview.membership.targets, t.key = policyKey t.policyID := by
  simp only [previewSupportEntries, bind_eq_ok, require_eq_ok, mapError_eq_ok] at shown
  obtain ⟨user, found, ⟨shows, effective⟩, -, membership, loaded, returned⟩ := shown
  obtain rfl := Except.ok.inj returned
  simp only [loadSupportEntryMembership, bind_eq_ok] at loaded
  obtain ⟨policies, read, returned⟩ := loaded
  obtain rfl := Except.ok.inj returned
  refine ⟨found, read, fun t member => ?_⟩
  obtain ⟨p, -, same⟩ := List.mem_filterMap.mp member
  unfold SupportEntryMembershipPolicy.target at same
  split at same
  next => cases same
  next =>
    split at same
    next => cases same
    next =>
      obtain rfl := Option.some.inj same
      rfl

theorem chosen_named {membership : SupportEntryMembership} {target : Option SupportEntryTarget}
    (keys : ∀ t ∈ membership.targets, t.key = policyKey t.policyID)
    (chosen : chooseTarget membership req = .ok target) :
    (target.map fun t => policyKey t.policyID) =
      if req.restore = true then none else some req.targetKey := by
  unfold chooseTarget at chosen
  by_cases restore : req.restore = true
  · rw [if_pos restore] at chosen ⊢
    obtain rfl := Except.ok.inj chosen
    rfl
  · rw [if_neg restore] at chosen ⊢
    cases found : membership.targets.find? fun candidate => candidate.key = req.targetKey with
    | none =>
      rw [found] at chosen
      cases chosen
    | some t =>
      rw [found] at chosen
      dsimp only at chosen
      split at chosen
      next => cases chosen
      next =>
        obtain rfl := Except.ok.inj chosen
        have named := List.find?_some found
        rw [decide_eq_true_eq] at named
        rw [Option.map_some, ← keys t (List.mem_of_find?_eq_some found), named]

theorem apart_of_no_collision {user other : UserRow} (apart : emailCollisions lib base user = 0)
    (member : other ∈ base.rules.users) (different : other.id ≠ user.id) :
    normalEmail lib.toFoldLibrary other.email ≠ normalEmail lib.toFoldLibrary user.email := by
  intro same
  have none := List.countP_eq_zero.mp apart other member
  have folded := lib.lowerTrim_normal _ _ same
  simp [folded, different] at none

theorem nobody_of_changed {lib : FoldLibrary} (changed : RowChanged lib email chosen before after)
    {old new : List Condition}
    (oldRead : decodeConditions lib.toStandardLibrary before.conditions = .ok old)
    (newRead : decodeConditions lib.toStandardLibrary after.conditions = .ok new)
    (nobody : ∀ subject, matchAll lib.toStandardLibrary old subject = false) :
    ∃ subject, matchAll lib.toStandardLibrary new subject = false := by
  refine ⟨⟨0, "", 0, 0, ""⟩, ?_⟩
  by_cases editable : ∃ conditions index emails, Editable lib before conditions index emails
  · -- an e-mail list matches nobody without an address
    obtain ⟨conditions, index, emails, editable⟩ := editable
    have stored := changed.list conditions index emails editable
    rw [stored.decoded] at newRead
    obtain rfl := Except.ok.inj newRead
    obtain ⟨first, last, -, whole, -⟩ := stored.list.parts
    rw [whole, matchAll, List.all_eq_false]
    refine ⟨_, List.mem_append_right _ List.mem_cons_self, fun passes => ?_⟩
    have member := (matchCondition_emailList stored.list.holds _).mp passes
    have empty : normalEmail lib "" = "" := lib.lower_word (by decide)
    rw [empty] at member
    exact (stored.list.holds.listed "" member).nonempty rfl
  · rw [changed.others editable, oldRead] at newRead
    obtain rfl := Except.ok.inj newRead
    exact nobody _

theorem listAsked_of_changed {lib : FoldLibrary}
    (changed : RowChanged lib email chosen before after) {conditions : List Condition} {index : Nat}
    {emails : List String} (editable : Editable lib before conditions index emails) :
    ListAsked lib email (chosen = some before.id) conditions index emails after
      (askedList emails email (chosen = some before.id)) := by
  have stored := changed.list conditions index emails editable
  refine ⟨stored, fun other => mem_askedList, askedList_others, fun empty subject => ?_⟩
  obtain ⟨first, last, -, whole, -⟩ := stored.list.parts
  have list := stored.list.holds
  rw [whole, matchAll, List.all_eq_false]
  refine ⟨_, List.mem_append_right _ List.mem_cons_self, fun passes => ?_⟩
  have member := (matchCondition_emailList list _).mp passes
  rw [empty] at member
  exact List.not_mem_nil member

theorem Applied.asked {preview : SupportEntryPreview ρ} {target : Option SupportEntryTarget}
    {listed : Bool} (applied : Applied lib base base' actorID req now preview target listed)
    (plain : PlainFor lib.toFoldLibrary base.rules preview.user) :
    ChangedAsAsked lib base base' preview.user (target.map fun t => t.policyID) := by
  obtain ⟨found, loaded, keys⟩ := preview_ok applied.shown
  have user : preview.user.id = req.userID := Table.key_of_find? found
  obtain ⟨tables, rows⟩ := lists_updated loaded plain applied.lists
  constructor
  case tables => exact tables
  case accounts => exact applied.accounts
  case rows => exact rows.imp fun _ _ changed => changed.frame
  case lists =>
    intro before member conditions index emails editable
    obtain ⟨after, listed, id, changed⟩ := row_after rows (fun _ _ changed => changed.id) member
    exact ⟨after, listed, id, _, listAsked_of_changed changed editable⟩
  case others =>
    intro before member other
    obtain ⟨after, listed, id, changed⟩ := row_after rows (fun _ _ changed => changed.id) member
    rw [changed.others other] at listed
    exact listed
  case deciding =>
    intro other member different ua now serverType serverId
    have apart : Apart lib.toFoldLibrary (normalEmail lib.toFoldLibrary preview.user.email)
        (subscriptionSubject other ua now) := apart_of_no_collision applied.apart member different
    have same := ruling_unchanged rows apart other.id serverType serverId
    rw [decidingRule, tables]
    exact same
  case nobody =>
    intro before member after listed same old new oldRead newRead
    have changed := row_related rows (fun _ _ changed => changed.id) member listed same
    exact nobody_of_changed changed oldRead newRead
  case overrides =>
    intro o other
    rw [user] at other
    rw [applied.overrides, clearOverrides, Table.mem_updateWhere]
    constructor
    · rintro ⟨before, member, same⟩
      split at same
      next mine =>
        rw [← same] at other
        simp only [Bool.and_eq_true, decide_eq_true_eq] at mine
        exact absurd mine.1 other
      next =>
        rw [← same]
        exact member
    · intro member
      exact ⟨o, member, if_neg (by simp [other])⟩

theorem changeSupportEntry_ok
    (accepted : changeSupportEntry lib base actorID req now = .ok (result, base')) :
    ∃ normal, normalizeSupportChange req = .ok normal ∧
      ((base.log.saved (actorID, normal.requestID) =
          some ("entry_membership", supportChangeHash lib normal) ∧ base' = base ∧
        previewSupportEntries lib base normal.userID normal.ua now = .ok result.preview) ∨
      (base.log.saved (actorID, normal.requestID) = none ∧
        applyChange lib base actorID normal now = .ok (result, base'))) := by
  simp only [changeSupportEntry, bind_eq_ok, ensure_eq_ok, exists_const] at accepted
  obtain ⟨-, -, normal, normalized, -, -, accepted⟩ := accepted
  refine ⟨normal, normalized, ?_⟩
  cases known : base.log.saved (actorID, normal.requestID) with
  | none =>
    rw [known] at accepted
    exact Or.inr ⟨rfl, accepted⟩
  | some record =>
    obtain ⟨kind, hash⟩ := record
    rw [known] at accepted
    simp only [bind_eq_ok, ensure_eq_ok, exists_const] at accepted
    obtain ⟨⟨rfl, rfl⟩, preview, shown, answer, entitled, returned⟩ := accepted
    obtain ⟨rfl, rfl⟩ := Prod.mk.inj (Except.ok.inj returned)
    simp only [supportUserResultWithEntitlement, bind_eq_ok] at entitled
    obtain ⟨entitlement, -, same⟩ := entitled
    obtain rfl := Except.ok.inj same
    exact Or.inl ⟨rfl, rfl, shown⟩

def Act.Keeps (createdAt : Int) (act : Act) : Prop := ∀ cutoff, act = .cleanup cutoff → cutoff ≤ createdAt

theorem kept_step (kept : Kept base.log receipt) {act : Act} (recent : act.Keeps receipt.createdAt)
    :
    Kept (step lib base act).log receipt := by
  cases act with
  | change actorID req now =>
    refine commit_cases (P := fun s : SupportBase => Kept s.log receipt) base _ kept ?_
    intro base' returned
    cases outcome : changeSupportEntry lib base actorID req now with
    | error e =>
      rw [outcome] at returned
      cases returned
    | ok pair =>
      obtain ⟨result, changed⟩ := pair
      rw [outcome] at returned
      obtain rfl := Except.ok.inj returned
      obtain ⟨normal, -, ⟨-, same, -⟩ | ⟨fresh, applies⟩⟩ := changeSupportEntry_ok outcome
      · dsimp only
        rw [same]
        exact kept
      · obtain ⟨preview, target, listed, applied⟩ := applied_of_ok applies
        obtain ⟨o, recorded, stored⟩ := applied.record
        have key : o.key = (actorID, normal.requestID) := congrArg RequestReceipt.key stored
        rw [← key] at fresh
        exact kept.record fresh recorded
  | other operation =>
    rw [step]
    split
    next fresh =>
      cases recorded : base.log.record? operation with
      | none => exact kept
      | some log => exact kept.record fresh recorded
    next => exact kept
  | clear throughID => exact kept.clear throughID
  | cleanup cutoff => exact kept.cleanup (recent cutoff rfl)
  | edit rules accounts overrides => exact kept

theorem kept_run {acts : List Act} (kept : Kept base.log receipt)
    (recent : ∀ act ∈ acts, act.Keeps receipt.createdAt) :
    Kept (run (step lib) base acts).log receipt := by
  induction acts generalizing base with
  | nil => exact kept
  | cons act acts ih =>
    exact ih (kept_step kept (recent act List.mem_cons_self)) fun other member =>
      recent other (List.mem_cons_of_mem _ member)

theorem known_again (kept : Kept base.log receipt)
    (accepted : changeSupportEntry lib base actorID req now = .ok (result, base'))
    {normal : SupportEntryChangeRequest} (normalized : normalizeSupportChange req = .ok normal)
    (same : receipt.key = (actorID, normal.requestID)) :
    base' = base ∧ supportChangeHash lib normal = receipt.requestHash ∧
      previewSupportEntries lib base normal.userID normal.ua now = .ok result.preview := by
  have saved := kept.saved
  rw [same] at saved
  obtain ⟨other, again, ⟨known, unchanged, shown⟩ | ⟨fresh, -⟩⟩ := changeSupportEntry_ok accepted
  · rw [normalized] at again
    obtain rfl := Except.ok.inj again
    rw [saved] at known
    exact ⟨unchanged, ((Prod.mk.inj (Option.some.inj known)).2).symm, shown⟩
  · rw [normalized] at again
    obtain rfl := Except.ok.inj again
    rw [saved] at fresh
    cases fresh

end

def asciiFoldLibrary : FoldLibrary where
  toEntryLibrary := asciiEntryLibrary
  fold c := if c = 'ſ' then 's' else c.toLower

def asciiSupportLibrary : SupportLibrary Unit Unit where
  toFoldLibrary := asciiFoldLibrary
  digest _ versions _ := versions.countP VersionPolicy.member
  hash req := req.targetKey
  lowerTrim email := asciiLibrary.lower (trimSpace email)
  lowerTrim_normal := fun _ _ same => same
  scopes _ _ _ _ := .ok ((), fun _ => false)
  entitlement _ _ := .ok ()

private def listedRule (id : Int) (values : String) : PolicyRow :=
  ⟨id, "group", id, .standard, .override,
    "[\x7b\"field\":\"email\",\"operator\":\"in\",\"values\":[" ++ values ++ "]\x7d]",
    "entry.example", 0, [], 1, "", 0⟩

private def twoGroups : SupportBase where
  rules :=
    { emptyRuleBase with
      policies :=
        { rows := [listedRule 1 "\"ſam@x.example\"", listedRule 2 ""]
          keyed := by decide
          unique := by decide }
      members :=
        { rows := [⟨1, "vmess", 1, 10⟩, ⟨2, "vmess", 1, 10⟩]
          keyed := by decide
          unique := by decide }
      users :=
        { rows := [⟨7, "sam@x.example", none, 1⟩, ⟨8, "ſam@x.example", none, 1⟩]
          keyed := by decide
          unique := by decide } }
  accounts :=
    { rows := [⟨5, 0, 0, 1⟩, ⟨7, 0, 0, 0⟩, ⟨8, 0, 0, 0⟩]
      keyed := by decide
      unique := by decide }
  overrides := Table.empty
  log := ⟨Table.empty, Table.empty, 1⟩

private def intoSecond : SupportEntryChangeRequest := ⟨7, 0, "policy:2", false, "ask", 0, 1, "r1", ""⟩
private def outAgain : SupportEntryChangeRequest := ⟨7, 0, "", true, "ask", 0, 1, "r2", ""⟩

private def groupsShown (base : SupportBase) (req : SupportEntryChangeRequest) (now : Int) :
    Option (List Int) :=
  match changeSupportEntry asciiSupportLibrary base 5 req now with
  | .ok (result, _) => some (result.preview.membership.currentGroups.map fun g => g.policyID)
  | .error _ => none

private def decidedFor (base : SupportBase) (user : UserRow) : Option (Option Int) :=
  match decidingRule asciiEntryLibrary base.rules user "" 200 "vmess" 1 with
  | .ok ruling => some (ruling.map fun r => r.policyId)
  | .error _ => none

end ForestPanel.SupportEntry
