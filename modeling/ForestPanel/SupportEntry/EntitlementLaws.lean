import ForestPanel.SupportEntry.Entitlement
import Mathlib.Algebra.BigOperators.Group.List.Basic
import Mathlib.Algebra.Ring.Int.Defs

/-!
# Entitlements are changed as named

A request that is not known yet sets the columns that it names, and the time of the update, from
the row that is locked. `named` is that row. From then on its id changes nothing more, and traffic
is lost only where a request resets it.
-/
namespace ForestPanel.SupportEntitlement

open Outcome Relational SupportEntry Transition

variable {userID : Int} {shown : SupportEntitlementSnapshot}
  {normal : SupportEntitlementChangeRequest}

section

variable {ρ : Type}

/-! ## The row that is asked for -/

def differentPlan (plans : Table PlanRow.id PlanRow.id) (req : SupportEntitlementChangeRequest)
    (planID : Option Int) : Option PlanRow :=
  (req.planID.filter fun id => planID ≠ some id).bind plans.find?

/-- The expiry that is stored: as it was where it means the same. -/
def namedExpiry (stored : Option Int) : Option RawExpiry → Option Int
  | some (.value expiry) => if shownExpiry stored = expiry then stored else expiry
  | _ => stored

/-- What a request names: another plan with its group, limits and quota, a quota, an expiry, and
usage of zero. -/
def named (plan : Option PlanRow) (req : SupportEntitlementChangeRequest) (row : UserRow ρ) :
    UserRow ρ :=
  { row with
    planID := plan.elim row.planID fun p => some p.id
    groupID := plan.elim row.groupID fun p => some p.groupID
    deviceLimit := plan.elim row.deviceLimit fun p => p.deviceLimit
    speedLimit := plan.elim row.speedLimit fun p => p.speedLimit
    transferEnable := req.transferEnable.getD
      (plan.elim row.transferEnable fun p => planTransferEnableBytes p.transferEnable)
    expiredAt := namedExpiry row.expiredAt req.expiredAt
    u := if req.resetUsage = true then 0 else row.u
    d := if req.resetUsage = true then 0 else row.d }

/-! ## The columns that are written -/

def planWrites (plan : PlanRow) : List Write :=
  [.planID plan.id, .groupID (some plan.groupID), .deviceLimit plan.deviceLimit,
    .speedLimit plan.speedLimit]

theorem applyWrites_append (row : UserRow ρ) (first second : List Write) :
    applyWrites row (first ++ second) = applyWrites (applyWrites row first) second := by
  simp [applyWrites]

theorem changePlan_ok {plans : Table PlanRow.id PlanRow.id} {req : SupportEntitlementChangeRequest}
    {before : SupportEntitlementSnapshot} {planned : SupportEntitlementSnapshot × List Write}
    (returned : changePlan plans req before = .ok planned) :
    ∃ plan : Option PlanRow, plan = differentPlan plans req before.planID ∧
      (plan = none → req.planID.filter (fun id => before.planID ≠ some id) = none) ∧
      (∀ p, plan = some p → plans.find? p.id = some p) ∧
      planned.2 = plan.elim [] planWrites ∧
      planned.1 = plan.elim before fun p => { before with
        planID := some p.id
        planName := p.name
        groupID := some p.groupID
        deviceLimit := p.deviceLimit
        speedLimit := p.speedLimit
        transferEnable := planTransferEnableBytes p.transferEnable } := by
  unfold changePlan at returned
  unfold differentPlan
  cases other : req.planID.filter fun id => before.planID ≠ some id with
  | none =>
    rw [other] at returned
    obtain rfl := Except.ok.inj returned
    refine ⟨none, rfl, fun _ => rfl, ?_, rfl, rfl⟩
    rintro _ ⟨⟩
  | some id =>
    rw [other] at returned
    simp only [bind_eq_ok, require_eq_ok, ensure_eq_ok, exists_const] at returned
    obtain ⟨plan, found, -, returned⟩ := returned
    obtain rfl := Except.ok.inj returned
    have key : plan.id = id := Table.key_of_find? found
    refine ⟨some plan, found.symm, ?_, ?_, rfl, rfl⟩
    · rintro ⟨⟩
    · rintro p same
      obtain rfl := Option.some.inj same
      rwa [key]

section

variable {row : UserRow ρ} {req : SupportEntitlementChangeRequest}
  {before : SupportEntitlementSnapshot} {progress : SupportEntitlementSnapshot × List Write}

theorem changeQuota_written (same : (applyWrites row progress.2).transferEnable =
      before.transferEnable) :
    applyWrites row (changeQuota req before progress).2 =
      { applyWrites row progress.2 with
        transferEnable := req.transferEnable.getD progress.1.transferEnable } := by
  rw [changeQuota, applyWrites_append]
  dsimp only
  split
  next => rfl
  next equal =>
    rw [not_not.mp equal, ← same]
    rfl

theorem changeExpiry_written (same : before.expiredAt =
      shownExpiry (applyWrites row progress.2).expiredAt) :
    applyWrites row (changeExpiry req before progress).2 =
      { applyWrites row progress.2 with
        expiredAt := namedExpiry (applyWrites row progress.2).expiredAt req.expiredAt } := by
  unfold changeExpiry namedExpiry
  cases req.expiredAt with
  | none => rfl
  | some raw =>
    cases raw with
    | invalid => rfl
    | value expiry =>
      dsimp only
      rw [applyWrites_append, same]
      by_cases equal : shownExpiry (applyWrites row progress.2).expiredAt = expiry
      · rw [if_neg (not_not.mpr equal), if_pos equal]
        rfl
      · rw [if_pos equal, if_neg equal]
        rfl

theorem unused_eq {r : UserRow ρ} (up : r.u = 0) (down : r.d = 0) : r = { r with u := 0, d := 0 } := by
  cases r
  dsimp only at up down
  subst up down
  rfl

theorem resetUsage_written (same : (applyWrites row progress.2).u = before.u)
    (same' : (applyWrites row progress.2).d = before.d) :
    applyWrites row (resetUsage req before progress).2 =
      { applyWrites row progress.2 with
        u := if req.resetUsage = true then 0 else (applyWrites row progress.2).u
        d := if req.resetUsage = true then 0 else (applyWrites row progress.2).d } := by
  unfold resetUsage
  by_cases reset : req.resetUsage = true
  · rw [if_pos reset, if_pos reset]
    by_cases used : before.u ≠ 0 ∨ before.d ≠ 0
    · rw [if_pos ⟨reset, used⟩, applyWrites_append]
      rfl
    · -- Nothing is written where nothing was used.
      push Not at used
      rw [if_neg fun both => by simp [used] at both]
      exact unused_eq (same.trans used.1) (same'.trans used.2)
  · rw [if_neg fun both => reset both.1, if_neg reset, if_neg reset]

theorem shownExpiry_value {stored expiry : Option Int}
    (allowed : expiryAllowed (some (.value expiry)) = true) :
    shownExpiry (namedExpiry stored (some (.value expiry))) = expiry := by
  unfold namedExpiry
  dsimp only
  split
  next same => exact same
  next =>
    cases expiry with
    | none => rfl
    | some time =>
      simp only [expiryAllowed, Bool.and_eq_true, decide_eq_true_eq] at allowed
      simp [shownExpiry, allowed.1]

theorem changeExpiry_shown {stored : Option Int} (allowed : expiryAllowed req.expiredAt = true)
    (same : progress.1.expiredAt = shownExpiry stored) :
    (changeExpiry req before progress).1 =
      { progress.1 with expiredAt := shownExpiry (namedExpiry stored req.expiredAt) } := by
  unfold changeExpiry
  cases raw : req.expiredAt with
  | none =>
    rw [namedExpiry, ← same]
    rintro _ ⟨⟩
  | some value =>
    rw [raw] at allowed
    cases value with
    | invalid =>
      rw [namedExpiry, ← same]
      rintro _ ⟨⟩
    | value expiry => rw [shownExpiry_value allowed]

theorem unused_shown_eq {s : SupportEntitlementSnapshot} (up : s.u = 0) (down : s.d = 0) :
    s = { s with u := 0, d := 0 } := by
  cases s
  dsimp only at up down
  subst up down
  rfl

theorem resetUsage_shown (same : progress.1.u = before.u) (same' : progress.1.d = before.d) :
    (resetUsage req before progress).1 =
      { progress.1 with
        u := if req.resetUsage = true then 0 else before.u
        d := if req.resetUsage = true then 0 else before.d } := by
  unfold resetUsage
  by_cases reset : req.resetUsage = true
  · rw [if_pos reset, if_pos reset]
    by_cases used : before.u ≠ 0 ∨ before.d ≠ 0
    · rw [if_pos ⟨reset, used⟩]
    · push Not at used
      rw [if_neg fun both => by simp [used] at both]
      exact unused_shown_eq (same.trans used.1) (same'.trans used.2)
  · rw [if_neg fun both => reset both.1, if_neg reset, if_neg reset, ← same, ← same']

end

theorem changes_written {plans : Table PlanRow.id PlanRow.id}
    {req : SupportEntitlementChangeRequest} {row : UserRow ρ} {version : String}
    {changed : SupportEntitlementSnapshot × List Write}
    (returned : changes plans req { scanned plans row with version } = .ok changed) :
    applyWrites row changed.2 = named (differentPlan plans req row.planID) req row := by
  unfold changes at returned
  cases planPart : changePlan plans req { scanned plans row with version } with
  | error e =>
    rw [planPart] at returned
    cases returned
  | ok planned =>
    rw [planPart] at returned
    obtain rfl := Except.ok.inj returned
    obtain ⟨plan, which, -, -, writes, after⟩ := changePlan_ok planPart
    have written : applyWrites row planned.2 = { row with
        planID := plan.elim row.planID fun p => some p.id
        groupID := plan.elim row.groupID fun p => some p.groupID
        deviceLimit := plan.elim row.deviceLimit fun p => p.deviceLimit
        speedLimit := plan.elim row.speedLimit fun p => p.speedLimit } := by
      rw [writes]
      cases plan <;> rfl
    have quota : planned.1.transferEnable = plan.elim row.transferEnable fun p =>
        planTransferEnableBytes p.transferEnable := by
      rw [after]
      cases plan <;> rfl
    have which : differentPlan plans req row.planID = plan := which.symm
    have quotaPart := @changeQuota_written ρ row req { scanned plans row with version } planned
      (by rw [written]; rfl)
    have expiryPart := @changeExpiry_written ρ row req { scanned plans row with version } _
      (by rw [quotaPart, written]; rfl)
    rw [resetUsage_written (by rw [expiryPart, quotaPart, written]; rfl)
      (by rw [expiryPart, quotaPart, written]; rfl), expiryPart, quotaPart, written, quota, which]
    rfl

theorem changes_shown {plans : Table PlanRow.id PlanRow.id}
    {req : SupportEntitlementChangeRequest} {row : UserRow ρ} {version : String}
    {changed : SupportEntitlementSnapshot × List Write}
    (returned : changes plans req { scanned plans row with version } = .ok changed)
    (allowed : expiryAllowed req.expiredAt = true) :
    { changed.1 with version := "" } =
      scanned plans (named (differentPlan plans req row.planID) req row) := by
  unfold changes at returned
  cases planPart : changePlan plans req { scanned plans row with version } with
  | error e =>
    rw [planPart] at returned
    cases returned
  | ok planned =>
    rw [planPart] at returned
    obtain rfl := Except.ok.inj returned
    obtain ⟨plan, which, -, stored, -, after⟩ := changePlan_ok planPart
    have which : differentPlan plans req row.planID = plan := which.symm
    have expiryPart := @changeExpiry_shown req { scanned plans row with version }
      (changeQuota req { scanned plans row with version } planned) row.expiredAt allowed
      (by rw [changeQuota, after]; cases plan <;> rfl)
    rw [resetUsage_shown (by rw [expiryPart, changeQuota, after]; cases plan <;> rfl)
      (by rw [expiryPart, changeQuota, after]; cases plan <;> rfl), expiryPart, changeQuota, after,
      which]
    cases plan with
    | none => rfl
    | some p =>
      unfold scanned named
      simp only [Option.elim_some, Option.bind_some, stored p rfl]
      rfl

/-! ## An accepted request -/

variable {lib : EntitlementLibrary} {base base' : EntitlementBase ρ} {actorID now : Int}
  {req : SupportEntitlementChangeRequest} {result : SupportEntitlementSnapshot}

theorem load_ok (loaded : loadSupportEntitlementSnapshot lib base userID = .ok shown) :
    ∃ row, base.users.find? userID = some row ∧ row.isAdmin = 0 ∧ row.isStaff = 0 ∧
      shown = { scanned base.plans row with
        version := supportEntitlementVersion lib (scanned base.plans row) } := by
  simp only [loadSupportEntitlementSnapshot, bind_eq_ok, require_eq_ok] at loaded
  obtain ⟨row, found, returned⟩ := loaded
  obtain ⟨found, ordinary⟩ := Option.filter_eq_some_iff.mp found
  simp only [Bool.and_eq_true, decide_eq_true_eq] at ordinary
  exact ⟨row, found, ordinary.1, ordinary.2, (Except.ok.inj returned).symm⟩

theorem load_of {row : UserRow ρ} (found : base.users.find? userID = some row)
    (admin : row.isAdmin = 0) (staff : row.isStaff = 0) :
    loadSupportEntitlementSnapshot lib base userID = .ok { scanned base.plans row with
      version := supportEntitlementVersion lib (scanned base.plans row) } := by
  have ordinary : (base.users.find? userID).filter
      (fun a => a.isAdmin = 0 && a.isStaff = 0) = some row := by
    rw [found]
    simp [admin, staff]
  unfold loadSupportEntitlementSnapshot
  rw [ordinary]
  rfl

theorem versioned_eq {after : SupportEntitlementSnapshot}
    (same : { after with version := "" } = shown) :
    { after with version := supportEntitlementVersion lib after } =
      { shown with version := supportEntitlementVersion lib shown } := by
  subst same
  rfl

structure Applied (lib : EntitlementLibrary) (base base' : EntitlementBase ρ) (actorID : Int)
    (req : SupportEntitlementChangeRequest) (now : Int) (row : UserRow ρ) : Prop where
  found : base.users.find? req.userID = some row
  expected : req.expected = supportEntitlementVersion lib (scanned base.plans row)
  changed : base'.users.find? req.userID =
    some { named (differentPlan base.plans req row.planID) req row with updatedAt := now }
  others : ∀ id, id ≠ req.userID → base'.users.find? id = base.users.find? id
  plans : base'.plans = base.plans
  recorded : ∃ o, base.log.record? o = some base'.log ∧ o.receipt =
    ⟨actorID, req.requestID, "entitlement", supportEntitlementChangeHash lib req, now⟩

theorem find?_updateUser (users : Table (@UserRow.id ρ) UserRow.id) (userID id : Int)
    (writes : List Write) :
    (updateUser users userID writes).find? id = (users.find? id).map fun row =>
      if row.id = userID then applyWrites row writes else row := by
  rw [updateUser, Table.find?_updateWhere]
  simp only [decide_eq_true_eq]

theorem applied_of_ok (allowed : expiryAllowed req.expiredAt = true)
    (accepted : applyEntitlement lib base actorID req now = .ok (result, base')) :
    ∃ row, Applied lib base base' actorID req now row ∧
      loadSupportEntitlementSnapshot lib base' req.userID = .ok result := by
  simp only [applyEntitlement, bind_eq_ok, ensure_eq_ok, exists_const, require_eq_ok] at accepted
  obtain ⟨before, loaded, expected, ⟨after, writes⟩, changed, -, log, recorded, returned⟩ := accepted
  obtain ⟨rfl, rfl⟩ := Prod.mk.inj (Except.ok.inj returned)
  obtain ⟨row, found, admin, staff, rfl⟩ := load_ok loaded
  have key : row.id = req.userID := Table.key_of_find? found
  have written := changes_written changed
  have shown := changes_shown changed allowed
  dsimp only at written shown
  have updated : (updateUser base.users req.userID (writes ++ [.updatedAt now])).find? req.userID =
      some { named (differentPlan base.plans req row.planID) req row with updatedAt := now } := by
    rw [find?_updateUser, found, Option.map_some, if_pos key, applyWrites_append, written]
    rfl
  refine ⟨row, ?_, ?_⟩
  · constructor
    case found => exact found
    case expected => exact expected
    case changed => exact updated
    case others =>
      intro id other
      rw [find?_updateUser]
      cases old : base.users.find? id with
      | none => rfl
      | some row' =>
        have key' : row'.id = id := Table.key_of_find? old
        rw [Option.map_some, if_neg (by rw [key']; exact other)]
    case plans => rfl
    case recorded => exact ⟨_, recorded, rfl⟩
  · let stored : EntitlementBase ρ :=
      ⟨updateUser base.users req.userID (writes ++ [.updatedAt now]), base.plans, log⟩
    have reloaded := @load_of req.userID ρ lib stored _ updated admin staff
    exact reloaded.trans (congrArg Except.ok (versioned_eq shown).symm)

theorem normalized_allowed (normalized : normalizeSupportEntitlementChange req = .ok normal) :
    expiryAllowed normal.expiredAt = true ∧
      normal = { req with reason := trimSpace req.reason, requestID := trimSpace req.requestID } := by
  unfold normalizeSupportEntitlementChange at normalized
  dsimp only at normalized
  split at normalized
  next => cases normalized
  next =>
    split at normalized
    next => cases normalized
    next =>
      split at normalized
      next => cases normalized
      next =>
        split at normalized
        next => cases normalized
        next allowed =>
          split at normalized
          next => cases normalized
          next =>
            obtain rfl := Except.ok.inj normalized
            exact ⟨by simpa using allowed, rfl⟩

theorem changeSupportEntitlement_ok
    (accepted : changeSupportEntitlement lib base actorID req now = .ok (result, base')) :
    ∃ normal, normalizeSupportEntitlementChange req = .ok normal ∧
      ((base.log.saved (actorID, normal.requestID) =
          some ("entitlement", supportEntitlementChangeHash lib normal) ∧ base' = base ∧
        loadSupportEntitlementSnapshot lib base normal.userID = .ok result) ∨
      (base.log.saved (actorID, normal.requestID) = none ∧
        applyEntitlement lib base actorID normal now = .ok (result, base'))) := by
  simp only [changeSupportEntitlement, bind_eq_ok, ensure_eq_ok, exists_const] at accepted
  obtain ⟨-, -, normal, normalized, -, -, accepted⟩ := accepted
  refine ⟨normal, normalized, ?_⟩
  cases known : base.log.saved (actorID, normal.requestID) with
  | none =>
    rw [known] at accepted
    exact Or.inr ⟨rfl, accepted⟩
  | some record =>
    obtain ⟨kind, hash⟩ := record
    rw [known] at accepted
    simp only [bind_eq_ok, ensure_eq_ok, exists_const] at accepted
    obtain ⟨⟨rfl, rfl⟩, current, loaded, returned⟩ := accepted
    obtain ⟨rfl, rfl⟩ := Prod.mk.inj (Except.ok.inj returned)
    exact Or.inl ⟨rfl, rfl, loaded⟩

/-! ## Later requests -/

def Act.Keeps (createdAt : Int) (act : Act ρ) : Prop :=
  ∀ cutoff, act = .cleanup cutoff → cutoff ≤ createdAt

theorem step_change (accepted : changeSupportEntitlement lib base actorID req now =
      .ok (result, base')) : step lib base (.change actorID req now) = base' := by
  rw [step, accepted]
  rfl

theorem step_refused {e : SupportError}
    (refused : changeSupportEntitlement lib base actorID req now = .error e) :
    step lib base (.change actorID req now) = base := by
  rw [step, refused]
  rfl

theorem step_log {createdAt : Int} {act : Act ρ} (recent : act.Keeps createdAt) :
    LogStep createdAt base.log (step lib base act).log := by
  cases act with
  | change actorID req now =>
    cases outcome : changeSupportEntitlement lib base actorID req now with
    | error e =>
      rw [step_refused outcome]
      exact .same
    | ok pair =>
      obtain ⟨result, base'⟩ := pair
      rw [step_change outcome]
      obtain ⟨normal, normalized, ⟨-, rfl, -⟩ | ⟨fresh, applies⟩⟩ :=
        changeSupportEntitlement_ok outcome
      · exact .same
      · obtain ⟨row, applied, -⟩ := applied_of_ok (normalized_allowed normalized).1 applies
        obtain ⟨o, recorded, stored⟩ := applied.recorded
        have key : o.key = (actorID, normal.requestID) := congrArg RequestReceipt.key stored
        rw [← key] at fresh
        exact .record fresh recorded
  | count userID up down => exact .same
  | other operation =>
    rw [step]
    split
    next fresh =>
      cases recorded : base.log.record? operation with
      | none => exact .same
      | some log => exact .record fresh recorded
    next => exact .same
  | clear throughID => exact .clear throughID
  | cleanup cutoff => exact .cleanup (recent cutoff rfl)
  | edit users plans => exact .same

theorem kept_run {receipt : RequestReceipt} {acts : List (Act ρ)} (kept : Kept base.log receipt)
    (recent : ∀ act ∈ acts, act.Keeps receipt.createdAt) :
    Kept (run (step lib) base acts).log receipt := by
  induction acts generalizing base with
  | nil => exact kept
  | cons act acts ih =>
    exact ih (kept.step (step_log (recent act List.mem_cons_self))) fun other member =>
      recent other (List.mem_cons_of_mem _ member)

/-- The content of a request that two requests share by their hash without sharing it. -/
def Collides (lib : EntitlementLibrary) (first second : SupportEntitlementChangeRequest) : Prop :=
  first ≠ second ∧ lib.hash first = lib.hash second

theorem known_again {receipt : RequestReceipt} (kept : Kept base.log receipt)
    (accepted : changeSupportEntitlement lib base actorID req now = .ok (result, base'))
    (normalized : normalizeSupportEntitlementChange req = .ok normal)
    (same : receipt.key = (actorID, normal.requestID)) :
    base' = base ∧ supportEntitlementChangeHash lib normal = receipt.requestHash ∧
      loadSupportEntitlementSnapshot lib base normal.userID = .ok result := by
  have saved := kept.saved
  rw [same] at saved
  obtain ⟨other, again, ⟨known, unchanged, shown⟩ | ⟨fresh, -⟩⟩ :=
    changeSupportEntitlement_ok accepted
  · rw [normalized] at again
    obtain rfl := Except.ok.inj again
    rw [saved] at known
    exact ⟨unchanged, ((Prod.mk.inj (Option.some.inj known)).2).symm, shown⟩
  · rw [normalized] at again
    obtain rfl := Except.ok.inj again
    rw [saved] at fresh
    cases fresh

/-! ## Versions -/

/-- The fields of an entitlement that a version stands for. -/
structure SameEntitlement (first second : SupportEntitlementSnapshot) : Prop where
  userID : first.userID = second.userID
  planID : first.planID = second.planID
  groupID : first.groupID = second.groupID
  transferEnable : first.transferEnable = second.transferEnable
  expiredAt : first.expiredAt = second.expiredAt
  deviceLimit : first.deviceLimit = second.deviceLimit
  speedLimit : first.speedLimit = second.speedLimit

theorem SameEntitlement.version {first second : SupportEntitlementSnapshot}
    (same : SameEntitlement first second) :
    supportEntitlementVersion lib first = supportEntitlementVersion lib second := by
  unfold supportEntitlementVersion
  rw [same.userID, same.planID, same.groupID, same.transferEnable, same.expiredAt,
    same.deviceLimit, same.speedLimit]

theorem load_version (loaded : loadSupportEntitlementSnapshot lib base userID = .ok shown) :
    shown.version = supportEntitlementVersion lib shown := by
  obtain ⟨row, -, -, -, rfl⟩ := load_ok loaded
  rfl

/-- A request that passes the checks before its version is compared. -/
structure Admitted (lib : EntitlementLibrary) (base : EntitlementBase ρ) (actorID : Int)
    (req normal : SupportEntitlementChangeRequest) (shown : SupportEntitlementSnapshot) : Prop where
  actor : 0 < actorID
  staff : base.isStaff actorID = true
  normalized : normalizeSupportEntitlementChange req = .ok normal
  other : normal.userID ≠ actorID
  ordinary : base.isOrdinary normal.userID = true
  fresh : base.log.saved (actorID, normal.requestID) = none
  shown : loadSupportEntitlementSnapshot lib base normal.userID = .ok shown

theorem changePlan_error {plans : Table PlanRow.id PlanRow.id}
    {before : SupportEntitlementSnapshot} {e : SupportError}
    (refused : changePlan plans req before = .error e) : ∃ detail, e = .invalid detail := by
  unfold changePlan at refused
  cases other : req.planID.filter fun id => before.planID ≠ some id with
  | none =>
    rw [other] at refused
    cases refused
  | some id =>
    rw [other] at refused
    simp only [bind_eq_error, require_eq_error, ensure_eq_error, pure_eq_error] at refused
    rcases refused with ⟨-, same⟩ | ⟨plan, -, ⟨-, same⟩ | ⟨-, -, ⟨⟩⟩⟩
    · exact ⟨_, same.symm⟩
    · exact ⟨_, same.symm⟩

theorem Admitted.conflict_iff (admitted : Admitted lib base actorID req normal shown) :
    (∃ detail, changeSupportEntitlement lib base actorID req now = .error (.conflict detail)) ↔
      normal.expected ≠ shown.version := by
  have applies : changeSupportEntitlement lib base actorID req now =
      applyEntitlement lib base actorID normal now := by
    unfold changeSupportEntitlement
    rw [ensure_of _ admitted.actor, bind_ok, ensure_of _ admitted.staff, bind_ok,
      admitted.normalized, bind_ok, ensure_of _ admitted.other, bind_ok,
      ensure_of _ admitted.ordinary, bind_ok, admitted.fresh]
  rw [applies]
  unfold applyEntitlement
  rw [admitted.shown, bind_ok]
  by_cases same : normal.expected = shown.version
  · refine ⟨?_, fun other => absurd same other⟩
    rintro ⟨detail, refused⟩
    simp only [bind_eq_error, ensure_eq_error, require_eq_error, pure_eq_error, same] at refused
    rcases refused with ⟨differs, -⟩ | ⟨-, -, refused⟩
    · exact absurd trivial differs
    rcases refused with refused | ⟨changed, -, ⟨-, ⟨⟩⟩ | ⟨-, -, ⟨-, ⟨⟩⟩ | ⟨-, -, ⟨⟩⟩⟩⟩
    unfold changes at refused
    cases outcome : changePlan base.plans normal shown with
    | error e =>
      obtain ⟨text, rfl⟩ := changePlan_error outcome
      rw [outcome] at refused
      cases refused
    | ok planned =>
      rw [outcome] at refused
      cases refused
  · rw [ensure_not _ same]
    exact ⟨fun _ => same, fun _ => ⟨"", rfl⟩⟩

/-! ## Traffic -/

/-- An operation that leaves the counters of a user to the counting. -/
def Act.CountsOnly (userID : Int) : Act ρ → Prop
  | .change _ req _ => ¬(req.userID = userID ∧ req.resetUsage = true)
  | .edit _ _ => False
  | _ => True

def Act.up (userID : Int) : Act ρ → Int
  | .count id up _ => if id = userID then up else 0
  | _ => 0

def Act.down (userID : Int) : Act ρ → Int
  | .count id _ down => if id = userID then down else 0
  | _ => 0

theorem counted_step {act : Act ρ} {row : UserRow ρ} (found : base.users.find? userID = some row)
    (counts : act.CountsOnly userID) :
    ∃ row', (step lib base act).users.find? userID = some row' ∧
      row'.u = row.u + act.up userID ∧ row'.d = row.d + act.down userID := by
  cases act with
  | change actorID req now =>
    cases outcome : changeSupportEntitlement lib base actorID req now with
    | error e =>
      rw [step_refused outcome]
      exact ⟨row, found, (Int.add_zero _).symm, (Int.add_zero _).symm⟩
    | ok pair =>
      obtain ⟨result, base'⟩ := pair
      rw [step_change outcome]
      obtain ⟨normal, normalized, ⟨-, rfl, -⟩ | ⟨-, applies⟩⟩ := changeSupportEntitlement_ok outcome
      · exact ⟨row, found, (Int.add_zero _).symm, (Int.add_zero _).symm⟩
      · obtain ⟨allowed, rfl⟩ := normalized_allowed normalized
        obtain ⟨before, applied, -⟩ := applied_of_ok allowed applies
        by_cases same : userID = req.userID
        · subst same
          obtain rfl := Option.some.inj (found.symm.trans applied.found)
          have kept : ¬req.resetUsage = true := fun reset => counts ⟨rfl, reset⟩
          refine ⟨_, applied.changed, ?_, ?_⟩
          · change (if req.resetUsage = true then 0 else row.u) = row.u + 0
            rw [if_neg kept, Int.add_zero]
          · change (if req.resetUsage = true then 0 else row.d) = row.d + 0
            rw [if_neg kept, Int.add_zero]
        · refine ⟨row, ?_, (Int.add_zero _).symm, (Int.add_zero _).symm⟩
          rw [applied.others userID same, found]
  | count id up down =>
    have key : row.id = userID := Table.key_of_find? found
    have updated : (countTraffic base.users id up down).find? userID =
        some (if userID = id then { row with u := row.u + up, d := row.d + down } else row) := by
      rw [countTraffic, Table.find?_updateWhere, found, Option.map_some]
      simp only [decide_eq_true_eq, key]
    refine ⟨_, updated, ?_⟩
    simp only [Act.up, Act.down]
    by_cases same : id = userID
    · rw [if_pos same.symm, if_pos same, if_pos same]
      exact ⟨rfl, rfl⟩
    · rw [if_neg (Ne.symm same), if_neg same, if_neg same]
      exact ⟨(Int.add_zero _).symm, (Int.add_zero _).symm⟩
  | other operation =>
    refine ⟨row, ?_, (Int.add_zero _).symm, (Int.add_zero _).symm⟩
    rw [step]
    split
    · exact found
    · exact found
  | clear throughID => exact ⟨row, found, (Int.add_zero _).symm, (Int.add_zero _).symm⟩
  | cleanup cutoff => exact ⟨row, found, (Int.add_zero _).symm, (Int.add_zero _).symm⟩
  | edit users plans => exact counts.elim

theorem counted_run {acts : List (Act ρ)} {row : UserRow ρ}
    (found : base.users.find? userID = some row) (counts : ∀ act ∈ acts, act.CountsOnly userID) :
    ∃ row', (run (step lib) base acts).users.find? userID = some row' ∧
      row'.u = row.u + (acts.map (Act.up userID)).sum ∧
      row'.d = row.d + (acts.map (Act.down userID)).sum := by
  induction acts generalizing base row with
  | nil => exact ⟨row, found, (Int.add_zero _).symm, (Int.add_zero _).symm⟩
  | cons act acts ih =>
    obtain ⟨between, kept, up, down⟩ := @counted_step userID ρ lib base act row found
      (counts act List.mem_cons_self)
    obtain ⟨row', last, up', down'⟩ := ih kept fun other member =>
      counts other (List.mem_cons_of_mem _ member)
    refine ⟨row', last, ?_, ?_⟩
    · rw [up', up, List.map_cons, List.sum_cons, Int.add_assoc]
    · rw [down', down, List.map_cons, List.sum_cons, Int.add_assoc]

/-! ## The law -/

/-- A request that is refused changes nothing. An accepted one is known, or it is recorded and sets
what it names with the time of the update; its answer is what is stored, and a request with its id
changes nothing more and has its content, until a clean-up passes its time. -/
structure ChangedOnce (lib : EntitlementLibrary) (base base' : EntitlementBase ρ) (actorID : Int)
    (normal : SupportEntitlementChangeRequest) (now : Int) (result : SupportEntitlementSnapshot) :
    Prop where
  fresh : base.log.saved (actorID, normal.requestID) = none
  applied : ∃ row, Applied lib base base' actorID normal now row
  recorded : base'.log.saved (actorID, normal.requestID) =
    some ("entitlement", supportEntitlementChangeHash lib normal)
  again : ∀ acts : List (Act ρ), (∀ act ∈ acts, act.Keeps now) →
    ∀ again other later answer base'', normalizeSupportEntitlementChange again = .ok other →
      other.requestID = normal.requestID →
      changeSupportEntitlement lib (run (step lib) base' acts) actorID again later =
        .ok (answer, base'') →
      base'' = run (step lib) base' acts ∧
        loadSupportEntitlementSnapshot lib base'' other.userID = .ok answer ∧
        (other = normal ∨ Collides lib { other with requestID := "" }
          { normal with requestID := "" })

theorem changedOnce_of_ok (allowed : expiryAllowed normal.expiredAt = true)
    (fresh : base.log.saved (actorID, normal.requestID) = none)
    (accepted : applyEntitlement lib base actorID normal now = .ok (result, base')) :
    ChangedOnce lib base base' actorID normal now result := by
  obtain ⟨row, applied, -⟩ := applied_of_ok allowed accepted
  obtain ⟨o, recorded, stored⟩ := applied.recorded
  have key : o.key = (actorID, normal.requestID) := congrArg RequestReceipt.key stored
  have kept := kept_of_record (key ▸ fresh) recorded
  rw [stored] at kept
  constructor
  case fresh => exact fresh
  case applied => exact ⟨row, applied⟩
  case recorded => exact kept.saved
  case again =>
    intro acts recent again other later answer base'' normalized same accepted'
    have known := @kept_run ρ lib _ _ acts kept recent
    obtain ⟨unchanged, hash, shown⟩ :=
      known_again known accepted' normalized (congrArg (Prod.mk actorID) same.symm)
    refine ⟨unchanged, by rw [unchanged]; exact shown, ?_⟩
    by_cases content : other = normal
    · exact .inl content
    · refine .inr ⟨fun equal => content ?_, hash⟩
      cases other
      cases normal
      simp_all

theorem loaded_hex (loaded : loadSupportEntitlementSnapshot lib base userID = .ok shown) :
    hexSum shown.version = true := by
  rw [load_version loaded]
  exact lib.digest_hex _

end

variable {ρ : Type}

/-- Entitlements are changed as named, once, against their version, and without loss of traffic. -/
theorem entitlement_changed_as_named (lib : EntitlementLibrary) (base : EntitlementBase ρ)
    (actorID : Int) (req : SupportEntitlementChangeRequest) (now : Int) :
    (∀ e, changeSupportEntitlement lib base actorID req now = .error e →
      step lib base (.change actorID req now) = base) ∧
    (∀ result base', changeSupportEntitlement lib base actorID req now = .ok (result, base') →
      step lib base (.change actorID req now) = base' ∧
      ∃ normal, normalizeSupportEntitlementChange req = .ok normal ∧
        loadSupportEntitlementSnapshot lib base' normal.userID = .ok result ∧
        hexSum result.version = true ∧
        (base' = base ∧ base.log.saved (actorID, normal.requestID) =
            some ("entitlement", supportEntitlementChangeHash lib normal) ∨
          ChangedOnce lib base base' actorID normal now result)) ∧
    (∀ normal shown, Admitted lib base actorID req normal shown →
      ((∃ detail, changeSupportEntitlement lib base actorID req now =
        .error (.conflict detail)) ↔ normal.expected ≠ shown.version)) ∧
    (∀ (later : EntitlementBase ρ) (userID : Int) (first second : SupportEntitlementSnapshot),
      loadSupportEntitlementSnapshot lib base userID = .ok first →
      loadSupportEntitlementSnapshot lib later userID = .ok second →
      SameEntitlement first second → first.version = second.version) ∧
    ∀ (acts : List (Act ρ)) (userID : Int) (row : UserRow ρ),
      base.users.find? userID = some row → (∀ act ∈ acts, act.CountsOnly userID) →
      ∃ row', (run (step lib) base acts).users.find? userID = some row' ∧
        row'.u = row.u + (acts.map (Act.up userID)).sum ∧
        row'.d = row.d + (acts.map (Act.down userID)).sum := by
  refine ⟨fun e refused => step_refused refused, ?_, fun normal shown admitted =>
    admitted.conflict_iff, ?_, fun acts userID row found counts => counted_run found counts⟩
  · intro result base' accepted
    refine ⟨step_change accepted, ?_⟩
    obtain ⟨normal, normalized, ⟨known, rfl, loaded⟩ | ⟨fresh, applies⟩⟩ :=
      changeSupportEntitlement_ok accepted
    · exact ⟨normal, normalized, loaded, loaded_hex loaded, .inl ⟨rfl, known⟩⟩
    · have allowed := (normalized_allowed normalized).1
      obtain ⟨row, -, loaded⟩ := applied_of_ok allowed applies
      exact ⟨normal, normalized, loaded, loaded_hex loaded,
        .inr (changedOnce_of_ok allowed fresh applies)⟩
  · intro later userID first second loaded loaded' same
    rw [load_version loaded, load_version loaded']
    exact same.version

/-! The update of a quota also sets its time. -/

private def entitled (id isStaff transferEnable updatedAt : Int) : UserRow Unit :=
  ⟨id, 0, 0, isStaff, none, none, transferEnable, 0, 0, none, none, none, updatedAt, ()⟩

private def entitledPanel : EntitlementBase Unit where
  users := ⟨[entitled 1 1 0 5, entitled 7 0 0 5], by decide, by decide⟩
  plans := Table.empty
  log := ⟨Table.empty, Table.empty, 1⟩

private def entitledSums : EntitlementLibrary where
  digest state :=
    if state = ⟨7, none, "", none, 0, 0, 0, none, none, none, ""⟩ then
      "55450f6dbb0b47d6fbb193863cd146bf527ee6c6b324b436b2d8d5c8fedb5085"
    else "bbef9403da970c16c94c811b1abeef21d93bcf0ba8433eaa3f0b9b232a731666"
  digest_hex state := by
    split
    · decide +kernel
    · decide +kernel
  hash _ := "842c46e852e520b533927c121b22cc419221f7cfd1b388a2c9c3a535c95fa369"

private def oneGiBAsked : SupportEntitlementChangeRequest where
  userID := 7
  planID := none
  transferEnable := some 1073741824
  expiredAt := none
  resetUsage := false
  reason := "ask"
  requestID := "r1"
  expected := "55450f6dbb0b47d6fbb193863cd146bf527ee6c6b324b436b2d8d5c8fedb5085"

private def entitledAfter : Option (UserRow Unit) :=
  (changeSupportEntitlement entitledSums entitledPanel 1 oneGiBAsked 100).toOption.bind fun p => p.2.users.find? 7

theorem update_time_set :
    ¬∀ (lib : EntitlementLibrary) (base base' : EntitlementBase Unit) (actorID now : Int)
      (req normal : SupportEntitlementChangeRequest) (result : SupportEntitlementSnapshot)
      (row : UserRow Unit),
      changeSupportEntitlement lib base actorID req now = .ok (result, base') →
      normalizeSupportEntitlementChange req = .ok normal →
      base.log.saved (actorID, normal.requestID) = none →
      base.users.find? normal.userID = some row →
      base'.users.find? normal.userID =
        some (named (differentPlan base.plans normal row.planID) normal row) := by
  intro exactly
  have view : entitledAfter = some (entitled 7 0 1073741824 100) := by decide +kernel
  cases outcome : changeSupportEntitlement entitledSums entitledPanel 1 oneGiBAsked 100 with
  | error e =>
    rw [entitledAfter, outcome] at view
    cases view
  | ok pair =>
    rw [entitledAfter, outcome] at view
    have owed := exactly entitledSums entitledPanel pair.2 1 100 oneGiBAsked oneGiBAsked pair.1 (entitled 7 0 0 5) outcome
      (by decide +kernel) (by decide +kernel) (by decide +kernel)
    have same : some (entitled 7 0 1073741824 100) = some (entitled 7 0 1073741824 5) :=
      view.symm.trans owed
    exact absurd same (by decide)

end ForestPanel.SupportEntitlement
