import ForestPanel.Plan.Grants
import Mathlib.Tactic.SplitIfs

/-!
# The merge of two accounts

A user of the MySQL site is merged into the user of the same address. The quotas of plans are GiB
and those of users bytes. `merge_keeps_entitlement_iff` says when the merged subscription neither
loses nor invents entitlement: the user of this site must hold a plan, or an end date, when the
other one ends, and the allowance left from a plan that is gone must not be below one GiB.
-/
namespace ForestPanel.Quota

open Decimal Machine

/-- The plans by id; a later one replaces an earlier one. -/
def targetPlanByID (targetPlans : List MergeTargetPlanInfo) (id : Int) :
    Option MergeTargetPlanInfo :=
  targetPlans.reverse.find? (·.id = id)

/-- The quota of a plan in bytes, without a bound. -/
def MergeTargetPlanInfo.quota (plan : MergeTargetPlanInfo) : Int :=
  max 0 plan.transferEnable * planTrafficGiB

def HoldsPlan (planID : Option Int) : Prop := ∃ id, planID = some id ∧ 0 < id

def Endless (expiredAt : Option Int) : Prop := normalizeMergeExpiredAt expiredAt = none

/-- One expiry is never earlier than the other. -/
def Outlasts (expiredAt other : Option Int) : Prop :=
  Endless expiredAt ∨ ∃ last first, normalizeMergeExpiredAt expiredAt = some last ∧
    normalizeMergeExpiredAt other = some first ∧ first ≤ last

section

variable (plans : Int → Option MergeTargetPlanInfo) (existing : MergeTargetUser)
  (sourceUser : MergeSourceUser) (sourcePlan : MergeTargetPlanInfo)

/-- The quota of the user's own plan: of one that is gone, the allowance the user has left. -/
def ownQuota (id : Int) : Int :=
  match plans id with
  | some plan => plan.quota
  | none => max 0 existing.transferEnable

def owedAllowance (id : Int) : Int :=
  match plans id with
  | some plan => max (max existing.transferEnable sourceUser.transferEnable) plan.quota
  | none => max existing.transferEnable sourceUser.transferEnable

/-- The merged subscription neither loses nor invents entitlement. -/
structure KeepsEntitlement (merged : MergeTargetUser) : Prop where
  allowance : ∃ id, merged.planID = some id ∧
    merged.transferEnable = owedAllowance plans existing sourceUser id
  onlyPlan : ¬HoldsPlan existing.planID → merged.planID = some sourcePlan.id
  larger : ∀ id, existing.planID = some id → 0 < id →
    merged.planID = some id ∧ sourcePlan.quota ≤ ownQuota plans existing id ∨
      merged.planID = some sourcePlan.id ∧ ownQuota plans existing id ≤ sourcePlan.quota
  outlastsOwn : HoldsPlan existing.planID → Outlasts merged.expiredAt existing.expiredAt
  outlastsSource : HoldsPlan sourceUser.planID → Outlasts merged.expiredAt sourceUser.expiredAt
  endless : Endless merged.expiredAt →
    HoldsPlan existing.planID ∧ Endless existing.expiredAt ∨
      HoldsPlan sourceUser.planID ∧ Endless sourceUser.expiredAt
  again : (buildMergedTargetUserSubscription merged sourceUser sourcePlan plans).value = merged

/-- The user's allowance stands for the quota of a plan that is gone. -/
def AllowanceReadAsQuota : Prop :=
  let own := existing.transferEnable
  let other := sourceUser.transferEnable
  let quota := sourcePlan.transferEnable
  normalizeMergeTransferGB own < quota ∨ planTrafficGiB ≤ own ∨
    (0 < own ∧ quota ≤ 0 ∧ own * planTrafficGiB ≤ other) ∨
    (own ≤ 0 ∧ (planTrafficGiB ≤ other ∨ other = 0 ∨ (own = 0 ∧ other < 0)))

/-- The condition under which the merge keeps what both accounts had. -/
structure MergeHoldsWhen : Prop where
  dated : ¬HoldsPlan existing.planID → Endless existing.expiredAt → Endless sourceUser.expiredAt
  sourceFits : sourcePlan.transferEnable < 8589934592
  ownFits : ∀ id plan, existing.planID = some id → 0 < id → plans id = some plan →
    plan.transferEnable < 8589934592
  gone : ∀ id, existing.planID = some id → 0 < id → plans id = none →
    AllowanceReadAsQuota existing sourceUser sourcePlan

end

section

variable {plans : Int → Option MergeTargetPlanInfo} {existing : MergeTargetUser}
  {sourceUser : MergeSourceUser} {sourcePlan targetPlan : MergeTargetPlanInfo} {id value : Int}

theorem fits_shared (value : Int) : Fits (planTransferGBToUserBytes value).value := by
  unfold planTransferGBToUserBytes
  split_ifs
  · exact ⟨by decide, by decide⟩
  · exact fits_wrap _

theorem shared_eq (small : value < 8589934592) :
    (planTransferGBToUserBytes value).value = max 0 value * planTrafficGiB := by
  unfold planTransferGBToUserBytes
  split_ifs with none
  · rw [max_eq_left none, Int.zero_mul]
    rfl
  · rw [max_eq_right (by omega), mul, word_of_fits]
    · rfl
    · unfold Fits planTrafficGiB
      omega

theorem shared_normalized (fits : Fits value) :
    (planTransferGBToUserBytes (normalizeMergeTransferGB value)).value =
      normalizeMergeTransferGB value * planTrafficGiB := by
  unfold Fits at fits
  rw [shared_eq]
  · unfold normalizeMergeTransferGB planTrafficGiB
    split_ifs <;> omega
  · unfold normalizeMergeTransferGB planTrafficGiB
    split_ifs <;> omega

theorem targetPlanByID_id {targetPlans : List MergeTargetPlanInfo}
    (found : targetPlanByID targetPlans id = some targetPlan) : targetPlan.id = id := by
  have same := List.find?_some found
  simpa using same

theorem filter_of_holds (held : existing.planID = some id) (positive : 0 < id) :
    existing.planID.filter (0 < ·) = some id := by
  simp [held, positive]

theorem filter_of_not_holds {planID : Option Int} (free : ¬HoldsPlan planID) :
    planID.filter (0 < ·) = none := by
  cases planID with
  | none => rfl
  | some id =>
    have low : ¬0 < id := fun positive => free ⟨id, rfl, positive⟩
    simpa using low

theorem preferred_free (free : ¬HoldsPlan existing.planID) :
    preferredMergeTargetPlan existing sourcePlan plans = sourcePlan := by
  unfold preferredMergeTargetPlan currentMergeTargetPlan
  rw [filter_of_not_holds free]
  rfl

theorem preferred_known (held : existing.planID = some id) (positive : 0 < id)
    (known : plans id = some targetPlan) :
    preferredMergeTargetPlan existing sourcePlan plans =
      if targetPlan.transferEnable < sourcePlan.transferEnable then sourcePlan else targetPlan := by
  unfold preferredMergeTargetPlan currentMergeTargetPlan
  rw [filter_of_holds held positive, Option.map_some, known]
  rfl

/-- The plan of the user that is gone, from the user's own row. -/
def rebuiltPlan (existing : MergeTargetUser) (id : Int) : MergeTargetPlanInfo :=
  ⟨id, existing.groupID.getD 0, normalizeMergeTransferGB existing.transferEnable,
    existing.deviceLimit, existing.speedLimit⟩

theorem preferred_gone (held : existing.planID = some id) (positive : 0 < id)
    (gone : plans id = none) :
    preferredMergeTargetPlan existing sourcePlan plans =
      if normalizeMergeTransferGB existing.transferEnable < sourcePlan.transferEnable then
        sourcePlan
      else rebuiltPlan existing id := by
  unfold preferredMergeTargetPlan currentMergeTargetPlan
  rw [filter_of_holds held positive, Option.map_some, gone]
  rfl

theorem resolved_positive {planMap : Int → Option Int} {targetPlans : List MergeTargetPlanInfo}
    (mapped : resolveMergeMappedTargetPlan (targetPlanByID targetPlans) planMap sourceUser =
      some sourcePlan) :
    HoldsPlan sourceUser.planID ∧ 0 < sourcePlan.id ∧
      targetPlanByID targetPlans sourcePlan.id = some sourcePlan := by
  simp only [resolveMergeMappedTargetPlan, Option.bind_eq_bind, Option.bind_eq_some_iff,
    Option.filter_eq_some_iff, decide_eq_true_eq] at mapped
  obtain ⟨sourceID, ⟨held, positive⟩, targetID, ⟨-, above⟩, found⟩ := mapped
  have same := targetPlanByID_id found
  subst same
  exact ⟨⟨sourceID, held, positive⟩, above, found⟩

theorem mergePreferredExpiredAt_dated {currentRaw sourceRaw : Option Int} {current source : Int}
    (due : normalizeMergeExpiredAt currentRaw = some current)
    (ended : normalizeMergeExpiredAt sourceRaw = some source) :
    mergePreferredExpiredAt currentRaw sourceRaw = some (max current source) ∧
      normalizeMergeExpiredAt (some (max current source)) = some (max current source) := by
  constructor
  · unfold mergePreferredExpiredAt
    simp only [due, ended]
    congr 1
    split_ifs <;> omega
  · obtain ⟨-, future⟩ := Option.filter_eq_some_iff.mp due
    simp only [decide_eq_true_eq] at future
    exact Option.filter_eq_some_iff.mpr ⟨rfl, by simp [future]⟩

theorem mergePreferredExpiredAt_endless {currentRaw sourceRaw : Option Int}
    (endless : Endless currentRaw ∨ Endless sourceRaw) :
    mergePreferredExpiredAt currentRaw sourceRaw = none := by
  unfold mergePreferredExpiredAt
  rcases endless with due | ended
  · rw [show normalizeMergeExpiredAt currentRaw = none from due]
    cases normalizeMergeExpiredAt sourceRaw <;> rfl
  · rw [show normalizeMergeExpiredAt sourceRaw = none from ended]

theorem mergePreferredExpiredAt_again (currentRaw sourceRaw : Option Int) :
    mergePreferredExpiredAt (mergePreferredExpiredAt currentRaw sourceRaw) sourceRaw =
      mergePreferredExpiredAt currentRaw sourceRaw := by
  cases due : normalizeMergeExpiredAt currentRaw with
  | none =>
    rw [mergePreferredExpiredAt_endless (.inl due)]
    exact mergePreferredExpiredAt_endless (.inl rfl)
  | some current =>
    cases ended : normalizeMergeExpiredAt sourceRaw with
    | none =>
      rw [mergePreferredExpiredAt_endless (.inr ended)]
      exact (mergePreferredExpiredAt_endless (.inr ended)).symm
    | some source =>
      obtain ⟨later, kept⟩ := mergePreferredExpiredAt_dated due ended
      rw [later, (mergePreferredExpiredAt_dated kept ended).1, max_assoc, max_self]

theorem mergePreferredExpiredAt_outlasts (currentRaw sourceRaw : Option Int) :
    Outlasts (mergePreferredExpiredAt currentRaw sourceRaw) currentRaw ∧
      Outlasts (mergePreferredExpiredAt currentRaw sourceRaw) sourceRaw := by
  cases due : normalizeMergeExpiredAt currentRaw with
  | none =>
    rw [mergePreferredExpiredAt_endless (.inl due)]
    exact ⟨.inl rfl, .inl rfl⟩
  | some current =>
    cases ended : normalizeMergeExpiredAt sourceRaw with
    | none =>
      rw [mergePreferredExpiredAt_endless (.inr ended)]
      exact ⟨.inl rfl, .inl rfl⟩
    | some source =>
      obtain ⟨later, kept⟩ := mergePreferredExpiredAt_dated due ended
      rw [later]
      exact ⟨.inr ⟨_, _, kept, due, le_max_left _ _⟩, .inr ⟨_, _, kept, ended, le_max_right _ _⟩⟩

theorem endless_merged_iff (currentRaw sourceRaw : Option Int) :
    Endless (mergePreferredExpiredAt currentRaw sourceRaw) ↔
      Endless currentRaw ∨ Endless sourceRaw := by
  constructor
  · intro endless
    cases due : normalizeMergeExpiredAt currentRaw with
    | none => exact .inl due
    | some current =>
      cases ended : normalizeMergeExpiredAt sourceRaw with
      | none => exact .inr ended
      | some source =>
        obtain ⟨later, kept⟩ := mergePreferredExpiredAt_dated due ended
        rw [Endless, later, kept] at endless
        cases endless
  · intro endless
    rw [mergePreferredExpiredAt_endless endless]
    rfl

theorem buildMerged_value :
    (buildMergedTargetUserSubscription existing sourceUser sourcePlan plans).value =
      let targetPlan := preferredMergeTargetPlan existing sourcePlan plans
      { planID := some targetPlan.id
        groupID := some targetPlan.groupID
        transferEnable := max (max 0 (max existing.transferEnable sourceUser.transferEnable))
          (planTransferGBToUserBytes targetPlan.transferEnable).value
        deviceLimit := targetPlan.deviceLimit
        speedLimit := targetPlan.speedLimit
        expiredAt := mergePreferredExpiredAt existing.expiredAt sourceUser.expiredAt } := by
  simp [buildMergedTargetUserSubscription, maxMergeTransferEnableBytes_three]

theorem owed_known_iff (fits : Fits existing.transferEnable)
    (fits' : Fits sourceUser.transferEnable) (known : plans targetPlan.id = some targetPlan) :
    max (max 0 (max existing.transferEnable sourceUser.transferEnable))
        (planTransferGBToUserBytes targetPlan.transferEnable).value =
      owedAllowance plans existing sourceUser targetPlan.id ↔
    targetPlan.transferEnable < 8589934592 := by
  unfold owedAllowance MergeTargetPlanInfo.quota
  rw [known]
  dsimp only
  constructor
  · intro owed
    have share := fits_shared targetPlan.transferEnable
    unfold Fits planTrafficGiB at *
    omega
  · intro small
    rw [shared_eq small]
    unfold planTrafficGiB
    omega

theorem again_known (positive : 0 < targetPlan.id) (known : plans targetPlan.id = some targetPlan)
    (preferred : preferredMergeTargetPlan existing sourcePlan plans = targetPlan)
    (larger : sourcePlan.transferEnable ≤ targetPlan.transferEnable) :
    let merged := (buildMergedTargetUserSubscription existing sourceUser sourcePlan plans).value
    (buildMergedTargetUserSubscription merged sourceUser sourcePlan plans).value = merged := by
  intro merged
  have shape : merged = _ := buildMerged_value
  dsimp only at shape
  rw [preferred] at shape
  have stays : preferredMergeTargetPlan merged sourcePlan plans = targetPlan := by
    rw [preferred_known (by rw [shape]) positive known, if_neg (by omega)]
  rw [buildMerged_value]
  dsimp only
  rw [stays, shape]
  dsimp only
  rw [mergePreferredExpiredAt_again]
  congr 1
  omega

/-- Merged again, a user who keeps a plan that is gone stays as he is when the allowance, read as
a quota, still covers the plan of the other user and gives no more bytes. -/
theorem again_gone_iff {id : Int} (positive : 0 < id) (gone : plans id = none)
    (known : plans sourcePlan.id = some sourcePlan)
    (preferred : preferredMergeTargetPlan existing sourcePlan plans = rebuiltPlan existing id) :
    let merged := (buildMergedTargetUserSubscription existing sourceUser sourcePlan plans).value
    (buildMergedTargetUserSubscription merged sourceUser sourcePlan plans).value = merged ↔
      sourcePlan.transferEnable ≤ normalizeMergeTransferGB merged.transferEnable ∧
        max (max 0 (max merged.transferEnable sourceUser.transferEnable))
          (planTransferGBToUserBytes (normalizeMergeTransferGB merged.transferEnable)).value =
            merged.transferEnable := by
  intro merged
  have shape : merged = _ := buildMerged_value
  dsimp only at shape
  rw [preferred] at shape
  have planID : merged.planID = some id := by rw [shape]; rfl
  have again := @preferred_gone plans merged sourcePlan id planID positive gone
  rw [buildMerged_value]
  dsimp only
  rw [again]
  split_ifs with less
  · constructor
    · intro same
      have ids : sourcePlan.id = id := by
        have first := congrArg MergeTargetUser.planID same
        rw [planID] at first
        exact Option.some.inj first
      rw [ids, gone] at known
      cases known
    · rintro ⟨larger, -⟩
      omega
  · constructor
    · intro same
      exact ⟨by omega, congrArg MergeTargetUser.transferEnable same⟩
    · rintro ⟨-, covered⟩
      rw [show (rebuiltPlan merged id).transferEnable =
        normalizeMergeTransferGB merged.transferEnable from rfl, covered]
      rw [shape]
      dsimp only [rebuiltPlan]
      rw [mergePreferredExpiredAt_again]
      rfl

theorem normalize_cases (value : Int) :
    value ≤ 0 ∧ normalizeMergeTransferGB value = 0 ∨
      0 < value ∧ value < planTrafficGiB ∧ normalizeMergeTransferGB value = value ∨
      planTrafficGiB ≤ value ∧ normalizeMergeTransferGB value = value / planTrafficGiB := by
  unfold normalizeMergeTransferGB planTrafficGiB
  split_ifs <;> omega

theorem allowanceReadAsQuota_iff {merged : Int}
    (kept : sourcePlan.transferEnable ≤ normalizeMergeTransferGB existing.transferEnable)
    (total : merged = max (max 0 (max existing.transferEnable sourceUser.transferEnable))
      (normalizeMergeTransferGB existing.transferEnable * planTrafficGiB)) :
    AllowanceReadAsQuota existing sourceUser sourcePlan ↔
      merged = max existing.transferEnable sourceUser.transferEnable ∧
      sourcePlan.quota ≤ max 0 existing.transferEnable ∧
      sourcePlan.transferEnable ≤ normalizeMergeTransferGB merged ∧
      max (max 0 (max merged sourceUser.transferEnable))
        (normalizeMergeTransferGB merged * planTrafficGiB) = merged := by
  have before := normalize_cases existing.transferEnable
  have after := normalize_cases merged
  unfold AllowanceReadAsQuota MergeTargetPlanInfo.quota
  dsimp only
  generalize normalizeMergeTransferGB existing.transferEnable = own at *
  generalize normalizeMergeTransferGB merged = again at *
  unfold planTrafficGiB at *
  omega

theorem keepsEntitlement_iff {merged : MergeTargetUser} {plan : MergeTargetPlanInfo}
    (source : HoldsPlan sourceUser.planID)
    (made : (buildMergedTargetUserSubscription existing sourceUser sourcePlan plans).value = merged)
    (preferred : preferredMergeTargetPlan existing sourcePlan plans = plan) :
    KeepsEntitlement plans existing sourceUser sourcePlan merged ↔
      merged.transferEnable = owedAllowance plans existing sourceUser plan.id ∧
      (¬HoldsPlan existing.planID → plan.id = sourcePlan.id) ∧
      (∀ id, existing.planID = some id → 0 < id →
        plan.id = id ∧ sourcePlan.quota ≤ ownQuota plans existing id ∨
          plan.id = sourcePlan.id ∧ ownQuota plans existing id ≤ sourcePlan.quota) ∧
      (¬HoldsPlan existing.planID → Endless existing.expiredAt → Endless sourceUser.expiredAt) ∧
      (buildMergedTargetUserSubscription merged sourceUser sourcePlan plans).value = merged := by
  have planID : merged.planID = some plan.id := by
    rw [← made, ← preferred, buildMerged_value]
  have expiredAt :
      merged.expiredAt = mergePreferredExpiredAt existing.expiredAt sourceUser.expiredAt := by
    rw [← made, buildMerged_value]
  constructor
  · intro keeps
    obtain ⟨id, ends, owed⟩ := keeps.allowance
    obtain rfl := Option.some.inj (planID.symm.trans ends)
    refine ⟨owed, fun free => ?_, fun id held positive => ?_, fun free due => ?_, keeps.again⟩
    · exact Option.some.inj (planID.symm.trans (keeps.onlyPlan free))
    · have larger := keeps.larger id held positive
      simpa only [planID, Option.some.injEq] using larger
    · have endless := keeps.endless
      rw [expiredAt, endless_merged_iff] at endless
      rcases endless (.inl due) with ⟨holds, -⟩ | ⟨-, ended⟩
      · exact absurd holds free
      · exact ended
  · rintro ⟨owed, only, larger, dated, again⟩
    obtain ⟨outlasts, outlasts'⟩ :=
      mergePreferredExpiredAt_outlasts existing.expiredAt sourceUser.expiredAt
    constructor
    case allowance => exact ⟨plan.id, planID, owed⟩
    case onlyPlan => exact fun free => planID.trans (congrArg some (only free))
    case larger =>
      intro id held positive
      simpa only [planID, Option.some.injEq] using larger id held positive
    case outlastsOwn => exact fun _ => expiredAt ▸ outlasts
    case outlastsSource => exact fun _ => expiredAt ▸ outlasts'
    case endless =>
      rw [expiredAt, endless_merged_iff]
      rintro (due | ended)
      · by_cases holds : HoldsPlan existing.planID
        · exact .inl ⟨holds, due⟩
        · exact .inr ⟨source, dated holds due⟩
      · exact .inr ⟨source, ended⟩
    case again => exact again

variable (fits : Fits existing.transferEnable) (fits' : Fits sourceUser.transferEnable)
  (above : 0 < sourcePlan.id) (mapped : plans sourcePlan.id = some sourcePlan)
  (source : HoldsPlan sourceUser.planID)
include fits fits' source

theorem keeps_listed_iff (positive : 0 < targetPlan.id)
    (listed : plans targetPlan.id = some targetPlan)
    (preferred : preferredMergeTargetPlan existing sourcePlan plans = targetPlan)
    (larger : sourcePlan.transferEnable ≤ targetPlan.transferEnable) :
    KeepsEntitlement plans existing sourceUser sourcePlan
        (buildMergedTargetUserSubscription existing sourceUser sourcePlan plans).value ↔
      targetPlan.transferEnable < 8589934592 ∧
      (¬HoldsPlan existing.planID → targetPlan.id = sourcePlan.id) ∧
      (∀ id, existing.planID = some id → 0 < id →
        targetPlan.id = id ∧ sourcePlan.quota ≤ ownQuota plans existing id ∨
          targetPlan.id = sourcePlan.id ∧ ownQuota plans existing id ≤ sourcePlan.quota) ∧
      (¬HoldsPlan existing.planID →
        Endless existing.expiredAt → Endless sourceUser.expiredAt) := by
  have owed := owed_known_iff fits fits' listed
  have again :=
    @again_known plans existing sourceUser sourcePlan targetPlan positive listed preferred larger
  rw [keepsEntitlement_iff source rfl preferred]
  rw [buildMerged_value, preferred] at *
  rw [owed]
  constructor
  · rintro ⟨small, only, which, dated, -⟩
    exact ⟨small, only, which, dated⟩
  · rintro ⟨small, only, which, dated⟩
    exact ⟨small, only, which, dated, again⟩

include above mapped

theorem keeps_free_iff (free : ¬HoldsPlan existing.planID) :
    KeepsEntitlement plans existing sourceUser sourcePlan
        (buildMergedTargetUserSubscription existing sourceUser sourcePlan plans).value ↔
      MergeHoldsWhen plans existing sourceUser sourcePlan := by
  rw [keeps_listed_iff fits fits' source above mapped (preferred_free free) le_rfl]
  constructor
  · rintro ⟨small, -, -, dated⟩
    constructor
    case dated => exact dated
    case sourceFits => exact small
    case ownFits => exact fun id _ held positive => absurd ⟨id, held, positive⟩ free
    case gone => exact fun id held positive => absurd ⟨id, held, positive⟩ free
  · intro holds
    exact ⟨holds.sourceFits, fun _ => rfl,
      fun id held positive => absurd ⟨id, held, positive⟩ free, holds.dated⟩

theorem keeps_known_iff {plan : MergeTargetPlanInfo} (held : existing.planID = some plan.id)
    (positive : 0 < plan.id) (known : plans plan.id = some plan) :
    KeepsEntitlement plans existing sourceUser sourcePlan
        (buildMergedTargetUserSubscription existing sourceUser sourcePlan plans).value ↔
      MergeHoldsWhen plans existing sourceUser sourcePlan := by
  have holds : HoldsPlan existing.planID := ⟨plan.id, held, positive⟩
  have own : ∀ id, existing.planID = some id → id = plan.id ∧ ownQuota plans existing id =
      plan.quota := by
    intro id same
    obtain rfl := Option.some.inj (held.symm.trans same)
    exact ⟨rfl, by rw [ownQuota, known]⟩
  have quotas : MergeHoldsWhen plans existing sourceUser sourcePlan ↔
      sourcePlan.transferEnable < 8589934592 ∧ plan.transferEnable < 8589934592 := by
    constructor
    · intro fit
      exact ⟨fit.sourceFits, fit.ownFits plan.id plan held positive known⟩
    · rintro ⟨small, small'⟩
      constructor
      case dated => exact fun free => absurd holds free
      case sourceFits => exact small
      case ownFits =>
        intro id other same _ found
        rw [(own id same).1, known] at found
        exact Option.some.inj found ▸ small'
      case gone =>
        intro id same _ gone
        rw [(own id same).1, known] at gone
        cases gone
  have preferred := @preferred_known plans existing sourcePlan plan plan.id held positive known
  rw [quotas]
  -- The larger of the two quotas bounds the other one.
  split_ifs at preferred with less
  · rw [keeps_listed_iff fits fits' source above mapped preferred le_rfl]
    constructor
    · rintro ⟨small, -⟩
      exact ⟨small, by omega⟩
    · rintro ⟨small, -⟩
      refine ⟨small, fun _ => rfl, fun id same _ => .inr ⟨rfl, ?_⟩, fun free => absurd holds free⟩
      rw [(own id same).2]
      unfold MergeTargetPlanInfo.quota planTrafficGiB
      omega
  · rw [keeps_listed_iff fits fits' source positive known preferred (by omega)]
    constructor
    · rintro ⟨small, -⟩
      exact ⟨by omega, small⟩
    · rintro ⟨-, small⟩
      refine ⟨small, fun free => absurd holds free,
        fun id same _ => .inl ⟨(own id same).1.symm, ?_⟩, fun free => absurd holds free⟩
      rw [(own id same).2]
      unfold MergeTargetPlanInfo.quota planTrafficGiB
      omega

theorem keeps_gone_iff {id : Int} (held : existing.planID = some id) (positive : 0 < id)
    (gone : plans id = none) :
    KeepsEntitlement plans existing sourceUser sourcePlan
        (buildMergedTargetUserSubscription existing sourceUser sourcePlan plans).value ↔
      MergeHoldsWhen plans existing sourceUser sourcePlan := by
  have holds : HoldsPlan existing.planID := ⟨id, held, positive⟩
  have own : ∀ other, existing.planID = some other → other = id ∧
      ownQuota plans existing other = max 0 existing.transferEnable := by
    intro other same
    obtain rfl := Option.some.inj (held.symm.trans same)
    exact ⟨rfl, by rw [ownQuota, gone]⟩
  have reading : MergeHoldsWhen plans existing sourceUser sourcePlan ↔
      sourcePlan.transferEnable < 8589934592 ∧
        AllowanceReadAsQuota existing sourceUser sourcePlan := by
    constructor
    · intro fit
      exact ⟨fit.sourceFits, fit.gone id held positive gone⟩
    · rintro ⟨small, read⟩
      constructor
      case dated => exact fun free => absurd holds free
      case sourceFits => exact small
      case ownFits =>
        intro other plan same _ found
        rw [(own other same).1, gone] at found
        cases found
      case gone => exact fun _ _ _ _ => read
  have preferred := @preferred_gone plans existing sourcePlan id held positive gone
  have cases' := normalize_cases existing.transferEnable
  rw [reading]
  split_ifs at preferred with less
  · rw [keeps_listed_iff fits fits' source above mapped preferred le_rfl]
    constructor
    · rintro ⟨small, -⟩
      exact ⟨small, .inl less⟩
    · rintro ⟨small, -⟩
      refine ⟨small, fun _ => rfl, fun other same _ => .inr ⟨rfl, ?_⟩,
        fun free => absurd holds free⟩
      rw [(own other same).2]
      unfold MergeTargetPlanInfo.quota planTrafficGiB at *
      omega
  · have again :=
      @again_gone_iff plans existing sourceUser sourcePlan id positive gone mapped preferred
    have keeps := keepsEntitlement_iff source rfl preferred
    dsimp only at again
    generalize made : (buildMergedTargetUserSubscription existing sourceUser sourcePlan
      plans).value = merged at *
    have total : merged.transferEnable =
        max (max 0 (max existing.transferEnable sourceUser.transferEnable))
          (normalizeMergeTransferGB existing.transferEnable * planTrafficGiB) := by
      rw [← made, buildMerged_value, preferred, ← shared_normalized fits]
      rfl
    have fits'' : Fits merged.transferEnable := by
      unfold Fits planTrafficGiB at *
      omega
    have read := @allowanceReadAsQuota_iff existing sourceUser sourcePlan merged.transferEnable
      (by omega) total
    rw [shared_normalized fits''] at again
    rw [keeps, again, read]
    have allowance : owedAllowance plans existing sourceUser id =
        max existing.transferEnable sourceUser.transferEnable := by
      rw [owedAllowance, gone]
    have apart : id ≠ sourcePlan.id := by
      rintro rfl
      rw [gone] at mapped
      cases mapped
    change merged.transferEnable = owedAllowance plans existing sourceUser id ∧ _ ↔ _
    rw [allowance]
    constructor
    · rintro ⟨owed, -, larger, -, covered, stays⟩
      have covers : sourcePlan.quota ≤ max 0 existing.transferEnable := by
        rcases larger id held positive with ⟨-, covers⟩ | ⟨same, -⟩
        · rwa [(own id held).2] at covers
        · exact absurd same apart
      refine ⟨?_, owed, covers, covered, stays⟩
      unfold Fits planTrafficGiB at *
      omega
    · rintro ⟨-, owed, covers, covered, stays⟩
      refine ⟨owed, fun free => absurd holds free,
        fun other same _ => .inl ⟨(own other same).1.symm, ?_⟩, fun free => absurd holds free,
        covered, stays⟩
      rwa [(own other same).2]

end

/-- The merged subscription neither loses nor invents entitlement exactly when a user of this site
who holds no plan and has no end date meets one without end date, the quotas fit into the word, and
the allowance left from a plan that is gone can be read as a quota. -/
theorem merge_keeps_entitlement_iff (targetPlans : List MergeTargetPlanInfo)
    (planMap : Int → Option Int) (existing : MergeTargetUser) (sourceUser : MergeSourceUser)
    (sourcePlan : MergeTargetPlanInfo) (fits : Fits existing.transferEnable)
    (fits' : Fits sourceUser.transferEnable)
    (mapped : resolveMergeMappedTargetPlan (targetPlanByID targetPlans) planMap sourceUser =
      some sourcePlan) :
    KeepsEntitlement (targetPlanByID targetPlans) existing sourceUser sourcePlan
        (buildMergedTargetUserSubscription existing sourceUser sourcePlan
          (targetPlanByID targetPlans)).value ↔
      MergeHoldsWhen (targetPlanByID targetPlans) existing sourceUser sourcePlan := by
  obtain ⟨source, above, listed⟩ := resolved_positive mapped
  by_cases holds : HoldsPlan existing.planID
  · obtain ⟨id, held, positive⟩ := holds
    cases found : targetPlanByID targetPlans id with
    | none => exact keeps_gone_iff fits fits' above listed source held positive found
    | some plan =>
      obtain rfl := targetPlanByID_id found
      exact keeps_known_iff fits fits' above listed source held positive found
  · exact keeps_free_iff fits fits' above listed source holds

namespace SmallMerge

def sitePlans : List MergeTargetPlanInfo := [⟨1, 1, 200, none, none⟩, ⟨5, 1, 400, some 3, none⟩]

def planMap (id : Int) : Option Int := if id = 23 then some 5 else none

def sourceUser : MergeSourceUser := ⟨some 23, some 1, 429496729600, none, none, some 1767225600⟩

def registered : MergeTargetUser := ⟨none, none, 0, none, none, some 0⟩

def member : MergeTargetUser := ⟨some 1, some 1, 214748364800, none, none, some 1735689600⟩

end SmallMerge

open SmallMerge in
/-- A member merged into the larger plan. -/
theorem merge_keeps_entitlement_member :
    KeepsEntitlement (targetPlanByID sitePlans) member sourceUser ⟨5, 1, 400, some 3, none⟩
        (buildMergedTargetUserSubscription member sourceUser ⟨5, 1, 400, some 3, none⟩
          (targetPlanByID sitePlans)).value ↔
      MergeHoldsWhen (targetPlanByID sitePlans) member sourceUser ⟨5, 1, 400, some 3, none⟩ :=
  merge_keeps_entitlement_iff sitePlans planMap member sourceUser ⟨5, 1, 400, some 3, none⟩
    ⟨by decide, by decide⟩ ⟨by decide, by decide⟩ (by decide)

open SmallMerge in
/-- A user who never held a plan gets one that never ends. -/
theorem merge_invents_entitlement :
    ¬∀ (targetPlans : List MergeTargetPlanInfo) (planMap : Int → Option Int)
      (existing : MergeTargetUser) (sourceUser : MergeSourceUser)
      (sourcePlan : MergeTargetPlanInfo), Fits existing.transferEnable →
      Fits sourceUser.transferEnable →
      resolveMergeMappedTargetPlan (targetPlanByID targetPlans) planMap sourceUser =
        some sourcePlan →
      KeepsEntitlement (targetPlanByID targetPlans) existing sourceUser sourcePlan
        (buildMergedTargetUserSubscription existing sourceUser sourcePlan
          (targetPlanByID targetPlans)).value := by
  intro keeps
  have kept := keeps sitePlans planMap registered sourceUser ⟨5, 1, 400, some 3, none⟩
    ⟨by decide, by decide⟩ ⟨by decide, by decide⟩ (by decide)
  rcases kept.endless (by unfold Endless; decide) with ⟨⟨id, held, -⟩, -⟩ | ⟨-, ended⟩
  · cases held
  · cases ended

end ForestPanel.Quota
