import ForestPanel.GiftCard.UsedUsers
import ForestPanel.System

/-!
# Gift cards

`RedeemGiftcard` locks the user and the card, so redemptions that share one of them
are serial and each is one step. A card counts its remaining uses and lists the
users that had one; both are written together with the user's gain.
-/
namespace ForestPanel

open Relational Outcome Transition

structure GiftcardRow where
  id : Int
  code : String
  type : Int
  value : Option Int
  planID : Option Int
  limitUse : Option Int
  usedUserIDs : Option String
  startedAt : Int
  endedAt : Int
deriving Repr, DecidableEq

/-- The tables a redemption touches. User ids are those of an integer column. -/
structure GiftcardStore where
  db : Db
  giftcards : Table GiftcardRow.id GiftcardRow.id
  ids : ∀ u ∈ db.users, Decimal.Fits u.id

/-- A write of the transaction that the database may refuse. -/
inductive GiftcardWrite
  | updateUserSubscription | updateGiftcard | commit
deriving Repr, DecidableEq

/-- A call of `RedeemGiftcard`. Several cards may have the same code; `row` is the
number of the one the query returns. -/
structure Redemption where
  now : Int
  userID : Int
  code : String
  row : Nat
  refused : Option GiftcardWrite
deriving Repr, DecidableEq

namespace GiftcardStore

def loadGiftcard (s : GiftcardStore) (code : String) (row : Nat) : Option GiftcardRow :=
  let rows := s.giftcards.rows.filter fun c => c.code = code
  rows[row % rows.length]?

def applyGiftcard (db : Db) (now : Int) (giftcard : GiftcardRow) (user : UserRecord) :
    Except String UserRecord :=
  let value := giftcard.value.getD 0
  match giftcard.type with
  | 1 => .ok { user with balance := user.balance + value }
  | 2 => do
    let expiredAt ← require user.expiredAt "Not suitable gift card type"
    pure { user with expiredAt := some ((if expiredAt ≤ now then now else expiredAt) + value * 86400) }
  | 3 => .ok { user with transferEnable := user.transferEnable + value * trafficGB }
  | 4 => .ok { user with u := 0, d := 0 }
  | 5 => do
    ensure (¬(user.planID.isSome ∧ ∀ expiredAt ∈ user.expiredAt, now ≤ expiredAt))
      "Not suitable gift card type"
    let planID ← require giftcard.planID ServiceError.planNotFound.text
    let plan ← require (db.plans.find? planID) ServiceError.planNotFound.text
    pure { user with
      planID := some plan.id
      groupID := some plan.groupID
      transferEnable := planTransferEnableBytes plan.transferEnable
      deviceLimit := plan.deviceLimit
      u := 0
      d := 0
      expiredAt := if value = 0 then none else some (now + value * 86400) }
  | _ => .error "Unknown gift card type"

/-- `updateGiftcardTx` and `updateUserSubscriptionTx`. -/
def write (s : GiftcardStore) (user : UserRecord) (giftcard : GiftcardRow) (encoded : String) :
    GiftcardStore where
  db := s.db.updateUserSubscription user
  giftcards := s.giftcards.updateWhere (fun c => c.id = giftcard.id) (fun c => { c with
    limitUse := giftcard.limitUse
    usedUserIDs := some encoded }) fun _ => ⟨rfl, rfl⟩
  ids := by
    intro u member
    rw [Db.updateUserSubscription, Table.mem_updateWhere] at member
    obtain ⟨v, stored, rfl⟩ := member
    have fits := s.ids v stored
    split <;> exact fits

/-- The new store, with the type and the value that the user is told. -/
def redeemGiftcard (sprintAny : List Char → Option String) (s : GiftcardStore) (r : Redemption) :
    Except String (GiftcardStore × Int × Option Int) := do
  ensure (trimSpace r.code ≠ "") "Giftcard cannot be empty"
  let userRow ← (s.db.lockUser r.userID).mapError ServiceError.text
  let giftcard ← require (s.loadGiftcard (trimSpace r.code) r.row) "The gift card does not exist"
  ensure (¬(0 < giftcard.startedAt ∧ r.now < giftcard.startedAt)) "The gift card is not yet valid"
  ensure (¬(0 < giftcard.endedAt ∧ giftcard.endedAt < r.now)) "The gift card has expired"
  ensure (∀ limit ∈ giftcard.limitUse, 0 < limit) "The gift card usage limit has been reached"
  let usedUserIDs := parseIDString sprintAny (giftcard.usedUserIDs.getD "")
  ensure (userRow.id ∉ usedUserIDs) "The gift card has already been used by this user"
  let gained ← applyGiftcard s.db r.now giftcard userRow
  ensure (r.refused ≠ some .updateUserSubscription) "Save failed"
  -- the column holds no longer text
  let encoded := marshalIDs (usedUserIDs ++ [userRow.id])
  ensure (encoded.length ≤ 16384 ∧ r.refused ≠ some .updateGiftcard) "Save failed"
  ensure (r.refused ≠ some .commit) "Save failed"
  let spent := { giftcard with limitUse := giftcard.limitUse.map fun limit => limit - 1 }
  pure (s.write gained spent encoded, giftcard.type, giftcard.value)

def step (sprintAny : List Char → Option String) (s : GiftcardStore) (r : Redemption) :
    GiftcardStore :=
  commit s ((redeemGiftcard sprintAny s r).map Prod.fst)

end GiftcardStore

def GiftcardRow.usedUsers (sprintAny : List Char → Option String) (card : GiftcardRow) : List Int :=
  parseIDString sprintAny (card.usedUserIDs.getD "")

def GiftcardStore.Redeems (sprintAny : List Char → Option String) (s : GiftcardStore)
    (r : Redemption) (cardID : Int) : Prop :=
  (s.redeemGiftcard sprintAny r).isOk = true ∧
    (s.loadGiftcard (trimSpace r.code) r.row).map GiftcardRow.id = some cardID

instance (sprintAny : List Char → Option String) (s : GiftcardStore) (r : Redemption)
    (cardID : Int) : Decidable (s.Redeems sprintAny r cardID) := inferInstanceAs (Decidable (_ ∧ _))

/-- A redemption of the card by the user: one use less, one user more, and it was
neither exhausted nor used by that user. -/
structure UsedOnce (sprintAny : List Char → Option String) (userID : Int)
    (card card' : GiftcardRow) : Prop where
  id : card'.id = card.id
  left : ∀ limit ∈ card.limitUse, 0 < limit
  limitUse : card'.limitUse = card.limitUse.map fun limit => limit - 1
  unused : userID ∉ card.usedUsers sprintAny
  usedUsers : card'.usedUsers sprintAny = card.usedUsers sprintAny ++ [userID]

section

variable {sprintAny : List Char → Option String} {s : GiftcardStore} {r : Redemption}

private theorem mem_of_loadGiftcard {code : String} {row : Nat} {card : GiftcardRow}
    (found : s.loadGiftcard code row = some card) : card ∈ s.giftcards := by
  have listed := List.mem_of_getElem? found
  exact (List.mem_filter.mp listed).1

theorem GiftcardStore.redeemGiftcard_cases {s' : GiftcardStore} {shown : Int × Option Int}
    (returned : s.redeemGiftcard sprintAny r = .ok (s', shown)) :
    ∃ card ∈ s.giftcards, s.loadGiftcard (trimSpace r.code) r.row = some card ∧
      ∃ spent, UsedOnce sprintAny r.userID card spent ∧
        s'.giftcards.rows = s.giftcards.rows.map fun c => if c.id = card.id then spent else c := by
  simp only [redeemGiftcard, bind_eq_ok, ensure_eq_ok, exists_const, require_eq_ok, pure_eq_ok,
    mapError_eq_ok, Prod.mk.injEq] at returned
  obtain ⟨-, user, locked, card, found, -, -, left, unused, gained, applied, -, short, -, rfl, -⟩ :=
    returned
  have member := mem_of_loadGiftcard found
  obtain ⟨id, fits⟩ : user.id = r.userID ∧ Decimal.Fits user.id := by
    simp only [Db.lockUser, bind_eq_ok, require_eq_ok, pure_eq_ok] at locked
    obtain ⟨stored, located, rfl⟩ := locked
    obtain ⟨known, key⟩ := (Table.find?_eq_some ..).mp located
    exact ⟨key, s.ids stored known⟩
  rw [id] at unused fits
  rw [id]
  refine ⟨card, member, found, { card with
    limitUse := card.limitUse.map fun limit => limit - 1
    usedUserIDs := some (marshalIDs (card.usedUsers sprintAny ++ [r.userID])) },
    ⟨rfl, left, rfl, unused, ?_⟩, ?_⟩
  · apply parseIDString_marshalIDs
    intro listed
    rw [List.mem_append, List.mem_singleton]
    rintro (old | rfl)
    · exact parseIDString_fits old
    · exact fits
  · simp only [write, Table.rows_updateWhere, decide_eq_true_eq]
    apply List.map_congr_left
    intro c stored
    split
    next same => rw [s.giftcards.eq_of_key stored member same]; rfl
    next => rfl

theorem GiftcardStore.step_card {card : GiftcardRow} (member : card ∈ s.giftcards) :
    ∃ card' ∈ (s.step sprintAny r).giftcards,
      s.Redeems sprintAny r card.id ∧ UsedOnce sprintAny r.userID card card' ∨
        ¬s.Redeems sprintAny r card.id ∧ card' = card := by
  cases result : s.redeemGiftcard sprintAny r with
  | error e =>
    refine ⟨card, ?_, Or.inr ⟨?_, rfl⟩⟩
    · rw [step, result]
      exact member
    · rintro ⟨succeeds, -⟩
      rw [result] at succeeds
      cases succeeds
  | ok value =>
    obtain ⟨s', shown⟩ := value
    obtain ⟨redeemed, stored, found, spent, used, rows⟩ := redeemGiftcard_cases result
    have after : s.step sprintAny r = s' := by
      rw [step, result]
      rfl
    rw [after]
    by_cases same : card.id = redeemed.id
    · obtain rfl := s.giftcards.eq_of_key member stored same
      refine ⟨spent, (Table.mem_of_rows_map rows _).mpr ⟨card, member, if_pos rfl⟩,
        Or.inl ⟨⟨by rw [result]; rfl, by rw [found]; rfl⟩, used⟩⟩
    · refine ⟨card, (Table.mem_of_rows_map rows _).mpr ⟨card, member, if_neg same⟩,
        Or.inr ⟨?_, rfl⟩⟩
      rintro ⟨-, own⟩
      rw [found] at own
      exact same (Option.some.inj own).symm

end

def redemptions (sprintAny : List Char → Option String) (cardID : Int) :
    GiftcardStore → List Redemption → Int
  | _, [] => 0
  | s, r :: rest =>
    (if s.Redeems sprintAny r cardID then 1 else 0) +
      redemptions sprintAny cardID (s.step sprintAny r) rest

section

variable {sprintAny : List Char → Option String}

private theorem limitUse_run {s : GiftcardStore} (inputs : List Redemption) {card : GiftcardRow}
    (member : card ∈ s.giftcards) {limit : Int} (limited : card.limitUse = some limit) :
    (∃ card' ∈ (run (GiftcardStore.step sprintAny) s inputs).giftcards, card'.id = card.id ∧
      card'.limitUse = some (limit - redemptions sprintAny card.id s inputs)) ∧
    redemptions sprintAny card.id s inputs ≤ max limit 0 := by
  induction inputs generalizing s card limit with
  | nil => exact ⟨⟨card, member, rfl, by simp [redemptions, limited]⟩, by simp [redemptions]⟩
  | cons r rest ih =>
    obtain ⟨card', member', ⟨redeems, used⟩ | ⟨other, rfl⟩⟩ :=
      @GiftcardStore.step_card sprintAny _ r _ member
    · have positive := used.left limit limited
      have limited' : card'.limitUse = some (limit - 1) := by
        rw [used.limitUse, limited, Option.map_some]
      obtain ⟨⟨last, found, id, left⟩, bound⟩ := ih member' limited'
      rw [used.id] at id left bound
      refine ⟨⟨last, found, id, ?_⟩, ?_⟩
      · rw [left, redemptions, if_pos redeems]
        congr 1
        omega
      · rw [redemptions, if_pos redeems]
        omega
    · obtain ⟨found, bound⟩ := ih member' limited
      rw [redemptions, if_neg other, Int.zero_add]
      exact ⟨found, bound⟩

private theorem usedUsers_run {s : GiftcardStore} (inputs : List Redemption) {card : GiftcardRow}
    (member : card ∈ s.giftcards) {userID : Int} (listed : userID ∈ card.usedUsers sprintAny) :
    ∃ card' ∈ (run (GiftcardStore.step sprintAny) s inputs).giftcards, card'.id = card.id ∧
      userID ∈ card'.usedUsers sprintAny := by
  induction inputs generalizing s card with
  | nil => exact ⟨card, member, rfl, listed⟩
  | cons r rest ih =>
    obtain ⟨card', member', ⟨-, used⟩ | ⟨-, rfl⟩⟩ :=
      @GiftcardStore.step_card sprintAny _ r _ member
    · have listed' : userID ∈ card'.usedUsers sprintAny := by
        rw [used.usedUsers]
        exact List.mem_append_left _ listed
      obtain ⟨last, found, id, still⟩ := ih member' listed'
      exact ⟨last, found, id.trans used.id, still⟩
    · exact ih member' listed

end

/-- In every sequence of redemptions, a user redeems a card at most once, a card with
a limit is redeemed at most that often and counts down to zero at most, and a failed
redemption leaves every user and every card as they were. -/
theorem gift_cards_not_over_redeemed (sprintAny : List Char → Option String) (s : GiftcardStore)
    (inputs : List Redemption) :
    (∀ before r middle r' after, inputs = before ++ r :: (middle ++ r' :: after) →
      r'.userID = r.userID → ∀ cardID,
      (run (GiftcardStore.step sprintAny) s before).Redeems sprintAny r cardID →
      ¬(run (GiftcardStore.step sprintAny) s (before ++ r :: middle)).Redeems sprintAny r' cardID) ∧
    (∀ card ∈ s.giftcards, ∀ limit, card.limitUse = some limit →
      redemptions sprintAny card.id s inputs ≤ max limit 0 ∧
      ∃ card' ∈ (run (GiftcardStore.step sprintAny) s inputs).giftcards, card'.id = card.id ∧
        ∃ left, card'.limitUse = some left ∧
          left = limit - redemptions sprintAny card.id s inputs ∧ (0 ≤ limit → 0 ≤ left)) ∧
    ∀ before r after, inputs = before ++ r :: after → ∀ e,
      (run (GiftcardStore.step sprintAny) s before).redeemGiftcard sprintAny r = .error e →
      run (GiftcardStore.step sprintAny) s (before ++ [r]) =
        run (GiftcardStore.step sprintAny) s before := by
  refine ⟨?_, ?_, ?_⟩
  · rintro before r middle r' after - same cardID first second
    obtain ⟨succeeds, own⟩ := first
    obtain ⟨card, found, rfl⟩ := Option.map_eq_some_iff.mp own
    -- the first redemption lists the user, and the list does not shrink until the second
    obtain ⟨card', member', ⟨-, used⟩ | ⟨other, -⟩⟩ :=
      @GiftcardStore.step_card sprintAny _ r _ (mem_of_loadGiftcard found)
    · have listed : r.userID ∈ card'.usedUsers sprintAny := by
        rw [used.usedUsers]
        exact List.mem_append_right _ (List.mem_singleton_self _)
      obtain ⟨last, stored, id, still⟩ := usedUsers_run middle member' listed
      rw [← run_cons, ← run_append] at stored
      obtain ⟨_, -, ⟨-, again⟩ | ⟨other, -⟩⟩ :=
        @GiftcardStore.step_card sprintAny _ r' _ stored
      · rw [same] at again
        exact again.unused still
      · rw [id, used.id] at other
        exact other second
    · exact other ⟨succeeds, own⟩
  · intro card member limit limited
    obtain ⟨⟨card', found, id, left⟩, bound⟩ :=
      @limitUse_run sprintAny _ inputs _ member _ limited
    exact ⟨bound, card', found, id, _, left, rfl, by omega⟩
  · rintro before r after - e failed
    rw [run_append, run_cons, run_nil, GiftcardStore.step, failed]
    rfl

/-- Two buyers and a card for two uses, which the users 5 and 7 have had. -/
def giftcardStore : GiftcardStore where
  db := (Small.sys ⟨[Small.buyer 1 0, Small.buyer 2 0], Small.two_buyers, Small.two_buyers⟩ .empty
    .empty).db
  giftcards :=
    ⟨[⟨3, "G", 1, some 500, none, some 2, some "[5, \"7\"]", 0, 0⟩], by decide, by decide⟩
  ids := by decide

def redeemTwice : List Redemption :=
  [⟨100, 1, "G", 0, none⟩, ⟨101, 1, " G ", 0, none⟩, ⟨102, 2, "G", 0, none⟩]

/-- The second attempt is refused, and the card is used up. -/
theorem gift_card_redeemed_twice :
    redemptions (fun _ => none) 3 giftcardStore redeemTwice = 2 ∧
      ¬(run (GiftcardStore.step fun _ => none) giftcardStore (redeemTwice.take 1)).Redeems
        (fun _ => none) ⟨101, 1, " G ", 0, none⟩ 3 ∧
      ∃ card ∈ (run (GiftcardStore.step fun _ => none) giftcardStore redeemTwice).giftcards,
        card.id = 3 ∧ card.limitUse = some 0 := by
  have safe := gift_cards_not_over_redeemed (fun _ => none) giftcardStore redeemTwice
  obtain ⟨card, member, id, limit⟩ : ∃ card ∈ giftcardStore.giftcards, card.id = 3 ∧
      card.limitUse = some 2 := by decide
  have count : redemptions (fun _ => none) 3 giftcardStore redeemTwice = 2 := by decide +kernel
  refine ⟨count, ?_, ?_⟩
  · exact safe.1 [] _ [] _ _ rfl rfl 3 (by decide +kernel)
  · obtain ⟨-, card', found, id', left, limit', rest, -⟩ := safe.2.1 card member 2 limit
    rw [id] at id' rest
    rw [count] at rest
    exact ⟨card', found, id', by rw [limit', rest]; rfl⟩

end ForestPanel
