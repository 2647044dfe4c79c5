import ForestPanel.Campaign.Requests
import ForestPanel.Effects
import ForestPanel.Life.Book

/-!
# A campaign's reward is spent at most once

An order carries the discount of a campaign from the moment it is saved, the
campaign is marked as used when an order that carries it is opened, and neither
the opening nor a status write looks at the status the campaign has by then. As
long as openings and writes come in time, that is while the campaign has not
come to its end, no two live orders carry one campaign and an end is final.
-/
namespace ForestPanel

open Relational Outcome Transition

namespace Campaign

open Life (Live)

/-! ## How the campaigns evolve -/

/-- What the code accrues stays within the target. -/
def WithinTarget (k : InviteCampaignRecord) : Prop :=
  0 < k.currentAmount → k.currentAmount ≤ k.targetAmount

structure Grown (k k' : InviteCampaignRecord) : Prop where
  id : k'.id = k.id
  amount : 0 < k.currentAmount → k.currentAmount ≤ k'.currentAmount

theorem Grown.refl (k : InviteCampaignRecord) : Grown k k := ⟨rfl, fun _ => Int.le_refl _⟩

theorem Grown.trans {a b c : InviteCampaignRecord} (h : Grown a b) (g : Grown b c) : Grown a c := by
  refine ⟨g.id.trans h.id, ?_⟩
  intro positive
  have first := h.amount positive
  have second := g.amount (by omega)
  omega

/-- No campaign is lost, none loses what it accrued, and none leaves its end. -/
structure Evolved (t t' : Campaigns) : Prop where
  grown : ∀ k ∈ t, ∃ k' ∈ t', Grown k k'
  back : ∀ k' ∈ t', (∃ k ∈ t, k'.id = k.id ∧ (¬Running k → k'.status = k.status)) ∨
    ∀ k ∈ t, k'.id ≠ k.id
  within : (∀ k ∈ t, WithinTarget k) → ∀ k' ∈ t', WithinTarget k'

namespace Evolved

variable {t t' t'' : Campaigns}

theorem refl (t : Campaigns) : Evolved t t where
  grown := fun k member => ⟨k, member, .refl k⟩
  back := fun k member => Or.inl ⟨k, member, rfl, fun _ => rfl⟩
  within := fun within => within

theorem trans (h : Evolved t t') (g : Evolved t' t'') : Evolved t t'' where
  grown := by
    intro k member
    obtain ⟨k', member', grown⟩ := h.grown k member
    obtain ⟨k'', member'', grown'⟩ := g.grown k' member'
    exact ⟨k'', member'', grown.trans grown'⟩
  back := by
    intro k'' member''
    rcases g.back k'' member'' with ⟨k', member', same', final'⟩ | fresh'
    · rcases h.back k' member' with ⟨k, member, same, final⟩ | fresh
      · refine Or.inl ⟨k, member, same'.trans same, ?_⟩
        intro ended
        have kept := final ended
        have still : ¬Running k' := by
          unfold Running at ended ⊢
          rwa [kept]
        exact (final' still).trans kept
      · exact Or.inr fun k member => same' ▸ fresh k member
    · refine Or.inr ?_
      intro k member same
      -- the row of `k` is in the table between, under the same number
      obtain ⟨k', member', grown⟩ := h.grown k member
      exact fresh' k' member' (same.trans grown.id.symm)
  within := fun within => g.within (h.within within)

theorem updateWhere {p : InviteCampaignRecord → Bool}
    {f : InviteCampaignRecord → InviteCampaignRecord}
    (hf : Preserves InviteCampaignRecord.id InviteCampaignRecord.id f)
    (each : ∀ k ∈ t, p k → Grown k (f k) ∧ (¬Running k → (f k).status = k.status) ∧
      (WithinTarget k → WithinTarget (f k))) : Evolved t (t.updateWhere p f hf) where
  grown := by
    intro k member
    refine ⟨_, (Table.mem_updateWhere ..).mpr ⟨k, member, rfl⟩, ?_⟩
    split
    next chosen => exact (each k member chosen).1
    next => exact .refl k
  back := by
    intro k' member'
    obtain ⟨k, member, rfl⟩ := (Table.mem_updateWhere ..).mp member'
    refine Or.inl ⟨k, member, ?_⟩
    split
    next chosen => exact ⟨(hf k).1, (each k member chosen).2.1⟩
    next => exact ⟨rfl, fun _ => rfl⟩
  within := by
    intro within k' member'
    obtain ⟨k, member, rfl⟩ := (Table.mem_updateWhere ..).mp member'
    split
    next chosen => exact (each k member chosen).2.2 (within k member)
    next => exact within k member

theorem insert {row : InviteCampaignRecord} (inserted : t.insert? row = some t')
    (empty : row.currentAmount = 0) : Evolved t t' where
  grown := fun k member =>
    ⟨k, (Table.mem_of_insert? inserted k).mpr (Or.inl member), .refl k⟩
  back := by
    intro k' member'
    rcases (Table.mem_of_insert? inserted k').mp member' with old | rfl
    · exact Or.inl ⟨k', old, rfl, fun _ => rfl⟩
    · exact Or.inr fun k member => (((Table.insert?_eq_some ..).mp inserted).2.1 k member).symm
  within := by
    intro within k' member'
    rcases (Table.mem_of_insert? inserted k').mp member' with old | rfl
    · exact within k' old
    · intro positive
      omega

theorem final (h : Evolved t t') {k : InviteCampaignRecord} (member : k ∈ t) (ended : ¬Running k) :
    ∃ k' ∈ t', k'.id = k.id ∧ k'.status = k.status := by
  obtain ⟨k', member', grown⟩ := h.grown k member
  refine ⟨k', member', grown.id, ?_⟩
  rcases h.back k' member' with ⟨k₀, member₀, same, final⟩ | fresh
  · obtain rfl := t.eq_of_key member₀ member (same.symm.trans grown.id)
    exact final ended
  · exact absurd grown.id (fresh k member)

theorem used (h : Evolved t t') {c : Int} (known : ∃ k ∈ t, k.id = c)
    (used : ∀ k ∈ t, k.id = c → k.status = .used) : ∀ k' ∈ t', k'.id = c → k'.status = .used := by
  intro k' member' named
  rcases h.back k' member' with ⟨k, member, same, final⟩ | fresh
  · have status := used k member (same.symm.trans named)
    have ended : ¬Running k := by simp [Running, status]
    exact (final ended).trans status
  · obtain ⟨k, member, rfl⟩ := known
    exact absurd named (fresh k member)

end Evolved

def Current (db : Db) (u : StatusWrite) : Prop :=
  ∀ k ∈ db.campaigns, k.id = u.campaignID → Running k ∨ k.status = u.status

instance (db : Db) (u : StatusWrite) : Decidable (Current db u) := by
  unfold Current
  infer_instance

theorem evolved_write {db : Db} {u : Option StatusWrite} (current : ∀ w ∈ u, Current db w) :
    Evolved db.campaigns (write db u).campaigns := by
  cases u with
  | none => exact .refl _
  | some u =>
    refine Evolved.updateWhere (f := fun k => { k with status := u.status })
      (fun _ => ⟨rfl, rfl⟩) ?_
    intro k member chosen
    refine ⟨⟨rfl, fun _ => Int.le_refl _⟩, ?_, id⟩
    intro ended
    rcases current u rfl k member (of_decide_eq_true chosen) with running | same
    · exact absurd running ended
    · exact same.symm

theorem status_of_mem_write {db : Db} {u : StatusWrite} {k : InviteCampaignRecord}
    (member : k ∈ (write db (some u)).campaigns) (named : k.id = u.campaignID) :
    k.status = u.status := by
  obtain ⟨k₀, -, rfl⟩ := List.mem_map.mp member
  split at named
  next chosen => rw [if_pos chosen]
  next other => exact absurd (decide_eq_true named) other

theorem write_orders (db : Db) (u : Option StatusWrite) : (write db u).orders = db.orders := by
  cases u <;> rfl

theorem evolved_accrue (db : Db) (within : ∀ k ∈ db.campaigns, WithinTarget k)
    (campaignID : Int) (rewardAmount : Nat) (now : Int) :
    Evolved db.campaigns (accrue campaignID rewardAmount now db).campaigns := by
  refine Evolved.updateWhere
    (fun k => ⟨accrued_id rewardAmount now k, accrued_id rewardAmount now k⟩) ?_
  intro k member _
  have target := within k member
  unfold WithinTarget at target
  unfold accrued
  split
  · exact ⟨.refl k, fun _ => rfl, id⟩
  next open_ =>
    refine ⟨⟨rfl, ?_⟩, ?_, ?_⟩
    · intro positive
      have := target positive
      dsimp only
      omega
    · -- only a running campaign is written
      intro ended
      exact absurd (Or.inl (not_not.mp (not_or.mp open_).1)) ended
    · intro _ positive
      exact min_le_right _ _

def openingWrite (order : OrderRecord) : Option StatusWrite :=
  if order.type = .deposit then none else order.inviteCampaignID.map fun c => ⟨c, .used⟩

theorem spentCampaigns_eq (order : OrderRecord) (db : Db) :
    spentCampaigns order db = (write db (openingWrite order)).campaigns := by
  unfold spentCampaigns openingWrite markInviteCampaignUsed
  split
  · rfl
  · cases order.inviteCampaignID <;> rfl

theorem refreshedCampaigns_eq (now userID : Int) (db : Db) :
    refreshedCampaigns now userID db =
      (write db ((db.currentInviteCampaign userID).bind (refreshWrite now))).campaigns := by
  unfold refreshedCampaigns
  split
  next absent => rw [absent]; rfl
  next k found =>
    have running : Running k := (currentInviteCampaign_mem found).2.2
    rw [found, Option.bind_some]
    unfold refreshWrite nextStatus
    by_cases expired : k.expiredAt ≤ now
    · have different : CampaignStatus.expired ≠ k.status := by
        rcases running with status | status <;> simp [status]
      simp [expired, running, different, write]
    · by_cases reached : k.status = .active ∧ k.targetAmount ≤ k.currentAmount
      · simp [expired, reached, write]
      · simp [expired, reached, write]

/-! ## What a step does to orders and campaigns -/

/-- The orders stay, and none but those of `live` becomes live. -/
def OrdersKept (db db' : Db) (live : Int → Prop) : Prop :=
  ∃ f, db'.orders.rows = db.orders.rows.map f ∧ ∀ r ∈ db.orders,
    (f r).terms = r.terms ∧ (Live (f r).status → Live r.status ∨ live r.id)

theorem OrdersKept.refl {db db' : Db} (same : db'.orders = db.orders) :
    OrdersKept db db' fun _ => False :=
  ⟨id, by rw [same, List.map_id], fun _ _ => ⟨rfl, Or.inl⟩⟩

/-- The orders that opening `order` makes live: itself, and those whose surplus it uses. -/
def Opens (order : OrderRecord) (id : Int) : Prop := id = order.id ∨ id ∈ surplusIDs order

/-- What a step does, one constructor for each way it can touch a reward. -/
inductive Change (w : World) (act : Act) : Db → Prop
  | kept (db' : Db) (orders : OrdersKept w.db db' fun _ => False)
      (campaigns : db'.campaigns = w.db.campaigns) : Change w act db'
  | wrote (db' : Db) (orders : db'.orders = w.db.orders)
      (campaigns : db'.campaigns = (write w.db (w.statusWrite act)).campaigns) : Change w act db'
  | accrued (campaignID : Int) (rewardAmount : Nat) (now : Int) :
      Change w act (accrue campaignID rewardAmount now w.db)
  | created (row : InviteCampaignRecord) (db' : Db) (empty : row.currentAmount = 0)
      (orders : db'.orders = w.db.orders)
      (inserted : (write w.db (w.statusWrite act)).campaigns.insert? row = some db'.campaigns) :
      Change w act db'
  | opened (i : Input) (order : OrderRecord) (db' : Db) (step : act = .panel i)
      (member : order ∈ w.db.orders) (opening : w.sys.opening i = some order)
      (orders : OrdersKept w.db db' (Opens order))
      (campaigns : db'.campaigns = (write w.db (openingWrite order)).campaigns) : Change w act db'
  | saved (row : OrderRecord) (seen : Campaigns) (stored db' : Db)
      (known : seen = w.db.campaigns ∨ ∃ userID, .saving userID seen ∈ w.requests)
      (h : Saved row { w.db with campaigns := seen } stored) (orders : db'.orders = stored.orders)
      (campaigns : db'.campaigns = (write w.db (w.statusWrite act)).campaigns) : Change w act db'

private theorem Change.same (w : World) (act : Act) : Change w act w.db :=
  .kept _ (.refl rfl) rfl

private theorem ordersKept_of_rows {db db' : Db} {f : OrderRecord → OrderRecord}
    {live : Int → Prop} (rows : db'.orders.rows = db.orders.rows.map f)
    (terms : ∀ r ∈ db.orders, (f r).terms = r.terms)
    (status : ∀ r ∈ db.orders, Live (f r).status → Live r.status ∨ live r.id) :
    OrdersKept db db' live :=
  ⟨f, rows, fun r member => ⟨terms r member, status r member⟩⟩

private theorem ordersKept_of_standing {db db' : Db} {f : OrderRecord → OrderRecord}
    (rows : db'.orders.rows = db.orders.rows.map f)
    (same : ∀ r ∈ db.orders, (f r).terms = r.terms ∧ (f r).status = r.status) :
    OrdersKept db db' fun _ => False :=
  ⟨f, rows, fun r member => ⟨(same r member).1, fun alive => Or.inl ((same r member).2 ▸ alive)⟩⟩

variable {w : World} {act : Act} {rt : Runtime}

theorem Change.of_effect {i : Input} {db' : Db} (effect : Effect w.sys i db') :
    Change w (.panel i) db' := by
  cases effect with
  | unchanged => exact .same w _
  | saved row db' h op campaigns =>
    refine .saved row w.db.campaigns db' db' (Or.inl rfl) h rfl ?_
    rw [campaigns, World.statusWrite, op]
    dsimp only
    unfold orderWrite
    split
    · rfl
    · exact refreshedCampaigns_eq i.now _ w.db
  | cancelled order db' member unfinished h =>
    refine .kept db' (ordersKept_of_rows h.orders (fun r _ => cancelledRow_terms ..) ?_)
      (by rw [h.frame]; rfl)
    intro r _ alive
    rw [cancelledRow_status] at alive
    split at alive
    · exact absurd alive (by simp [Live])
    · exact Or.inl alive
  | opened order tradeNo db' member op named paid h =>
    refine .opened i order db' rfl member (opening_of_opened member op named paid) ?_
      (h.campaigns.trans (spentCampaigns_eq order _))
    refine ordersKept_of_rows h.orders (fun r _ => openedRow_terms ..) ?_
    intro r _ alive
    rw [openedRow_status] at alive
    split at alive
    next same => exact Or.inr (Or.inl same)
    next =>
      split at alive
      next listed => exact Or.inr (Or.inr listed.2)
      next => exact Or.inl alive
  | acknowledged order tradeNo c db' member confirmed named paid h =>
    obtain ⟨f, rows, same⟩ := h.orders member
    refine .kept db' (ordersKept_of_standing rows fun r stored => ?_) (by rw [h.writes.2]; rfl)
    exact ⟨(same r stored).1, (same r stored).2.1⟩
  | settled order confirmed tradeNo c db' member confirmation named h =>
    refine .opened i order db' rfl member (opening_of_settled member confirmation named h) ?_
      (h.campaigns.trans (spentCampaigns_eq order _))
    have terms := (confirmedOrder_terms h.confirmation).1
    refine ordersKept_of_rows h.orders (fun r _ => settledRow_terms ..) ?_
    intro r _ alive
    rw [settledRow_status] at alive
    have number : confirmed.id = order.id := congrArg OrderTerms.id terms
    have listed : surplusIDs confirmed = surplusIDs order :=
      congrArg (fun t => t.surplusOrderIDs.getD []) terms
    rw [number, listed] at alive
    split at alive
    next same => exact Or.inr (Or.inl same)
    next =>
      split at alive
      next used => exact Or.inr (Or.inr used.2)
      next => exact Or.inl alive
  | refunded order tradeNo db' member op named h =>
    refine .kept db' (ordersKept_of_rows h.orders (fun r _ => refundedRow_terms ..) ?_)
      (by rw [h.frame]; rfl)
    intro r _ alive
    rw [refundedRow_status] at alive
    split at alive
    · exact absurd alive (by simp [Live])
    · split at alive
      next closed => exact Or.inl (Or.inr closed.1)
      next => exact Or.inl alive
  | commissionCleared order member deposit =>
    exact .kept _ (ordersKept_of_standing (disableDepositCommission_rows w.sys.db order i.now)
      fun r _ => commissionClearedRow_standing i.now order r) rfl
  | commissionSettled order inviter tradeNo db' member op h =>
    exact .kept db' (ordersKept_of_standing h.orders
      fun r _ => commissionPaidRow_standing i.now order r) (by rw [h.frame]; rfl)
  | commissionEdited order target db' member unpaid orders frame =>
    exact .kept db' (ordersKept_of_standing orders
      fun r _ => commissionEditedRow_standing i.now order target r) (by rw [frame]; rfl)
  | checkedOut db' h =>
    obtain ⟨⟨f, rows, same⟩, frame⟩ := h.only
    exact .kept db' (ordersKept_of_standing rows fun r _ => ⟨(same r).terms, (same r).status⟩)
      (by rw [frame]; rfl)
  | paymentsEdited payments => exact .kept _ (.refl rfl) rfl

private theorem createCampaign_change {userID now planID : Int}
    {existing : Option InviteCampaignRecord} {period : String} {expireSeconds : Int}
    (written : w.statusWrite act = expireWrite now existing) :
    Change w act (createCampaign w userID existing now planID period expireSeconds).db := by
  unfold createCampaign
  dsimp only
  split
  · exact .same w act
  next row offered =>
    split
    · split
      · exact .same w act
      next campaigns inserted =>
        refine .created row _ ?_ rfl (written ▸ inserted)
        -- a new campaign has nothing accrued
        simp only [newCampaign, Option.bind_eq_bind, Option.bind_eq_some_iff, pure,
          Option.some.injEq] at offered
        obtain ⟨-, -, -, -, -, -, rfl⟩ := offered
        rfl
    · exact .same w act

theorem step_change (rt : Runtime) (w : World) (act : Act) :
    Change w act (step rt w act).db := by
  cases act with
  | panel i =>
    dsimp only [step]
    split
    · exact .same w _
    · exact .of_effect (Sys.step_effect rt w.sys i)
  | lockBuyer userID =>
    dsimp only [step]
    split <;> exact .same w _
  | saveOrder n cfg now req tradeNo =>
    dsimp only [step]
    split
    next userID seen found =>
      have written : w.statusWrite (.saveOrder n cfg now req tradeNo) =
          orderWrite now userID req { w.db with campaigns := seen } := by
        simp only [World.statusWrite, found]
      refine commit_cases w.db _ (.same w _) ?_
      intro db' returned
      simp only [saveOrderSeeing, bind_eq_ok, pure_eq_ok] at returned
      obtain ⟨stored, saved, rfl⟩ := returned
      obtain ⟨row, h, -⟩ := saveOrder_saved saved
      have known := List.mem_of_getElem? found
      exact .saved row seen stored _ (Or.inr ⟨userID, known⟩) h rfl (by rw [written])
    · exact .same w _
  | readCampaign campaignID =>
    dsimp only [step]
    split <;> exact .same w _
  | readCurrent userID abandon =>
    dsimp only [step]
    split <;> exact .same w _
  | refresh n now =>
    dsimp only [step]
    split
    next row abandon found =>
      have written : w.statusWrite (.refresh n now) = refreshWrite now row := by
        simp only [World.statusWrite, found]
      exact .wrote _ (write_orders ..) (by rw [written]; rfl)
    · exact .same w _
  | abandon n =>
    dsimp only [step]
    split
    next campaignID found =>
      have written : w.statusWrite (.abandon n) = some ⟨campaignID, .abandoned⟩ := by
        simp only [World.statusWrite, found]
      exact .wrote _ rfl (by rw [written]; rfl)
    · exact .same w _
  | readExisting userID => exact .same w _
  | createCampaign n now planID period expireSeconds =>
    dsimp only [step]
    split
    next userID existing found =>
      refine @createCampaign_change _ _ userID now planID existing period expireSeconds ?_
      simp only [World.statusWrite, found]
    · exact .same w _
  | accrue campaignID rewardAmount now => exact .accrued campaignID rewardAmount now
  | drop n => exact .same w _

/-! ## The invariant -/

/-- What holds between the steps; `opened` are the orders that were ever opened. -/
structure Spending (opened : Int → Prop) (db : Db) : Prop where
  within : ∀ k ∈ db.campaigns, WithinTarget k
  carried : ∀ o ∈ db.orders, WithinReward db o.inviteCampaignID o.inviteCampaignDiscountAmount
  plain : ∀ o ∈ db.orders, o.type = .deposit → o.inviteCampaignID = none
  known : ∀ id, opened id → ∃ o ∈ db.orders, o.id = id
  live : ∀ o ∈ db.orders, Live o.status → opened o.id
  listed : ∀ o ∈ db.orders, ∀ id ∈ surplusIDs o, opened id
  used : ∀ o ∈ db.orders, opened o.id → ∀ c, o.inviteCampaignID = some c →
    ∀ k ∈ db.campaigns, k.id = c → k.status = .used
  once : ∀ o ∈ db.orders, ∀ o' ∈ db.orders, opened o.id → opened o'.id →
    ∀ c, o.inviteCampaignID = some c → o'.inviteCampaignID = some c → o.id = o'.id

/-- What a request saw is what the campaigns have grown from. -/
def Seen (seen t : Campaigns) : Prop := ∀ k ∈ seen, ∃ k' ∈ t, Grown k k'

theorem Seen.evolved {seen t t' : Campaigns} (h : Seen seen t) (evolved : Evolved t t') :
    Seen seen t' := by
  intro k member
  obtain ⟨k', member', grown⟩ := h k member
  obtain ⟨k'', member'', grown'⟩ := evolved.grown k' member'
  exact ⟨k'', member'', grown.trans grown'⟩

private theorem withinReward_seen {db db' : Db} {campaignID : Option Int} {discount : Int}
    (h : WithinReward db campaignID discount) (seen : Seen db.campaigns db'.campaigns) :
    WithinReward db' campaignID discount := by
  intro c carried
  obtain ⟨k, member, named, positive, bounded⟩ := h c carried
  obtain ⟨k', member', grown⟩ := seen k member
  have amount := grown.amount (by omega)
  exact ⟨k', member', grown.id.trans named, positive, by omega⟩

namespace Spending

variable {opened opened' live : Int → Prop} {db db' : Db}

theorem stays_used (h : Spending opened db) (evolved : Evolved db.campaigns db'.campaigns)
    {o : OrderRecord} (member : o ∈ db.orders) (old : opened o.id) {c : Int}
    (carried : o.inviteCampaignID = some c) :
    ∀ k ∈ db'.campaigns, k.id = c → k.status = .used := by
  obtain ⟨k, stored, named, -⟩ := h.carried o member c carried
  exact evolved.used ⟨k, stored, named⟩ (h.used o member old c carried)

theorem advance (h : Spending opened db) (orders : OrdersKept db db' live)
    (evolved : Evolved db.campaigns db'.campaigns) (more : ∀ id, opened id → opened' id)
    (covers : ∀ id, live id → opened' id)
    (known : ∀ id, opened' id → ∃ o ∈ db.orders, o.id = id)
    (used : ∀ o ∈ db.orders, opened' o.id → ∀ c, o.inviteCampaignID = some c →
      ∀ k ∈ db'.campaigns, k.id = c → k.status = .used)
    (once : ∀ o ∈ db.orders, ∀ o' ∈ db.orders, opened' o.id → opened' o'.id →
      ∀ c, o.inviteCampaignID = some c → o'.inviteCampaignID = some c → o.id = o'.id) :
    Spending opened' db' := by
  obtain ⟨f, rows, each⟩ := orders
  -- every row is the image of one with the same terms
  have origin : ∀ o' ∈ db'.orders, ∃ o ∈ db.orders, o'.terms = o.terms ∧
      (Live o'.status → Live o.status ∨ live o.id) := by
    intro o' member'
    obtain ⟨o, member, rfl⟩ := (Table.mem_of_rows_map rows o').mp member'
    exact ⟨o, member, each o member⟩
  have number : ∀ {o o' : OrderRecord}, o'.terms = o.terms → o'.id = o.id :=
    fun terms => congrArg OrderTerms.id terms
  have campaign : ∀ {o o' : OrderRecord}, o'.terms = o.terms →
      o'.inviteCampaignID = o.inviteCampaignID := fun terms => congrArg OrderTerms.inviteCampaignID terms
  constructor
  case within => exact evolved.within h.within
  case carried =>
    intro o' member'
    obtain ⟨o, member, terms, -⟩ := origin o' member'
    have discount : o'.inviteCampaignDiscountAmount = o.inviteCampaignDiscountAmount :=
      congrArg OrderTerms.inviteCampaignDiscountAmount terms
    rw [campaign terms, discount]
    exact withinReward_seen (h.carried o member) evolved.grown
  case plain =>
    intro o' member' deposit
    obtain ⟨o, member, terms, -⟩ := origin o' member'
    have kind : o'.type = o.type := congrArg OrderTerms.type terms
    exact (campaign terms).trans (h.plain o member (kind.symm.trans deposit))
  case known =>
    intro id mine
    obtain ⟨o, member, rfl⟩ := known id mine
    exact ⟨f o, (Table.mem_of_rows_map rows _).mpr ⟨o, member, rfl⟩, number (each o member).1⟩
  case live =>
    intro o' member' alive
    obtain ⟨o, member, terms, before⟩ := origin o' member'
    rw [number terms]
    rcases before alive with old | new
    · exact more _ (h.live o member old)
    · exact covers _ new
  case listed =>
    intro o' member' id listed
    obtain ⟨o, member, terms, -⟩ := origin o' member'
    have same : surplusIDs o' = surplusIDs o :=
      congrArg (fun t => t.surplusOrderIDs.getD []) terms
    exact more _ (h.listed o member id (same ▸ listed))
  case used =>
    intro o' member' mine c carried
    obtain ⟨o, member, terms, -⟩ := origin o' member'
    exact used o member (number terms ▸ mine) c ((campaign terms).symm.trans carried)
  case once =>
    intro o₁ member₁ o₂ member₂ mine₁ mine₂ c carried₁ carried₂
    obtain ⟨a, stored₁, terms₁, -⟩ := origin o₁ member₁
    obtain ⟨b, stored₂, terms₂, -⟩ := origin o₂ member₂
    rw [number terms₁, number terms₂]
    exact once a stored₁ b stored₂ (number terms₁ ▸ mine₁) (number terms₂ ▸ mine₂) c
      ((campaign terms₁).symm.trans carried₁) ((campaign terms₂).symm.trans carried₂)

theorem keep (h : Spending opened db) (orders : OrdersKept db db' fun _ => False)
    (evolved : Evolved db.campaigns db'.campaigns) : Spending opened db' :=
  h.advance orders evolved (fun _ => id) (fun _ => False.elim) h.known
    (fun _ member old _ carried => h.stays_used evolved member old carried) h.once

theorem «open» {order : OrderRecord} (h : Spending opened db) (member : order ∈ db.orders)
    (orders : OrdersKept db db' (Opens order)) (evolved : Evolved db.campaigns db'.campaigns)
    (campaigns : db'.campaigns = (write db (openingWrite order)).campaigns)
    (running : ∀ k ∈ db.campaigns, order.inviteCampaignID = some k.id → Running k) :
    Spending (fun id => opened id ∨ id = order.id) db' := by
  -- no order that was opened before carries the same campaign
  have first : ∀ o ∈ db.orders, opened o.id → ∀ c, o.inviteCampaignID = some c →
      order.inviteCampaignID ≠ some c := by
    intro o stored old c carried same
    obtain ⟨k, found, named, -⟩ := h.carried o stored c carried
    have spent := h.used o stored old c carried k found named
    have still := running k found (named ▸ same)
    simp [Running, spent] at still
  refine h.advance orders evolved (fun _ => Or.inl) ?_ ?_ ?_ ?_
  · rintro id (rfl | listed)
    · exact Or.inr rfl
    · exact Or.inl (h.listed order member id listed)
  · rintro id (old | rfl)
    · exact h.known id old
    · exact ⟨order, member, rfl⟩
  · rintro o stored (old | same) c carried
    · exact h.stays_used evolved stored old carried
    · obtain rfl := db.orders.eq_of_key stored member same
      have notDeposit : o.type ≠ .deposit := by
        intro deposit
        rw [h.plain o stored deposit] at carried
        cases carried
      intro k' member' named
      rw [campaigns, openingWrite, if_neg notDeposit, carried] at member'
      exact status_of_mem_write member' named
  · rintro o stored o' stored' (old | same) (old' | same') c carried carried'
    · exact h.once o stored o' stored' old old' c carried carried'
    · obtain rfl := db.orders.eq_of_key stored' member same'
      exact absurd carried' (first o stored old c carried)
    · obtain rfl := db.orders.eq_of_key stored member same
      exact absurd carried (first o' stored' old' c carried')
    · exact same.trans same'.symm

theorem save {row : OrderRecord} {seen : Campaigns} {stored : Db} (h : Spending opened db)
    (evolved : Evolved db.campaigns db'.campaigns) (saw : Seen seen db.campaigns)
    (saved : Saved row { db with campaigns := seen } stored) (orders : db'.orders = stored.orders) :
    Spending opened db' := by
  have members : ∀ o, o ∈ db'.orders ↔ o ∈ db.orders ∨ o = row := by
    intro o
    rw [orders, Table.mem_def, saved.orders, List.mem_append, List.mem_singleton]
    rfl
  have unopened : ¬opened row.id := by
    intro old
    obtain ⟨o, member, same⟩ := h.known _ old
    exact (saved.fresh o member).1 same
  constructor
  case within => exact evolved.within h.within
  case carried =>
    intro o member
    rcases (members o).mp member with old | rfl
    · exact withinReward_seen (h.carried o old) evolved.grown
    · exact withinReward_seen saved.reward (saw.evolved evolved)
  case plain =>
    intro o member deposit
    rcases (members o).mp member with old | rfl
    · exact h.plain o old deposit
    · exact saved.plain deposit
  case known =>
    intro id old
    obtain ⟨o, member, same⟩ := h.known id old
    exact ⟨o, (members o).mpr (Or.inl member), same⟩
  case live =>
    intro o member alive
    rcases (members o).mp member with old | rfl
    · exact h.live o old alive
    · rw [saved.unpaid.1] at alive
      exact absurd alive (by simp [Live])
  case listed =>
    intro o member id listed
    rcases (members o).mp member with old | rfl
    · exact h.listed o old id listed
    · obtain ⟨r, found, rfl, -, completed⟩ := saved.surplus id listed
      exact h.live r found (Or.inl completed)
  case used =>
    intro o member mine c carried
    rcases (members o).mp member with old | rfl
    · exact h.stays_used evolved old mine carried
    · exact absurd mine unopened
  case once =>
    intro o member o' member' mine mine' c carried carried'
    rcases (members o).mp member with old | rfl
    · rcases (members o').mp member' with old' | rfl
      · exact h.once o old o' old' mine mine' c carried carried'
      · exact absurd mine' unopened
    · exact absurd mine unopened

end Spending

/-! ## Runs -/

/-- An order that carries a campaign is opened only while that campaign runs. -/
def OpensRunning (w : World) : Act → Prop
  | .panel i => ∀ order ∈ w.sys.opening i, ∀ k ∈ w.db.campaigns,
      order.inviteCampaignID = some k.id → Running k
  | _ => True

instance (w : World) (act : Act) : Decidable (OpensRunning w act) := by
  unfold OpensRunning
  split <;> infer_instance

/-- Openings find their campaign running, and a status write finds it running or
in the very status it writes. -/
def Timely (w : World) (act : Act) : Prop :=
  OpensRunning w act ∧ ∀ u ∈ w.statusWrite act, Current w.db u

instance (w : World) (act : Act) : Decidable (Timely w act) := by
  unfold Timely
  infer_instance

/-- No two orders that are completed, or used up after that, carry one campaign. -/
def SpentOnce (db : Db) : Prop :=
  ∀ o ∈ db.orders, ∀ o' ∈ db.orders, Live o.status → Live o'.status →
    ∀ c, o.inviteCampaignID = some c → o'.inviteCampaignID = some c → o.id = o'.id

instance (db : Db) : Decidable (SpentOnce db) :=
  decidable_of_iff (∀ o ∈ db.orders, ∀ o' ∈ db.orders, Live o.status → Live o'.status →
      ∀ c ∈ o.inviteCampaignID, o'.inviteCampaignID = some c → o.id = o'.id) Iff.rfl

/-- A discount is of a campaign there is, and at most what it has accrued. -/
def Covered (db : Db) : Prop :=
  ∀ o ∈ db.orders, ∀ c, o.inviteCampaignID = some c →
    ∃ k ∈ db.campaigns, k.id = c ∧ o.inviteCampaignDiscountAmount ≤ k.currentAmount

def EndsKept (db db' : Db) : Prop :=
  ∀ k ∈ db.campaigns, ¬Running k → ∃ k' ∈ db'.campaigns, k'.id = k.id ∧ k'.status = k.status

structure RewardKept (rt : Runtime) (w : World) (act : Act) : Prop where
  once : SpentOnce (step rt w act).db
  covered : Covered (step rt w act).db
  ends : EndsKept w.db (step rt w act).db

/-- No request is on its way and no order carries a campaign yet. -/
structure World.Start (w : World) : Prop where
  sys : w.sys.Start
  orders : ∀ o ∈ w.db.orders, o.inviteCampaignID = none
  campaigns : ∀ k ∈ w.db.campaigns, WithinTarget k
  requests : w.requests = []

/-- The invariant, with what the requests on their way have seen. -/
structure Tended (w : World) : Prop where
  spending : ∃ opened, Spending opened w.db
  seen : ∀ userID seen, .saving userID seen ∈ w.requests → Seen seen w.db.campaigns

theorem World.Start.tended (start : w.Start) : Tended w := by
  have plain : ∀ o ∈ w.db.orders, ∀ c, o.inviteCampaignID ≠ some c := by
    intro o member c carried
    rw [start.orders o member] at carried
    cases carried
  refine ⟨⟨fun _ => False, start.campaigns, ?_, ?_, nofun, ?_, ?_, ?_, ?_⟩, ?_⟩
  · exact fun o member c carried => absurd carried (plain o member c)
  · exact fun o member _ => start.orders o member
  · intro o member alive
    rw [(start.sys.1.orders o member).status] at alive
    exact absurd alive (by simp [Live])
  · intro o member id listed
    rw [surplusIDs, (start.sys.1.orders o member).plain.1] at listed
    cases listed
  · exact fun o member mine => mine.elim
  · exact fun o member o' member' mine => mine.elim
  · intro userID seen member
    rw [start.requests] at member
    cases member

theorem openingWrite_current {i : Input} {order : OrderRecord}
    (opening : w.sys.opening i = some order) (running : OpensRunning w (.panel i)) :
    ∀ u ∈ openingWrite order, Current w.db u := by
  intro u written k member named
  unfold openingWrite at written
  split at written
  · cases written
  · obtain ⟨c, carried, rfl⟩ := Option.map_eq_some_iff.mp written
    exact Or.inl (running order opening k member (carried.trans (congrArg some named.symm)))

theorem Change.evolved {db' : Db} (change : Change w act db')
    (within : ∀ k ∈ w.db.campaigns, WithinTarget k) (timely : Timely w act) :
    Evolved w.db.campaigns db'.campaigns := by
  have written := evolved_write timely.2
  cases change with
  | kept db' orders campaigns => exact campaigns ▸ .refl _
  | wrote db' orders campaigns => exact campaigns ▸ written
  | accrued campaignID rewardAmount now => exact evolved_accrue w.db within ..
  | created row db' empty orders inserted => exact written.trans (.insert inserted empty)
  | opened i order db' step member opening orders campaigns =>
    subst step
    exact campaigns ▸ evolved_write (openingWrite_current opening timely.1)
  | saved row seen stored db' known h orders campaigns => exact campaigns ▸ written

theorem Change.spending {db' : Db} (change : Change w act db') (tended : Tended w)
    (timely : Timely w act) : ∃ opened, Spending opened db' := by
  obtain ⟨opened, spending⟩ := tended.spending
  have evolved := change.evolved spending.within timely
  cases change with
  | kept db' orders campaigns => exact ⟨opened, spending.keep orders evolved⟩
  | wrote db' orders campaigns => exact ⟨opened, spending.keep (.refl orders) evolved⟩
  | accrued campaignID rewardAmount now => exact ⟨opened, spending.keep (.refl rfl) evolved⟩
  | created row db' empty orders inserted => exact ⟨opened, spending.keep (.refl orders) evolved⟩
  | opened i order db' step member opening orders campaigns =>
    subst step
    exact ⟨_, spending.open member orders evolved campaigns (timely.1 order opening)⟩
  | saved row seen stored db' known h orders campaigns =>
    refine ⟨opened, spending.save evolved ?_ h orders⟩
    rcases known with rfl | ⟨userID, waiting⟩
    · exact fun k member => ⟨k, member, .refl k⟩
    · exact tended.seen userID seen waiting

private theorem createCampaign_requests (w : World) (userID now planID : Int)
    (existing : Option InviteCampaignRecord) (period : String) (expireSeconds : Int) :
    (createCampaign w userID existing now planID period expireSeconds).requests = w.requests := by
  unfold createCampaign
  dsimp only
  split
  · rfl
  · split
    · split <;> rfl
    · rfl

private theorem saving_of_step {userID : Int} {seen : Campaigns}
    (member : .saving userID seen ∈ (step rt w act).requests) :
    .saving userID seen ∈ w.requests ∨ seen = w.db.campaigns := by
  have added : ∀ r, .saving userID seen ∈ w.requests ++ [r] →
      .saving userID seen ∈ w.requests ∨ .saving userID seen = r := by
    intro r listed
    rwa [List.mem_append, List.mem_singleton] at listed
  have kept : ∀ n r, r ≠ .saving userID seen → .saving userID seen ∈ w.requests.set n r →
      .saving userID seen ∈ w.requests := by
    intro n r other listed
    rcases List.mem_or_eq_of_mem_set listed with old | new
    · exact old
    · exact absurd new.symm other
  cases act with
  | panel i =>
    dsimp only [step] at member
    split at member <;> exact Or.inl member
  | lockBuyer buyer =>
    dsimp only [step] at member
    split at member
    · exact Or.inl member
    · rcases added _ member with old | new
      · exact Or.inl old
      · cases new
        exact Or.inr rfl
  | saveOrder n cfg now req tradeNo =>
    dsimp only [step] at member
    split at member
    · exact Or.inl (kept n .done nofun member)
    · exact Or.inl member
  | readCampaign campaignID =>
    dsimp only [step] at member
    split at member
    · exact Or.inl ((added _ member).resolve_right nofun)
    · exact Or.inl member
  | readCurrent buyer abandon =>
    dsimp only [step] at member
    split at member
    · exact Or.inl ((added _ member).resolve_right nofun)
    · exact Or.inl member
  | refresh n now =>
    dsimp only [step] at member
    split at member
    next row abandon found =>
      refine Or.inl (kept n _ ?_ member)
      unfold afterRefresh
      split <;> exact nofun
    · exact Or.inl member
  | abandon n =>
    dsimp only [step] at member
    split at member
    · exact Or.inl (kept n .done nofun member)
    · exact Or.inl member
  | readExisting buyer => exact Or.inl ((added _ member).resolve_right nofun)
  | createCampaign n now planID period expireSeconds =>
    dsimp only [step] at member
    split at member
    · rw [World.set, createCampaign_requests] at member
      exact Or.inl (kept n .done nofun member)
    · exact Or.inl member
  | accrue campaignID rewardAmount now => exact Or.inl member
  | drop n => exact Or.inl (kept n .done nofun member)

theorem Tended.step (tended : Tended w) (timely : Timely w act) : Tended (step rt w act) := by
  have change := step_change rt w act
  obtain ⟨opened, spending⟩ := tended.spending
  have evolved := change.evolved spending.within timely
  refine ⟨change.spending tended timely, ?_⟩
  intro userID seen member
  rcases saving_of_step member with old | rfl
  · exact (tended.seen userID seen old).evolved evolved
  · exact evolved.grown

theorem Tended.rewardKept (tended : Tended w) (timely : Timely w act) : RewardKept rt w act := by
  have change := step_change rt w act
  obtain ⟨opened, before⟩ := tended.spending
  obtain ⟨opened', after⟩ := change.spending tended timely
  have evolved := change.evolved before.within timely
  constructor
  case once =>
    intro o member o' member' alive alive' c carried carried'
    exact after.once o member o' member' (after.live o member alive)
      (after.live o' member' alive') c carried carried'
  case covered =>
    intro o member c carried
    obtain ⟨k, stored, named, -, bounded⟩ := after.carried o member c carried
    exact ⟨k, stored, named, bounded⟩
  case ends => exact fun k member ended => evolved.final member ended

/-- As long as orders are opened and statuses written in time, a campaign's reward
is spent at most once. -/
theorem reward_spent_once (rt : Runtime) (w : World) (acts : List Act) (start : w.Start)
    (timely : Along (step rt) Timely w acts) : Along (step rt) (RewardKept rt) w acts := by
  have along := along_invariant (fun t act tended meets => Tended.step tended meets) w acts
    start.tended timely
  exact along_mono w acts (fun t act ⟨tended, meets⟩ => tended.rewardKept meets) along

/-! ## Two orders, one reward -/

/-- A buyer, and a plan that costs 1000. -/
def panel : World where
  sys := Small.sys ⟨[Small.buyer 1 0], Small.one_buyer, Small.one_buyer⟩
    ⟨[Small.plan 1 1000], Small.one_plan, Small.one_plan⟩ .empty
  requests := []
  campaignSeq := 0

theorem panel_start : panel.Start where
  sys := Small.sys_start (by decide) fun _ member => (List.not_mem_nil member).elim
  orders := fun _ member => (List.not_mem_nil member).elim
  campaigns := fun _ member => (List.not_mem_nil member).elim
  requests := rfl

/-- A campaign accrues 300; an order takes the discount and is cancelled, a second
one takes it too and is completed, and then the first is completed after all. -/
def cancelAndRecover : List Act :=
  [.readExisting 1, .createCampaign 0 50 1 "month_price" 100000, .accrue 1 300 60,
    .panel (Small.save 100 1 1 "T1"), .panel (Small.input 150 (.cancelOrder 1 "T1")),
    .panel (Small.save 200 1 1 "T2"), .panel (Small.input 250 (.completeManually "T2")),
    .panel (Small.input 300 (.completeManually "T1"))]

/-- Without the late completion the reward is spent once. -/
theorem reward_spent_by_second :
    Along (step Small.runtime) (RewardKept Small.runtime) panel (cancelAndRecover.take 7) :=
  reward_spent_once Small.runtime panel (cancelAndRecover.take 7) panel_start (by decide +kernel)

/-- Both orders are completed with a discount of 300 from the one campaign. -/
theorem reward_spent_twice :
    panel.Start ∧
    ¬Along (step Small.runtime) (RewardKept Small.runtime) panel cancelAndRecover ∧
    ∃ o ∈ (run (step Small.runtime) panel cancelAndRecover).db.orders,
      ∃ o' ∈ (run (step Small.runtime) panel cancelAndRecover).db.orders,
      o.id ≠ o'.id ∧ o.status = .completed ∧ o'.status = .completed ∧
        o.inviteCampaignID = some 1 ∧ o'.inviteCampaignID = some 1 ∧
        o.inviteCampaignDiscountAmount = 300 ∧ o'.inviteCampaignDiscountAmount = 300 := by
  have both : ∃ o ∈ (run (step Small.runtime) panel cancelAndRecover).db.orders,
      ∃ o' ∈ (run (step Small.runtime) panel cancelAndRecover).db.orders,
      o.id ≠ o'.id ∧ o.status = .completed ∧ o'.status = .completed ∧
        o.inviteCampaignID = some 1 ∧ o'.inviteCampaignID = some 1 ∧
        o.inviteCampaignDiscountAmount = 300 ∧ o'.inviteCampaignDiscountAmount = 300 := by
    decide +kernel
  refine ⟨panel_start, ?_, both⟩
  intro fair
  -- the last step is the late completion
  have split : cancelAndRecover = cancelAndRecover.take 7 ++ cancelAndRecover.drop 7 :=
    (List.take_append_drop 7 _).symm
  rw [split, along_append] at fair
  obtain ⟨o, member, o', member', different, alive, alive', carried, carried', -⟩ := both
  exact different (fair.2.1.once o member o' member' (Or.inl alive) (Or.inl alive') 1 carried
    carried')

end Campaign

end ForestPanel
