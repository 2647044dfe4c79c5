import ForestPanel.Life.Book
import Mathlib.Algebra.Order.Group.Int

/-!
# The laws of the book

Four laws about every run: what an order took and credited follows its status
(`Balanced`), what a live order uses is used by no other (`Exclusive`), a user
keeps within a coupon's limit (`Within`), and a coupon's remaining uses follow
its orders (`Counted`). Refunding breaks the first, opening an order whose used
orders were refunded or used up meanwhile breaks the second, and bringing back
a cancelled order breaks the third; each law names the events that keep it.
-/
namespace ForestPanel.Life

open Relational

variable {ι υ κ M : Type} [DecidableEq ι] [DecidableEq υ] [DecidableEq κ] [AddGroup M]
  {perUser : κ → Option Int} {b b' : Book ι υ κ M} {e : Event ι υ κ M}

/-- What an order uses was opened and is live, or was refunded and has no money
to it. -/
def Spent (r : Order ι υ κ M) (status : OrderStatus) : Prop :=
  Live status ∨ status = .cancelled ∧ r.part = 0 ∧ r.credit = 0

structure Balanced (b : Book ι υ κ M) : Prop where
  charged : ∀ o ∈ b.orders, b.charged o.user o.id = if o.status = .cancelled then 0 else o.part
  credited : ∀ o ∈ b.orders, b.credited o.user o.id = if Live o.status then o.credit else 0
  used : ∀ o ∈ b.orders, ∀ i ∈ o.uses, ∃ r ∈ b.orders, r.id = i ∧ Spent r r.status

/-- The events that keep the amounts: a refunded order has no money to it. -/
def Event.Free : Event ι υ κ M → Prop
  | .refund o => o.part = 0 ∧ o.credit = 0
  | _ => True

omit [DecidableEq ι] [DecidableEq υ] [DecidableEq κ] in
private theorem Balanced.spent (balanced : Balanced b) {o r : Order ι υ κ M}
    (stored : o ∈ b.orders) (member : r ∈ b.orders) (used : r.id ∈ o.uses) :
    Spent r r.status := by
  obtain ⟨t, found, same, spent⟩ := balanced.used o stored r.id used
  exact b.orders.eq_of_key found member same ▸ spent

section

omit [DecidableEq ι] [DecidableEq υ] [DecidableEq κ]

variable {r : Order ι υ κ M} {status : OrderStatus} {charge credit : M}

private theorem charge_after (balanced : Balanced b) (free : e.Free) (member : r ∈ b.orders)
    (change : Change b r e status charge credit) :
    (if r.status = .cancelled then 0 else r.part) + charge =
      if status = .cancelled then 0 else r.part := by
  cases change with
  | unchanged => exact add_zero _
  | cancelled unfinished => rcases unfinished with now | now <;> simp [now]
  | opened unopened => rcases unopened with now | now | now <;> simp [now]
  | closed o stored other used =>
    rcases balanced.spent stored member used with (now | now) | ⟨now, part, -⟩
    · simp [now]
    · simp [now]
    · simp [part]
  | refunded completed => simp [completed, free.1]
  | restored o stored completed other used closed => simp [closed]

private theorem credit_after (balanced : Balanced b) (free : e.Free) (member : r ∈ b.orders)
    (change : Change b r e status charge credit) :
    (if Live r.status then r.credit else 0) + credit = if Live status then r.credit else 0 := by
  cases change with
  | unchanged => exact add_zero _
  | cancelled unfinished => rcases unfinished with now | now <;> simp [now, Live]
  | opened unopened => rcases unopened with now | now | now <;> simp [now, Live]
  | closed o stored other used =>
    rcases balanced.spent stored member used with (now | now) | ⟨now, -, credit⟩
    · simp [now, Live]
    · simp [now, Live]
    · simp [credit]
  | refunded completed => simp [completed, free.2, Live]
  | restored o stored completed other used closed => simp [closed, Live]

private theorem spent_after (free : e.Free) (spent : Spent r r.status)
    (change : Change b r e status charge credit) : Spent r status := by
  cases change with
  | unchanged => exact spent
  | cancelled unfinished => rcases unfinished with now | now <;> simp [Spent, Live, now] at spent
  | opened => exact Or.inl (Or.inl rfl)
  | closed => exact Or.inl (Or.inr rfl)
  | refunded => exact Or.inr ⟨rfl, free⟩
  | restored => exact Or.inl (Or.inl rfl)

end

theorem Balanced.step (balanced : Balanced b) (h : Step perUser b e b') (free : e.Free) :
    Balanced b' := by
  refine ⟨?_, ?_, ?_⟩
  · intro r member
    rcases h.mem_cases member with ⟨o, old, rfl⟩ | rfl
    · have taken := charge_after balanced free old (e.change h.enabled old)
      rw [← balanced.charged o old] at taken
      exact (h.charged _ _).trans taken
    · have saved := h.enabled
      rw [h.charged, saved.untouched.1, Event.charge, amount_self, saved.pending]
      exact zero_add _
  · intro r member
    rcases h.mem_cases member with ⟨o, old, rfl⟩ | rfl
    · have given := credit_after balanced free old (e.change h.enabled old)
      rw [← balanced.credited o old] at given
      exact (h.credited _ _).trans given
    · have saved := h.enabled
      rw [h.credited, saved.untouched.2, saved.pending]
      exact add_zero _
  · intro r member i listed
    have kept : ∀ t ∈ b.orders, Spent t t.status → ∃ u ∈ b'.orders, u.id = t.id ∧
        Spent u u.status := by
      intro t found spent
      have after : Spent t (e.after t) := spent_after free spent (e.change h.enabled found)
      exact ⟨_, h.mem_of_mem found, rfl, after⟩
    rcases h.mem_cases member with ⟨o, old, rfl⟩ | rfl
    · obtain ⟨t, found, rfl, spent⟩ := balanced.used o old i listed
      exact kept t found spent
    · obtain ⟨t, found, rfl, -, completed⟩ := h.enabled.uses i listed
      exact kept t found (Or.inl (Or.inl completed))

/-- What a live order uses is closed, and no other live order uses it. -/
structure Exclusive (b : Book ι υ κ M) : Prop where
  closed : ∀ o ∈ b.orders, Live o.status → ∀ r ∈ b.orders, r.id ∈ o.uses → r.status = .closed
  disjoint : ∀ o ∈ b.orders, ∀ o' ∈ b.orders, Live o.status → Live o'.status → o.id ≠ o'.id →
    ∀ i ∈ o.uses, i ∉ o'.uses
  used : ∀ o ∈ b.orders, ∀ i ∈ o.uses, i ≠ o.id ∧ ∃ r ∈ b.orders, r.id = i

/-- The events that keep use exclusive: an order is not opened when something it
uses was used up meanwhile, or was refunded and itself uses others. -/
def Event.Unspent (b : Book ι υ κ M) : Event ι υ κ M → Prop
  | .open o => ∀ r ∈ b.orders, r.id ∈ o.uses →
      r.status ≠ .closed ∧ (r.status = .completed ∨ r.uses = [])
  | _ => True

section

omit [DecidableEq ι] [DecidableEq υ] [DecidableEq κ]

variable {r : Order ι υ κ M} {status : OrderStatus} {charge credit : M}

/-- An order that uses others and is live after an allowed event was live
before, or is the one being opened. -/
private theorem live_before (unspent : e.Unspent b) (member : r ∈ b.orders)
    (change : Change b r e status charge credit) (live : Live status) :
    Live r.status ∨ e = .open r ∨ r.uses = [] := by
  cases change with
  | unchanged => exact Or.inl live
  | cancelled => simp [Live] at live
  | opened => exact Or.inr (Or.inl rfl)
  | closed o stored other used =>
    rcases (unspent r member used).2 with completed | none
    · exact Or.inl (Or.inl completed)
    · exact Or.inr (Or.inr none)
  | refunded => simp [Live] at live
  | restored o stored completed other used closed => exact Or.inl (Or.inr closed)

private theorem closed_after (closed : r.status = .closed)
    (change : Change b r e status charge credit) :
    status = .closed ∨ ∃ o ∈ b.orders, e = .refund o ∧ o.status = .completed ∧ r.id ∈ o.uses := by
  cases change with
  | unchanged => exact Or.inl closed
  | cancelled unfinished => simp [closed] at unfinished
  | opened unopened => simp [closed] at unopened
  | closed => exact Or.inl rfl
  | refunded completed => simp [closed] at completed
  | restored o stored completed other used => exact Or.inr ⟨o, stored, rfl, completed, used⟩

private theorem closed_of_used {o : Order ι υ κ M} (other : r.id ≠ o.id) (used : r.id ∈ o.uses)
    (change : Change b r (.open o) status charge credit) : status = .closed := by
  cases change with
  | unchanged _ spared => exact absurd used spared.2
  | opened => exact absurd rfl other
  | closed => rfl

end

omit [DecidableEq ι] [DecidableEq υ] [DecidableEq κ] [AddGroup M] in
private theorem Exclusive.unused (exclusive : Exclusive b) {o o' : Order ι υ κ M}
    (old : o ∈ b.orders) (old' : o' ∈ b.orders) (unspent : (Event.open o).Unspent b)
    (live : Live o'.status) (i : ι) (used : i ∈ o.uses) : i ∉ o'.uses := by
  intro used'
  obtain ⟨-, r, stored, rfl⟩ := exclusive.used o old i used
  exact (unspent r stored used).1 (exclusive.closed o' old' live r stored used')

theorem Exclusive.step (exclusive : Exclusive b) (h : Step perUser b e b')
    (unspent : e.Unspent b) : Exclusive b' := by
  have change : ∀ r ∈ b.orders, _ := fun r member => e.change h.enabled (r := r) member
  have unopened : ∀ o, e = .save o → ¬Live o.status := by
    rintro o rfl live
    rw [h.enabled.pending] at live
    simp [Live] at live
  have listed : ∀ o ∈ b.orders, ∀ i ∈ o.uses, ∀ r, e = .save r → i ≠ r.id := by
    rintro o old i used r rfl rfl
    obtain ⟨-, t, found, same⟩ := exclusive.used o old _ used
    exact h.enabled.fresh t found same
  refine ⟨?_, ?_, ?_⟩
  · intro o member live r other used
    rcases h.mem_cases member with ⟨o, old, rfl⟩ | saved
    · rcases h.mem_cases other with ⟨r, stored, rfl⟩ | saved
      · have own := (exclusive.used o old r.id used).1
        rcases live_before unspent old (change o old) live with before | rfl | none
        · have closed := exclusive.closed o old before r stored used
          rcases closed_after closed (change r stored) with still | ⟨q, found, rfl, completed, shared⟩
          · exact still
          · by_cases same : o.id = q.id
            · have refunded : (Event.refund q).after o = .cancelled := if_pos same
              rw [Order.status_withStatus, refunded] at live
              simp [Live] at live
            · exact absurd shared (exclusive.disjoint o old q found before (Or.inl completed)
                same _ used)
        · exact closed_of_used own used (change r stored)
        · have : r.id ∈ o.uses := used
          simp [none] at this
      · exact absurd rfl (listed o old _ used r saved)
    · exact absurd live (unopened _ saved)
  · intro o member o' member' live live' different i used used'
    rcases h.mem_cases member with ⟨o, old, rfl⟩ | saved
    · rcases h.mem_cases member' with ⟨o', old', rfl⟩ | saved
      · rcases live_before unspent old (change o old) live with before | rfl | none
        · rcases live_before unspent old' (change o' old') live' with before' | rfl | none
          · exact exclusive.disjoint o old o' old' before before' different i used used'
          · exact exclusive.unused old' old unspent before i used' used
          · simp [none] at used'
        · rcases live_before unspent old' (change o' old') live' with before' | same | none
          · exact exclusive.unused old old' unspent before' i used used'
          · exact different (congrArg Order.id (Event.open.inj same) :)
          · simp [none] at used'
        · simp [none] at used
      · exact absurd live' (unopened _ saved)
    · exact absurd live (unopened _ saved)
  · intro o member i used
    rcases h.mem_cases member with ⟨o, old, rfl⟩ | rfl
    · obtain ⟨own, t, found, same⟩ := exclusive.used o old i used
      exact ⟨own, _, h.mem_of_mem found, same⟩
    · obtain ⟨t, found, rfl, -⟩ := h.enabled.uses i used
      exact ⟨h.enabled.fresh t found, _, h.mem_of_mem found, rfl⟩

/-- Every user keeps within the limit of every coupon, counting the orders that
are not cancelled. -/
def Within (perUser : κ → Option Int) (b : Book ι υ κ M) : Prop :=
  ∀ u k limit, perUser k = some limit → b.count u k Order.standing ≤ limit

def Event.revives (e : Event ι υ κ M) (r : Order ι υ κ M) : Bool :=
  match e with
  | .open o => r.status = .cancelled && (r.id = o.id || r.id ∈ o.uses)
  | _ => false

/-- The events that keep within the limits: the coupon of an order that is
brought back has room for it. -/
def Event.Roomy (perUser : κ → Option Int) (b : Book ι υ κ M) (e : Event ι υ κ M) : Prop :=
  ∀ r ∈ b.orders, e.revives r → ∀ k limit, r.coupon = some k → perUser k = some limit →
    b.count r.user k (fun o => o.standing || e.revives o) ≤ limit

omit [DecidableEq υ] [DecidableEq κ] in
private theorem standing_after {r : Order ι υ κ M} {status : OrderStatus} {charge credit : M}
    (change : Change b r e status charge credit) (standing : status ≠ .cancelled) :
    r.standing || e.revives r := by
  cases change with
  | unchanged => simp [Order.standing, standing]
  | cancelled => exact absurd rfl standing
  | opened unopened =>
    rcases unopened with now | now | now <;> simp [Order.standing, Event.revives, now]
  | closed o stored other used =>
    by_cases now : r.status = .cancelled <;> simp [Order.standing, Event.revives, now, used]
  | refunded => exact absurd rfl standing
  | restored o stored completed other used closed => simp [Order.standing, closed]

omit [DecidableEq ι] [AddGroup M] in
theorem count_mono {user : υ} {coupon : κ} {p q : Order ι υ κ M → Bool}
    (weaker : ∀ r ∈ b.orders, r.user = user → r.coupon = some coupon → p r → q r) :
    b.count user coupon p ≤ b.count user coupon q := by
  have le := List.countP_mono_left (l := b.orders.rows)
    (p := fun r => r.coupon = some coupon && r.user = user && p r)
    (q := fun r => r.coupon = some coupon && r.user = user && q r) ?_
  · exact Int.ofNat_le.mpr le
  · intro r member
    simp only [Bool.and_eq_true, decide_eq_true_eq]
    rintro ⟨⟨hk, hu⟩, hp⟩
    exact ⟨⟨hk, hu⟩, weaker r member hu hk hp⟩

private theorem Step.count_standing (h : Step perUser b e b') (u : υ) (k : κ) :
    b'.count u k Order.standing = b.count u k (fun r => e.after r ≠ .cancelled) +
      (e.saved.countP fun r => r.coupon = some k && r.user = u && r.standing) := by
  simp only [Book.count, h.orders, List.countP_append, List.countP_map, Function.comp_def,
    Order.standing, Order.user_withStatus, Order.coupon_withStatus, Order.status_withStatus,
    Int.natCast_add]
  rfl

private theorem within_unsaved (within : Within perUser b) (enabled : e.Enabled perUser b)
    (roomy : e.Roomy perUser b) (u : υ) (k : κ) (limit : Int) (limited : perUser k = some limit) :
    b.count u k (fun r => e.after r ≠ .cancelled) ≤ limit := by
  have standing : ∀ r ∈ b.orders, r.user = u → r.coupon = some k →
      (decide (e.after r ≠ .cancelled) : Bool) → r.standing || e.revives r := by
    intro r member _ _ kept
    exact standing_after (e.change enabled member) (of_decide_eq_true kept)
  by_cases revived : ∃ r ∈ b.orders, r.user = u ∧ r.coupon = some k ∧ e.revives r
  · obtain ⟨r, member, rfl, carries, back⟩ := revived
    exact le_trans (count_mono standing) (roomy r member back k limit carries limited)
  · refine le_trans (count_mono ?_) (within u k limit limited)
    intro r member user coupon kept
    have or := standing r member user coupon kept
    rcases (Bool.or_eq_true ..).mp or with still | back
    · exact still
    · exact absurd ⟨r, member, user, coupon, back⟩ revived

omit [DecidableEq ι] in
/-- The buyer of a new order has no unfinished one, so the check of the paid
orders bounds the standing ones. -/
private theorem Savable.room_standing {o : Order ι υ κ M} (savable : Savable perUser b o)
    (k : κ) (limit : Int) (carries : o.coupon = some k) (limited : perUser k = some limit) :
    b.count o.user k Order.standing < limit := by
  refine lt_of_le_of_lt (count_mono ?_) (savable.room k limit carries limited)
  intro r member user _ standing
  have finished := savable.alone r member user
  simp_all [Order.standing, Order.paid]

theorem Within.step (within : Within perUser b) (h : Step perUser b e b')
    (roomy : e.Roomy perUser b) : Within perUser b' := by
  intro u k limit limited
  rw [h.count_standing u k]
  have before := within_unsaved within h.enabled roomy u k limit limited
  cases e with
  | save o =>
    by_cases carries : o.user = u ∧ o.coupon = some k
    · obtain ⟨rfl, coupon⟩ := carries
      have room := h.enabled.room_standing k limit coupon limited
      have one : ((Event.save o).saved.countP fun r =>
          r.coupon = some k && r.user = o.user && r.standing) ≤ 1 := List.countP_le_length
      have same : b.count o.user k (fun r => (Event.save o).after r ≠ .cancelled) =
        b.count o.user k Order.standing := rfl
      omega
    · have none : ((Event.save o).saved.countP fun r =>
          r.coupon = some k && r.user = u && r.standing) = 0 := by
        rw [List.countP_eq_zero]
        intro r member
        obtain rfl : r = o := List.mem_singleton.mp member
        simp only [Bool.and_eq_true, decide_eq_true_eq]
        exact fun both => carries both.1.symm
      omega
  | idle => simpa [Event.saved] using before
  | cancel o => simpa [Event.saved] using before
  | «open» o => simpa [Event.saved] using before
  | refund o => simpa [Event.saved] using before

/-- A coupon has as many uses left as its capacity exceeds its orders. -/
def Counted (capacity : κ → Option Int) (b : Book ι υ κ M) : Prop :=
  ∀ k, b.left k = (capacity k).map (· - b.carrying k) ∧ ∀ l, b.left k = some l → 0 ≤ l

private theorem Step.carrying (h : Step perUser b e b') (k : κ) :
    b'.carrying k = b.carrying k + (e.saved.countP fun r => r.coupon = some k) := by
  simp only [Book.carrying, h.orders, List.countP_append, List.countP_map, Function.comp_def,
    Order.coupon_withStatus, Int.natCast_add]
  rfl

theorem Counted.step {capacity : κ → Option Int} (counted : Counted capacity b)
    (h : Step perUser b e b') : Counted capacity b' := by
  intro k
  obtain ⟨left, nonneg⟩ := counted k
  rw [h.left, h.carrying]
  have other : (∀ o, e = .save o → o.coupon ≠ some k) → e.left b.left k = b.left k ∧
      (e.saved.countP fun r => r.coupon = some k) = 0 := by
    intro uncarried
    cases e with
    | save o => simp [Event.left, Event.saved, uncarried o rfl]
    | _ => exact ⟨rfl, rfl⟩
  by_cases used : ∃ o, e = .save o ∧ o.coupon = some k
  · obtain ⟨o, rfl, carries⟩ := used
    have one : ((Event.save o).saved.countP fun r => r.coupon = some k) = 1 := by
      simp [Event.saved, carries]
    have less : (Event.save o).left b.left k = (b.left k).map (· - 1) := if_pos carries
    rw [one, less, left]
    cases room : capacity k with
    | none => simp
    | some total =>
      rw [room, Option.map_some] at left
      have enough := h.enabled.left k _ carries left
      simp only [Option.map_some, Option.some.injEq]
      refine ⟨by omega, ?_⟩
      rintro l rfl
      omega
  · obtain ⟨same, none⟩ := other fun o saved carries => used ⟨o, saved, carries⟩
    rw [same, none]
    exact ⟨by simpa using left, nonneg⟩

end ForestPanel.Life
