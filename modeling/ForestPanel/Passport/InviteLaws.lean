import ForestPanel.Passport.Invites

/-!
# Single use and accrual

While no registration finds a code that another unfinished registration has found, every
single-use code is used at most once. A campaign counts each registration once, under every
interleaving, because the campaign row is held from the read to the commit.
-/
namespace ForestPanel.Invites

open Relational Transition

variable {row : Campaign} {codes : Codes} {campaigns : Campaigns}

section

variable (cfg : Config)

/-- The condition on a step: with single-use codes, the row a registration finds is not one
that another unfinished registration has found. -/
def Apart (w : World) : Input → Prop
  | .proceed n (some id) => cfg.inviteNeverExpire = false →
      ∀ tx, w.txs n = some tx → tx.phase = .findInviteCode →
        ∀ m other, m ≠ n → w.txs m = some other → ∀ code, other.inviteCode = some code → code.id ≠ id
  | _ => True

def UsedOnce (users : List User) : Prop :=
  users.Pairwise fun a b => ∀ code, a.code = some code → b.code ≠ some code

/-- The records of the campaigns that the users registered under, one each. -/
def recordsOf (users : List User) : List (Int × Int) :=
  users.filterMap fun u => u.campaign.map fun campaign => (campaign, u.id)

structure Fair (w : World) : Prop where
  once : cfg.inviteNeverExpire = false → UsedOnce w.users
  distinct : (w.users.map User.id).Nodup
  recorded : w.records.map (fun r => (r.campaignId, r.inviteeUserId)) = recordsOf w.users
  counted : ∀ c ∈ w.campaigns, c.inviteCount = w.users.countP fun u => u.campaign = some c.id
  bounded : ∀ c ∈ w.campaigns, c.currentAmount ≤ c.targetAmount
  completed : ∀ c ∈ w.campaigns, c.inviteCount ≠ 0 → c.status = .active ∨ c.status = .completed →
    (c.status = .completed ↔ c.currentAmount = c.targetAmount)

/-! ## Unfinished registrations -/

structure Tx.Sound (w : World) (n : Nat) (tx : Tx) : Prop where
  fresh : ∀ user, tx.created = some user → user < w.nextUser ∧ ∀ u ∈ w.users, u.id ≠ user
  code : cfg.inviteNeverExpire = false → ∀ code, tx.inviteCode = some code →
    (∀ u ∈ w.users, u.code ≠ some code.id) ∧ ∃ row ∈ w.codes, row.id = code.id
  held : ∀ row, tx.locked = some row →
    w.campaignLocks row.id = some n ∧ w.campaigns.find? row.id = some row ∧ row.status = .active
  locking : tx.phase = .lockCampaign → tx.inviteCode.isSome = true ∧ tx.created.isSome = true
  accruing : tx.locked.isSome = true → tx.inviteCode.isSome = true ∧ tx.created.isSome = true
  progress : ∀ new, tx.progress = some new → ∃ row, tx.locked = some row ∧ new = row.accrued
  late : tx.locked.isSome = true → tx.phase = .accrue ∨ tx.phase = .commit
  committing : tx.phase = .commit → tx.locked.isSome = true → tx.progress.isSome = true

/-- Two unfinished registrations have different users and different single-use codes. -/
structure Tx.Separate (tx other : Tx) : Prop where
  users : ∀ user, tx.created = some user → other.created ≠ some user
  codes : cfg.inviteNeverExpire = false → ∀ code other', tx.inviteCode = some code →
    other.inviteCode = some other' → code.id ≠ other'.id

structure Inv (w : World) : Prop where
  fair : Fair cfg w
  numbered : ∀ u ∈ w.users, u.id < w.nextUser
  spent : cfg.inviteNeverExpire = false → ∀ u ∈ w.users, ∀ code, u.code = some code →
    ∃ row ∈ w.codes, row.id = code ∧ row.used = true
  known : ∀ u ∈ w.users, ∀ campaign, u.campaign = some campaign →
    ∃ row ∈ w.campaigns, row.id = campaign
  sound : ∀ n tx, w.txs n = some tx → tx.Sound cfg w n
  separate : ∀ n m tx other, n ≠ m → w.txs n = some tx → w.txs m = some other →
    tx.Separate cfg other

theorem inv_start : Inv cfg World.start := by
  have noCampaign : ∀ c, c ∉ World.start.campaigns := fun _ => List.not_mem_nil
  have noUser : ∀ u, u ∉ World.start.users := fun _ => List.not_mem_nil
  constructor
  case fair =>
    constructor
    case once => exact fun _ => List.Pairwise.nil
    case distinct => exact List.nodup_nil
    case recorded => rfl
    case counted => exact fun c member => absurd member (noCampaign c)
    case bounded => exact fun c member => absurd member (noCampaign c)
    case completed => exact fun c member => absurd member (noCampaign c)
  case numbered => exact fun u member => absurd member (noUser u)
  case spent => exact fun _ u member => absurd member (noUser u)
  case known => exact fun u member => absurd member (noUser u)
  case sound =>
    intro n tx there
    cases there
  case separate =>
    intro n m tx other _ there
    cases there

variable {cfg} {w w' : World} {n : Nat} {tx : Tx}

theorem Tx.Separate.symm {tx other : Tx} (apart : tx.Separate cfg other) :
    other.Separate cfg tx where
  users user theirs mine := apart.users user mine theirs
  codes single code other' theirs mine := (apart.codes single other' code mine theirs).symm

/-- A step that moves one registration and leaves the committed rows alone. -/
structure Moves (w w' : World) (n : Nat) (tx' : Option Tx) : Prop where
  codes : w'.codes = w.codes
  campaigns : w'.campaigns = w.campaigns
  records : w'.records = w.records
  users : w'.users = w.users
  nextUser : w.nextUser ≤ w'.nextUser
  txs : w'.txs = Function.update w.txs n tx'
  locks : ∀ id m, m ≠ n → w.campaignLocks id = some m → w'.campaignLocks id = some m

theorem Tx.Sound.moves (sound : tx.Sound cfg w n) {m : Nat} {tx' : Option Tx}
    (moves : Moves w w' m tx') (other : n ≠ m) : tx.Sound cfg w' n where
  fresh user created := by
    obtain ⟨below, free⟩ := sound.fresh user created
    rw [moves.users]
    have later := moves.nextUser
    exact ⟨by omega, free⟩
  code single code found := by
    rw [moves.users, moves.codes]
    exact sound.code single code found
  held row locked := by
    obtain ⟨lock, found, active⟩ := sound.held row locked
    rw [moves.campaigns]
    exact ⟨moves.locks _ _ other lock, found, active⟩
  locking := sound.locking
  accruing := sound.accruing
  progress := sound.progress
  late := sound.late
  committing := sound.committing

theorem Inv.moves (inv : Inv cfg w) {tx' : Option Tx} (moves : Moves w w' n tx')
    (sound : ∀ tx, tx' = some tx → tx.Sound cfg w' n)
    (separate : ∀ tx m other, tx' = some tx → m ≠ n → w.txs m = some other →
      tx.Separate cfg other) : Inv cfg w' := by
  have others : ∀ m other, m ≠ n → (w'.txs m = some other ↔ w.txs m = some other) := by
    intro m other different
    rw [moves.txs, Function.update_of_ne different]
  have mine : ∀ tx, w'.txs n = some tx ↔ tx' = some tx := by
    intro tx
    rw [moves.txs, Function.update_self]
  constructor
  case fair =>
    have fair := inv.fair
    constructor
    case once => rw [moves.users]; exact fair.once
    case distinct => rw [moves.users]; exact fair.distinct
    case recorded => rw [moves.users, moves.records]; exact fair.recorded
    case counted => rw [moves.users, moves.campaigns]; exact fair.counted
    case bounded => rw [moves.campaigns]; exact fair.bounded
    case completed => rw [moves.campaigns]; exact fair.completed
  case numbered =>
    rw [moves.users]
    intro u member
    have before := inv.numbered u member
    have later := moves.nextUser
    omega
  case spent =>
    rw [moves.users, moves.codes]
    exact inv.spent
  case known =>
    rw [moves.users, moves.campaigns]
    exact inv.known
  case sound =>
    intro m other there
    by_cases same : m = n
    · subst same
      exact sound other ((mine other).mp there)
    · exact (inv.sound m other ((others m other same).mp there)).moves moves same
  case separate =>
    intro a b first second different there there'
    by_cases left : a = n
    · subst left
      have right : b ≠ a := different.symm
      exact separate first b second ((mine first).mp there) right
        ((others b second right).mp there')
    · by_cases right : b = n
      · subst right
        exact (separate second a first ((mine second).mp there') left
          ((others a first left).mp there)).symm
      · exact inv.separate a b first second different ((others a first left).mp there)
          ((others b second right).mp there')

theorem moves_leave (w : World) (n : Nat) : Moves w (w.leave n) n none where
  codes := rfl
  campaigns := rfl
  records := rfl
  users := rfl
  nextUser := le_refl _
  txs := rfl
  locks id m other held := by
    have kept : w.campaignLocks id ≠ some n := by
      rw [held]
      exact fun same => other (Option.some.inj same)
    exact (if_neg kept).trans held

theorem Inv.leave (inv : Inv cfg w) (n : Nat) : Inv cfg (w.leave n) :=
  inv.moves (moves_leave w n) (fun _ none => by cases none) (fun _ _ _ none => by cases none)

theorem moves_setTx (w : World) (n : Nat) (tx : Tx) : Moves w (w.setTx n tx) n (some tx) where
  codes := rfl
  campaigns := rfl
  records := rfl
  users := rfl
  nextUser := le_refl _
  txs := rfl
  locks _ _ _ held := held

theorem Inv.advance (inv : Inv cfg w) {tx' : Tx} (there : w.txs n = some tx)
    (moves : Moves w w' n (some tx')) (sound : tx'.Sound cfg w' n)
    (sameCode : tx'.inviteCode = tx.inviteCode) (sameUser : tx'.created = tx.created) :
    Inv cfg w' := by
  apply inv.moves moves
  · intro next same
    obtain rfl := Option.some.inj same
    exact sound
  · intro next m other same different elsewhere
    obtain rfl := Option.some.inj same
    have before := inv.separate n m tx other (Ne.symm different) there elsewhere
    constructor
    case users =>
      rw [sameUser]
      exact before.users
    case codes =>
      rw [sameCode]
      exact before.codes

theorem Tx.Sound.early (sound : tx.Sound cfg w n) (phase : tx.phase ≠ .accrue ∧ tx.phase ≠ .commit) :
    tx.locked = none ∧ tx.progress = none := by
  have unlocked : tx.locked = none := by
    cases locked : tx.locked with
    | none => rfl
    | some row =>
      rcases sound.late (by rw [locked]; rfl) with late | late
      · exact absurd late phase.1
      · exact absurd late phase.2
  refine ⟨unlocked, ?_⟩
  cases written : tx.progress with
  | none => rfl
  | some new =>
    obtain ⟨row, locked, -⟩ := sound.progress new written
    rw [unlocked] at locked
    cases locked

theorem Tx.Sound.unlocked
    (fresh : ∀ user, tx.created = some user → user < w.nextUser ∧ ∀ u ∈ w.users, u.id ≠ user)
    (code : cfg.inviteNeverExpire = false → ∀ code, tx.inviteCode = some code →
      (∀ u ∈ w.users, u.code ≠ some code.id) ∧ ∃ row ∈ w.codes, row.id = code.id)
    (locking : tx.phase = .lockCampaign → tx.inviteCode.isSome = true ∧ tx.created.isSome = true)
    (unlocked : tx.locked = none ∧ tx.progress = none) : tx.Sound cfg w n := by
  have nothing : tx.locked.isSome = true → False := by
    intro locked
    rw [unlocked.1] at locked
    cases locked
  constructor
  case fresh => exact fresh
  case code => exact code
  case locking => exact locking
  case held =>
    intro row locked
    rw [unlocked.1] at locked
    cases locked
  case accruing => exact fun locked => (nothing locked).elim
  case progress =>
    intro new written
    rw [unlocked.2] at written
    cases written
  case late => exact fun locked => (nothing locked).elim
  case committing => exact fun _ locked => (nothing locked).elim

/-! ## The statements -/

theorem Inv.register (inv : Inv cfg w) (email inviteCode : String) (now : Int) :
    Inv cfg (step cfg w (.register n email inviteCode now)) := by
  rw [step]
  split
  · exact inv
  split
  · exact inv
  apply inv.moves (moves_setTx w n _)
  · intro tx same
    obtain rfl := Option.some.inj same
    apply Tx.Sound.unlocked
    case fresh => exact nofun
    case code => exact nofun
    case unlocked => exact ⟨rfl, rfl⟩
    case locking =>
      intro locking
      dsimp only at locking
      split at locking <;> cases locking
  · intro tx m other same _ _
    obtain rfl := Option.some.inj same
    constructor
    case users => exact nofun
    case codes => exact nofun

theorem Inv.findInviteCode (inv : Inv cfg w) (there : w.txs n = some tx)
    (phase : tx.phase = .findInviteCode) {returned : Option Int}
    (apart : Apart cfg w (.proceed n returned)) :
    Inv cfg (findInviteCode cfg w n tx returned) := by
  have sound := inv.sound n tx there
  have early := sound.early (by rw [phase]; simp)
  unfold Invites.findInviteCode
  split
  next =>
    split
    · exact inv
    split
    · exact inv.leave n
    apply inv.advance there (moves_setTx w n _)
    case sameCode => rfl
    case sameUser => rfl
    exact Tx.Sound.unlocked sound.fresh sound.code nofun early
  next id =>
    split
    · exact inv
    next row found =>
      split
      next matching =>
        have member := Table.mem_of_find? found
        have named : row.id = id := Table.key_of_find? found
        have unused : row.used = false := by
          rw [Code.matches, Bool.and_eq_true, Bool.not_eq_true'] at matching
          exact matching.2
        apply inv.moves (moves_setTx w n _)
        · intro tx' same
          obtain rfl := Option.some.inj same
          apply Tx.Sound.unlocked
          case fresh => exact sound.fresh
          case locking => exact nofun
          case unlocked => exact early
          case code =>
            intro single code same
            obtain rfl := Option.some.inj same
            refine ⟨?_, row, member, rfl⟩
            intro u listed took
            -- a code that a user registered with is no longer free
            obtain ⟨spent, there', sameId, gone⟩ := inv.spent single u listed _ took
            obtain rfl := w.codes.eq_of_key there' member sameId
            rw [unused] at gone
            cases gone
        · intro tx' m other same different elsewhere
          obtain rfl := Option.some.inj same
          have before := inv.separate n m tx other (Ne.symm different) there elsewhere
          refine ⟨before.users, ?_⟩
          intro single code other' mine theirs
          obtain rfl := Option.some.inj mine
          have free := apart single tx there phase m other different elsewhere other' theirs
          exact fun same => free (same.symm.trans named)
      next => exact inv

theorem Inv.findActiveCampaign (inv : Inv cfg w) (there : w.txs n = some tx)
    (phase : tx.phase = .findActiveCampaign) (code : Code) :
    Inv cfg (findActiveCampaign cfg w n tx code) := by
  have sound := inv.sound n tx there
  have early := sound.early (by rw [phase]; simp)
  apply inv.advance there (moves_setTx w n _)
  case sameCode => rfl
  case sameUser => rfl
  apply Tx.Sound.unlocked
  case fresh => exact sound.fresh
  case code => exact sound.code
  case unlocked => exact early
  case locking =>
    intro locking
    dsimp only at locking
    split at locking <;> cases locking

theorem Inv.expireInviteCode (inv : Inv cfg w) (there : w.txs n = some tx)
    (phase : tx.phase = .expireInviteCode) (code : Code) :
    Inv cfg (expireInviteCode w n tx code) := by
  have sound := inv.sound n tx there
  have early := sound.early (by rw [phase]; simp)
  unfold Invites.expireInviteCode
  split
  · exact inv
  have moves : Moves w
      ({ w with codeLocks := acquire w.codeLocks code.id n }.setTx n { tx with phase := .createUser })
      n (some { tx with phase := .createUser }) :=
    ⟨rfl, rfl, rfl, rfl, le_refl _, rfl, fun _ _ _ held => held⟩
  apply inv.advance there moves
  case sameCode => rfl
  case sameUser => rfl
  exact Tx.Sound.unlocked sound.fresh sound.code nofun early

theorem Inv.createUser (inv : Inv cfg w) (there : w.txs n = some tx)
    (phase : tx.phase = .createUser) : Inv cfg (createUser w n tx) := by
  have sound := inv.sound n tx there
  have early := sound.early (by rw [phase]; simp)
  unfold Invites.createUser
  split
  · exact inv
  split
  · exact inv.leave n
  apply inv.moves (n := n)
  case moves =>
    exact ⟨rfl, rfl, rfl, rfl, by dsimp only [World.setTx]; omega, rfl, fun _ _ _ held => held⟩
  case sound =>
    intro tx' same
    obtain rfl := Option.some.inj same
    apply Tx.Sound.unlocked
    case code => exact sound.code
    case unlocked => exact early
    case fresh =>
      intro user created
      obtain rfl := Option.some.inj created
      refine ⟨by dsimp only [World.setTx]; omega, fun u member => ?_⟩
      have before := inv.numbered u member
      omega
    case locking =>
      intro locking
      dsimp only at locking
      split at locking
      next both =>
        rw [Bool.and_eq_true] at both
        exact ⟨both.1, rfl⟩
      next => cases locking
  case separate =>
    intro tx' m other same different elsewhere
    obtain rfl := Option.some.inj same
    have before := inv.separate n m tx other (Ne.symm different) there elsewhere
    refine ⟨?_, before.codes⟩
    intro user mine theirs
    obtain rfl := Option.some.inj mine
    have taken := ((inv.sound m other elsewhere).fresh _ theirs).1
    omega

theorem Inv.lockCampaign (inv : Inv cfg w) (there : w.txs n = some tx)
    (phase : tx.phase = .lockCampaign) (campaign : Campaign) :
    Inv cfg (lockCampaign w n tx campaign) := by
  have sound := inv.sound n tx there
  have early := sound.early (by rw [phase]; simp)
  unfold Invites.lockCampaign
  split
  · exact inv
  next free =>
    split
    · exact inv.leave n
    next row found =>
      have kept : ∀ id m, m ≠ n → w.campaignLocks id = some m →
          acquire w.campaignLocks campaign.id n id = some m := by
        intro id m _ held
        rw [acquire, Function.update_apply]
        split
        next same =>
          rw [← same, held] at free
          exact absurd rfl free
        next => exact held
      split
      next =>
        apply inv.advance there (n := n)
        case moves => exact ⟨rfl, rfl, rfl, rfl, le_refl _, rfl, kept⟩
        case sameCode => rfl
        case sameUser => rfl
        exact Tx.Sound.unlocked sound.fresh sound.code (by rintro ⟨⟩) early
      next running =>
        have named : row.id = campaign.id := Table.key_of_find? found
        apply inv.advance there (n := n)
        case moves => exact ⟨rfl, rfl, rfl, rfl, le_refl _, rfl, kept⟩
        case sameCode => rfl
        case sameUser => rfl
        constructor
        case fresh => exact sound.fresh
        case code => exact sound.code
        case locking => rintro ⟨⟩
        case accruing => exact fun _ => sound.locking phase
        case late => exact fun _ => Or.inl rfl
        case committing => rintro ⟨⟩
        case progress =>
          intro new written
          dsimp only at written
          rw [early.2] at written
          cases written
        case held =>
          intro row' same
          obtain rfl := Option.some.inj same
          refine ⟨?_, ?_, ?_⟩
          · dsimp only [World.setTx]
            rw [acquire, named, Function.update_self]
          · dsimp only [World.setTx]
            rw [named, found]
          · by_contra other
            exact running (Or.inl other)

theorem Inv.accrue (inv : Inv cfg w) (there : w.txs n = some tx) (locked : tx.locked = some row) :
    Inv cfg (accrue w n tx row) := by
  have sound := inv.sound n tx there
  have accruing := sound.accruing (by rw [locked]; rfl)
  unfold Invites.accrue
  split
  next listed =>
    -- the user is new, so that no record names it
    obtain ⟨user, created⟩ := Option.isSome_iff_exists.mp accruing.2
    obtain ⟨record, member, names⟩ := List.any_eq_true.mp listed
    rw [Bool.and_eq_true, decide_eq_true_eq, decide_eq_true_eq, created] at names
    have recorded : (record.campaignId, record.inviteeUserId) ∈ recordsOf w.users := by
      rw [← inv.fair.recorded]
      exact List.mem_map_of_mem (f := fun r => (r.campaignId, r.inviteeUserId)) member
    obtain ⟨u, listed, pair⟩ := List.mem_filterMap.mp recorded
    obtain ⟨campaign, -, pair⟩ := Option.map_eq_some_iff.mp pair
    have sameUser : u.id = user := by
      have second := congrArg Prod.snd pair
      exact second.trans (Option.some.inj names.2)
    exact absurd sameUser ((sound.fresh user created).2 u listed)
  next =>
    apply inv.advance there (moves_setTx w n _)
    case sameCode => rfl
    case sameUser => rfl
    constructor
    case fresh => exact sound.fresh
    case code => exact sound.code
    case held => exact sound.held
    case locking => exact nofun
    case accruing => exact sound.accruing
    case late => exact fun _ => Or.inr rfl
    case committing => exact fun _ _ => rfl
    case progress =>
      intro new written
      obtain rfl := Option.some.inj written
      exact ⟨row, locked, rfl⟩

/-! ## The commit -/

theorem Tx.Sound.written (sound : tx.Sound cfg w n) (phase : tx.phase = .commit) :
    (tx.locked = none ∧ tx.progress = none) ∨ ∃ row code, tx.locked = some row ∧
      tx.progress = some row.accrued ∧ tx.inviteCode = some code := by
  cases locked : tx.locked with
  | none =>
    left
    refine ⟨rfl, ?_⟩
    cases written : tx.progress with
    | none => rfl
    | some new =>
      obtain ⟨row, other, -⟩ := sound.progress new written
      rw [locked] at other
      cases other
  | some row =>
    right
    have present : tx.locked.isSome = true := by rw [locked]; rfl
    obtain ⟨code, found⟩ := Option.isSome_iff_exists.mp (sound.accruing present).1
    obtain ⟨new, written⟩ := Option.isSome_iff_exists.mp (sound.committing phase present)
    obtain ⟨row', other, rfl⟩ := sound.progress new written
    rw [locked] at other
    obtain rfl := Option.some.inj other
    exact ⟨row, code, rfl, written, found⟩

theorem mem_expire {row : Code} (member : row ∈ codes) :
    ∃ row' ∈ tx.expire cfg codes, row'.id = row.id ∧ (row.used = true → row'.used = true) := by
  unfold Tx.expire
  split
  next code _ =>
    split
    · exact ⟨row, member, rfl, id⟩
    refine ⟨_, (Table.mem_updateWhere ..).mpr ⟨row, member, rfl⟩, ?_⟩
    split
    · exact ⟨rfl, fun _ => rfl⟩
    · exact ⟨rfl, id⟩
  next => exact ⟨row, member, rfl, id⟩

theorem mem_expire_own (single : cfg.inviteNeverExpire = false) {code : Code}
    (found : tx.inviteCode = some code) {row : Code} (member : row ∈ codes)
    (named : row.id = code.id) :
    ∃ row' ∈ tx.expire cfg codes, row'.id = code.id ∧ row'.used = true := by
  unfold Tx.expire
  rw [found]
  dsimp only
  rw [if_neg (by simp [single])]
  refine ⟨_, (Table.mem_updateWhere ..).mpr ⟨row, member, rfl⟩, ?_⟩
  rw [if_pos (by simp [named])]
  exact ⟨named, rfl⟩

theorem mem_write {c : Campaign} (written : tx.progress = some row.accrued)
    (found : campaigns.find? row.id = some row) (member : c ∈ tx.write campaigns) :
    c = row.accrued ∨ (c ∈ campaigns ∧ c.id ≠ row.id) := by
  unfold Tx.write at member
  rw [written] at member
  dsimp only at member
  rw [Table.mem_updateWhere] at member
  obtain ⟨old, listed, same⟩ := member
  have accruedId : row.accrued.id = row.id := rfl
  rw [accruedId] at same
  split at same
  next chosen =>
    rw [decide_eq_true_eq] at chosen
    obtain rfl := campaigns.eq_of_key listed (Table.mem_of_find? found) chosen
    exact Or.inl same.symm
  next other =>
    rw [decide_eq_true_eq] at other
    subst same
    exact Or.inr ⟨listed, other⟩

theorem find?_write (campaigns : Campaigns) {id : Int} (written : tx.progress = some row.accrued)
    (other : id ≠ row.id) : (tx.write campaigns).find? id = campaigns.find? id := by
  unfold Tx.write
  rw [written]
  dsimp only
  rw [Table.find?_updateWhere]
  cases found : campaigns.find? id with
  | none => rfl
  | some c =>
    have named : c.id = id := Table.key_of_find? found
    have different : c.id ≠ row.accrued.id := named ▸ other
    rw [Option.map_some, if_neg (by simpa using different)]

theorem mem_of_write {c : Campaign} (member : c ∈ campaigns) :
    ∃ c' ∈ tx.write campaigns, c'.id = c.id := by
  unfold Tx.write
  split
  next new _ =>
    refine ⟨_, (Table.mem_updateWhere ..).mpr ⟨c, member, rfl⟩, ?_⟩
    split <;> rfl
  next => exact ⟨c, member, rfl⟩

theorem Campaign.accrued_bounds (c : Campaign) :
    c.accrued.currentAmount ≤ c.accrued.targetAmount ∧
      (c.status = .active →
        (c.accrued.status = .completed ↔ c.accrued.currentAmount = c.accrued.targetAmount)) := by
  unfold Campaign.accrued
  dsimp only
  constructor
  · exact min_le_right _ _
  · intro active
    have within := min_le_right (c.currentAmount + c.rewardAmount) c.targetAmount
    split
    · simp only [true_iff]
      omega
    · rw [active]
      simp only [reduceCtorEq, false_iff]
      omega

/-- The state that a commit makes visible, its rows still held. -/
def committed (cfg : Config) (w : World) (tx : Tx) (userId : Int) : World :=
  { w with
    codes := tx.expire cfg w.codes
    campaigns := tx.write w.campaigns
    records := w.records ++ tx.records userId
    users := w.users ++ [tx.user userId] }

section

variable {userId : Int}

theorem mem_users {u : User} (member : u ∈ w.users ++ [tx.user userId]) :
    u ∈ w.users ∨ u = tx.user userId := by
  rcases List.mem_append.mp member with before | added
  · exact Or.inl before
  · exact Or.inr (List.mem_singleton.mp added)

theorem usedOnce_commit (single : cfg.inviteNeverExpire = false) (once : UsedOnce w.users)
    (sound : tx.Sound cfg w n) : UsedOnce (committed cfg w tx userId).users := by
  unfold UsedOnce committed
  rw [List.pairwise_append]
  refine ⟨once, List.pairwise_singleton _ _, ?_⟩
  intro u member added same code theirs mine
  rw [List.mem_singleton.mp same] at mine
  obtain ⟨found, taken, rfl⟩ := Option.map_eq_some_iff.mp mine
  exact (sound.code single found taken).1 u member theirs

theorem recordsOf_append (users : List User) (u : User) :
    recordsOf (users ++ [u]) =
      recordsOf users ++ (u.campaign.map fun campaign => (campaign, u.id)).toList := by
  unfold recordsOf
  rw [List.filterMap_append]
  congr 1

theorem fair_commit (inv : Inv cfg w) (sound : tx.Sound cfg w n) (phase : tx.phase = .commit)
    (created : tx.created = some userId) : Fair cfg (committed cfg w tx userId) := by
  have fair := inv.fair
  have fresh := (sound.fresh userId created).2
  constructor
  case once => exact fun single => usedOnce_commit single (fair.once single) sound
  case distinct =>
    unfold committed
    rw [List.map_append, List.nodup_append]
    refine ⟨fair.distinct, List.nodup_singleton _, ?_⟩
    rintro a before b added rfl
    obtain ⟨u, member, rfl⟩ := List.mem_map.mp before
    rw [List.map_singleton, List.mem_singleton] at added
    exact fresh u member added
  case recorded =>
    unfold committed
    rw [List.map_append, recordsOf_append, fair.recorded]
    congr 1
    unfold Tx.records Tx.user
    rcases sound.written phase with ⟨locked, written⟩ | ⟨row, code, locked, written, found⟩
    · rw [locked, written]
      rfl
    · rw [locked, written, found]
      rfl
  case counted =>
    intro c member
    unfold committed
    rw [List.countP_append, List.countP_singleton]
    rcases sound.written phase with ⟨locked, written⟩ | ⟨row, code, locked, written, found⟩
    · unfold committed Tx.write at member
      rw [written] at member
      have before := fair.counted c member
      simpa [Tx.user, locked] using before
    · have here := (sound.held row locked).2.1
      rcases mem_write written here member with rfl | ⟨listed, other⟩
      · have before := fair.counted row (Table.mem_of_find? here)
        simp [Tx.user, locked, Campaign.accrued, before]
      · have before := fair.counted c listed
        simp [Tx.user, locked, before, Ne.symm other]
  case bounded =>
    intro c member
    rcases sound.written phase with ⟨-, written⟩ | ⟨row, code, locked, written, -⟩
    · unfold committed Tx.write at member
      rw [written] at member
      exact fair.bounded c member
    · rcases mem_write written (sound.held row locked).2.1 member with rfl | ⟨listed, -⟩
      · exact row.accrued_bounds.1
      · exact fair.bounded c listed
  case completed =>
    intro c member some running
    rcases sound.written phase with ⟨-, written⟩ | ⟨row, code, locked, written, -⟩
    · unfold committed Tx.write at member
      rw [written] at member
      exact fair.completed c member some running
    · obtain ⟨-, here, active⟩ := sound.held row locked
      rcases mem_write written here member with rfl | ⟨listed, -⟩
      · exact row.accrued_bounds.2 active
      · exact fair.completed c listed some running

theorem inv_committed (inv : Inv cfg w) (there : w.txs n = some tx) (phase : tx.phase = .commit)
    (created : tx.created = some userId) :
    Inv cfg ((committed cfg w tx userId).leave n) := by
  have sound := inv.sound n tx there
  have others : ∀ m other, ((committed cfg w tx userId).leave n).txs m = some other →
      m ≠ n ∧ w.txs m = some other := by
    intro m other elsewhere
    by_cases same : m = n
    · subst same
      have none := Function.update_self m (none : Option Tx) w.txs
      exact absurd (none.symm.trans elsewhere) nofun
    · have before := Function.update_of_ne same (none : Option Tx) w.txs
      exact ⟨same, before.symm.trans elsewhere⟩
  constructor
  case fair =>
    have fair := fair_commit inv sound phase created
    exact ⟨fair.once, fair.distinct, fair.recorded, fair.counted, fair.bounded, fair.completed⟩
  case numbered =>
    intro u member
    rcases mem_users member with before | rfl
    · exact inv.numbered u before
    · exact (sound.fresh userId created).1
  case spent =>
    intro single u member code taken
    rcases mem_users member with before | rfl
    · obtain ⟨row, listed, named, used⟩ := inv.spent single u before code taken
      obtain ⟨row', listed', same, kept⟩ := @mem_expire _ cfg tx _ listed
      exact ⟨row', listed', same.trans named, kept used⟩
    · obtain ⟨found, same, rfl⟩ := Option.map_eq_some_iff.mp taken
      obtain ⟨row, listed, named⟩ := (sound.code single found same).2
      exact mem_expire_own single same listed named
  case known =>
    intro u member campaign under
    have row : ∃ c ∈ w.campaigns, c.id = campaign := by
      rcases mem_users member with before | rfl
      · exact inv.known u before campaign under
      · obtain ⟨row, locked, rfl⟩ := Option.map_eq_some_iff.mp under
        exact ⟨row, Table.mem_of_find? (sound.held row locked).2.1, rfl⟩
    obtain ⟨c, listed, named⟩ := row
    obtain ⟨c', listed', same⟩ := @mem_of_write _ tx _ listed
    exact ⟨c', listed', same.trans named⟩
  case sound =>
    intro m other elsewhere
    obtain ⟨different, elsewhere⟩ := others m other elsewhere
    have theirs := inv.sound m other elsewhere
    have apart := inv.separate n m tx other (Ne.symm different) there elsewhere
    constructor
    case fresh =>
      intro user theirUser
      obtain ⟨below, free⟩ := theirs.fresh user theirUser
      refine ⟨below, fun u member => ?_⟩
      rcases mem_users member with before | rfl
      · exact free u before
      · intro same
        have sameUser : userId = user := same
        exact apart.users userId created (sameUser ▸ theirUser)
    case code =>
      intro single code found
      obtain ⟨free, row, listed, named⟩ := theirs.code single code found
      refine ⟨fun u member => ?_, ?_⟩
      · rcases mem_users member with before | rfl
        · exact free u before
        · intro same
          obtain ⟨mine, taken, sameId⟩ := Option.map_eq_some_iff.mp same
          exact apart.codes single mine code taken found sameId
      · obtain ⟨row', listed', same, -⟩ := @mem_expire _ cfg tx _ listed
        exact ⟨row', listed', same.trans named⟩
    case held =>
      intro row locked
      obtain ⟨lock, found, active⟩ := theirs.held row locked
      have kept : release w.campaignLocks n row.id = some m := by
        rw [release, lock, if_neg fun same => different (Option.some.inj same)]
      refine ⟨kept, ?_, active⟩
      rcases sound.written phase with ⟨-, written⟩ | ⟨mine, code, lockedHere, written, -⟩
      · dsimp only [committed, World.leave]
        rw [Tx.write, written]
        exact found
      · have lockHere := (sound.held mine lockedHere).1
        -- one row has one holder
        have other : row.id ≠ mine.id := by
          intro same
          rw [same, lockHere] at lock
          exact different (Option.some.inj lock).symm
        exact (find?_write w.campaigns written other).trans found
    case locking => exact theirs.locking
    case accruing => exact theirs.accruing
    case progress => exact theirs.progress
    case late => exact theirs.late
    case committing => exact theirs.committing
  case separate =>
    intro a b first second different here there'
    exact inv.separate a b first second different (others a first here).2 (others b second there').2

theorem Inv.commit (inv : Inv cfg w) (there : w.txs n = some tx) (phase : tx.phase = .commit) :
    Inv cfg (commit cfg w n tx) := by
  unfold Invites.commit
  split
  · exact inv
  next userId created => exact inv_committed inv there phase created

end

/-! ## Codes and campaigns from elsewhere -/

theorem Inv.rows (inv : Inv cfg w) (fair : Fair cfg { w with codes, campaigns })
    (spent : ∀ row ∈ w.codes, ∃ row' ∈ codes, row'.id = row.id ∧ (row.used = true → row'.used = true))
    (known : ∀ c ∈ w.campaigns, ∃ c' ∈ campaigns, c'.id = c.id)
    (held : ∀ row n, w.campaignLocks row.id = some n → w.campaigns.find? row.id = some row →
      campaigns.find? row.id = some row) : Inv cfg { w with codes, campaigns } := by
  constructor
  case fair => exact fair
  case numbered => exact inv.numbered
  case spent =>
    intro single u member code taken
    obtain ⟨row, listed, named, used⟩ := inv.spent single u member code taken
    obtain ⟨row', listed', same, kept⟩ := spent row listed
    exact ⟨row', listed', same.trans named, kept used⟩
  case known =>
    intro u member campaign under
    obtain ⟨c, listed, named⟩ := inv.known u member campaign under
    obtain ⟨c', listed', same⟩ := known c listed
    exact ⟨c', listed', same.trans named⟩
  case separate => exact inv.separate
  case sound =>
    intro n tx there
    have sound := inv.sound n tx there
    constructor
    case fresh => exact sound.fresh
    case locking => exact sound.locking
    case accruing => exact sound.accruing
    case progress => exact sound.progress
    case late => exact sound.late
    case committing => exact sound.committing
    case code =>
      intro single code found
      obtain ⟨free, row, listed, named⟩ := sound.code single code found
      obtain ⟨row', listed', same, -⟩ := spent row listed
      exact ⟨free, row', listed', same.trans named⟩
    case held =>
      intro row locked
      obtain ⟨lock, found, active⟩ := sound.held row locked
      exact ⟨lock, held row n lock found, active⟩

theorem Inv.createCode (inv : Inv cfg w) (id userId : Int) (code : String) :
    Inv cfg (step cfg w (.createCode id userId code)) := by
  rw [step]
  split
  next codes inserted =>
    have fair := inv.fair
    apply inv.rows
    case fair =>
      exact ⟨fair.once, fair.distinct, fair.recorded, fair.counted, fair.bounded, fair.completed⟩
    case known => exact fun c member => ⟨c, member, rfl⟩
    case held => exact fun _ _ _ found => found
    case spent =>
      intro row member
      exact ⟨row, (Table.mem_of_insert? inserted row).mpr (Or.inl member), rfl, fun used => used⟩
  next => exact inv

theorem Inv.openCampaign (inv : Inv cfg w) (id userId : Int) (inviteCode : String)
    (rewardAmount : Int) (targetAmount : Nat) (expiredAt : Int) :
    Inv cfg (step cfg w
      (.openCampaign id userId inviteCode rewardAmount targetAmount expiredAt)) := by
  rw [step]
  split
  next campaigns inserted =>
    have fair := inv.fair
    obtain ⟨-, free, -⟩ := (Table.insert?_eq_some _ _ _).mp inserted
    apply inv.rows
    case spent => exact fun row member => ⟨row, member, rfl, fun used => used⟩
    case known =>
      exact fun c member => ⟨c, (Table.mem_of_insert? inserted c).mpr (Or.inl member), rfl⟩
    case held =>
      intro row _ _ found
      apply (Table.find?_eq_some _ _ _).mpr
      exact ⟨(Table.mem_of_insert? inserted row).mpr (Or.inl (Table.mem_of_find? found)), rfl⟩
    case fair =>
      constructor
      case once => exact fair.once
      case distinct => exact fair.distinct
      case recorded => exact fair.recorded
      case counted =>
        intro c member
        rcases (Table.mem_of_insert? inserted c).mp member with before | rfl
        · exact fair.counted c before
        · -- nobody registered under a campaign that was not there
          symm
          dsimp only
          rw [Int.natCast_eq_zero, List.countP_eq_zero]
          intro u listed under
          rw [decide_eq_true_eq] at under
          obtain ⟨row, present, named⟩ := inv.known u listed id under
          exact free row present named
      case bounded =>
        intro c member
        rcases (Table.mem_of_insert? inserted c).mp member with before | rfl
        · exact fair.bounded c before
        · exact Int.natCast_nonneg _
      case completed =>
        intro c member counted running
        rcases (Table.mem_of_insert? inserted c).mp member with before | rfl
        · exact fair.completed c before counted running
        · exact absurd rfl counted
  next => exact inv

theorem Inv.retire (inv : Inv cfg w) (id : Int) (status : Status) :
    Inv cfg (step cfg w (.retire id status)) := by
  rw [step]
  split
  · exact inv
  next allowed =>
    rw [not_or, not_or, Bool.not_eq_true, Option.isSome_eq_false_iff, Option.isNone_iff_eq_none]
      at allowed
    obtain ⟨free, notActive, notCompleted⟩ := allowed
    have fair := inv.fair
    -- a row of the new table, and the row it was
    have rows : ∀ c ∈ w.campaigns.updateWhere (fun c => c.id = id) (fun c => { c with status })
        fun _ => ⟨rfl, rfl⟩, ∃ old ∈ w.campaigns, c = old ∨ c = { old with status } := by
      intro c member
      rw [Table.mem_updateWhere] at member
      obtain ⟨old, listed, same⟩ := member
      split at same
      · exact ⟨old, listed, Or.inr same.symm⟩
      · exact ⟨old, listed, Or.inl same.symm⟩
    apply inv.rows
    case spent => exact fun row member => ⟨row, member, rfl, fun used => used⟩
    case known =>
      intro c member
      refine ⟨_, (Table.mem_updateWhere ..).mpr ⟨c, member, rfl⟩, ?_⟩
      split <;> rfl
    case held =>
      intro row n lock found
      rw [Table.find?_updateWhere, found, Option.map_some, if_neg]
      rw [decide_eq_true_eq]
      intro same
      rw [same, free] at lock
      cases lock
    case fair =>
      constructor
      case once => exact fair.once
      case distinct => exact fair.distinct
      case recorded => exact fair.recorded
      case counted =>
        intro c member
        obtain ⟨old, listed, rfl | rfl⟩ := rows c member
        · exact fair.counted c listed
        · exact fair.counted old listed
      case bounded =>
        intro c member
        obtain ⟨old, listed, rfl | rfl⟩ := rows c member
        · exact fair.bounded c listed
        · exact fair.bounded old listed
      case completed =>
        intro c member counted running
        obtain ⟨old, listed, rfl | rfl⟩ := rows c member
        · exact fair.completed c listed counted running
        · rcases running with active | completed
          · exact absurd active notActive
          · exact absurd completed notCompleted

/-! ## Runs -/

theorem Inv.proceed (inv : Inv cfg w) (there : w.txs n = some tx) (returned : Option Int)
    (apart : Apart cfg w (.proceed n returned)) : Inv cfg (proceed cfg w n tx returned) := by
  unfold Invites.proceed
  split
  next phase => exact inv.findInviteCode there phase apart
  next phase =>
    split
    next code _ => exact inv.findActiveCampaign there phase code
    next => exact inv
  next phase =>
    split
    next code _ => exact inv.expireInviteCode there phase code
    next => exact inv
  next phase => exact inv.createUser there phase
  next phase =>
    split
    next campaign _ => exact inv.lockCampaign there phase campaign
    next => exact inv
  next =>
    split
    next row locked => exact inv.accrue there locked
    next => exact inv
  next phase => exact inv.commit there phase

theorem inv_step (w : World) (i : Input) (inv : Inv cfg w) (apart : Apart cfg w i) :
    Inv cfg (step cfg w i) := by
  cases i with
  | register n email inviteCode now => exact inv.register email inviteCode now
  | proceed n returned =>
    rw [step]
    split
    next tx there => exact inv.proceed there returned apart
    next => exact inv
  | rollback n => exact inv.leave n
  | createCode id userId code => exact inv.createCode id userId code
  | openCampaign id userId inviteCode rewardAmount targetAmount expiredAt =>
    exact inv.openCampaign id userId inviteCode rewardAmount targetAmount expiredAt
  | retire id status => exact inv.retire id status

end

/-- A registration with a single-use code, under a campaign that it completes. -/
def oneRegistration : List Input :=
  [.createCode 7 1 "FOREST", .openCampaign 3 1 "FOREST" 1000 900 500,
   .register 0 "ada@example.com" "FOREST" 100, .proceed 0 (some 7), .proceed 0 none, .proceed 0 none,
   .proceed 0 none, .proceed 0 none, .proceed 0 none, .proceed 0 none]

/-- Two registrations find the same code before either has expired it. -/
def twoRegistrations : List Input :=
  [.createCode 7 1 "FOREST",
   .register 0 "ada@example.com" "FOREST" 100, .register 1 "bob@example.com" "FOREST" 100,
   .proceed 0 (some 7), .proceed 1 (some 7),
   .proceed 0 none, .proceed 0 none, .proceed 0 none, .proceed 0 none,
   .proceed 1 none, .proceed 1 none, .proceed 1 none, .proceed 1 none]

end ForestPanel.Invites
