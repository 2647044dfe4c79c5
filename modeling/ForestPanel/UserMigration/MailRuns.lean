import ForestPanel.UserMigration.MailLaws

/-!
# Migration mail over whole runs

At most one task of an import is active, a job starts once, a repeat is answered from the
stored task, and the counters of a task are those of its recorded results, whatever requests,
jobs, late statements and crashes come in between.
-/
namespace ForestPanel.UserMigration

open Places Relational Transition

variable {sha256 : List Char → String} {st : State}

def SameContent (a b : MailRequest) : Prop :=
  a.previewID = b.previewID ∧ a.subject = b.subject ∧ a.content = b.content

/-- Two requests with other contents have one hash. -/
def Collides (sha256 : List Char → String) (a b : MailRequest) : Prop :=
  ¬SameContent a b ∧ sha256 a.marshal = sha256 b.marshal

theorem MailRequest.marshal_eq_iff (a b : MailRequest) :
    a.marshal = b.marshal ↔ SameContent a b := by
  have reads : ∀ req : MailRequest, Json.unmarshal (String.ofList req.marshal) =
      some (.arr [Json.quote req.previewID.toList, Json.quote req.subject.toList,
        Json.quote req.content.toList]) := by
    intro req
    apply Json.Reads.unmarshal
    apply Json.reads_array
    intro raw member
    simp only [List.mem_cons, List.not_mem_nil, or_false] at member
    rcases member with rfl | rfl | rfl <;> exact ⟨_, Json.reads_quote _⟩
  constructor
  · intro same
    have first := reads a
    rw [same, reads b] at first
    have raws := Json.Shape.arr.inj (Option.some.inj first)
    simp only [List.cons.injEq, and_true] at raws
    obtain ⟨previewID, subject, content⟩ := raws
    exact ⟨(Json.quote_injective previewID).symm, (Json.quote_injective subject).symm,
      (Json.quote_injective content).symm⟩
  · rintro ⟨previewID, subject, content⟩
    rw [MailRequest.marshal, previewID, subject, content]
    rfl

/-- Every row keeps what no statement changes, its status changes as it may, and a new row
is that of a queued task. -/
def Advances (old new : MailTable) : Prop :=
  (∀ row ∈ old, ∃ row' ∈ new, Keeps row row') ∧
    ∀ row' ∈ new, (∃ row ∈ old, Keeps row row') ∨
      row'.status = .queued ∧ row'.sent = 0 ∧ row'.failed = 0

private theorem Moved.advances {old new : MailTable} {requestID : String}
    (moved : Moved old new requestID) : Advances old new := by
  constructor
  · intro row member
    obtain ⟨row', stored, keeps, -⟩ := moved.forth row member
    exact ⟨row', stored, keeps⟩
  · intro row' member
    obtain ⟨row, stored, keeps, -⟩ := moved.back row' member
    exact .inl ⟨row, stored, keeps⟩

private theorem Advances.refl (mail : MailTable) : Advances mail mail :=
  (Moved.refl mail "").advances

variable {s : Submission} {row : MailRow}

private theorem Inv.stored_advances (inv : Inv sha256 st) {mail : MailTable}
    (listed : s ∈ st.submissions) (pending : s.phase.pending = some row)
    (inserted : st.mail.insert? row = some mail) : Advances st.mail mail := by
  have members := Table.mem_of_insert? inserted
  obtain ⟨-, _, _, _, _, -, rfl⟩ := (inv.submissions s listed).pending row pending
  constructor
  · exact fun r member => ⟨r, (members r).mpr (.inl member), .refl r⟩
  · intro r member
    rcases (members r).mp member with old | rfl
    · exact .inl ⟨r, old, .refl r⟩
    · exact .inr ⟨rfl, rfl, rfl⟩

private theorem Inv.advance_advances (inv : Inv sha256 st) {n : Nat}
    (found : st.submissions[n]? = some s) (c : Conditions) :
    Advances st.mail (UserMigration.advance st n s c).mail := by
  unfold UserMigration.advance
  cases phase : s.phase with
  | inserted row recipients emails =>
    dsimp only
    split
    · exact .refl _
    · split
      next => exact .refl _
      next mail inserted =>
        have pending : s.phase.pending = some row := by rw [phase]; rfl
        exact inv.stored_advances (List.mem_of_getElem? found) pending inserted
  | rejected task =>
    dsimp only
    split
    · exact .refl _
    · split
      · exact (moved_markQueueFailed _ _ _).advances
      · exact .refl _
  | begun => dsimp only; repeat' (first | exact Advances.refl _ | split)
  | locked => dsimp only; repeat' (first | exact Advances.refl _ | split)
  | unseen => dsimp only; repeat' (first | exact Advances.refl _ | split)
  | idle => dsimp only; repeat' (first | exact Advances.refl _ | split)
  | prepared => dsimp only; repeat' (first | exact Advances.refl _ | split)
  | committed => dsimp only; repeat' (first | exact Advances.refl _ | split)
  | doubt => exact .refl _
  | answered => exact .refl _
  | crashed => exact .refl _

private theorem work_advances (k : Nat) (j : Job) (c : WorkConditions) :
    Advances st.mail (UserMigration.work st k j c).mail := by
  unfold UserMigration.work
  cases j.phase with
  | waiting =>
    dsimp only
    split
    · exact .refl _
    · split
      · exact (moved_markRunning _ _ _).advances
      · exact .refl _
  | sending place =>
    dsimp only
    split
    · exact .refl _
    · split <;> exact .refl _
  | delivered d =>
    dsimp only
    split
    · exact .refl _
    · split
      · exact (moved_countResult _ _ _ _).advances
      · exact .refl _
  | pausing place =>
    dsimp only
    split <;> exact .refl _
  | finishing failed =>
    dsimp only
    split
    · exact .refl _
    · exact (moved_finishTask _ _ _).advances
  | ended failed => exact .refl _

private theorem carryOut_advances (k : Nat) (j : Job) (which : Late) :
    Advances st.mail (UserMigration.carryOut st k j which).mail := by
  unfold UserMigration.carryOut
  cases which with
  | start =>
    dsimp only
    split
    · exact .refl _
    · exact (moved_markRunning _ _ _).advances
  | result =>
    dsimp only
    split
    · exact .refl _
    · split
      · exact (moved_countResult _ _ _ _).advances
      · exact .refl _
  | finish =>
    dsimp only
    split
    · exact .refl _
    · exact (moved_finishTask _ _ _).advances

/-- A step changes the status of a task only from queued to running or to queue_failed, and
from running to one of the final ones. -/
theorem Inv.advances (inv : Inv sha256 st) (act : Act) :
    Advances st.mail (UserMigration.step sha256 st act).mail := by
  cases act with
  | imported row =>
    dsimp only [UserMigration.step]
    split <;> exact .refl _
  | submit host actorID req fault => exact .refl _
  | advance n c =>
    dsimp only [UserMigration.step]
    split
    next => exact .refl _
    next s found => exact inv.advance_advances found c
  | resolve n commits =>
    dsimp only [UserMigration.step]
    split
    next => exact .refl _
    next s found =>
      unfold UserMigration.resolve
      split
      next row recipients emails told phase =>
        have pending : s.phase.pending = some row := by rw [phase]; rfl
        dsimp only
        split
        · split
          next => exact .refl _
          next mail inserted =>
            exact inv.stored_advances (List.mem_of_getElem? found) pending inserted
        · exact .refl _
      next => exact .refl _
  | lateMark n =>
    dsimp only [UserMigration.step]
    split
    next => exact .refl _
    next s found =>
      unfold UserMigration.carryOutMark
      split
      · exact .refl _
      · exact (moved_markQueueFailed _ _ _).advances
  | work k c =>
    dsimp only [UserMigration.step]
    split
    next => exact .refl _
    next j found => exact work_advances k j c
  | late k which =>
    dsimp only [UserMigration.step]
    split
    next => exact .refl _
    next j found => exact carryOut_advances k j which
  | crash host now => exact .refl _

def State.mailing (st : State) (requestID : String) : Option Mailing :=
  st.mailings.find? (·.req.requestID = requestID)

structure Repeats (sha256 : List Char → String) (st : State) (n : Nat) (s : Submission)
    (row : MailRow) (m : Mailing) : Prop where
  /-- It stores no task. -/
  idle : s.phase.pending = none
  begun : s.phase = .begun → SameContent s.req m.req → row.actorID = s.actorID →
    st.locked s.req.previewID = false → ∀ c, c.fails = false →
      advance st n s c = st.setPhase n s .locked
  same : s.phase = .locked → SameContent s.req m.req → ∀ c, c.fails = false →
    advance st n s c = st.answer n s (.ok row.task)
  other : s.phase = .locked → s.req.previewID = m.req.previewID → ¬SameContent s.req m.req →
    ∀ c, c.fails = false →
      advance st n s c = st.answer n s (.error .mailConflict) ∨ Collides sha256 s.req m.req
  accepted : ∀ task, s.phase = .answered (.ok task) →
    row.actorID = s.actorID ∧ (SameContent s.req m.req ∨ Collides sha256 s.req m.req)
  refused : s.phase = .answered (.error .mailConflict) → ¬SameContent s.req m.req

private theorem Inv.repeats (inv : Inv sha256 st) {n : Nat} {m : Mailing}
    (found : st.submissions[n]? = some s) (stored : row ∈ st.mail)
    (own : row.requestID = s.req.requestID)
    (accounts : Accounts sha256 (st.view row.requestID) row m) : Repeats sha256 st n s row m := by
  have stands := inv.submissions s (List.mem_of_getElem? found)
  have lookup : st.mail.find? s.req.requestID = some row :=
    (st.mail.find?_eq_some _ _).mpr ⟨stored, own⟩
  -- the actor of a task is that of its receipt
  have actor : s.phase.holds = true → s.req.previewID = m.req.previewID →
      row.actorID = s.actorID := by
    intro holds same
    obtain ⟨receipt, first, owner, -⟩ := inv.actors row stored
    obtain ⟨receipt', second, owner', -⟩ := stands.authorized holds
    rw [accounts.previewID, ← same, second] at first
    obtain rfl := Option.some.inj first
    exact owner.symm.trans owner'
  have hash : SameContent s.req m.req → row.contentHash = s.hash := by
    intro same
    rw [accounts.contentHash, stands.hashed, (MailRequest.marshal_eq_iff _ _).mpr same]
  have collides : row.contentHash = s.hash → ¬SameContent s.req m.req →
      Collides sha256 s.req m.req := by
    intro equal differs
    refine ⟨differs, ?_⟩
    rw [← stands.hashed, ← accounts.contentHash, equal]
  constructor
  case idle =>
    by_contra some
    obtain ⟨pending, phase⟩ := Option.ne_none_iff_exists'.mp some
    exact (stands.pending pending phase).1 row stored own
  case begun =>
    intro phase same own' free c works
    obtain ⟨receipt, first, owner, usable⟩ := inv.actors row stored
    rw [accounts.previewID, ← same.1] at first
    have checked := usable s.req (same.1.trans accounts.previewID.symm)
    unfold UserMigration.advance
    rw [phase]
    simp only [works, Bool.false_eq_true, if_false, first, owner, own', ne_eq, not_true_eq_false,
      free, checked]
  case same =>
    intro phase same c works
    have actor' := actor (by rw [phase]; rfl) same.1
    unfold UserMigration.advance
    rw [phase]
    simp [works, lookup, accounts.previewID, same.1, actor', hash same]
  case other =>
    intro phase import' differs c works
    by_cases equal : row.contentHash = s.hash
    · exact .inr (collides equal differs)
    · left
      have actor' := actor (by rw [phase]; rfl) import'
      unfold UserMigration.advance
      rw [phase]
      simp [works, lookup, accounts.previewID, import', actor', equal]
  case accepted =>
    intro task phase
    obtain ⟨row', stored', mine⟩ := stands.answered task phase
    obtain rfl := st.mail.eq_of_key stored' stored (mine.requestID.trans own.symm)
    refine ⟨mine.actorID, ?_⟩
    by_cases same : SameContent s.req m.req
    · exact .inl same
    · exact .inr (collides mine.contentHash same)
  case refused =>
    intro phase same
    obtain ⟨row', stored', mine, differs⟩ := stands.conflict phase
    obtain rfl := st.mail.eq_of_key stored' stored (mine.trans own.symm)
    rcases differs with other | other
    · exact other (accounts.previewID.trans same.1.symm)
    · exact other (hash same)

/-- A task and what it was stored for: the counters are those of the recorded results. -/
structure Accounted (st : State) (row : MailRow) (m : Mailing) : Prop where
  recipients : row.recipients = m.recipients.length
  bounded : row.sent + row.failed ≤ row.recipients
  sent : row.sent = st.recorded.countP fun d => d.requestID = row.requestID && d.success
  failed : row.failed = st.recorded.countP fun d => d.requestID = row.requestID && !d.success
  attempted : ∀ d ∈ st.recorded, d.requestID = row.requestID → d ∈ st.attempts
  completed : row.status = .completed → ∀ email ∈ m.recipients,
    ∃ d ∈ st.recorded, d.requestID = row.requestID ∧ d.email = trimSpace email ∧ d.success = true

private theorem normalizeUserMailRecipients_length (emails : List String) :
    (normalizeUserMailRecipients emails).length ≤ emails.length :=
  (List.length_filter_le _ _).trans (List.length_map _).le

private theorem normalizeUserMailRecipients_mem {emails : List String}
    (all : emails.length ≤ (normalizeUserMailRecipients emails).length) {email : String}
    (member : email ∈ emails) : trimSpace email ∈ normalizeUserMailRecipients emails := by
  unfold normalizeUserMailRecipients at all ⊢
  have whole : (emails.map trimSpace).filter (· ≠ "") = emails.map trimSpace :=
    List.filter_sublist.eq_of_length_le (by rwa [List.length_map])
  rw [whole]
  exact List.mem_map_of_mem member

private theorem Accounts.accounted {m : Mailing}
    (accounts : Accounts sha256 (st.view row.requestID) row m) : Accounted st row m := by
  have short := normalizeUserMailRecipients_length m.recipients
  have bounded := accounts.bounded
  have total := accounts.total
  constructor
  case recipients => exact total
  case bounded => omega
  case sent =>
    rw [accounts.sent]
    simp [State.view, List.countP_filter, Bool.and_comm]
  case failed =>
    rw [accounts.failed]
    simp [State.view, List.countP_filter, Bool.and_comm]
  case attempted =>
    intro d member own
    have attempted := accounts.attempted d (List.mem_filter.mpr ⟨member, by simpa using own⟩)
    exact (List.mem_filter.mp attempted).1
  case completed =>
    intro completed email member
    obtain ⟨none, all⟩ := accounts.completed completed
    have address := normalizeUserMailRecipients_mem (by omega) member
    have addressed := accounts.addressed
    rw [List.take_of_length_le (by omega)] at addressed
    rw [← addressed] at address
    obtain ⟨d, recorded, same⟩ := List.mem_map.mp address
    have clean := accounts.failed
    rw [none] at clean
    have success := List.countP_eq_zero.mp clean.symm d recorded
    obtain ⟨listed, own⟩ := List.mem_filter.mp recorded
    exact ⟨d, listed, of_decide_eq_true own, same, by simpa using success⟩

private theorem nodup_pairs {deliveries : List Delivery}
    (groups : ∀ k, ((deliveries.filter (·.requestID = k)).map Delivery.place).Nodup) :
    (deliveries.map fun d => (d.requestID, d.place)).Nodup := by
  induction deliveries with
  | nil => exact List.nodup_nil
  | cons d rest ih =>
    rw [List.map_cons, List.nodup_cons]
    constructor
    · intro member
      obtain ⟨e, listed, same⟩ := List.mem_map.mp member
      obtain ⟨own, place⟩ := Prod.mk.inj same
      have group := groups d.requestID
      rw [List.filter_cons_of_pos (by simp), List.map_cons, List.nodup_cons] at group
      refine group.1 (place ▸ List.mem_map_of_mem ?_)
      exact List.mem_filter.mpr ⟨listed, by simpa using own⟩
    · apply ih
      intro k
      have group := groups k
      by_cases own : d.requestID = k
      · rw [List.filter_cons_of_pos (by simpa using own), List.map_cons, List.nodup_cons] at group
        exact group.2
      · rwa [List.filter_cons_of_neg (by simpa using own)] at group

/-- An import has at most one task that is queued or running. -/
def OneActive (st : State) : Prop :=
  ∀ a ∈ st.mail, ∀ b ∈ st.mail, a.status.active = true → b.status.active = true →
    a.previewID = b.previewID → a = b

theorem Inv.run (sha256 : List Char → String) (acts : List Act) :
    Inv sha256 (Transition.run (UserMigration.step sha256) .initial acts) :=
  run_invariant (fun _ act inv _ => inv.step act) _ acts (.initial sha256) (along_true _ _)

/-- In every run of requests, jobs, late statements and crashes, an import has at most one
active task, a job starts once and sends to each place of its batch once, every stored task
is accounted for, every repeat is answered from it, and its status changes only as it may. -/
theorem mail_accounted (sha256 : List Char → String) (acts : List Act) :
    let st := Transition.run (step sha256) .initial acts
    OneActive st ∧ st.starts.Nodup ∧
      (st.attempts.map fun d => (d.requestID, d.place)).Nodup ∧
      (∀ row ∈ st.mail, ∃ m, st.mailing row.requestID = some m ∧ Accounted st row m ∧
        ∀ n s, st.submissions[n]? = some s → row.requestID = s.req.requestID →
          Repeats sha256 st n s row m) ∧
      Along (step sha256) (fun st act => Advances st.mail (step sha256 st act).mail) .initial
        acts := by
  intro st
  have inv : Inv sha256 st := Inv.run sha256 acts
  have accounts : ∀ row ∈ st.mail, ∃ m, Accounts sha256 (st.view row.requestID) row m := by
    intro row stored
    have view := inv.views row.requestID
    have found : (st.view row.requestID).row = some row := st.mail.find?_key stored
    unfold View.Stands at view
    rwa [found] at view
  refine ⟨inv.active, ?_, ?_, ?_, ?_⟩
  · rw [List.nodup_iff_count_le_one]
    intro requestID
    have view := inv.views requestID
    unfold View.Stands at view
    split at view
    next => exact view.2.2.2.le.trans (Nat.zero_le 1)
    next =>
      obtain ⟨m, accounts⟩ := view
      exact accounts.once
  · apply nodup_pairs
    intro requestID
    have view := inv.views requestID
    unfold View.Stands at view
    split at view
    next =>
      rw [show st.attempts.filter (·.requestID = requestID) = [] from view.2.2.1]
      exact List.nodup_nil
    next =>
      obtain ⟨m, accounts⟩ := view
      exact accounts.places
  · intro row stored
    obtain ⟨m, accounts⟩ := accounts row stored
    exact ⟨m, accounts.found, accounts.accounted, fun n s found own =>
      inv.repeats found stored own accounts⟩
  · have holds : Along (step sha256) (fun st _ => Inv sha256 st ∧ True) .initial acts :=
      along_invariant (fun _ act inv _ => inv.step act) _ acts (.initial sha256) (along_true _ _)
    exact along_mono _ _ (fun _ act known => known.1.advances act) holds

/-- A task with one recipient runs to its end. -/
example :
    let id := String.ofList (List.replicate 64 'a')
    let conditions : Conditions := ⟨false, true, true, some ⟨"mail", 5⟩, ["a@b"], true, 0⟩
    let acts := [.imported ⟨id, 1, some ⟨true, id, "completed"⟩⟩,
      .submit 0 1 ⟨id, id, "subject", "content", true⟩ none] ++
      List.replicate 7 (.advance 0 conditions) ++
      List.replicate 5 (.work 0 ⟨false, false, true, 0⟩)
    (Transition.run (step String.ofList) .initial acts).mail.rows.map
      (fun row => (row.status, row.sent)) = [(.completed, 1)] := by
  decide +kernel

end ForestPanel.UserMigration
