import ForestPanel.AIOps.Failover
import Mathlib.Data.List.Nodup

/-!
# Relay failover is bounded and keeps drafts apart

The loop visits the candidates and then the retries, each at most once; only a reply cut by
the output limit makes it stay at a relay, with one doubling less to go. So the contacts are
bounded by the visits and the doublings. Before a visible draft could be followed by another
attempt's, an empty text is given.
-/
namespace ForestPanel.AIOps

open Loop

/-! ## What is recorded of a run -/

def Contact.limited (c : Contact) : Bool :=
  match c.result with
  | .error .outputLimit => true
  | _ => false

def Contact.transient (c : Contact) : Bool :=
  match c.result with
  | .error (.failure _ retrySameRelay) => retrySameRelay
  | _ => false

def Contact.visit (c : Contact) : Bool × Candidate := (c.retrying, c.candidate)

def Contact.place (c : Contact) : Nat := c.candidate.2

/-- The contacts that are no repetition after an output limit, and whether another contact
would be one. -/
def freshScan (contacts : List Contact) : List Contact × Bool :=
  contacts.foldl (fun (scan : List Contact × Bool) c =>
    (if scan.2 then scan.1 else scan.1 ++ [c], c.limited)) ([], false)

def freshContacts (contacts : List Contact) : List Contact := (freshScan contacts).1

/-- A repetition goes to the same relay, and a retry has failed there for a transient reason. -/
def Follows (before : List Contact) (c : Contact) : Prop :=
  (∀ d, before.getLast? = some d → d.limited = true → d.visit = c.visit) ∧
    (c.retrying = true →
      ∃ d ∈ before, d.retrying = false ∧ d.candidate = c.candidate ∧ d.transient = true)

/-- A payload is the one given, or that one with a raised budget. -/
def Sends (payload sent : List Char) : Prop := sent = payload ∨ RaisedBudget payload sent

/-- Behind every draft of another attempt an empty text was given. -/
def SettledFor (attempt : Nat) (told : List Report) : Prop :=
  ∀ earlier other text between, told = earlier ++ .draft other text :: between →
    other ≠ attempt → ∃ r ∈ Report.draft other text :: between, r.text = ""

def Separates (before : List Report) : Report → Prop
  | .cleared => True
  | .draft attempt _ => SettledFor attempt before

structure RelaysBounded {κ : Type} (endpoints : List RelayEndpoint) (payload : List Char)
    (timeout : Int) (finished : Finished κ) : Prop where
  attempts : finished.1.contacts.length ≤ 2 * endpoints.length + doublings payload
  firstPass : ∀ place, (freshContacts finished.1.contacts).countP
    (fun c => !c.retrying && c.place = place) ≤ 1
  secondPass : ∀ place, (freshContacts finished.1.contacts).countP
    (fun c => c.retrying && c.place = place) ≤ 1
  follows : EachAfter Follows finished.1.contacts
  relays : ∀ c ∈ finished.1.contacts, endpoints[c.place]? = some c.candidate.1
  request : ∀ c ∈ finished.1.contacts, Sends payload c.payload ∧ c.timeout = timeout
  whole : ∀ message, finished.2 = .ok message →
    ∃ c, finished.1.contacts.getLast? = some c ∧ c.result = .ok message
  separated : EachAfter Separates finished.1.told

/-! ## Drafts -/

def lastShown (told : List Report) : Bool := told.getLast?.any fun r => r.text ≠ ""

variable {told : List Report} {retries : List Candidate} {candidate : Candidate} {timeout : Int}

theorem settledFor_of_hidden (hidden : lastShown told = false) (attempt : Nat) :
    SettledFor attempt told := by
  rintro earlier other text between rfl -
  obtain ⟨init, last, split⟩ : ∃ init last,
      Report.draft other text :: between = init ++ [last] := by
    obtain ⟨init, last, split⟩ := (List.eq_nil_or_concat
      (Report.draft other text :: between)).resolve_left (List.cons_ne_nil _ _)
    exact ⟨init, last, by rw [split, List.concat_eq_append]⟩
  refine ⟨last, by rw [split]; simp, ?_⟩
  rw [split, lastShown, ← List.append_assoc, List.getLast?_concat] at hidden
  simpa using hidden

theorem SettledFor.draft {attempt : Nat} (settled : SettledFor attempt told) (text : String) :
    SettledFor attempt (told ++ [.draft attempt text]) := by
  intro earlier other shown between split different
  rcases List.eq_nil_or_concat between with rfl | ⟨init, last, rfl⟩
  · obtain ⟨-, same⟩ := List.append_inj' split rfl
    injection same with same
    injection same with same
    exact absurd same.symm different
  · have split' : told ++ [.draft attempt text] =
        (earlier ++ .draft other shown :: init) ++ [last] := by
      rw [split]
      simp
    obtain ⟨whole, -⟩ := List.append_inj' split' rfl
    obtain ⟨r, member, empty⟩ := settled earlier other shown init whole different
    refine ⟨r, ?_, empty⟩
    rcases List.mem_cons.mp member with rfl | member
    · exact List.mem_cons_self
    · rw [List.concat_eq_append]
      exact List.mem_cons_of_mem _ (List.mem_append_left _ member)

theorem receiveDrafts_separated (accepts : List String → String → Bool) {attempt : Nat}
    (drafts : List String) {visible : Bool} (separated : EachAfter Separates told)
    (settled : SettledFor attempt told) (shown : visible = lastShown told) :
    EachAfter Separates (receiveDrafts accepts attempt drafts told visible).1 ∧
      ((receiveDrafts accepts attempt drafts told visible).2.2 = true →
        (receiveDrafts accepts attempt drafts told visible).2.1 =
          lastShown (receiveDrafts accepts attempt drafts told visible).1) := by
  induction drafts generalizing told visible with
  | nil => exact ⟨separated, fun _ => shown⟩
  | cons text rest ih =>
    have next : EachAfter Separates (told ++ [.draft attempt text]) := separated.snoc settled
    rw [receiveDrafts]
    split
    next =>
      apply ih next (settled.draft text)
      by_cases empty : text = ""
      · simp [lastShown, Report.text, empty]
      · simp [lastShown, Report.text, empty]
    next => exact ⟨next, fun accepted => by cases accepted⟩

/-! ## The contacts of a run -/

theorem freshScan_snoc (contacts : List Contact) (c : Contact) :
    freshScan (contacts ++ [c]) =
      (if (freshScan contacts).2 then (freshScan contacts).1 else (freshScan contacts).1 ++ [c],
        c.limited) := by
  rw [freshScan, List.foldl_append, ← freshScan]
  rfl

def passOrder (candidates retries : List Candidate) : List (Bool × Candidate) :=
  candidates.map (Prod.mk false) ++ retries.map (Prod.mk true)

theorem getElem?_passOrder {candidates : List Candidate} {index : Nat}
    (found : (candidates ++ retries)[index]? = some candidate) :
    (passOrder candidates retries)[index]? =
      some (decide (candidates.length ≤ index), candidate) := by
  by_cases retrying : candidates.length ≤ index
  · rw [List.getElem?_append_right retrying] at found
    rw [passOrder, List.getElem?_append_right (by simpa using retrying), List.length_map,
      List.getElem?_map, found, decide_eq_true retrying]
    rfl
  · have inside : index < candidates.length := by omega
    rw [List.getElem?_append_left inside] at found
    rw [passOrder, List.getElem?_append_left (by simpa using inside), List.getElem?_map, found,
      decide_eq_false retrying]
    rfl

/-- What is recorded after the first `count` visits have begun. -/
structure Recorded (candidates : List Candidate) (payload : List Char) (timeout : Int)
    (retries : List Candidate) (contacts : List Contact) (count : Nat) : Prop where
  reached : count ≤ candidates.length + retries.length
  retried : retries.Sublist candidates
  order : (freshContacts contacts).map Contact.visit = (passOrder candidates retries).take count
  length : contacts.length ≤ count + doublings payload
  follows : EachAfter Follows contacts
  sent : ∀ c ∈ contacts, c.candidate ∈ candidates ∧ Sends payload c.payload ∧ c.timeout = timeout

theorem Recorded.contact {candidates : List Candidate} {payload : List Char}
    {contacts : List Contact} {index : Nat} {again : Bool}
    (recorded : Recorded candidates payload timeout retries contacts (index + again.toNat))
    (limited : (freshScan contacts).2 = again)
    (repeated : again = true → ∃ c, contacts.getLast? = some c ∧
      (passOrder candidates retries)[index]? = some c.visit)
    (transient : ∀ r ∈ retries, ∃ d ∈ contacts, d.retrying = false ∧ d.candidate = r ∧
      d.transient = true) (budget : contacts.length ≤ index + doublings payload) {c : Contact}
    (found : (candidates ++ retries)[index]? = some c.candidate)
    (retrying : c.retrying = decide (candidates.length ≤ index)) (timeouts : c.timeout = timeout)
    (sends : Sends payload c.payload) :
    Recorded candidates payload timeout retries (contacts ++ [c]) (index + 1) := by
  have here : (passOrder candidates retries)[index]? = some c.visit := by
    rw [getElem?_passOrder found, Contact.visit, retrying]
  have inside : index < candidates.length + retries.length := by
    have bound := (List.getElem?_eq_some_iff.mp found).1
    rwa [List.length_append] at bound
  constructor
  case reached => exact inside
  case retried => exact recorded.retried
  case order =>
    have order := recorded.order
    rw [freshContacts, freshScan_snoc, limited]
    cases again with
    | true => exact order
    | false =>
      rw [if_neg Bool.false_ne_true, List.map_append, List.take_add_one, here]
      exact congrArg (· ++ [c.visit]) order
  case length =>
    rw [List.length_append, List.length_singleton]
    omega
  case follows =>
    apply recorded.follows.snoc
    constructor
    · intro d last cut
      have ends : (freshScan contacts).2 = d.limited := by
        obtain ⟨init, rfl⟩ := List.getLast?_eq_some_iff.mp last
        rw [freshScan_snoc]
      rw [limited, cut] at ends
      obtain ⟨d', last', visit⟩ := repeated ends
      rw [last] at last'
      cases last'
      rw [here] at visit
      exact (Option.some.inj visit).symm
    · intro again
      rw [retrying, decide_eq_true_eq] at again
      rw [List.getElem?_append_right again] at found
      exact transient c.candidate (List.mem_of_getElem? found)
  case sent =>
    intro d member
    rcases List.mem_append.mp member with before | last
    · exact recorded.sent d before
    · rw [List.mem_singleton.mp last]
      refine ⟨?_, sends, timeouts⟩
      rcases List.mem_append.mp (List.mem_of_getElem? found) with first | second
      · exact first
      · exact recorded.retried.subset second

theorem Recorded.retry {candidates : List Candidate} {payload : List Char} {contacts : List Contact}
    {count : Nat} (recorded : Recorded candidates payload timeout retries contacts count)
    (retried : (retries ++ [candidate]).Sublist candidates) :
    Recorded candidates payload timeout (retries ++ [candidate]) contacts count := by
  refine { recorded with reached := ?_, retried, order := ?_ }
  · have reached := recorded.reached
    rw [List.length_append]
    omega
  · have short : count ≤ (passOrder candidates retries).length := by
      simpa [passOrder] using recorded.reached
    have longer : passOrder candidates (retries ++ [candidate]) =
        passOrder candidates retries ++ [(true, candidate)] := by
      simp [passOrder]
    rw [longer, List.take_append_of_le_length short]
    exact recorded.order

theorem countP_passOrder {candidates : List Candidate} (places : (candidates.map Prod.snd).Nodup)
    (retried : retries.Sublist candidates) (count : Nat) (second : Bool) (place : Nat) :
    ((passOrder candidates retries).take count).countP
      (fun v => v.1 = second && v.2.2 = place) ≤ 1 := by
  have once : ∀ l : List Candidate, (l.map Prod.snd).Nodup →
      l.countP (fun candidate => candidate.2 = place) ≤ 1 := by
    intro l apart
    have counted := List.nodup_iff_count_le_one.mp apart place
    rw [List.count, List.countP_map] at counted
    refine le_trans (le_of_eq ?_) counted
    apply List.countP_congr
    intro candidate _
    simp
  have part := (List.take_sublist count (passOrder candidates retries)).countP_le
    (p := fun v : Bool × Candidate => v.1 = second && v.2.2 = place)
  refine le_trans part ?_
  have first := once candidates places
  have again := once retries (places.sublist (retried.map Prod.snd))
  rw [passOrder, List.countP_append, List.countP_map, List.countP_map]
  cases second with
  | false =>
    have none : retries.countP ((fun v : Bool × Candidate => v.1 = false && v.2.2 = place) ∘
        Prod.mk true) = 0 := by
      rw [List.countP_eq_zero]
      simp
    have same : candidates.countP ((fun v : Bool × Candidate => v.1 = false && v.2.2 = place) ∘
        Prod.mk false) = candidates.countP (fun candidate => candidate.2 = place) := by
      apply List.countP_congr
      simp
    omega
  | true =>
    have none : candidates.countP ((fun v : Bool × Candidate => v.1 = true && v.2.2 = place) ∘
        Prod.mk false) = 0 := by
      rw [List.countP_eq_zero]
      simp
    have same : retries.countP ((fun v : Bool × Candidate => v.1 = true && v.2.2 = place) ∘
        Prod.mk true) = retries.countP (fun candidate => candidate.2 = place) := by
      apply List.countP_congr
      simp
    omega

/-! ## One attempt -/

structure Progress {κ : Type} (candidates : List Candidate) (payload : List Char) (timeout : Int)
    (s : FailoverState κ) : Prop where
  recorded : Recorded candidates payload timeout s.retries s.contacts (s.index + s.again.toNat)
  budget : s.contacts.length + doublings s.payload ≤ s.index + doublings payload
  limited : (freshScan s.contacts).2 = s.again
  repeated : s.again = true → ∃ c, s.contacts.getLast? = some c ∧
    (passOrder candidates s.retries)[s.index]? = some c.visit
  behind : s.retries.Sublist (candidates.take s.index)
  transient : ∀ r ∈ s.retries, ∃ d ∈ s.contacts, d.retrying = false ∧ d.candidate = r ∧
    d.transient = true
  sends : Sends payload s.payload
  separated : EachAfter Separates s.told
  shown : s.draftVisible = lastShown s.told

structure Ended {κ : Type} (candidates : List Candidate) (payload : List Char) (timeout : Int)
    (finished : Finished κ) : Prop where
  recorded : ∃ count,
    Recorded candidates payload timeout finished.1.retries finished.1.contacts count
  whole : ∀ message, finished.2 = .ok message →
    ∃ c, finished.1.contacts.getLast? = some c ∧ c.result = .ok message
  separated : EachAfter Separates finished.1.told

theorem progress_start {κ : Type} (candidates : List Candidate) (payload : List Char)
    (timeout : Int) :
    Progress candidates payload timeout (FailoverState.start (κ := κ) payload) := by
  constructor
  case recorded =>
    refine ⟨Nat.zero_le _, List.nil_sublist _, rfl, Nat.zero_le _, eachAfter_nil, ?_⟩
    intro c member
    cases member
  case budget => exact le_of_eq rfl
  case limited => rfl
  case repeated =>
    intro again
    cases again
  case behind => exact List.nil_sublist _
  case transient =>
    intro r member
    cases member
  case sends => exact Or.inl rfl
  case separated => exact eachAfter_nil
  case shown => rfl

section

variable {κ : Type} {around : Surroundings} {sha256 : String → κ} {cfg : FailoverConfig}
  {model : String} {candidates : List Candidate} {payload : List Char}

variable (around) in
theorem clearDraft_cases (s : FailoverState κ) :
    ∃ told visible, (clearDraft around s).1 = { s with told, draftVisible := visible } ∧
      (told = s.told ∨ told = s.told ++ [.cleared]) ∧
      ((clearDraft around s).2 = true → around.onContent ≠ none →
        s.draftVisible = lastShown s.told → visible = false ∧ lastShown told = false) ∧
      ((clearDraft around s).2 = true → s.draftVisible = lastShown s.told →
        visible = lastShown told) := by
  unfold clearDraft
  cases callback : around.onContent with
  | none =>
    refine ⟨s.told, s.draftVisible, rfl, Or.inl rfl, ?_, fun _ same => same⟩
    intro _ given
    exact absurd rfl given
  | some accepts =>
    dsimp only
    have hidden : lastShown (s.told ++ [.cleared]) = false := by
      simp [lastShown, Report.text]
    split
    next visible =>
      split
      next =>
        refine ⟨_, _, rfl, Or.inr rfl, fun _ _ _ => ⟨rfl, hidden⟩, fun _ _ => hidden.symm⟩
      next =>
        refine ⟨_, s.draftVisible, rfl, Or.inr rfl, ?_, ?_⟩
        · intro accepted
          cases accepted
        · intro accepted
          cases accepted
    next unseen =>
      rw [Bool.not_eq_true] at unseen
      refine ⟨s.told, s.draftVisible, rfl, Or.inl rfl, ?_, fun _ same => same⟩
      intro _ _ same
      exact ⟨unseen, same ▸ unseen⟩

variable (around cfg) in
theorem contactRelay_cases (retrying : Bool) (candidate : Candidate) (s : FailoverState κ)
    (separated : EachAfter Separates s.told) (shown : s.draftVisible = lastShown s.told)
    (hidden : around.onContent ≠ none → lastShown s.told = false) :
    ∃ told visible result ctxErr, contactRelay around cfg retrying candidate s =
        ({ s with
            contacts := s.contacts ++
              [⟨retrying, candidate, s.payload, responseTimeout cfg, result⟩]
            told
            draftVisible := visible }, result, ctxErr) ∧
      EachAfter Separates told ∧
      ((∀ message, result ≠ .error (.final message)) → visible = lastShown told) := by
  unfold contactRelay
  cases callback : around.onContent with
  | none => exact ⟨s.told, s.draftVisible, _, _, rfl, separated, fun _ => shown⟩
  | some accepts =>
    have settled := settledFor_of_hidden (hidden (by rw [callback]; simp)) s.contacts.length
    obtain ⟨apart, visible⟩ := receiveDrafts_separated accepts
      (around.completeAtRelay s.contacts.length candidate.1 s.payload (responseTimeout cfg)).drafts
      separated settled shown
    refine ⟨_, _, _, _, rfl, apart, ?_⟩
    intro going
    dsimp only at going ⊢
    apply visible
    by_contra refused
    rw [Bool.not_eq_true] at refused
    rw [if_neg (by rw [refused]; exact Bool.false_ne_true)] at going
    exact going _ rfl

/-- What an attempt makes of the state: it goes on, or the loop has ended. -/
def Settles {κ : Type} (candidates : List Candidate) (payload : List Char) (timeout : Int)
    (s : FailoverState κ) : FailoverState κ ⊕ Finished κ → Prop
  | .inl t => Progress candidates payload timeout t ∧ t.contacts.length = s.contacts.length + 1
  | .inr finished => Ended candidates payload timeout finished

theorem attemptRelay_settles {s : FailoverState κ}
    (progress : Progress candidates payload (responseTimeout cfg) s)
    (found : (candidates ++ s.retries)[s.index]? = some candidate) :
    Settles candidates payload (responseTimeout cfg) s
      (attemptRelay around sha256 cfg model (candidates.length ≤ s.index) candidate s) := by
  obtain ⟨told, visible, cleared, telling, hides, keeps⟩ := clearDraft_cases around s
  have separated : EachAfter Separates told := by
    rcases telling with rfl | rfl
    · exact progress.separated
    · exact progress.separated.snoc trivial
  rw [attemptRelay]
  split
  case isFalse =>
    refine ⟨⟨s.index + s.again.toNat, ?_⟩, ?_, ?_⟩
    · rw [cleared]
      exact progress.recorded
    · intro message returned
      cases returned
    · rw [cleared]
      exact separated
  case isTrue accepted =>
    rw [cleared]
    obtain ⟨told', visible', result, _, contacted, separated', shown'⟩ :=
      contactRelay_cases around cfg (candidates.length ≤ s.index) candidate
        { s with told, draftVisible := visible } separated (keeps accepted progress.shown)
        fun given => (hides accepted given progress.shown).2
    rw [contacted]
    dsimp only
    set contact : Contact := ⟨decide (candidates.length ≤ s.index), candidate, s.payload,
      responseTimeout cfg, result⟩ with contactEq
    have recorded : Recorded candidates payload (responseTimeout cfg) s.retries
        (s.contacts ++ [contact]) (s.index + 1) :=
      progress.recorded.contact progress.limited progress.repeated progress.transient
        (le_trans (Nat.le_add_right _ _) progress.budget) found rfl rfl progress.sends
    have budget := progress.budget
    have last : (s.contacts ++ [contact]).getLast? = some contact := List.getLast?_concat ..
    have limits : (freshScan (s.contacts ++ [contact])).2 = contact.limited := by
      rw [freshScan_snoc]
    have longer : (s.contacts ++ [contact]).length = s.contacts.length + 1 := List.length_append
    have kept : ∀ r ∈ s.retries, ∃ d ∈ s.contacts ++ [contact], d.retrying = false ∧
        d.candidate = r ∧ d.transient = true := by
      intro r member
      obtain ⟨d, before, facts⟩ := progress.transient r member
      exact ⟨d, List.mem_append_left _ before, facts⟩
    have ended : ∀ (e : CompletionError) (health : List (HealthUpdate κ)),
        Ended candidates payload (responseTimeout cfg) (({ s with
          contacts := s.contacts ++ [contact]
          told := told'
          draftVisible := visible'
          health } : FailoverState κ), .error e) := by
      intro e health
      refine ⟨⟨_, recorded⟩, ?_, separated'⟩
      intro message returned
      cases returned
    unfold settleAttempt
    dsimp only
    split
    next => exact ended _ s.health
    next =>
      cases outcome : result with
      | ok message =>
        refine ⟨⟨_, recorded⟩, ?_, separated'⟩
        intro message' returned
        cases returned
        exact ⟨contact, last, outcome⟩
      | error e =>
        cases e with
        | final message => exact ended _ s.health
        | outputLimit =>
          dsimp only
          cases expanded : expandCompletionOutputBudget s.payload with
          | none => exact ended _ s.health
          | some larger =>
            obtain ⟨raised, fewer⟩ := expandCompletionOutputBudget_raises expanded
            refine ⟨?_, longer⟩
            constructor
            case recorded => exact recorded
            case budget =>
              dsimp only
              omega
            case limited =>
              dsimp only
              rw [limits, Contact.limited, contactEq, outcome]
            case repeated =>
              intro _
              exact ⟨contact, last, getElem?_passOrder found⟩
            case behind => exact progress.behind
            case transient => exact kept
            case sends =>
              rcases progress.sends with same | before
              · exact Or.inr (same ▸ raised)
              · exact Or.inr (before.trans raised)
            case separated => exact separated'
            case shown =>
              apply shown'
              rw [outcome]
              intro message same
              cases same
        | failure message retry =>
          refine ⟨?_, longer⟩
          have goes : visible' = lastShown told' := by
            apply shown'
            rw [outcome]
            intro message same
            cases same
          have unlimited : contact.limited = false := by
            rw [Contact.limited, contactEq, outcome]
          have behind : s.retries.Sublist (candidates.take (s.index + 1)) :=
            progress.behind.trans (List.take_sublist_take_left (Nat.le_succ _))
          -- a first visit that failed for a transient reason is retried behind the others
          have retried : (!decide (candidates.length ≤ s.index) && retry) = true →
              (s.retries ++ [candidate]).Sublist (candidates.take (s.index + 1)) ∧
                contact.retrying = false ∧ contact.transient = true := by
            intro first
            simp only [Bool.and_eq_true, Bool.not_eq_true', decide_eq_false_iff_not, not_le] at first
            rw [List.getElem?_append_left first.1] at found
            refine ⟨?_, decide_eq_false (not_le.mpr first.1), ?_⟩
            · rw [List.take_add_one, found]
              exact progress.behind.append_right _
            · rw [Contact.transient, contactEq, outcome]
              exact first.2
          constructor
          case recorded =>
            dsimp only
            split
            next first =>
              exact recorded.retry ((retried first).1.trans (List.take_sublist _ _))
            next => exact recorded
          case budget =>
            dsimp only
            omega
          case limited =>
            dsimp only
            rw [limits, unlimited]
          case repeated =>
            intro again
            cases again
          case behind =>
            dsimp only
            split
            next first => exact (retried first).1
            next => exact behind
          case transient =>
            dsimp only
            split
            next first =>
              intro r member
              rcases List.mem_append.mp member with before | last
              · exact kept r before
              · rw [List.mem_singleton.mp last]
                exact ⟨contact, List.mem_append_right _ (List.mem_singleton_self _),
                  (retried first).2.1, rfl, (retried first).2.2⟩
            next => exact kept
          case sends => exact progress.sends
          case separated => exact separated'
          case shown => exact goes

variable (around sha256 model) in
theorem relayStep_settles {s : FailoverState κ}
    (progress : Progress candidates payload (responseTimeout cfg) s) :
    Settles candidates payload (responseTimeout cfg) s
      (relayStep around sha256 cfg model candidates s) := by
  have ended : ∀ e, Ended candidates payload (responseTimeout cfg) (s, .error e) := by
    intro e
    refine ⟨⟨_, progress.recorded⟩, ?_, progress.separated⟩
    intro message returned
    cases returned
  rw [relayStep]
  cases found : (candidates ++ s.retries)[s.index]? with
  | none => exact ended _
  | some candidate =>
    dsimp only
    split
    next => exact ended _
    next =>
      split
      next => exact ended _
      next => exact attemptRelay_settles progress found

theorem Progress.bound {s : FailoverState κ} (progress : Progress candidates payload timeout s) :
    s.contacts.length ≤ 2 * candidates.length + doublings payload := by
  have reached := progress.recorded.reached
  have retried := progress.recorded.retried.length_le
  have budget := progress.budget
  omega

variable (around sha256 cfg model candidates payload) in
theorem relayLoop_ends :
    ∃ finished : Finished κ, Ended candidates payload (responseTimeout cfg) finished ∧
      ∀ fuel, 2 * candidates.length + doublings payload < fuel →
        run (relayStep around sha256 cfg model candidates) fuel (.start payload) =
          some finished := by
  apply run_ends (I := Progress candidates payload (responseTimeout cfg))
    (μ := fun s => 2 * candidates.length + doublings payload - s.contacts.length) _ _
    (progress_start candidates payload _)
  · intro s t progress next
    have settles := relayStep_settles around sha256 model progress
    rw [next] at settles
    obtain ⟨progress', more⟩ := settles
    have bound := progress'.bound
    exact ⟨progress', by omega⟩
  · intro s finished progress returned
    have settles := relayStep_settles around sha256 model progress
    rw [returned] at settles
    exact settles

/-! ## The candidates -/

theorem healthyRelays_sublist (look : Look κ) (endpoints : List Candidate) :
    (healthyRelays sha256 model look endpoints).1.Sublist endpoints := by
  have grows : ∀ found : List Candidate × Nat,
      (endpoints.foldl (fun (found : List Candidate × Nat) endpoint =>
        let remaining := look.relayCooldownRemaining (relayFingerprint sha256 model endpoint.1)
        if remaining = 0 then (found.1 ++ [endpoint], found.2)
        else (found.1, if found.2 = 0 ∨ remaining < found.2 then remaining else found.2))
        found).1.Sublist (found.1 ++ endpoints) := by
    induction endpoints with
    | nil =>
      intro found
      rw [List.append_nil]
      exact List.Sublist.refl _
    | cons endpoint rest ih =>
      intro found
      rw [List.foldl_cons]
      refine (ih _).trans ?_
      dsimp only
      split
      next => simp
      next => exact (List.sublist_cons_self endpoint rest).append_left _
  exact grows ([], 0)

theorem waitForRelays_sublist {endpoints candidates : List Candidate} {looks : List (Look κ)}
    (chosen : waitForRelays around sha256 cfg model endpoints looks = some (.ok candidates)) :
    candidates.Sublist endpoints := by
  induction looks with
  | nil => cases chosen
  | cons look looks ih =>
    rw [waitForRelays] at chosen
    split at chosen
    next =>
      cases chosen
      exact healthyRelays_sublist look endpoints
    next =>
      split at chosen
      next => cases chosen
      next =>
        split at chosen
        next => exact ih chosen
        next => cases chosen

theorem relayCandidates_sublist {endpoints : List RelayEndpoint} {looks : List (Look κ)}
    (chosen : relayCandidates around sha256 cfg model endpoints looks = some (.ok candidates)) :
    candidates.Sublist endpoints.zipIdx := by
  unfold relayCandidates at chosen
  split at chosen
  next => cases chosen
  next =>
    split at chosen
    next => exact waitForRelays_sublist chosen
    next =>
      cases chosen
      exact List.take_sublist _ _

theorem Ended.bounded {endpoints : List RelayEndpoint} {finished : Finished κ}
    (ended : Ended candidates payload timeout finished)
    (among : candidates.Sublist endpoints.zipIdx) :
    RelaysBounded endpoints payload timeout finished := by
  obtain ⟨⟨count, recorded⟩, whole, separated⟩ := ended
  have places : (candidates.map Prod.snd).Nodup := by
    have all : (endpoints.zipIdx.map Prod.snd).Nodup := by
      rw [List.zipIdx_map_snd]
      exact List.nodup_range'
    exact all.sublist (among.map Prod.snd)
  have visits : ∀ (second : Bool) (place : Nat), (freshContacts finished.1.contacts).countP
      (fun c => c.retrying = second && c.place = place) ≤ 1 := by
    intro second place
    have once := countP_passOrder places recorded.retried count second place
    rw [← recorded.order, List.countP_map] at once
    exact once
  constructor
  case attempts =>
    have reached := recorded.reached
    have retried := recorded.retried.length_le
    have length := recorded.length
    have fewer := among.length_le
    rw [List.length_zipIdx] at fewer
    omega
  case firstPass =>
    intro place
    have once := visits false place
    simpa using once
  case secondPass =>
    intro place
    have once := visits true place
    simpa using once
  case follows => exact recorded.follows
  case relays =>
    intro c member
    have listed := among.subset (recorded.sent c member).1
    exact List.mem_zipIdx_iff_getElem?.mp listed
  case request => exact fun c member => (recorded.sent c member).2
  case whole => exact whole
  case separated => exact separated

end

/-- Once there are candidates, the loop ends within two attempts for each endpoint and one for
each doubling of the budget; every endpoint is visited at most once, and once more after a
transient failure; the requests differ in the budget only; a message that is returned is that
of the last attempt; and the drafts of two attempts are never told without an empty text
between them. -/
theorem relay_failover_bounded {κ : Type} (around : Surroundings) (sha256 : String → κ)
    (cfg : FailoverConfig) (model : String) (endpoints : List RelayEndpoint)
    (looks : List (Look κ)) (payload : List Char) (candidates : List Candidate)
    (chosen : relayCandidates around sha256 cfg model endpoints looks = some (.ok candidates)) :
    ∃ finished, RelaysBounded endpoints payload (responseTimeout cfg) finished ∧
      ∀ fuel, 2 * endpoints.length + doublings payload < fuel →
        completeWithRelays around sha256 cfg model endpoints looks payload fuel =
          some finished := by
  have among := relayCandidates_sublist chosen
  obtain ⟨finished, ended, returns⟩ :=
    relayLoop_ends around sha256 cfg model candidates payload
  refine ⟨finished, ended.bounded among, ?_⟩
  intro fuel enough
  have fewer := among.length_le
  rw [List.length_zipIdx] at fewer
  rw [completeWithRelays, chosen]
  exact returns fuel (by omega)

/-! Two relays: the first fails after a draft, the second streams an answer. -/

private def firstRelayFails : Surroundings where
  completeAtRelay
    | 0, _, _, _ => ⟨["half"], .error (.failure "408" true), false⟩
    | _, _, _, _ => ⟨["whole"], .ok ⟨.assistant, "whole", [], "", .none⟩, false⟩
  onContent := some fun _ _ => true
  ctxErr _ := false
  waited _ := true
  canceled _ := false

theorem second_relay_answers :
    ∃ finished : Finished Unit,
      RelaysBounded [⟨"a", "https://a", ""⟩, ⟨"b", "https://b", ""⟩] [] 30 finished ∧
      ∀ fuel, 4 < fuel → completeWithRelays firstRelayFails (fun _ => ()) ⟨true, 0, false⟩ "m"
        [⟨"a", "https://a", ""⟩, ⟨"b", "https://b", ""⟩] [⟨fun _ => 0, fun _ => true⟩] [] fuel =
          some finished := by
  obtain ⟨finished, bounded, returns⟩ := relay_failover_bounded firstRelayFails (fun _ => ())
    ⟨true, 0, false⟩ "m" [⟨"a", "https://a", ""⟩, ⟨"b", "https://b", ""⟩]
    [⟨fun _ => 0, fun _ => true⟩] [] [(⟨"a", "https://a", ""⟩, 0), (⟨"b", "https://b", ""⟩, 1)] rfl
  have undoubled : doublings [] = 0 := by decide +kernel
  rw [undoubled] at returns
  exact ⟨finished, bounded, returns⟩

end ForestPanel.AIOps
