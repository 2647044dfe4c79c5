import ForestPanel.AIOps.Context

/-!
# Compaction keeps a conversation well-formed

A well-formed conversation falls into blocks: single messages, and calls of an assistant with their
results. The walk puts each block into one unit as a whole, so that what is left out leaves blocks.
-/
namespace ForestPanel.AIOps

/-- A message without calls that is no result, or an assistant's calls with exactly their results;
the marks of the panel stand only on messages of the first sort. -/
inductive Block : List ProviderMessage → Prop
  | plain (m : ProviderMessage) (result : m.role ≠ .tool) (calls : m.toolCalls = []) : Block [m]
  | batch (m : ProviderMessage) (results : List ProviderMessage) (role : m.role = .assistant)
      (kind : m.contextKind = .none) (calls : m.toolCalls ≠ [])
      (named : ∀ call ∈ m.toolCalls, call.id ≠ "")
      (apart : (m.toolCalls.map ProviderMessage.ToolCall.id).Nodup)
      (tools : ∀ r ∈ results, r.role = .tool ∧ r.contextKind = .none ∧ r.toolCalls = [])
      (exact : (results.map ProviderMessage.toolCallID).Perm
        (m.toolCalls.map ProviderMessage.ToolCall.id)) :
      Block (m :: results)

def WellFormed (messages : List ProviderMessage) : Prop :=
  ∃ blocks : List (List ProviderMessage), blocks.flatten = messages ∧ ∀ block ∈ blocks, Block block

def protectedFrom (current : Int) : Nat → List ProviderMessage → List ProviderMessage
  | _, [] => []
  | i, m :: rest =>
    if isProtected current i m then m :: protectedFrom current (i + 1) rest
    else protectedFrom current (i + 1) rest

def protectedMessages (messages : List ProviderMessage) : List ProviderMessage :=
  protectedFrom (current (withoutNotices messages)) 0 (withoutNotices messages)

structure Compacted (messages : List ProviderMessage) (budget : Int) (out : List ProviderMessage) :
    Prop where
  fits : fits budget out
  subsequence : ∃ before after, (before ++ after).Sublist (withoutNotices messages) ∧
    (out = before ++ after ∨ out = before ++ omittedNotice :: after)
  contains : (protectedMessages messages).Sublist out
  wellFormed : WellFormed out
  again : compactProviderContext out budget = .ok out

/-! ## The current input -/

private theorem currentFrom_cases (source : List ProviderMessage) (i : Nat) (found : Int) :
    currentFrom i found source = found ∨
      ∃ k m, source[k]? = some m ∧ m.role = .user ∧ currentFrom i found source = (i + k : Nat) := by
  induction source generalizing i found with
  | nil => exact Or.inl rfl
  | cons m rest ih =>
    unfold currentFrom
    split
    next input =>
      rcases ih (i + 1) (i : Int) with same | ⟨k, n, at', user, same⟩
      · exact Or.inr ⟨0, m, rfl, input.1, same⟩
      · exact Or.inr ⟨k + 1, n, at', user, by rw [same]; congr 1; omega⟩
    next =>
      rcases ih (i + 1) found with same | ⟨k, n, at', user, same⟩
      · exact Or.inl same
      · exact Or.inr ⟨k + 1, n, at', user, by rw [same]; congr 1; omega⟩

theorem current_user {source : List ProviderMessage} {k : Nat} {m : ProviderMessage}
    (here : (k : Int) = current source) (at' : source[k]? = some m) : m.role = .user := by
  rcases currentFrom_cases source 0 (-1) with same | ⟨k', m', at'', user, same⟩
  · rw [current, same] at here
    omega
  · rw [current, same] at here
    obtain rfl : k = k' := by omega
    rw [at'] at at''
    rw [Option.some.inj at'']
    exact user

/-! ## Units and blocks -/

def Units.all (u : Units) : List (List Nat) := u.old ++ u.oldUnit :: u.recent

/-- The places of the blocks, each as its start and its length. -/
def spansFrom : Nat → List (List ProviderMessage) → List (Nat × Nat)
  | _, [] => []
  | i, block :: rest => (i, block.length) :: spansFrom (i + block.length) rest

/-- What is known of the units when the walk has come to place `i`. -/
structure Covers (prot : Nat → Prop) (spans : List (Nat × Nat)) (i : Nat)
    (units : List (List Nat)) : Prop where
  below : ∀ unit ∈ units, ∀ j ∈ unit, j < i
  whole : ∀ unit ∈ units, ∀ span ∈ spans,
    (∀ k < span.2, span.1 + k ∈ unit) ∨ ∀ k < span.2, span.1 + k ∉ unit
  unprotected : ∀ unit ∈ units, ∀ j ∈ unit, ¬ prot j
  cover : ∀ j < i, ¬ prot j → ∃ unit ∈ units, j ∈ unit
  spans : ∀ span ∈ spans, span.1 + span.2 ≤ i

variable {prot : Nat → Prop} {spans : List (Nat × Nat)} {i n : Nat} {units units' : List (List Nat)}

theorem Covers.congr (so : Covers prot spans i units)
    (old : ∀ unit ∈ units', unit ∈ units ∨ unit = [])
    (new : ∀ unit ∈ units, unit ∈ units' ∨ unit = []) : Covers prot spans i units' := by
  constructor
  case below =>
    intro unit member j inside
    rcases old unit member with member | rfl
    · exact so.below unit member j inside
    · cases inside
  case whole =>
    intro unit member span listed
    rcases old unit member with member | rfl
    · exact so.whole unit member span listed
    · exact Or.inr (fun _ _ => List.not_mem_nil)
  case unprotected =>
    intro unit member j inside
    rcases old unit member with member | rfl
    · exact so.unprotected unit member j inside
    · cases inside
  case cover =>
    intro j below free
    obtain ⟨unit, member, inside⟩ := so.cover j below free
    rcases new unit member with member | rfl
    · exact ⟨unit, member, inside⟩
    · cases inside
  case spans => exact so.spans

theorem Covers.skip (so : Covers prot spans i units) (kept : prot i) :
    Covers prot (spans ++ [(i, 1)]) (i + 1) units := by
  constructor
  case below =>
    intro unit member j inside
    have bound := so.below unit member j inside
    omega
  case whole =>
    intro unit member span listed
    rcases List.mem_append.mp listed with listed | last
    · exact so.whole unit member span listed
    · obtain rfl := List.mem_singleton.mp last
      right
      intro k within inside
      have bound := so.below unit member _ inside
      dsimp only at within bound
      omega
  case unprotected => exact so.unprotected
  case cover =>
    intro j below free
    by_cases last : j = i
    · subst last
      exact absurd kept free
    · exact so.cover j (by omega) free
  case spans =>
    intro span listed
    rcases List.mem_append.mp listed with listed | last
    · have bound := so.spans span listed
      omega
    · obtain rfl := List.mem_singleton.mp last
      exact Nat.le_refl _

variable {unit : List Nat} {block out : List ProviderMessage}

theorem Covers.add (so : Covers prot spans i units) (free : ∀ k < n, ¬ prot (i + k))
    (known : unit ∈ units ∨ unit = []) (added : unit ++ List.range' i n ∈ units')
    (old : ∀ one ∈ units', one ∈ units ∨ one = unit ++ List.range' i n ∨ one = [])
    (new : ∀ one ∈ units, one ∈ units' ∨ one = unit) :
    Covers prot (spans ++ [(i, n)]) (i + n) units' := by
  have below : ∀ j ∈ unit, j < i := by
    intro j inside
    rcases known with member | rfl
    · exact so.below unit member j inside
    · cases inside
  have places : ∀ j, j ∈ unit ++ List.range' i n ↔ j ∈ unit ∨ i ≤ j ∧ j < i + n := by
    intro j
    rw [List.mem_append, List.mem_range'_1]
  constructor
  case below =>
    intro one member j inside
    rcases old one member with member | rfl | rfl
    · have bound := so.below one member j inside
      omega
    · rcases (places j).mp inside with first | last
      · have bound := below j first
        omega
      · exact last.2
    · cases inside
  case whole =>
    intro one member span listed
    rcases List.mem_append.mp listed with listed | last
    · have within := so.spans span listed
      rcases old one member with member | rfl | rfl
      · exact so.whole one member span listed
      · have before : (∀ k < span.2, span.1 + k ∈ unit) ∨ ∀ k < span.2, span.1 + k ∉ unit := by
          rcases known with member | rfl
          · exact so.whole unit member span listed
          · exact Or.inr (fun _ _ => List.not_mem_nil)
        rcases before with all | none
        · exact Or.inl (fun k short => (places _).mpr (Or.inl (all k short)))
        · right
          intro k short inside
          rcases (places _).mp inside with first | last
          · exact none k short first
          · omega
      · exact Or.inr (fun _ _ => List.not_mem_nil)
    · obtain rfl := List.mem_singleton.mp last
      rcases old one member with member | rfl | rfl
      · right
        intro k short inside
        have bound := so.below one member _ inside
        dsimp only at bound
        omega
      · exact Or.inl (fun k short => (places _).mpr (Or.inr ⟨by dsimp only; omega, by
          dsimp only at short ⊢
          omega⟩))
      · exact Or.inr (fun _ _ => List.not_mem_nil)
  case unprotected =>
    intro one member j inside
    rcases old one member with member | rfl | rfl
    · exact so.unprotected one member j inside
    · rcases (places j).mp inside with first | last
      · rcases known with member | rfl
        · exact so.unprotected unit member j first
        · cases first
      · have at' := free (j - i) (by omega)
        rwa [show i + (j - i) = j by omega] at at'
    · cases inside
  case cover =>
    intro j short open'
    by_cases last : i ≤ j
    · exact ⟨_, added, (places j).mpr (Or.inr ⟨last, short⟩)⟩
    · obtain ⟨one, member, inside⟩ := so.cover j (by omega) open'
      rcases new one member with member | rfl
      · exact ⟨one, member, inside⟩
      · exact ⟨_, added, (places j).mpr (Or.inl inside)⟩
  case spans =>
    intro span listed
    rcases List.mem_append.mp listed with listed | last
    · have bound := so.spans span listed
      omega
    · obtain rfl := List.mem_singleton.mp last
      exact Nat.le_refl _

/-! ## The walk over a block -/

variable {cur : Int} {u : Units} {rest : List ProviderMessage}

theorem Covers.flushOld (so : Covers prot spans i u.all) : Covers prot spans i u.flushOld.all := by
  unfold Units.flushOld
  split
  next =>
    apply so.congr
    · intro unit member
      simp only [Units.all, List.mem_append, List.mem_cons, List.not_mem_nil, or_false] at member ⊢
      tauto
    · intro unit member
      simp only [Units.all, List.mem_append, List.mem_cons, List.not_mem_nil, or_false] at member ⊢
      tauto
  next => exact so

def Units.addPlaces (u : Units) (i n : Nat) : Units :=
  { u with oldUnit := u.oldUnit ++ List.range' i n }

theorem Covers.addPlaces (so : Covers prot spans i u.all) (free : ∀ k < n, ¬ prot (i + k)) :
    Covers prot (spans ++ [(i, n)]) (i + n) (u.addPlaces i n).all := by
  apply so.add free (Or.inl (List.mem_append_right _ List.mem_cons_self))
  · exact List.mem_append_right _ List.mem_cons_self
  · intro one member
    simp only [Units.all, Units.addPlaces, List.mem_append, List.mem_cons] at member ⊢
    tauto
  · intro one member
    simp only [Units.all, Units.addPlaces, List.mem_append, List.mem_cons] at member ⊢
    tauto

theorem Covers.addRecent (so : Covers prot spans i u.all) (free : ∀ k < n, ¬ prot (i + k)) :
    Covers prot (spans ++ [(i, n)]) (i + n) (u.addRecent (List.range' i n)).all := by
  apply so.add free (Or.inr rfl)
  · simp [Units.all, Units.addRecent]
  · intro one member
    simp only [Units.all, Units.addRecent, List.mem_append, List.mem_cons, List.nil_append,
      List.not_mem_nil, or_false] at member ⊢
    tauto
  · intro one member
    simp only [Units.all, Units.addRecent, List.mem_append, List.mem_cons] at member ⊢
    tauto

private theorem awaited_eq (calls : List ProviderMessage.ToolCall) (pending : List String)
    (named : ∀ call ∈ calls, call.id ≠ "")
    (apart : (pending ++ calls.map ProviderMessage.ToolCall.id).Nodup) :
    awaited calls pending = .ok (pending ++ calls.map ProviderMessage.ToolCall.id) := by
  induction calls generalizing pending with
  | nil => rw [awaited, List.map_nil, List.append_nil]
  | cons call rest ih =>
    rw [List.map_cons] at apart ⊢
    have fresh : call.id ∉ pending := by
      intro member
      exact (List.nodup_append.mp apart).2.2 call.id member call.id List.mem_cons_self rfl
    have first := named call List.mem_cons_self
    rw [awaited, if_neg (by tauto), ih]
    · rw [List.append_assoc, List.singleton_append]
    · exact fun one member => named one (List.mem_cons_of_mem _ member)
    · rw [List.append_assoc, List.singleton_append]
      exact apart

private theorem walk_results {results : List ProviderMessage} {pending : List String}
    (waiting : pending ≠ []) (tools : ∀ r ∈ results, r.role = .tool)
    (exact' : (results.map ProviderMessage.toolCallID).Perm pending) :
    walk cur (results ++ rest) i (some (pending, unit)) u =
      walk cur rest (i + results.length) none
        (u.addRecent (unit ++ List.range' i results.length)) := by
  induction results generalizing pending unit i with
  | nil => exact absurd (List.nil_perm.mp exact') waiting
  | cons r results ih =>
    rw [List.map_cons] at exact'
    have known : r.toolCallID ∈ pending := exact'.subset List.mem_cons_self
    have left : (results.map ProviderMessage.toolCallID).Perm (pending.erase r.toolCallID) := by
      have erased := exact'.erase r.toolCallID
      rwa [List.erase_cons_head] at erased
    have role := tools r List.mem_cons_self
    rw [List.cons_append, walk, if_neg (by tauto), List.length_cons]
    split
    next done =>
      rw [done] at left
      have none := List.map_eq_nil_iff.mp (List.perm_nil.mp left)
      rw [none]
      rfl
    next more =>
      rw [ih more (fun one member => tools one (List.mem_cons_of_mem _ member)) left,
        show i + 1 + results.length = i + (results.length + 1) by omega, List.append_assoc]
      rfl

private theorem walk_old
    (free : ∀ k m, block[k]? = some m → isProtected cur (i + k) m = false ∧ m.role ≠ .user)
    (before : ∀ k < block.length, ((i + k : Nat) : Int) < cur) :
    walk cur (block ++ rest) i none u =
      walk cur rest (i + block.length) none (u.addPlaces i block.length) := by
  induction block generalizing i u with
  | nil =>
    have same : u.addPlaces i 0 = u := by
      simp [Units.addPlaces]
    rw [List.length_nil, same]
    rfl
  | cons m block ih =>
    obtain ⟨open', role⟩ := free 0 m rfl
    have early := before 0 (by simp)
    rw [Nat.add_zero] at open' early
    rw [List.cons_append, walk, if_neg (by rw [open']; exact Bool.false_ne_true), if_pos early,
      if_neg role, ih]
    · rw [List.length_cons, show i + 1 + block.length = i + (block.length + 1) by omega]
      congr 1
      simp only [Units.addPlaces, Units.addOld, List.append_assoc, List.singleton_append]
      rfl
    · intro k one at'
      have next := free (k + 1) one at'
      rwa [show i + (k + 1) = i + 1 + k by omega] at next
    · intro k within
      have next := before (k + 1) (by rw [List.length_cons]; omega)
      rwa [show i + (k + 1) = i + 1 + k by omega] at next

theorem walk_block (rest : List ProviderMessage) (shape : Block block)
    (same : ∀ k m, block[k]? = some m → (prot (i + k) ↔ isProtected cur (i + k) m = true))
    (input : ∀ k m, block[k]? = some m → ((i + k : Nat) : Int) = cur → m.role = .user)
    (so : Covers prot spans i u.all) :
    ∃ u', walk cur (block ++ rest) i none u = walk cur rest (i + block.length) none u' ∧
      Covers prot (spans ++ [(i, block.length)]) (i + block.length) u'.all := by
  cases shape with
  | plain m result calls =>
    have here := same 0 m rfl
    rw [Nat.add_zero] at here
    rw [List.singleton_append, walk]
    by_cases kept : isProtected cur i m = true
    · rw [if_pos kept]
      exact ⟨_, rfl, so.flushOld.skip (here.mpr kept)⟩
    · have free : ∀ k < 1, ¬ prot (i + k) := by
        intro k within
        obtain rfl : k = 0 := by omega
        rw [Nat.add_zero, here]
        exact kept
      rw [if_neg kept]
      by_cases early : (i : Int) < cur
      · rw [if_pos early]
        refine ⟨_, rfl, ?_⟩
        split
        next => exact so.flushOld.addPlaces free
        next => exact so.addPlaces free
      · rw [if_neg early, if_neg (not_not_intro calls), if_neg result]
        exact ⟨_, rfl, so.addRecent free⟩
  | batch m results role kind calls named apart tools exact' =>
    have member : ∀ k one, (m :: results)[k]? = some one →
        isProtected cur (i + k) one = false ∧ one.role ≠ .user := by
      intro k one at'
      have roles : one.role = .assistant ∨ one.role = .tool := by
        rcases List.mem_cons.mp (List.mem_of_getElem? at') with rfl | listed
        · exact Or.inl role
        · exact Or.inr (tools one listed).1
      have plain : one.contextKind = .none := by
        rcases List.mem_cons.mp (List.mem_of_getElem? at') with rfl | listed
        · exact kind
        · exact (tools one listed).2.1
      have other : one.role ≠ .user := by
        rcases roles with same | same <;> rw [same] <;> decide
      refine ⟨?_, other⟩
      have place : ((i + k : Nat) : Int) ≠ cur := fun here => other (input k one at' here)
      push_cast at place
      have system : one.role ≠ .system := by
        rcases roles with same | same <;> rw [same] <;> decide
      simp [isProtected, plain, system, place]
    have free : ∀ k < (m :: results).length, ¬ prot (i + k) := by
      intro k within kept
      have at' := List.getElem?_eq_getElem within
      have outside := (member k _ at').1
      rw [(same k _ at').mp kept] at outside
      exact Bool.noConfusion outside
    by_cases early : (i : Int) < cur
    · -- The current place is no place of the batch, so that all of it comes before.
      have before : ∀ k, k < (m :: results).length → ((i + k : Nat) : Int) < cur := by
        intro k
        induction k with
        | zero => exact fun _ => early
        | succ k ih =>
          intro within
          have less := ih (by omega)
          have at' := List.getElem?_eq_getElem within
          have other : ((i + (k + 1) : Nat) : Int) ≠ cur :=
            fun here => (member _ _ at').2 (input _ _ at' here)
          omega
      exact ⟨_, walk_old member before, so.addPlaces free⟩
    · have first := (member 0 m rfl).1
      rw [Nat.add_zero] at first
      have pending := awaited_eq m.toolCalls [] named (by rwa [List.nil_append])
      rw [List.nil_append] at pending
      have waiting : m.toolCalls.map ProviderMessage.ToolCall.id ≠ [] :=
        fun none => calls (List.map_eq_nil_iff.mp none)
      rw [List.cons_append, walk, if_neg (by rw [first]; exact Bool.false_ne_true), if_neg early,
        if_pos calls, if_neg (not_not_intro role), pending]
      dsimp only
      rw [walk_results waiting (fun r listed => (tools r listed).1) exact']
      refine ⟨_, ?_, so.addRecent free⟩
      rw [List.length_cons, show i + 1 + results.length = i + (results.length + 1) by omega]
      rfl

/-! ## The whole walk -/

theorem walk_blocks {blocks : List (List ProviderMessage)} (shapes : ∀ block ∈ blocks, Block block)
    (same : ∀ k m, blocks.flatten[k]? = some m →
      (prot (i + k) ↔ isProtected cur (i + k) m = true))
    (input : ∀ k m, blocks.flatten[k]? = some m → ((i + k : Nat) : Int) = cur → m.role = .user)
    (so : Covers prot spans i u.all) :
    ∃ u', walk cur blocks.flatten i none u = .ok u' ∧ u'.oldUnit = [] ∧
      Covers prot (spans ++ spansFrom i blocks) (i + blocks.flatten.length) u'.all := by
  induction blocks generalizing i spans u with
  | nil =>
    refine ⟨_, rfl, ?_, ?_⟩
    · unfold Units.flushOld
      split
      next => rfl
      next none => exact not_not.mp none
    · rw [spansFrom, List.append_nil]
      exact so.flushOld
  | cons block rest ih =>
    have here : ∀ (k : Nat) m, block[k]? = some m → (block :: rest).flatten[k]? = some m := by
      intro k m at'
      rw [List.flatten_cons, List.getElem?_append_left (List.getElem?_eq_some_iff.mp at').1]
      exact at'
    have later : ∀ (k : Nat) m, rest.flatten[k]? = some m →
        (block :: rest).flatten[block.length + k]? = some m := by
      intro k m at'
      rw [List.flatten_cons, List.getElem?_append_right (Nat.le_add_right _ _),
        Nat.add_sub_cancel_left]
      exact at'
    obtain ⟨u', step, next⟩ := walk_block rest.flatten (shapes block List.mem_cons_self)
      (fun k m at' => same k m (here k m at')) (fun k m at' => input k m (here k m at')) so
    have same' : ∀ k m, rest.flatten[k]? = some m →
        (prot (i + block.length + k) ↔ isProtected cur (i + block.length + k) m = true) := by
      intro k m at'
      rw [Nat.add_assoc]
      exact same _ m (later k m at')
    have input' : ∀ k m, rest.flatten[k]? = some m →
        ((i + block.length + k : Nat) : Int) = cur → m.role = .user := by
      intro k m at' now
      rw [Nat.add_assoc] at now
      exact input _ m (later k m at') now
    obtain ⟨u'', run, closed, all⟩ :=
      ih (fun one member => shapes one (List.mem_cons_of_mem _ member)) same' input' next
    refine ⟨u'', ?_, closed, ?_⟩
    · rw [List.flatten_cons, step, run]
    · rw [spansFrom, List.flatten_cons, List.length_append, ← Nat.add_assoc]
      rw [List.append_assoc] at all
      exact all

def Protected (source : List ProviderMessage) (j : Nat) : Prop :=
  ∃ m, source[j]? = some m ∧ isProtected (current source) j m = true

theorem walk_wellFormed {blocks : List (List ProviderMessage)} {source : List ProviderMessage}
    (whole : blocks.flatten = source) (shapes : ∀ block ∈ blocks, Block block) :
    ∃ u, walk (current source) source 0 none ⟨[], [], []⟩ = .ok u ∧
      Covers (Protected source) (spansFrom 0 blocks) source.length (u.old ++ u.recent) := by
  have start : Covers (Protected source) [] 0 (Units.all ⟨[], [], []⟩) := by
    constructor
    case below => simp [Units.all]
    case whole => simp
    case unprotected => simp [Units.all]
    case cover => intro j short; omega
    case spans => simp
  have same : ∀ k m, blocks.flatten[k]? = some m →
      (Protected source (0 + k) ↔ isProtected (current source) (0 + k) m = true) := by
    intro k m at'
    rw [whole] at at'
    rw [Nat.zero_add]
    constructor
    · rintro ⟨one, at'', kept⟩
      rw [at'] at at''
      rwa [Option.some.inj at'']
    · exact fun kept => ⟨m, at', kept⟩
  have input : ∀ k m, blocks.flatten[k]? = some m → ((0 + k : Nat) : Int) = current source →
      m.role = .user := by
    intro k m at' here
    rw [whole] at at'
    rw [Nat.zero_add] at here
    exact current_user here at'
  obtain ⟨u, run, closed, all⟩ := walk_blocks shapes same input start
  rw [List.nil_append, whole, Nat.zero_add] at all
  rw [whole] at run
  refine ⟨u, run, all.congr ?_ ?_⟩
  · intro unit member
    simp only [Units.all, List.mem_append, List.mem_cons] at member ⊢
    tauto
  · intro unit member
    simp only [Units.all, closed, List.mem_append, List.mem_cons] at member ⊢
    tauto

/-! ## What is kept -/

/-- Protected messages are kept, and blocks as wholes. -/
structure Coherent (prot : Nat → Prop) (spans : List (Nat × Nat)) (keep : Nat → Bool) : Prop where
  protects : ∀ j, prot j → keep j = true
  constant : ∀ span ∈ spans, ∀ k < span.2, ∀ l < span.2, keep (span.1 + k) = keep (span.1 + l)

theorem coherent_all : Coherent prot spans (fun _ => true) :=
  ⟨fun _ _ => rfl, fun _ _ _ _ _ _ => rfl⟩

/-- What is kept when a unit is left out, but for the places in reserve. -/
def leaveOut (keep : Nat → Bool) (unit reserve : List Nat) (i : Nat) : Bool :=
  keep i && !(unit.contains i && !reserve.contains i)

variable {keep : Nat → Bool} {reserve : List Nat}

theorem Coherent.leaveOut (so : Coherent prot spans keep) (covers : Covers prot spans i units)
    (member : unit ∈ units)
    (single : ∀ span ∈ spans, ∀ k < span.2, span.1 + k ∈ reserve → span.2 = 1) :
    Coherent prot spans (leaveOut keep unit reserve) := by
  constructor
  case protects =>
    intro j kept
    have outside : j ∉ unit := fun inside => covers.unprotected unit member j inside kept
    simp [AIOps.leaveOut, so.protects j kept, outside]
  case constant =>
    intro span listed k first l second
    by_cases alone : span.2 = 1
    · rw [show k = l by omega]
    · have free : ∀ k < span.2, reserve.contains (span.1 + k) = false := by
        intro k within
        rw [← Bool.not_eq_true, List.contains_iff_mem]
        exact fun inside => alone (single span listed k within inside)
      have both : unit.contains (span.1 + k) = unit.contains (span.1 + l) := by
        rw [Bool.eq_iff_iff, List.contains_iff_mem, List.contains_iff_mem]
        rcases covers.whole unit member span listed with all | none
        · exact ⟨fun _ => all l second, fun _ => all k first⟩
        · exact ⟨fun inside => absurd inside (none k first),
            fun inside => absurd inside (none l second)⟩
      unfold AIOps.leaveOut
      rw [free k first, free l second, both, so.constant span listed k first l second]

theorem dropUnits_cons {source : List ProviderMessage} {budget : Int} {rest : List (List Nat)} :
    dropUnits source budget reserve (unit :: rest) keep =
      if fits budget (build source (leaveOut keep unit reserve) true) then
        (leaveOut keep unit reserve, some (build source (leaveOut keep unit reserve) true))
      else dropUnits source budget reserve rest (leaveOut keep unit reserve) := rfl

section

variable {source : List ProviderMessage} {budget : Int} {todo : List (List Nat)}
  {keep' : Nat → Bool}

theorem dropUnits_some (so : Coherent prot spans keep) (covers : Covers prot spans i units)
    (known : ∀ unit ∈ todo, unit ∈ units)
    (single : ∀ span ∈ spans, ∀ k < span.2, span.1 + k ∈ reserve → span.2 = 1)
    (done : dropUnits source budget reserve todo keep = (keep', some out)) :
    Coherent prot spans keep' ∧ out = build source keep' true ∧ fits budget out := by
  induction todo generalizing keep with
  | nil => cases done
  | cons unit rest ih =>
    have next := so.leaveOut covers (known unit List.mem_cons_self) single
    rw [dropUnits_cons] at done
    split at done
    next fit =>
      obtain ⟨rfl, same⟩ := Prod.mk.inj done
      obtain rfl := Option.some.inj same
      exact ⟨next, rfl, fit⟩
    next => exact ih next (fun one member => known one (List.mem_cons_of_mem _ member)) done

theorem dropUnits_none (so : Coherent prot spans keep) (covers : Covers prot spans i units)
    (known : ∀ unit ∈ todo, unit ∈ units)
    (single : ∀ span ∈ spans, ∀ k < span.2, span.1 + k ∈ reserve → span.2 = 1)
    (done : dropUnits source budget reserve todo keep = (keep', none)) :
    Coherent prot spans keep' ∧
      (todo = [] ∧ keep' = keep ∨ ¬ fits budget (build source keep' true)) ∧
      ∀ j, keep' j = true → keep j = true ∧ ∀ unit ∈ todo, j ∈ unit → j ∈ reserve := by
  induction todo generalizing keep with
  | nil =>
    obtain ⟨rfl, -⟩ := Prod.mk.inj done
    refine ⟨so, Or.inl ⟨rfl, rfl⟩, fun j kept => ⟨kept, fun unit member => ?_⟩⟩
    cases member
  | cons unit rest ih =>
    have next := so.leaveOut covers (known unit List.mem_cons_self) single
    rw [dropUnits_cons] at done
    split at done
    next => cases done
    next misfit =>
      obtain ⟨coherent, last, dropped⟩ :=
        ih next (fun one member => known one (List.mem_cons_of_mem _ member)) done
      refine ⟨coherent, Or.inr ?_, fun j kept => ?_⟩
      · rcases last with ⟨-, rfl⟩ | last
        · exact misfit
        · exact last
      · obtain ⟨before, others⟩ := dropped j kept
        unfold AIOps.leaveOut at before
        rw [Bool.and_eq_true] at before
        refine ⟨before.1, fun one member inside => ?_⟩
        rcases List.mem_cons.mp member with rfl | listed
        · have free := before.2
          simp only [inside, List.contains_eq_mem, decide_true, Bool.true_and, Bool.not_not,
            decide_eq_true_eq] at free
          exact free
        · exact others one listed inside

end

/-! ## The messages that are kept -/

theorem keptFrom_all (source : List ProviderMessage) :
    keptFrom (fun _ => true) i source = source := by
  induction source generalizing i with
  | nil => rfl
  | cons m rest ih => rw [keptFrom, if_pos rfl, ih]

theorem keptFrom_sublist (source : List ProviderMessage) :
    (keptFrom keep i source).Sublist source := by
  induction source generalizing i with
  | nil => exact List.Sublist.slnil
  | cons m rest ih =>
    rw [keptFrom]
    split
    next => exact ih.cons_cons m
    next => exact ih.cons m

private theorem keptFrom_append (first second : List ProviderMessage) :
    keptFrom keep i (first ++ second) =
      keptFrom keep i first ++ keptFrom keep (i + first.length) second := by
  induction first generalizing i with
  | nil => rfl
  | cons m rest ih =>
    rw [List.cons_append, keptFrom, keptFrom, ih, List.length_cons,
      show i + 1 + rest.length = i + (rest.length + 1) by omega]
    split
    next => rw [List.cons_append]
    next => rfl

private theorem keptFrom_block {b : Bool} (same : ∀ k < block.length, keep (i + k) = b) :
    keptFrom keep i block = if b then block else [] := by
  induction block generalizing i with
  | nil => cases b <;> rfl
  | cons m rest ih =>
    have first := same 0 (by simp)
    rw [Nat.add_zero] at first
    have later : ∀ k < rest.length, keep (i + 1 + k) = b := by
      intro k within
      have next := same (k + 1) (by rw [List.length_cons]; omega)
      rwa [show i + (k + 1) = i + 1 + k by omega] at next
    rw [keptFrom, first, ih later]
    cases b <;> rfl

theorem keptFrom_wellFormed {blocks : List (List ProviderMessage)}
    (shapes : ∀ block ∈ blocks, Block block) (so : Coherent prot (spansFrom i blocks) keep) :
    WellFormed (keptFrom keep i blocks.flatten) := by
  induction blocks generalizing i with
  | nil => exact ⟨[], rfl, by simp⟩
  | cons block rest ih =>
    have tail : Coherent prot (spansFrom (i + block.length) rest) keep :=
      ⟨so.protects, fun span listed => so.constant span (List.mem_cons_of_mem _ listed)⟩
    obtain ⟨kept, whole, shapes'⟩ :=
      ih (fun one member => shapes one (List.mem_cons_of_mem _ member)) tail
    rw [List.flatten_cons, keptFrom_append, ← whole]
    have first : keptFrom keep i block = if keep i then block else [] := by
      apply keptFrom_block
      intro k within
      exact so.constant _ List.mem_cons_self k within 0 (by dsimp only; omega)
    rw [first]
    split
    next =>
      refine ⟨block :: kept, List.flatten_cons, fun one member => ?_⟩
      rcases List.mem_cons.mp member with rfl | member
      · exact shapes _ List.mem_cons_self
      · exact shapes' one member
    next => exact ⟨kept, rfl, shapes'⟩

private theorem block_user (shape : Block block) {k : Nat} {m : ProviderMessage}
    (at' : block[k]? = some m) (user : m.role = .user) : block.length = 1 := by
  have member := List.mem_of_getElem? at'
  cases shape with
  | plain => rfl
  | batch first results role kind calls named apart tools exact' =>
    rcases List.mem_cons.mp member with rfl | listed
    · rw [role] at user
      cases user
    · rw [(tools m listed).1] at user
      cases user

private theorem span_block {blocks : List (List ProviderMessage)} {span : Nat × Nat}
    (listed : span ∈ spansFrom i blocks) : ∃ block ∈ blocks, i ≤ span.1 ∧ span.2 = block.length ∧
      ∀ k < span.2, blocks.flatten[span.1 - i + k]? = block[k]? := by
  induction blocks generalizing i with
  | nil => cases listed
  | cons block rest ih =>
    rcases List.mem_cons.mp listed with rfl | later
    · refine ⟨block, List.mem_cons_self, Nat.le_refl _, rfl, fun k within => ?_⟩
      rw [List.flatten_cons, Nat.sub_self, Nat.zero_add, List.getElem?_append_left within]
    · obtain ⟨one, member, above, size, same⟩ := ih later
      refine ⟨one, List.mem_cons_of_mem _ member, by omega, size, fun k within => ?_⟩
      rw [List.flatten_cons, List.getElem?_append_right (by omega), ← same k within]
      congr 1
      omega

theorem mem_reserveFrom {source : List ProviderMessage} {todo j : Nat} {remaining : Int}
    (member : j ∈ reserveFrom source todo remaining) :
    ∃ m, source[j]? = some m ∧ m.role = .user := by
  induction todo generalizing remaining with
  | zero => cases member
  | succ todo ih =>
    unfold reserveFrom at member
    split at member
    next => exact ih member
    next m at' =>
      split at member
      next => exact ih member
      next kept =>
        split at member
        next =>
          rcases List.mem_cons.mp member with rfl | later
          · exact ⟨m, at', by tauto⟩
          · exact ih later
        next => exact ih member

theorem reserve_single {blocks : List (List ProviderMessage)} {source : List ProviderMessage}
    (whole : blocks.flatten = source) (shapes : ∀ block ∈ blocks, Block block) {todo : Nat}
    {remaining : Int} : ∀ span ∈ spansFrom 0 blocks, ∀ k < span.2,
      span.1 + k ∈ reserveFrom source todo remaining → span.2 = 1 := by
  intro span listed k within reserved
  obtain ⟨m, at', user⟩ := mem_reserveFrom reserved
  obtain ⟨block, member, -, size, same⟩ := span_block listed
  have here := same k within
  rw [whole, Nat.sub_zero, at'] at here
  rw [size]
  exact block_user (shapes block member) here.symm user

/-! ## Protected messages -/

theorem protectedFrom_sublist {source : List ProviderMessage}
    (kept : ∀ k m, source[k]? = some m → isProtected cur (i + k) m = true → keep (i + k) = true) :
    (protectedFrom cur i source).Sublist (keptFrom keep i source) := by
  induction source generalizing i with
  | nil => exact List.Sublist.slnil
  | cons m rest ih =>
    have later := ih (fun k one at' held => by
      have next := kept (k + 1) one at'
      rw [show i + (k + 1) = i + 1 + k by omega] at next
      exact next held)
    rw [protectedFrom, keptFrom]
    split
    next held =>
      have first := kept 0 m rfl
      rw [Nat.add_zero] at first
      rw [if_pos (first held)]
      exact later.cons_cons m
    next =>
      split
      next => exact later.cons m
      next => exact later

theorem keptFrom_eq_protected {source : List ProviderMessage}
    (same : ∀ k m, source[k]? = some m → (keep (i + k) = true ↔ isProtected cur (i + k) m = true)) :
    keptFrom keep i source = protectedFrom cur i source := by
  induction source generalizing i with
  | nil => rfl
  | cons m rest ih =>
    have first := same 0 m rfl
    rw [Nat.add_zero] at first
    have later := ih (fun k one at' => by
      have next := same (k + 1) one at'
      rwa [show i + (k + 1) = i + 1 + k by omega] at next)
    rw [keptFrom, protectedFrom, later]
    by_cases held : isProtected cur i m = true
    · rw [if_pos held, if_pos (first.mpr held)]
    · rw [if_neg held, if_neg (fun kept => held (first.mp kept))]

/-! ## The notice -/

theorem insertNotice_cons (m : ProviderMessage) (rest : List ProviderMessage) :
    insertNotice (m :: rest) =
      if m.role = .system then m :: insertNotice rest else omittedNotice :: m :: rest := by
  by_cases system : m.role = .system
  · simp [insertNotice, system]
  · simp [insertNotice, system]

theorem insertNotice_wellFormed {messages : List ProviderMessage} (so : WellFormed messages) :
    WellFormed (insertNotice messages) := by
  have notice : Block [omittedNotice] := Block.plain _ (by decide) rfl
  obtain ⟨blocks, rfl, shapes⟩ := so
  have front : ∀ blocks : List (List ProviderMessage), (∀ block ∈ blocks, Block block) →
      WellFormed (omittedNotice :: blocks.flatten) := by
    intro blocks shapes
    refine ⟨[omittedNotice] :: blocks, rfl, fun block member => ?_⟩
    rcases List.mem_cons.mp member with rfl | member
    · exact notice
    · exact shapes block member
  induction blocks with
  | nil => exact front [] shapes
  | cons block rest ih =>
    have tail := ih (fun one member => shapes one (List.mem_cons_of_mem _ member))
    have shape := shapes block List.mem_cons_self
    have at' := front (block :: rest) shapes
    cases shape with
    | plain m result calls =>
      rw [List.flatten_cons, List.singleton_append, insertNotice_cons]
      split
      next =>
        obtain ⟨blocks, whole, shapes'⟩ := tail
        refine ⟨[m] :: blocks, by rw [← whole]; rfl, fun one member => ?_⟩
        rcases List.mem_cons.mp member with rfl | member
        · exact shapes _ List.mem_cons_self
        · exact shapes' one member
      next => exact at'
    | batch m results role =>
      rw [List.flatten_cons, List.cons_append, insertNotice_cons, if_neg (by rw [role]; decide)]
      exact at'

theorem insertNotice_split (out : List ProviderMessage) : ∃ before after,
    out = before ++ after ∧ insertNotice out = before ++ omittedNotice :: after :=
  ⟨_, _, List.takeWhile_append_dropWhile.symm, rfl⟩

theorem sublist_insertNotice (out : List ProviderMessage) : out.Sublist (insertNotice out) := by
  obtain ⟨before, after, whole, same⟩ := insertNotice_split out
  rw [same, whole]
  exact (List.sublist_cons_self _ _).append_left before

theorem withoutNotices_wellFormed {messages : List ProviderMessage} (so : WellFormed messages) :
    WellFormed (withoutNotices messages) := by
  obtain ⟨blocks, rfl, shapes⟩ := so
  induction blocks with
  | nil => exact ⟨[], rfl, shapes⟩
  | cons block rest ih =>
    obtain ⟨blocks, whole, shapes'⟩ :=
      ih (fun one member => shapes one (List.mem_cons_of_mem _ member))
    have split : withoutNotices (block :: rest).flatten =
        withoutNotices block ++ withoutNotices rest.flatten := by
      rw [List.flatten_cons]
      exact List.filter_append ..
    rw [split, ← whole]
    have shape := shapes block List.mem_cons_self
    have kept : withoutNotices block = block ∨ withoutNotices block = [] := by
      cases shape with
      | plain m =>
        unfold withoutNotices
        by_cases notice : m.contextKind = .omitted
        · exact Or.inr (by simp [notice])
        · exact Or.inl (by simp [notice])
      | batch m results role kind calls named apart tools =>
        left
        apply List.filter_eq_self.mpr
        intro one member
        rcases List.mem_cons.mp member with rfl | listed
        · rw [kind]
          decide
        · rw [(tools one listed).2.1]
          decide
    rcases kept with same | none
    · rw [same]
      refine ⟨block :: blocks, rfl, fun one member => ?_⟩
      rcases List.mem_cons.mp member with rfl | member
      · exact shape
      · exact shapes' one member
    · rw [none]
      exact ⟨blocks, rfl, shapes'⟩

theorem withoutNotices_insertNotice (plain : ∀ m ∈ out, m.contextKind ≠ .omitted) :
    withoutNotices (insertNotice out) = out ∧ hadNotice (insertNotice out) = true := by
  obtain ⟨before, after, rfl, same⟩ := insertNotice_split out
  rw [same]
  constructor
  · unfold withoutNotices
    rw [List.filter_append, List.filter_cons_of_neg (by decide), ← List.filter_append]
    exact List.filter_eq_self.mpr (fun m member => decide_eq_true (plain m member))
  · simp [hadNotice, omittedNotice]

/-! ## Compaction -/

section

variable {messages : List ProviderMessage} {budget : Int}

theorem compact_eq (run : walk (current (withoutNotices messages)) (withoutNotices messages) 0 none
      ⟨[], [], []⟩ = .ok u) :
    compactProviderContext messages budget =
      if fits budget (build (withoutNotices messages) (fun _ => true) (hadNotice messages)) then
        .ok (build (withoutNotices messages) (fun _ => true) (hadNotice messages))
      else
        match dropUnits (withoutNotices messages) budget
          (reserveFrom (withoutNotices messages) (current (withoutNotices messages)).toNat
            (min 16000 (budget.tdiv 4))) u.old (fun _ => true) with
        | (_, some out) => .ok out
        | (keep, none) =>
          match dropUnits (withoutNotices messages) budget [] (u.old ++ u.recent) keep with
          | (_, some out) => .ok out
          | (_, none) => .error .tooLarge := by
  unfold compactProviderContext
  dsimp only
  rewrite [run]
  rfl

private theorem source_plain : ∀ m ∈ withoutNotices messages, m.contextKind ≠ .omitted := by
  intro m member
  exact of_decide_eq_true (List.mem_filter.mp member).2

private theorem compact_again {kept : List ProviderMessage}
    (plain : ∀ m ∈ kept, m.contextKind ≠ .omitted) (so : WellFormed kept)
    (form : out = kept ∨ out = insertNotice kept) (fit : fits budget out) :
    compactProviderContext out budget = .ok out := by
  obtain ⟨blocks, whole, shapes⟩ := so
  obtain ⟨u, run, -⟩ := walk_wellFormed whole shapes
  have read : withoutNotices out = kept ∧
      build kept (fun _ => true) (hadNotice out) = out := by
    unfold build
    dsimp only
    rw [keptFrom_all]
    rcases form with rfl | rfl
    · have none : hadNotice out = false := by
        rw [hadNotice, List.any_eq_false]
        intro m member
        simpa using plain m member
      rw [none]
      exact ⟨List.filter_eq_self.mpr (fun m member => decide_eq_true (plain m member)), rfl⟩
    · obtain ⟨same, found⟩ := withoutNotices_insertNotice plain
      rw [found]
      exact ⟨same, rfl⟩
  obtain ⟨same, built⟩ := read
  rw [@compact_eq u _ _ (by rw [same]; exact run), same, built, if_pos fit]

private theorem compacted_of {kept : List ProviderMessage}
    (sublist : kept.Sublist (withoutNotices messages))
    (protects : (protectedMessages messages).Sublist kept) (so : WellFormed kept)
    (form : out = kept ∨ out = insertNotice kept) (fit : fits budget out) :
    Compacted messages budget out where
  fits := fit
  subsequence := by
    obtain ⟨before, after, rfl, inserted⟩ := insertNotice_split kept
    refine ⟨before, after, sublist, ?_⟩
    rw [← inserted]
    exact form
  contains := by
    rcases form with rfl | rfl
    · exact protects
    · exact protects.trans (sublist_insertNotice kept)
  wellFormed := by
    rcases form with rfl | rfl
    · exact so
    · exact insertNotice_wellFormed so
  again := compact_again (fun m member => source_plain m (sublist.subset member)) so form fit

private theorem fits_of_insertNotice (fit : fits budget (insertNotice out)) : fits budget out := by
  obtain ⟨before, after, rfl, same⟩ := insertNotice_split out
  rw [same] at fit
  have longer := byteLength_messages_insert before after omittedNotice
  obtain ⟨bytes, count⟩ := fit
  rw [List.length_append, List.length_cons] at count
  refine ⟨by omega, ?_⟩
  rw [List.length_append]
  omega

variable {blocks : List (List ProviderMessage)}

private theorem compacted_keep (whole : blocks.flatten = withoutNotices messages)
    (shapes : ∀ block ∈ blocks, Block block)
    (so : Coherent (Protected (withoutNotices messages)) (spansFrom 0 blocks) keep) {omitted : Bool}
    (fit : fits budget (build (withoutNotices messages) keep omitted)) :
    Compacted messages budget (build (withoutNotices messages) keep omitted) := by
  have kept := keptFrom_wellFormed shapes so
  rw [whole] at kept
  have protects :
      (protectedMessages messages).Sublist (keptFrom keep 0 (withoutNotices messages)) := by
    apply protectedFrom_sublist
    intro k m at' held
    rw [Nat.zero_add] at held ⊢
    exact so.protects k ⟨m, at', held⟩
  apply compacted_of (keptFrom_sublist _) protects kept ?_ fit
  unfold build
  cases omitted with
  | false => exact Or.inl rfl
  | true => exact Or.inr rfl

private theorem keptFrom_protected {u : Units}
    (covers : Covers (Protected (withoutNotices messages)) (spansFrom 0 blocks)
      (withoutNotices messages).length (u.old ++ u.recent))
    (so : Coherent (Protected (withoutNotices messages)) (spansFrom 0 blocks) keep)
    (dropped : ∀ j, keep j = true → ∀ unit ∈ u.old ++ u.recent, j ∉ unit) :
    keptFrom keep 0 (withoutNotices messages) = protectedMessages messages := by
  apply keptFrom_eq_protected
  intro k m at'
  rw [Nat.zero_add]
  constructor
  · intro kept
    by_contra free
    obtain ⟨within, -⟩ := List.getElem?_eq_some_iff.mp at'
    have outside : ¬ Protected (withoutNotices messages) k := by
      rintro ⟨one, at'', held⟩
      rw [at'] at at''
      rw [← Option.some.inj at''] at held
      exact free held
    obtain ⟨unit, member, inside⟩ := covers.cover k within outside
    exact dropped k kept unit member inside
  · exact fun held => so.protects k ⟨m, at', held⟩

end

/-- A compaction that succeeds keeps the conversation, and it fails only when the messages that are
never left out do not fit with the notice. -/
theorem compaction_keeps_conversation {messages : List ProviderMessage} (so : WellFormed messages)
    (budget : Int) :
    (∀ out, compactProviderContext messages budget = .ok out → Compacted messages budget out) ∧
      ∀ e, compactProviderContext messages budget = .error e →
        ¬ fits budget (insertNotice (protectedMessages messages)) := by
  obtain ⟨blocks, whole, shapes⟩ := withoutNotices_wellFormed so
  obtain ⟨u, run, covers⟩ := walk_wellFormed whole shapes
  have single := @reserve_single _ _ whole shapes (current (withoutNotices messages)).toNat
    (min 16000 (budget.tdiv 4))
  have none : ∀ span ∈ spansFrom 0 blocks, ∀ k < span.2, span.1 + k ∈ ([] : List Nat) →
      span.2 = 1 := fun _ _ _ _ inside => (List.not_mem_nil inside).elim
  have old : ∀ unit ∈ u.old, unit ∈ u.old ++ u.recent :=
    fun _ member => List.mem_append_left _ member
  rw [compact_eq run]
  split
  next fit =>
    refine ⟨fun out returned => ?_, fun e returned => by cases returned⟩
    obtain rfl := Except.ok.inj returned
    exact compacted_keep whole shapes coherent_all fit
  next misfit =>
    cases first : dropUnits (withoutNotices messages) budget
        (reserveFrom (withoutNotices messages) (current (withoutNotices messages)).toNat
          (min 16000 (budget.tdiv 4))) u.old (fun _ => true) with
    | mk keep found =>
      cases found with
      | some out =>
        dsimp only
        obtain ⟨coherent, rfl, fit⟩ := dropUnits_some coherent_all covers old single first
        refine ⟨fun out returned => ?_, fun e returned => by cases returned⟩
        obtain rfl := Except.ok.inj returned
        exact compacted_keep whole shapes coherent fit
      | none =>
        dsimp only
        obtain ⟨coherent, last, -⟩ := dropUnits_none coherent_all covers old single first
        cases second : dropUnits (withoutNotices messages) budget [] (u.old ++ u.recent) keep with
        | mk keep' found =>
          cases found with
          | some out =>
            dsimp only
            obtain ⟨coherent', rfl, fit⟩ :=
              dropUnits_some coherent covers (fun _ => id) none second
            refine ⟨fun out returned => ?_, fun e returned => by cases returned⟩
            obtain rfl := Except.ok.inj returned
            exact compacted_keep whole shapes coherent' fit
          | none =>
            dsimp only
            refine ⟨fun out returned => (by cases returned), fun e _ => ?_⟩
            obtain ⟨coherent', last', dropped⟩ :=
              dropUnits_none coherent covers (fun _ => id) none second
            have left := keptFrom_protected covers coherent' (fun j kept unit member inside =>
              (List.not_mem_nil ((dropped j kept).2 unit member inside)).elim)
            rw [← left]
            rcases last' with ⟨-, rfl⟩ | last'
            · rcases last with ⟨-, rfl⟩ | last
              · -- There are no units: the list did not fit as it is.
                intro fit
                apply misfit
                unfold build
                dsimp only
                split
                next => exact fit
                next => exact fits_of_insertNotice fit
              · exact last
            · exact last'

/-- An earlier turn with a call and its result, and a new input. -/
def earlierTurn : List (List ProviderMessage) :=
  [[⟨.system, "policy", [], "", .none⟩], [⟨.user, "first", [], "", .none⟩],
    [⟨.assistant, "", [⟨"c1", "function", ⟨"read", "{}"⟩⟩], "", .none⟩,
      ⟨.tool, "result", [], "c1", .none⟩],
    [⟨.user, "second", [], "", .none⟩]]

/-- Room for the policy, the new input and the notice alone. -/
def narrowBudget : Int :=
  byteLength (marshalMessages (insertNotice (protectedMessages earlierTurn.flatten)))

private theorem earlierTurn_blocks : ∀ block ∈ earlierTurn, Block block := by
  unfold earlierTurn
  simp only [List.forall_mem_cons]
  refine ⟨.plain _ (by decide) rfl, .plain _ (by decide) rfl, ?_, .plain _ (by decide) rfl,
    fun _ member => (List.not_mem_nil member).elim⟩
  apply Block.batch
  case role => rfl
  case kind => rfl
  case calls => simp
  case named => simp
  case apart => simp
  case tools => simp
  case exact => exact List.Perm.refl _

/-- The compaction succeeds there. -/
theorem earlier_turn_compacted :
    ∃ out, compactProviderContext earlierTurn.flatten narrowBudget = .ok out ∧
      Compacted earlierTurn.flatten narrowBudget out := by
  obtain ⟨succeeds, fails⟩ :=
    compaction_keeps_conversation ⟨earlierTurn, rfl, earlierTurn_blocks⟩ narrowBudget
  cases returned : compactProviderContext earlierTurn.flatten narrowBudget with
  | error e => exact absurd ⟨Int.le_refl _, by decide⟩ (fails e returned)
  | ok out => exact ⟨out, rfl, succeeds out returned⟩

end ForestPanel.AIOps
