import ForestPanel.Store.Text
import Mathlib.Data.List.AList

/-!
# The cache of authenticated tokens

`AuthCache` keeps what a token authenticates in one map, and in a second map, by user and
session, which token is cached: the second finds the entries that a removal invalidates.
An empty inner map and an absent one are the same. Every method runs under the lock.
-/
namespace ForestPanel.Session

structure Identity where
  id : Int
  email : String
  isAdmin : Int
  isStaff : Int
deriving DecidableEq, Repr

/-- `authCacheEntry`. -/
structure Entry where
  identity : Identity
  userId : Int
  sessionId : String
  expiresAt : Int
deriving DecidableEq, Repr

abbrev Tokens := AList fun _ : String => String

structure AuthCache where
  byToken : String → Option Entry
  tokensByUser : Int → Tokens

def NewAuthCache : AuthCache := ⟨fun _ => none, fun _ => ∅⟩

namespace AuthCache

def deleteTokenLocked (c : AuthCache) (token : String) : AuthCache :=
  match c.byToken token with
  | none => c
  | some entry =>
    { byToken := Function.update c.byToken token none
      tokensByUser := Function.update c.tokensByUser entry.userId
        ((c.tokensByUser entry.userId).erase entry.sessionId) }

/-- `Store` at the time `now`, with the lifetime `ttl`. -/
def store (c : AuthCache) (ttl now : Int) (token sessionId : String) (identity : Identity) :
    AuthCache :=
  let token := trimSpace token
  let sessionId := trimSpace sessionId
  if token = "" ∨ sessionId = "" ∨ identity.id ≤ 0 then c
  else
    let c := c.deleteTokenLocked token
    { byToken := Function.update c.byToken token
        (some ⟨identity, identity.id, sessionId, now + ttl⟩)
      tokensByUser := Function.update c.tokensByUser identity.id
        ((c.tokensByUser identity.id).insert sessionId token) }

def tokensOf (c : AuthCache) (userId : Int) : List String :=
  (c.tokensByUser userId).entries.map Sigma.snd

def invalidateUser (c : AuthCache) (userId : Int) : AuthCache :=
  if userId ≤ 0 then c
  else
    { byToken := fun token => if token ∈ c.tokensOf userId then none else c.byToken token
      tokensByUser := Function.update c.tokensByUser userId ∅ }

def invalidateSession (c : AuthCache) (userId : Int) (sessionId : String) : AuthCache :=
  let sessionId := trimSpace sessionId
  if userId ≤ 0 ∨ sessionId = "" then c
  else
    match (c.tokensByUser userId).lookup sessionId with
    | none => c
    | some token =>
      { byToken := Function.update c.byToken token none
        tokensByUser := Function.update c.tokensByUser userId
          ((c.tokensByUser userId).erase sessionId) }

/-- Every cached token is found under its user and session. -/
def Indexed (c : AuthCache) : Prop :=
  ∀ token entry, c.byToken token = some entry →
    (c.tokensByUser entry.userId).lookup entry.sessionId = some token

theorem indexed_new : NewAuthCache.Indexed := by
  intro token entry cached
  cases cached

section

variable {c : AuthCache} {token sessionId : String} {userId ttl now : Int} {identity : Identity}
  {entry : Entry}

theorem byToken_deleteTokenLocked (other : String) :
    (c.deleteTokenLocked token).byToken other = if other = token then none else c.byToken other := by
  unfold deleteTokenLocked
  split
  next absent =>
    split
    next same => rw [same, absent]
    next => rfl
  next => exact Function.update_apply ..

theorem Indexed.deleteTokenLocked (indexed : c.Indexed) (token : String) :
    (c.deleteTokenLocked token).Indexed := by
  intro other entry cached
  rw [byToken_deleteTokenLocked] at cached
  split at cached
  · cases cached
  next different =>
    have found := indexed other entry cached
    unfold AuthCache.deleteTokenLocked
    split
    · exact found
    next deleted there =>
      -- the cell that is erased holds the deleted token, not this one
      dsimp only
      rw [Function.update_apply]
      split
      next sameUser =>
        rw [← sameUser]
        by_cases sameSession : entry.sessionId = deleted.sessionId
        · have held := indexed token deleted there
          rw [← sameUser, ← sameSession, found] at held
          exact absurd (Option.some.inj held) different
        · rw [AList.lookup_erase_ne sameSession]
          exact found
      next => exact found

theorem lookup_of_deleteTokenLocked {other : String}
    (found : ((c.deleteTokenLocked token).tokensByUser userId).lookup sessionId = some other) :
    (c.tokensByUser userId).lookup sessionId = some other := by
  unfold AuthCache.deleteTokenLocked at found
  split at found
  · exact found
  next deleted _ =>
    dsimp only at found
    rw [Function.update_apply] at found
    split at found
    next sameUser =>
      subst sameUser
      by_cases sameSession : sessionId = deleted.sessionId
      · rw [sameSession, AList.lookup_erase] at found
        cases found
      · rwa [AList.lookup_erase_ne sameSession] at found
    next => exact found

def Alone (c : AuthCache) (token sessionId : String) (identity : Identity) : Prop :=
  ∀ other ∈ (c.tokensByUser identity.id).lookup (trimSpace sessionId), other = trimSpace token

theorem Indexed.store (indexed : c.Indexed) (alone : c.Alone token sessionId identity) :
    (c.store ttl now token sessionId identity).Indexed := by
  unfold AuthCache.store
  dsimp only
  split
  · exact indexed
  next =>
    have before := indexed.deleteTokenLocked (trimSpace token)
    intro other entry cached
    dsimp only at cached ⊢
    rw [Function.update_apply] at cached
    rw [Function.update_apply]
    split at cached
    next same =>
      obtain rfl := Option.some.inj cached
      rw [if_pos rfl, AList.lookup_insert, same]
    next different =>
      have found := before other entry cached
      split
      next sameUser =>
        rw [sameUser] at found
        by_cases sameSession : entry.sessionId = trimSpace sessionId
        · rw [sameSession] at found
          exact absurd (alone other (lookup_of_deleteTokenLocked found)) different
        · rw [AList.lookup_insert_ne sameSession]
          exact found
      next => exact found

theorem byToken_store {other : String}
    (cached : (c.store ttl now token sessionId identity).byToken other = some entry) :
    c.byToken other = some entry ∨ (other = trimSpace token ∧ entry.userId = identity.id ∧
      entry.sessionId = trimSpace sessionId ∧ 0 < entry.userId ∧ entry.sessionId ≠ "") := by
  unfold AuthCache.store at cached
  dsimp only at cached
  split at cached
  · exact Or.inl cached
  next usable =>
    dsimp only at cached
    rw [Function.update_apply] at cached
    split at cached
    next same =>
      obtain rfl := Option.some.inj cached
      rw [not_or, not_or] at usable
      have positive : 0 < identity.id := by omega
      exact Or.inr ⟨same, rfl, rfl, positive, usable.2.1⟩
    next =>
      rw [byToken_deleteTokenLocked] at cached
      split at cached
      · cases cached
      · exact Or.inl cached

theorem mem_tokensOf (found : (c.tokensByUser userId).lookup sessionId = some token) :
    token ∈ c.tokensOf userId :=
  List.mem_map_of_mem (f := Sigma.snd) (AList.mem_lookup_iff.mp found)

theorem Indexed.invalidateUser (indexed : c.Indexed) (userId : Int) :
    (c.invalidateUser userId).Indexed := by
  unfold AuthCache.invalidateUser
  split
  · exact indexed
  next =>
    intro other entry cached
    dsimp only at cached ⊢
    split at cached
    · cases cached
    next absent =>
      have found := indexed other entry cached
      rw [Function.update_apply]
      split
      next sameUser =>
        rw [sameUser] at found
        exact absurd (mem_tokensOf found) absent
      next => exact found

theorem byToken_invalidateUser (indexed : c.Indexed) {other : String}
    (positive : ∀ token entry, c.byToken token = some entry → 0 < entry.userId)
    (cached : (c.invalidateUser userId).byToken other = some entry) :
    c.byToken other = some entry ∧ entry.userId ≠ userId := by
  unfold AuthCache.invalidateUser at cached
  split at cached
  next nobody =>
    have someone := positive other entry cached
    exact ⟨cached, by omega⟩
  next =>
    dsimp only at cached
    split at cached
    · cases cached
    next absent =>
      refine ⟨cached, ?_⟩
      intro sameUser
      have found := indexed other entry cached
      rw [sameUser] at found
      exact absent (mem_tokensOf found)

theorem Indexed.invalidateSession (indexed : c.Indexed) (userId : Int) (sessionId : String) :
    (c.invalidateSession userId sessionId).Indexed := by
  unfold AuthCache.invalidateSession
  dsimp only
  split
  · exact indexed
  next =>
    split
    · exact indexed
    next token held =>
      intro other entry cached
      dsimp only at cached ⊢
      rw [Function.update_apply] at cached
      split at cached
      · cases cached
      next different =>
        have found := indexed other entry cached
        rw [Function.update_apply]
        split
        next sameUser =>
          rw [sameUser] at found
          by_cases sameSession : entry.sessionId = trimSpace sessionId
          · rw [sameSession, held] at found
            exact absurd (Option.some.inj found).symm different
          · rw [AList.lookup_erase_ne sameSession]
            exact found
        next => exact found

theorem byToken_invalidateSession (indexed : c.Indexed) {other : String}
    (positive : ∀ token entry, c.byToken token = some entry → 0 < entry.userId)
    (cached : (c.invalidateSession userId sessionId).byToken other = some entry) :
    c.byToken other = some entry ∧
      (trimSpace sessionId = "" ∨ (entry.userId, entry.sessionId) ≠ (userId, trimSpace sessionId)) := by
  unfold AuthCache.invalidateSession at cached
  dsimp only at cached
  split at cached
  next nothing =>
    refine ⟨cached, nothing.symm.imp_right fun nobody same => ?_⟩
    have someone := positive other entry cached
    have sameUser := congrArg Prod.fst same
    dsimp only at sameUser
    omega
  next =>
    split at cached
    next nothing =>
      refine ⟨cached, Or.inr fun same => ?_⟩
      obtain ⟨sameUser, sameSession⟩ := Prod.mk.inj same
      have found := indexed other entry cached
      rw [sameUser, sameSession, nothing] at found
      cases found
    next t held =>
      dsimp only at cached
      rw [Function.update_apply] at cached
      split at cached
      · cases cached
      next different =>
        refine ⟨cached, Or.inr fun same => ?_⟩
        obtain ⟨sameUser, sameSession⟩ := Prod.mk.inj same
        have found := indexed other entry cached
        rw [sameUser, sameSession, held] at found
        exact different (Option.some.inj found).symm

end

end AuthCache

end ForestPanel.Session
