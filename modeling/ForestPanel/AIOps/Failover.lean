import ForestPanel.AIOps.OutputBudget
import ForestPanel.Lib.Loop

/-!
# Relay failover

A completion is asked of the relays in turn. A relay that failed for a transient reason is
asked once more behind all others; a reply cut by the output limit is asked for again at the
same relay with a larger budget. Drafts of a failed attempt are cleared before the next one.

What an attempt does, what `onContent` answers, and when the deadline passes, is given by
`Surroundings`, numbered by the attempts made so far. The candidates are kept with their
places in the list, which the loop does not look at.
-/
namespace ForestPanel.AIOps

structure RelayEndpoint where
  id : String
  baseURL : String
  apiKeyCipher : String
deriving DecidableEq, Repr

structure FailoverConfig where
  failoverEnabled : Bool
  failoverTimeoutSeconds : Int
  skipCooldownWait : Bool
deriving DecidableEq, Repr

/-- The error of an attempt: a `providerFailure` lets the loop go on, the others end it. -/
inductive AttemptError
  | outputLimit
  | failure (message : String) (retrySameRelay : Bool)
  | final (message : String)
deriving DecidableEq, Repr

def errProviderContentUpdate : String := "AI 回复更新已中止"
def errProviderOutputLimit : String := "AI 回复达到输出长度上限，未执行工具；请拆分单次操作"
def errProviderCanceled : String := "AI 请求已取消，未执行工具"

def AttemptError.text : AttemptError → String
  | .outputLimit => errProviderOutputLimit
  | .failure message _ => message
  | .final message => message

inductive CompletionError
  | unavailable
  | canceled
  | timedOut
  | contentUpdate
  | cooling
  | allCooling
  | attempt (error : AttemptError)
  | exhausted (attempted : Nat) (lastErr : AttemptError)
deriving DecidableEq, Repr

def CompletionError.text : CompletionError → String
  | .unavailable => "AI 中转配置不可用"
  | .canceled => errProviderCanceled
  | .timedOut => "AI 单次模型请求超过 5 分钟，未执行工具；已保留此前执行结果"
  | .contentUpdate => errProviderContentUpdate
  | .cooling => "当前模型中转处于故障冷却，尝试备用模型"
  | .allCooling => "可用 AI 中转均处于故障冷却中，请在 60 秒后重试或检查中转配置"
  | .attempt error => error.text
  | .exhausted attempted lastErr =>
    "AI 中转在切换及有限重试后仍未完成请求（共 " ++ toString attempted ++ " 次）；" ++ lastErr.text

/-- What an attempt does: the drafts it streams, how it ends, and whether the completion's
context is over by then. -/
structure RelayAttempt where
  drafts : List String
  result : Except AttemptError ProviderMessage
  ctxErr : Bool

structure Surroundings where
  /-- The attempt of a number, at an endpoint, with a payload and an idle timeout. -/
  completeAtRelay : Nat → RelayEndpoint → List Char → Int → RelayAttempt
  /-- What the callback answers to a text, after the texts before. -/
  onContent : Option (List String → String → Bool)
  /-- `completionCtx.Err() != nil` before a relay. -/
  ctxErr : Nat → Bool
  /-- `waitProviderRetry` before a retry. -/
  waited : Nat → Bool
  /-- `ctx.Err() != nil` when the completion's context is over. -/
  canceled : Nat → Bool

abbrev Candidate := RelayEndpoint × Nat

structure Contact where
  retrying : Bool
  candidate : Candidate
  payload : List Char
  timeout : Int
  result : Except AttemptError ProviderMessage

/-- A text given to `onContent`. -/
inductive Report
  | cleared
  | draft (attempt : Nat) (text : String)
deriving DecidableEq, Repr

def Report.text : Report → String
  | .cleared => ""
  | .draft _ text => text

inductive HealthUpdate (κ : Type)
  | coolingDown (key : κ)
  | cleared (key : κ)
deriving DecidableEq, Repr

structure FailoverState (κ : Type) where
  index : Nat
  /-- The relay at the index is contacted again, with a larger budget. -/
  again : Bool
  payload : List Char
  contacts : List Contact
  told : List Report
  draftVisible : Bool
  retries : List Candidate
  health : List (HealthUpdate κ)
  lastErr : Option AttemptError

abbrev Finished (κ : Type) := FailoverState κ × Except CompletionError ProviderMessage

def FailoverState.start {κ : Type} (payload : List Char) : FailoverState κ :=
  ⟨0, false, payload, [], [], false, [], [], none⟩

def responseTimeout (cfg : FailoverConfig) : Int :=
  if cfg.failoverTimeoutSeconds ≤ 0 then 30 else cfg.failoverTimeoutSeconds

section

variable {κ : Type} (around : Surroundings) (sha256 : String → κ) (cfg : FailoverConfig)
  (model : String)

def relayFingerprint (endpoint : RelayEndpoint) : κ :=
  sha256 (endpoint.id ++ "\x00" ++ endpoint.baseURL ++ "\x00" ++ endpoint.apiKeyCipher ++ "\x00" ++
    model)

def contextError (attempted : Nat) : CompletionError :=
  if around.canceled attempted then .canceled else .timedOut

def receiveDrafts (accepts : List String → String → Bool) (attempt : Nat) :
    List String → List Report → Bool → List Report × Bool × Bool
  | [], told, visible => (told, visible, true)
  | text :: rest, told, visible =>
    if accepts (told.map Report.text) text then
      receiveDrafts accepts attempt rest (told ++ [.draft attempt text]) (text ≠ "")
    else (told ++ [.draft attempt text], visible, false)

/-- A visible draft is cleared; `none` when the callback refuses. -/
def clearDraft (s : FailoverState κ) : FailoverState κ × Bool :=
  match around.onContent with
  | none => (s, true)
  | some accepts =>
    if s.draftVisible then
      if accepts (s.told.map Report.text) "" then
        ({ s with told := s.told ++ [.cleared], draftVisible := false }, true)
      else ({ s with told := s.told ++ [.cleared] }, false)
    else (s, true)

def contactRelay (retrying : Bool) (candidate : Candidate) (s : FailoverState κ) :
    FailoverState κ × Except AttemptError ProviderMessage × Bool :=
  let number := s.contacts.length
  let attempt := around.completeAtRelay number candidate.1 s.payload (responseTimeout cfg)
  let received :=
    match around.onContent with
    | none => (s.told, s.draftVisible, true)
    | some accepts => receiveDrafts accepts number attempt.drafts s.told s.draftVisible
  let result := if received.2.2 then attempt.result else .error (.final errProviderContentUpdate)
  ({ s with
      contacts := s.contacts ++
        [⟨retrying, candidate, s.payload, responseTimeout cfg, result⟩]
      told := received.1
      draftVisible := received.2.1 }, result, attempt.ctxErr)

def settleAttempt (retrying : Bool) (candidate : Candidate) (s : FailoverState κ)
    (result : Except AttemptError ProviderMessage) (ctxErr : Bool) : FailoverState κ ⊕ Finished κ :=
  let healthKey := relayFingerprint sha256 model candidate.1
  if ctxErr then .inr (s, .error (contextError around s.contacts.length))
  else
    match result with
    | .ok message => .inr ({ s with health := s.health ++ [.cleared healthKey] }, .ok message)
    | .error .outputLimit =>
      match expandCompletionOutputBudget s.payload with
      | none => .inr (s, .error (.attempt .outputLimit))
      | some larger => .inl { s with payload := larger, again := true }
    | .error (.final message) => .inr (s, .error (.attempt (.final message)))
    | .error (.failure message retrySameRelay) =>
      .inl { s with
        health := if cfg.failoverEnabled then s.health ++ [.coolingDown healthKey] else s.health
        retries := if !retrying && retrySameRelay then s.retries ++ [candidate] else s.retries
        lastErr := some (.failure message retrySameRelay)
        index := s.index + 1
        again := false }

def attemptRelay (retrying : Bool) (candidate : Candidate) (s : FailoverState κ) :
    FailoverState κ ⊕ Finished κ :=
  let cleared := clearDraft around s
  if cleared.2 then
    let contacted := contactRelay around cfg retrying candidate cleared.1
    settleAttempt around sha256 cfg model retrying candidate contacted.1 contacted.2.1
      contacted.2.2
  else .inr (cleared.1, .error .contentUpdate)

def exhaustedError (s : FailoverState κ) : CompletionError :=
  match s.lastErr with
  | some lastErr =>
    if 1 < s.contacts.length then .exhausted s.contacts.length lastErr else .attempt lastErr
  | none => .allCooling

/-- One attempt of the loop over the candidates and, behind them, the retries. -/
def relayStep (candidates : List Candidate) (s : FailoverState κ) : FailoverState κ ⊕ Finished κ :=
  match (candidates ++ s.retries)[s.index]? with
  | none => .inr (s, .error (exhaustedError s))
  | some candidate =>
    let retrying : Bool := candidates.length ≤ s.index
    let attempted := s.contacts.length
    if !s.again && around.ctxErr attempted then .inr (s, .error (contextError around attempted))
    else if !s.again && retrying && !around.waited attempted then
      .inr (s, .error (contextError around attempted))
    else attemptRelay around sha256 cfg model retrying candidate s

/-- One look at the cooldowns, and whether the wait for the first relay succeeds. -/
structure Look (κ : Type) where
  relayCooldownRemaining : κ → Nat
  waits : Nat → Bool

/-- The relays that are not cooling down, and the shortest wait for one that is. -/
def healthyRelays (look : Look κ) (endpoints : List Candidate) : List Candidate × Nat :=
  endpoints.foldl (fun (found : List Candidate × Nat) endpoint =>
    let remaining := look.relayCooldownRemaining (relayFingerprint sha256 model endpoint.1)
    if remaining = 0 then (found.1 ++ [endpoint], found.2)
    else (found.1, if found.2 = 0 ∨ remaining < found.2 then remaining else found.2)) ([], 0)

/-- The loop that waits for a candidate, over the looks it takes; `none` while it waits on. -/
def waitForRelays (endpoints : List Candidate) :
    List (Look κ) → Option (Except CompletionError (List Candidate))
  | [] => none
  | look :: looks =>
    let found := healthyRelays sha256 model look endpoints
    if found.1 ≠ [] then some (.ok found.1)
    else if cfg.skipCooldownWait then some (.error .cooling)
    else if look.waits found.2 then waitForRelays endpoints looks
    else some (.error (contextError around 0))

def relayCandidates (endpoints : List RelayEndpoint) (looks : List (Look κ)) :
    Option (Except CompletionError (List Candidate)) :=
  if endpoints = [] then some (.error .unavailable)
  else if cfg.failoverEnabled then
    waitForRelays around sha256 cfg model endpoints.zipIdx looks
  else some (.ok (endpoints.zipIdx.take 1))

/-- `none` while it waits for candidates, or when the loop runs out of fuel. -/
def completeWithRelays (endpoints : List RelayEndpoint) (looks : List (Look κ))
    (payload : List Char) (fuel : Nat) : Option (Finished κ) :=
  match relayCandidates around sha256 cfg model endpoints looks with
  | none => none
  | some (.error e) => some (.start payload, .error e)
  | some (.ok candidates) =>
    Loop.run (relayStep around sha256 cfg model candidates) fuel (.start payload)

end

end ForestPanel.AIOps
