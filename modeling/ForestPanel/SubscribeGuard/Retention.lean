import ForestPanel.Lib.Transition
import ForestPanel.SubscribeGuard.Log

/-!
# What the log keeps

The log should hold the recorded events in their order, but those a clean-up found older than its
days. It does while every event fits one line of the scanner, is written in UTF-8, and the days of
a clean-up do not overflow. A line that does not fit hides all later events, and the next clean-up
that removes something removes them.
-/
namespace ForestPanel.SubscribeGuard

open Transition

structure Retained where
  events : List Event
  lastRun : Option Int
deriving DecidableEq

/-- The first second inside the retention period. -/
def firstKept (days now : Int) : Int := now / 1000000000 - 86400 * days

def Retained.clean (r : Retained) (days now : Int) : Retained :=
  if days ≤ 0 then r
  else { r with events := r.events.filter fun e => firstKept days now ≤ e.time }

def Retained.maybeClean (r : Retained) (days now : Int) : Retained :=
  if days ≤ 0 ∨ r.lastRun.any (fun last => now - last < hour) = true then r
  else Retained.clean { r with lastRun := some now } days now

def Retained.step (r : Retained) : Act → Retained
  | .record e days now => Retained.maybeClean { r with events := r.events ++ [e] } days now
  | .maybeCleanup days now => r.maybeClean days now
  | .cleanup days now => r.clean days now

/-- The numbers of an event are 64 bits wide, and the clock is past its zero. -/
structure Event.Real (e : Event) : Prop where
  time : Decimal.Fits e.time
  userID : Decimal.Fits e.userID
  status : Decimal.Fits e.status
  clock : 0 < e.time

def Event.texts (e : Event) : List Text := [e.ip, e.token, e.canonicalToken, e.ua, e.reason]

/-- An event that is written in UTF-8 on a line of the scanner. -/
structure Event.FitsLine (e : Event) : Prop where
  valid : ∀ text ∈ e.texts, ∃ s : List Char, text = s.map Rune.char
  short : byteLength (marshal e) < maxScanTokenSize

/-- The longest retention whose nanoseconds fit 64 bits. -/
def maxDays : Int := 106751

def Act.Good : Act → Prop
  | .record e days _ => e.Real ∧ e.FitsLine ∧ days ≤ maxDays
  | .maybeCleanup days _ => days ≤ maxDays
  | .cleanup days _ => days ≤ maxDays

theorem quote_chars (s : List Char) : quote (s.map Rune.char) = Json.quote s := by
  rw [quote, Json.quote, List.flatMap_map]
  rfl

theorem setInt_format {n : Int} (fits : Decimal.Fits n) (old : Int) :
    setInt (Decimal.format n) old = some n := by
  rw [setInt, (Json.reads_format n).decode]
  exact Decimal.parse_format fits

theorem setText_quote {text : Text} (valid : ∃ s : List Char, text = s.map Rune.char) (old : Text) :
    setText (quote text) old = some text := by
  obtain ⟨s, rfl⟩ := valid
  rw [quote_chars, setText, (Json.reads_quote s).decode]

theorem setBool_marshal (b old : Bool) : setBool (Json.marshalBool b) old = some b := by
  rw [setBool, (Json.reads_bool b).decode]

section

variable {e : Event}

theorem reads_members (valid : ∀ text ∈ e.texts, ∃ s : List Char, text = s.map Rune.char) :
    ∀ m ∈ members e, ∃ shape, Json.Reads m.2 shape := by
  have number : ∀ n : Int, ∃ shape, Json.Reads (Decimal.format n) shape :=
    fun n => ⟨_, Json.reads_format n⟩
  have text : ∀ t ∈ e.texts, ∃ shape, Json.Reads (quote t) shape := by
    intro t member
    obtain ⟨s, rfl⟩ := valid t member
    rw [quote_chars]
    exact ⟨_, Json.reads_quote s⟩
  simp only [Event.texts, List.forall_mem_cons, List.not_mem_nil, false_imp_iff, implies_true,
    and_true] at text
  obtain ⟨ip, token, canonical, ua, reason⟩ := text
  intro m member
  simp only [members, List.mem_append, List.mem_cons, List.not_mem_nil, or_false] at member
  rcases member with ((((rfl | rfl | rfl) | user) | canonicalToken) | (rfl | rfl | rfl | rfl))
  · exact number _
  · exact ip
  · exact token
  · split at user
    next => cases user
    next =>
      rw [List.mem_singleton.mp user]
      exact number _
  · split at canonicalToken
    next => cases canonicalToken
    next =>
      rw [List.mem_singleton.mp canonicalToken]
      exact canonical
  · exact ua
  · exact number _
  · exact reason
  · exact ⟨_, Json.reads_bool _⟩

private theorem foldlM_field {a b : Event} {key raw : List Char} {field : Field}
    (known : fieldOf key = some field) (set : setField a raw field = some b)
    (rest : List (List Char × List Char)) :
    ((key, raw) :: rest).foldlM setMember a = rest.foldlM setMember b := by
  rw [List.foldlM_cons, setMember, known]
  dsimp only
  rw [set]
  rfl

private theorem foldlM_userID (a : Event) (absent : a.userID = 0) {n : Int} (fits : Decimal.Fits n) :
    (if n = 0 then [] else [("user_id".toList, Decimal.format n)]).foldlM setMember a =
      some { a with userID := n } := by
  split
  next zero =>
    obtain ⟨⟩ := a
    dsimp only at absent
    rw [absent, zero]
    rfl
  next =>
    have set : setField a (Decimal.format n) .userID = some { a with userID := n } := by
      rw [setField, setInt_format fits, Option.map_some]
    exact foldlM_field (by decide) set []

private theorem foldlM_canonicalToken (a : Event) (absent : a.canonicalToken = []) {text : Text}
    (valid : ∃ s : List Char, text = s.map Rune.char) :
    (if text = [] then [] else [("canonical_token".toList, quote text)]).foldlM setMember a =
      some { a with canonicalToken := text } := by
  split
  next none =>
    obtain ⟨⟩ := a
    dsimp only at absent
    rw [absent, none]
    rfl
  next =>
    have set : setField a (quote text) .canonicalToken =
        some { a with canonicalToken := text } := by
      rw [setField, setText_quote valid, Option.map_some]
    exact foldlM_field (by decide) set []

private theorem foldlM_head (a : Event) {time : Int} {ip token : Text} (fits : Decimal.Fits time)
    (ipValid : ∃ s : List Char, ip = s.map Rune.char)
    (tokenValid : ∃ s : List Char, token = s.map Rune.char) :
    [("time".toList, Decimal.format time), ("ip".toList, quote ip),
      ("token".toList, quote token)].foldlM setMember a = some { a with time, ip, token } := by
  have first : setField a (Decimal.format time) .time = some { a with time } := by
    rw [setField, setInt_format fits, Option.map_some]
  have second : setField { a with time } (quote ip) .ip = some { a with time, ip } := by
    rw [setField, setText_quote ipValid, Option.map_some]
  have third : setField { a with time, ip } (quote token) .token = some { a with time, ip, token } := by
    rw [setField, setText_quote tokenValid, Option.map_some]
  rw [foldlM_field (by decide) first, foldlM_field (by decide) second,
    foldlM_field (by decide) third]
  rfl

private theorem foldlM_tail (a : Event) {ua reason : Text} {status : Int} {blocked : Bool}
    (fits : Decimal.Fits status) (uaValid : ∃ s : List Char, ua = s.map Rune.char)
    (reasonValid : ∃ s : List Char, reason = s.map Rune.char) :
    [("ua".toList, quote ua), ("status".toList, Decimal.format status),
      ("reason".toList, quote reason), ("blocked".toList, Json.marshalBool blocked)].foldlM
        setMember a = some { a with ua, status, reason, blocked } := by
  have first : setField a (quote ua) .ua = some { a with ua } := by
    rw [setField, setText_quote uaValid, Option.map_some]
  have second : setField { a with ua } (Decimal.format status) .status =
      some { a with ua, status } := by
    rw [setField, setInt_format fits, Option.map_some]
  have third : setField { a with ua, status } (quote reason) .reason =
      some { a with ua, status, reason } := by
    rw [setField, setText_quote reasonValid, Option.map_some]
  have fourth : setField { a with ua, status, reason } (Json.marshalBool blocked) .blocked =
      some { a with ua, status, reason, blocked } := by
    rw [setField, setBool_marshal, Option.map_some]
  rw [foldlM_field (by decide) first, foldlM_field (by decide) second,
    foldlM_field (by decide) third, foldlM_field (by decide) fourth]
  rfl

theorem foldlM_members (real : e.Real)
    (valid : ∀ text ∈ e.texts, ∃ s : List Char, text = s.map Rune.char) :
    (members e).foldlM setMember emptyEvent = some e := by
  simp only [Event.texts, List.forall_mem_cons, List.not_mem_nil, false_imp_iff, implies_true,
    and_true] at valid
  obtain ⟨ip, token, canonical, ua, reason⟩ := valid
  rw [members, List.foldlM_append, List.foldlM_append, List.foldlM_append,
    foldlM_head emptyEvent real.time ip token, Option.bind_eq_bind, Option.bind_some,
    foldlM_userID _ rfl real.userID, Option.bind_some, foldlM_canonicalToken _ rfl canonical,
    Option.bind_some, foldlM_tail _ real.status ua reason]

theorem unmarshal_marshal (real : e.Real)
    (valid : ∀ text ∈ e.texts, ∃ s : List Char, text = s.map Rune.char) :
    unmarshal (String.ofList (marshal e)) = some e := by
  rw [unmarshal, marshal, (Json.reads_object (reads_members valid)).unmarshal]
  exact foldlM_members real valid

theorem lineEvent_marshal (real : e.Real)
    (valid : ∀ text ∈ e.texts, ∃ s : List Char, text = s.map Rune.char) :
    lineEvent (marshal e) = some e := by
  have trimmed : trimSpace (String.ofList (marshal e)) = String.ofList (marshal e) :=
    trimSpace_between rfl rfl _
  have nonempty : String.ofList (marshal e) ≠ "" := by
    intro none
    have chars := congrArg String.toList none
    rw [String.toList_ofList] at chars
    cases chars
  rw [lineEvent, trimmed, if_neg nonempty]
  exact unmarshal_marshal real valid

theorem printed_marshal (valid : ∀ text ∈ e.texts, ∃ s : List Char, text = s.map Rune.char) :
    Json.Printed (marshal e) := by
  refine Json.printed_object fun m member => ?_
  have number : ∀ n : Int, Json.Printed (Decimal.format n) := Json.printed_format
  have text : ∀ t ∈ e.texts, Json.Printed (quote t) := by
    intro t member
    obtain ⟨s, rfl⟩ := valid t member
    rw [quote_chars]
    exact Json.printed_quote s
  simp only [Event.texts, List.forall_mem_cons, List.not_mem_nil, false_imp_iff, implies_true,
    and_true] at text
  obtain ⟨ip, token, canonical, ua, reason⟩ := text
  simp only [members, List.mem_append, List.mem_cons, List.not_mem_nil, or_false] at member
  rcases member with ((((rfl | rfl | rfl) | user) | canonicalToken) | (rfl | rfl | rfl | rfl))
  · exact number _
  · exact ip
  · exact token
  · split at user
    next => cases user
    next =>
      rw [List.mem_singleton.mp user]
      exact number _
  · split at canonicalToken
    next => cases canonicalToken
    next =>
      rw [List.mem_singleton.mp canonicalToken]
      exact canonical
  · exact ua
  · exact number _
  · exact reason
  · exact Json.printed_bool _

theorem scanFrom_line {line : List Char} (unbroken : '\n' ∉ line) (before rest : List Char) :
    scanFrom before (line ++ '\n' :: rest) =
      if maxScanTokenSize ≤ byteLength (before ++ line) then []
      else dropCR (before ++ line) :: scanFrom [] rest := by
  induction line generalizing before with
  | nil => rw [List.nil_append, scanFrom, if_pos rfl, List.append_nil]
  | cons c line ih =>
    have other : c ≠ '\n' := fun same => unbroken (same ▸ List.mem_cons_self)
    have later : '\n' ∉ line := fun member => unbroken (List.mem_cons_of_mem _ member)
    rw [List.cons_append, scanFrom, if_neg other, ih later, List.append_assoc]
    rfl

theorem unbroken_of_printed {line : List Char} (printed : Json.Printed line) : '\n' ∉ line := by
  intro member
  exact absurd (printed _ member) (by decide)

structure Event.Kept (e : Event) : Prop where
  real : e.Real
  fits : e.FitsLine

theorem scan_event (kept : e.Kept) (rest : List Char) :
    (scanFrom [] (marshal e ++ '\n' :: rest)).filterMap lineEvent =
      e :: (scanFrom [] rest).filterMap lineEvent := by
  have unbroken := unbroken_of_printed (printed_marshal kept.fits.valid)
  have last : (marshal e).getLast? ≠ some '\r' := by
    rw [marshal, Json.object, ← List.cons_append, List.getLast?_append]
    rintro ⟨⟩
  have short : ¬maxScanTokenSize ≤ byteLength (marshal e) := Nat.not_le_of_lt kept.fits.short
  rw [scanFrom_line unbroken, List.nil_append, if_neg short, dropCR, if_neg last,
    List.filterMap_cons, lineEvent_marshal kept.real kept.fits.valid]

theorem read_writeEvents {events : List Event} (kept : ∀ e ∈ events, e.Kept) :
    (scanFrom [] (writeEvents events)).filterMap lineEvent = events := by
  induction events with
  | nil => rfl
  | cons e events ih =>
    have rest := ih fun other member => kept other (List.mem_cons_of_mem _ member)
    have text : writeEvents (e :: events) = marshal e ++ '\n' :: writeEvents events := by
      rw [writeEvents, List.flatMap_cons, List.append_assoc]
      rfl
    rw [text, scan_event (kept e List.mem_cons_self), rest]

theorem scan_long (valid : ∀ text ∈ e.texts, ∃ s : List Char, text = s.map Rune.char)
    (long : maxScanTokenSize ≤ byteLength (marshal e)) (rest : List Char) :
    scanFrom [] (marshal e ++ '\n' :: rest) = [] := by
  rw [scanFrom_line (unbroken_of_printed (printed_marshal valid)), List.nil_append, if_pos long]

end

theorem wrap64_of_fits {n : Int} (low : -9223372036854775808 ≤ n) (high : n ≤ 9223372036854775807) :
    wrap64 n = n := by
  rw [wrap64]
  exact Int.bmod_eq_of_le (by omega) (by omega)

theorem cutoff_eq {days now : Int} (positive : 0 < days) (small : days ≤ maxDays) :
    cutoff days now = firstKept days now := by
  rw [maxDays] at small
  have first : wrap64 (-days) = -days := wrap64_of_fits (by omega) (by omega)
  have second : wrap64 (-days * 24) = -days * 24 := wrap64_of_fits (by omega) (by omega)
  have third : wrap64 (-days * 24 * hour) = -days * 24 * hour := by
    rw [hour]
    exact wrap64_of_fits (by omega) (by omega)
  rw [cutoff, firstKept, first, second, third, hour]
  omega

/-- The log holds the events that should be kept, each on a line that fits. -/
structure Holds (g : Guard) (r : Retained) : Prop where
  lastRun : g.lastRun = r.lastRun
  file : g.file.getD [] = writeEvents r.events
  absent : g.file = none → r.events = []
  kept : ∀ e ∈ r.events, e.Kept

section

variable {g : Guard} {r : Retained}

theorem Holds.read (holds : Holds g r) : readSubscribeGuardLogEvents g = r.events := by
  rw [readSubscribeGuardLogEvents]
  cases file : g.file with
  | none => exact (holds.absent file).symm
  | some text =>
    have written := holds.file
    rw [file, Option.getD_some] at written
    dsimp only
    rw [written]
    exact read_writeEvents holds.kept

theorem Holds.append {e : Event} (holds : Holds g r) (kept : e.Kept) :
    Holds (appendSubscribeGuardLogEvent g e) { r with events := r.events ++ [e] } := by
  constructor
  case lastRun => exact holds.lastRun
  case file =>
    rw [appendSubscribeGuardLogEvent, Option.getD_some, holds.file]
    simp [writeEvents]
  case absent => rintro ⟨⟩
  case kept =>
    intro other member
    rcases List.mem_append.mp member with old | new
    · exact holds.kept other old
    · rw [List.mem_singleton.mp new]
      exact kept

theorem Holds.cleanup (holds : Holds g r) {days now : Int} (small : days ≤ maxDays) :
    Holds (cleanupSubscribeGuardLog g days now) (r.clean days now) := by
  unfold cleanupSubscribeGuardLog Retained.clean
  by_cases off : days ≤ 0
  · rw [if_pos (Or.inl off), if_pos off]
    exact holds
  rw [if_neg off]
  by_cases absent : g.file = none
  · rw [if_pos (Or.inr absent), holds.absent absent]
    exact ⟨holds.lastRun, by rw [absent]; rfl, fun _ => rfl, fun _ none => by cases none⟩
  · have running : ¬(days ≤ 0 ∨ g.file = none) := fun stop => stop.elim off absent
    have same : (r.events.filter fun e => decide (e.time = 0) || decide (cutoff days now ≤ e.time)) =
        r.events.filter fun e => firstKept days now ≤ e.time := by
      refine List.filter_congr fun e member => ?_
      have positive := (holds.kept e member).real.clock
      have clock : decide (e.time = 0) = false := decide_eq_false (by omega)
      rw [clock, Bool.false_or, cutoff_eq (by omega) small]
    rw [if_neg running, holds.read]
    dsimp only
    rw [same]
    split
    next all =>
      -- nothing was removed, so nothing is written
      have whole := (List.filter_sublist (p := fun e : Event =>
        decide (firstKept days now ≤ e.time)) (l := r.events)).eq_of_length all
      rw [whole]
      exact holds
    next =>
      refine ⟨holds.lastRun, rfl, ?_, fun e member => holds.kept e (List.mem_filter.mp member).1⟩
      rintro ⟨⟩

theorem Holds.maybeCleanup (holds : Holds g r) {days now : Int} (small : days ≤ maxDays) :
    Holds (maybeCleanupSubscribeGuardLog g days now) (r.maybeClean days now) := by
  unfold maybeCleanupSubscribeGuardLog Retained.maybeClean
  rw [holds.lastRun]
  split
  next => exact holds
  next =>
    have started : Holds { g with lastRun := some now } { r with lastRun := some now } :=
      ⟨rfl, holds.file, holds.absent, holds.kept⟩
    exact started.cleanup small

theorem Holds.next (holds : Holds g r) {act : Act} (good : act.Good) :
    Holds (step g act) (r.step act) := by
  cases act with
  | record e days now =>
    obtain ⟨real, fits, small⟩ := good
    exact (holds.append ⟨real, fits⟩).maybeCleanup small
  | maybeCleanup days now => exact holds.maybeCleanup good
  | cleanup days now => exact holds.cleanup good

theorem Holds.along {acts : List Act} (holds : Holds g r) (good : ∀ act ∈ acts, act.Good) :
    Holds (run step g acts) (run Retained.step r acts) := by
  induction acts generalizing g r with
  | nil => exact holds
  | cons act acts ih =>
    exact ih (holds.next (good act List.mem_cons_self)) fun other member =>
      good other (List.mem_cons_of_mem _ member)

end

/-- When every event fits a line and no days overflow, reading the log gives the recorded events
inside the retention period of every clean-up, each once and in order. -/
theorem reads_what_was_recorded (acts : List Act) (good : ∀ act ∈ acts, act.Good) :
    readSubscribeGuardLogEvents (run step empty acts) =
      (run Retained.step ⟨[], none⟩ acts).events := by
  have initial : Holds empty ⟨[], none⟩ :=
    ⟨rfl, rfl, fun _ => rfl, fun _ none => (List.not_mem_nil none).elim⟩
  exact (initial.along good).read

private def visit (time : Int) (ua : Text) : Event :=
  ⟨time, [.char '1'], [.char 't'], 0, [], ua, 200, [], false⟩

private theorem visit_valid (time : Int) (n : Nat) :
    ∀ text ∈ (visit time (List.replicate n (.char 'a'))).texts,
      ∃ s : List Char, text = s.map Rune.char := by
  intro text member
  simp only [Event.texts, visit, List.mem_cons, List.not_mem_nil, or_false] at member
  rcases member with rfl | rfl | rfl | rfl | rfl
  · exact ⟨['1'], rfl⟩
  · exact ⟨['t'], rfl⟩
  · exact ⟨[], rfl⟩
  · exact ⟨List.replicate n 'a', List.map_replicate.symm⟩
  · exact ⟨[], rfl⟩

private theorem visit_kept : (visit 1000 (List.replicate 1 (.char 'a'))).Kept :=
  ⟨⟨by decide, by decide, by decide, by decide⟩, visit_valid 1000 1, by decide +kernel⟩

/-- A visit is read until the clean-up eight days after it. -/
theorem visit_read_until_cleanup :
    readSubscribeGuardLogEvents (run step empty
      [.record (visit 1000 (List.replicate 1 (.char 'a'))) 7 1000000000000,
        .cleanup 7 700000000000000]) =
      (run Retained.step ⟨[], none⟩
        [.record (visit 1000 (List.replicate 1 (.char 'a'))) 7 1000000000000,
          .cleanup 7 700000000000000]).events := by
  refine reads_what_was_recorded _ fun act member => ?_
  simp only [List.mem_cons, List.not_mem_nil, or_false] at member
  rcases member with rfl | rfl
  · exact ⟨visit_kept.real, visit_kept.fits, by decide⟩
  · exact show (7 : Int) ≤ maxDays by decide

/-! A user agent of 70000 letters does not fit the line. -/

theorem length_le_byteLength (text : List Char) : text.length ≤ byteLength text := by
  induction text with
  | nil => exact le_rfl
  | cons c rest ih =>
    have := Char.utf8Size_pos c
    rw [List.length_cons, byteLength]
    omega

theorem length_ua_le (e : Event) : e.ua.length ≤ (marshal e).length := by
  have letters : ∀ text : Text, text.length ≤ (quote text).length := by
    intro text
    induction text with
    | nil => exact Nat.zero_le _
    | cons rune text ih =>
      have written : 0 < rune.escape.length := by
        cases rune with
        | char c =>
          have printed : Json.escape c ≠ [] := by
            unfold Json.escape
            split
            next => exact List.cons_ne_nil _ _
            next =>
              split
              next => exact List.cons_ne_nil _ _
              next => exact List.cons_ne_nil _ _
          exact List.length_pos_iff.mpr printed
        | byte b => exact Nat.succ_pos _
      simp only [quote, List.length_cons, List.length_append, List.flatMap_cons] at ih ⊢
      omega
  have member : Json.member ("ua".toList, quote e.ua) ∈ (members e).map Json.member := by
    refine List.mem_map.mpr ⟨_, ?_, rfl⟩
    exact List.mem_append_right _ List.mem_cons_self
  have element := Json.length_commas member
  have ua := letters e.ua
  simp only [marshal, Json.object, Json.member, List.length_cons, List.length_append] at element ⊢
  omega

private def agent : Text := List.replicate 70000 (.char 'a')

private theorem agent_long (time : Int) :
    maxScanTokenSize ≤ byteLength (marshal (visit time agent)) := by
  have letters := length_ua_le (visit time agent)
  have length : (visit time agent).ua.length = 70000 := List.length_replicate
  have bytes := length_le_byteLength (marshal (visit time agent))
  rw [maxScanTokenSize]
  omega

/-- The visit after the long one is not read, and the clean-up that drops the visit before it
removes both, which are inside the retention period. -/
theorem visits_lost_behind_long_agent :
    let log := run step empty
      [.record (visit 1000 (List.replicate 1 (.char 'a'))) 0 0, .record (visit 1001 agent) 0 0,
        .record (visit 1002 (List.replicate 1 (.char 'a'))) 0 0]
    readSubscribeGuardLogEvents log = [visit 1000 (List.replicate 1 (.char 'a'))] ∧
      readSubscribeGuardLogEvents (step log (.cleanup 7 605801000000000)) = [] ∧
      firstKept 7 605801000000000 = 1001 := by
  intro log
  have file : log.file = some (marshal (visit 1000 (List.replicate 1 (.char 'a'))) ++ '\n' ::
      (marshal (visit 1001 agent) ++ '\n' ::
        (marshal (visit 1002 (List.replicate 1 (.char 'a'))) ++ ['\n']))) := by
    have text : log.file = some ((([] ++ (marshal (visit 1000 (List.replicate 1 (.char 'a'))) ++
        ['\n'])) ++ (marshal (visit 1001 agent) ++ ['\n'])) ++
          (marshal (visit 1002 (List.replicate 1 (.char 'a'))) ++ ['\n'])) := rfl
    rw [text]
    simp only [List.nil_append, List.append_assoc, List.cons_append]
  have read : readSubscribeGuardLogEvents log = [visit 1000 (List.replicate 1 (.char 'a'))] := by
    rw [readSubscribeGuardLogEvents, file]
    dsimp only
    rw [scan_event visit_kept, @scan_long (visit 1001 agent) (visit_valid 1001 70000) (agent_long 1001)]
    rfl
  refine ⟨read, ?_, by decide⟩
  have cut : cutoff 7 605801000000000 = 1001 := by decide
  have running : ¬((7 : Int) ≤ 0 ∨ log.file = none) := by
    rintro (off | absent)
    · exact absurd off (by decide)
    · rw [file] at absent
      cases absent
  have cleaned : step log (.cleanup 7 605801000000000) = { log with file := some [] } := by
    rw [step, cleanupSubscribeGuardLog, if_neg running, read, cut]
    rfl
  rw [cleaned]
  rfl

end ForestPanel.SubscribeGuard
