import ForestPanel.Lib.Json
import ForestPanel.Store.Text

/-!
# The log of the subscribe guard

Every event is appended to a file as one line of JSON. A clean-up reads the file with a
`bufio.Scanner` and writes back what it kept. The scanner stops at a line that does not fit its
buffer.

A Go string need not be UTF-8, so a text is a list of characters and of bytes that belong to none.
The file itself is written by `json.Marshal` and is UTF-8; operations on it do not fail.
-/
namespace ForestPanel.SubscribeGuard

/-- What ranging over a Go string gives: a character, or a byte that belongs to none. -/
inductive Rune
  | char (c : Char)
  | byte (b : UInt8)
deriving DecidableEq, Repr

abbrev Text := List Rune

/-- A byte is written as the escape of the replacement character. -/
def Rune.escape : Rune → List Char
  | .char c => Json.escape c
  | .byte _ => Json.hexEscape 0xFFFD

def quote (s : Text) : List Char := '"' :: (s.flatMap Rune.escape ++ ['"'])

def byteLength : List Char → Nat
  | [] => 0
  | c :: rest => c.utf8Size + byteLength rest

structure Event where
  time : Int
  ip : Text
  token : Text
  userID : Int
  canonicalToken : Text
  ua : Text
  status : Int
  reason : Text
  blocked : Bool
deriving DecidableEq, Repr

def emptyEvent : Event := ⟨0, [], [], 0, [], [], 0, [], false⟩

/-- The members of the record; two are left out when they are empty. -/
def members (e : Event) : List (List Char × List Char) :=
  [("time".toList, Decimal.format e.time), ("ip".toList, quote e.ip),
    ("token".toList, quote e.token)] ++
  (if e.userID = 0 then [] else [("user_id".toList, Decimal.format e.userID)]) ++
  (if e.canonicalToken = [] then [] else [("canonical_token".toList, quote e.canonicalToken)]) ++
  [("ua".toList, quote e.ua), ("status".toList, Decimal.format e.status),
    ("reason".toList, quote e.reason), ("blocked".toList, Json.marshalBool e.blocked)]

def marshal (e : Event) : List Char := Json.object (members e)

/-- An integer in a record; `null` leaves what is there. -/
def setInt (raw : List Char) (old : Int) : Option Int :=
  match Json.decode (String.ofList raw) with
  | some .null => some old
  | some (.num literal) => Decimal.parse literal
  | _ => none

def setText (raw : List Char) (old : Text) : Option Text :=
  match Json.decode (String.ofList raw) with
  | some .null => some old
  | some (.str s) => some (s.map Rune.char)
  | _ => none

def setBool (raw : List Char) (old : Bool) : Option Bool :=
  match Json.decode (String.ofList raw) with
  | some .null => some old
  | some (.bool b) => some b
  | _ => none

inductive Field
  | time
  | ip
  | token
  | userID
  | canonicalToken
  | ua
  | status
  | reason
  | blocked
deriving DecidableEq, Repr

/-- The field of a key; the keys are those that are written. -/
def fieldOf (key : List Char) : Option Field :=
  [("time".toList, .time), ("ip".toList, .ip), ("token".toList, .token),
    ("user_id".toList, .userID), ("canonical_token".toList, .canonicalToken), ("ua".toList, .ua),
    ("status".toList, .status), ("reason".toList, .reason), ("blocked".toList, .blocked)].lookup key

def setField (e : Event) (raw : List Char) : Field → Option Event
  | .time => (setInt raw e.time).map fun time => { e with time }
  | .ip => (setText raw e.ip).map fun ip => { e with ip }
  | .token => (setText raw e.token).map fun token => { e with token }
  | .userID => (setInt raw e.userID).map fun userID => { e with userID }
  | .canonicalToken =>
    (setText raw e.canonicalToken).map fun canonicalToken => { e with canonicalToken }
  | .ua => (setText raw e.ua).map fun ua => { e with ua }
  | .status => (setInt raw e.status).map fun status => { e with status }
  | .reason => (setText raw e.reason).map fun reason => { e with reason }
  | .blocked => (setBool raw e.blocked).map fun blocked => { e with blocked }

def setMember (e : Event) (member : List Char × List Char) : Option Event :=
  match fieldOf member.1 with
  | some field => setField e member.2 field
  | none => some e

/-- `json.Unmarshal` of a line. -/
def unmarshal (line : String) : Option Event :=
  match Json.unmarshal line with
  | some .null => some emptyEvent
  | some (.obj members) => members.foldlM setMember emptyEvent
  | _ => none

/-- `bufio.MaxScanTokenSize`: a buffer this full without a line break ends the scan. -/
def maxScanTokenSize : Nat := 65536

/-- `bufio.ScanLines` drops a carriage return before the line break. -/
def dropCR (line : List Char) : List Char :=
  if line.getLast? = some '\r' then line.dropLast else line

/-- The lines of a scan; `line` is what was read of the first one. -/
def scanFrom (line : List Char) : List Char → List (List Char)
  | [] => if line = [] ∨ maxScanTokenSize ≤ byteLength line then [] else [dropCR line]
  | c :: rest =>
    if c = '\n' then
      if maxScanTokenSize ≤ byteLength line then [] else dropCR line :: scanFrom [] rest
    else scanFrom (line ++ [c]) rest

def lineEvent (line : List Char) : Option Event :=
  let line := trimSpace (String.ofList line)
  if line = "" then none else unmarshal line

structure Guard where
  file : Option (List Char)
  lastRun : Option Int
deriving DecidableEq

def readSubscribeGuardLogEvents (g : Guard) : List Event :=
  match g.file with
  | none => []
  | some text => (scanFrom [] text).filterMap lineEvent

def writeEvents (events : List Event) : List Char := events.flatMap fun e => marshal e ++ ['\n']

def appendSubscribeGuardLogEvent (g : Guard) (e : Event) : Guard :=
  { g with file := some (g.file.getD [] ++ (marshal e ++ ['\n'])) }

/-- An `int64` after an operation that may overflow. -/
def wrap64 (n : Int) : Int := n.bmod 18446744073709551616

def hour : Int := 3600000000000

/-- `now.Add(-time.Duration(days) * 24 * time.Hour).Unix()`, with times in nanoseconds. -/
def cutoff (days now : Int) : Int := (now + wrap64 (wrap64 (wrap64 (-days) * 24) * hour)) / 1000000000

def cleanupSubscribeGuardLog (g : Guard) (days now : Int) : Guard :=
  if days ≤ 0 ∨ g.file = none then g
  else
    let events := readSubscribeGuardLogEvents g
    let filtered := events.filter fun e => e.time = 0 || cutoff days now ≤ e.time
    if filtered.length = events.length then g
    else { g with file := some (writeEvents filtered) }

/-- At most one clean-up an hour. -/
def maybeCleanupSubscribeGuardLog (g : Guard) (days now : Int) : Guard :=
  if days ≤ 0 ∨ g.lastRun.any (fun last => now - last < hour) = true then g
  else cleanupSubscribeGuardLog { g with lastRun := some now } days now

inductive Act
  /-- `recordSubscribeGuardEvent`. -/
  | record (e : Event) (days now : Int)
  /-- The clean-up in front of a reading. -/
  | maybeCleanup (days now : Int)
  | cleanup (days now : Int)

def step (g : Guard) : Act → Guard
  | .record e days now => maybeCleanupSubscribeGuardLog (appendSubscribeGuardLogEvent g e) days now
  | .maybeCleanup days now => maybeCleanupSubscribeGuardLog g days now
  | .cleanup days now => cleanupSubscribeGuardLog g days now

def empty : Guard := ⟨none, none⟩

end ForestPanel.SubscribeGuard
