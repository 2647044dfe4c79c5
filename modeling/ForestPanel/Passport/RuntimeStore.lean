import ForestPanel.Lib.Decimal
import ForestPanel.Store.Text
import Mathlib.Data.List.Infix
import Mathlib.Logic.Function.Basic

/-!
# The runtime key-value table

`v2_runtime_kv` keeps codes, tokens, counters and locks under text keys, each with the time
it expires, or 0. A row that has expired reads as no row.
-/
namespace ForestPanel.Passport

/-- The first part of a key. -/
inductive CacheName
  | emailVerifyCode
  | lastSendEmailVerify
  | tempToken
  | lastSendMailLogin
  | passwordErrorLimit
  | forgetRequestLimit
  | registerIPRateLimit
  | sendVerifyRateLimitIP
deriving DecidableEq, Repr

def CacheName.text : CacheName → String
  | .emailVerifyCode => "EMAIL_VERIFY_CODE"
  | .lastSendEmailVerify => "LAST_SEND_EMAIL_VERIFY_TIMESTAMP"
  | .tempToken => "TEMP_TOKEN"
  | .lastSendMailLogin => "LAST_SEND_LOGIN_WITH_MAIL_LINK_TIMESTAMP"
  | .passwordErrorLimit => "PASSWORD_ERROR_LIMIT"
  | .forgetRequestLimit => "FORGET_REQUEST_LIMIT"
  | .registerIPRateLimit => "REGISTER_IP_RATE_LIMIT"
  | .sendVerifyRateLimitIP => "SEND_EMAIL_VERIFY_RATE_LIMIT_IP"

def cacheKey (name : CacheName) (unique : String) : String := name.text ++ "_" ++ unique

private theorem text_apart (a b : CacheName) :
    a.text.toList ++ ['_'] <+: b.text.toList ++ ['_'] → a = b := by
  cases a <;> cases b <;> decide

theorem cacheKey_inj {a b : CacheName} {x y : String} (same : cacheKey a x = cacheKey b y) :
    a = b ∧ x = y := by
  have chars := congrArg String.toList same
  simp only [cacheKey, String.toList_append] at chars
  have underscore : "_".toList = ['_'] := rfl
  rw [underscore] at chars
  have left : a.text.toList ++ ['_'] <+: (a.text.toList ++ ['_']) ++ x.toList :=
    List.prefix_append _ _
  have right : b.text.toList ++ ['_'] <+: (a.text.toList ++ ['_']) ++ x.toList :=
    chars ▸ List.prefix_append _ _
  have names : a = b := by
    rcases List.prefix_or_prefix_of_prefix left right with shorter | longer
    · exact text_apart a b shorter
    · exact (text_apart b a longer).symm
  subst names
  exact ⟨rfl, String.toList_inj.mp (List.append_cancel_left chars)⟩

theorem cacheKey_ne {a b : CacheName} (x y : String) (different : a ≠ b) :
    cacheKey a x ≠ cacheKey b y := fun same => different (cacheKey_inj same).1

structure KvRow where
  value : String
  expireAt : Int
deriving DecidableEq, Repr

abbrev Kv := String → Option KvRow

def KvRow.isLive (now : Int) (row : KvRow) : Bool := !(0 < row.expireAt && row.expireAt ≤ now)

/-- The value that is there at the time `now`. -/
def kvGet (kv : Kv) (now : Int) (key : String) : Option String :=
  match kv key with
  | none => none
  | some row => if row.isLive now then some row.value else none

def formatInt (n : Int) : String := String.ofList (Decimal.format n)

def parseInt (s : String) : Option Int := Decimal.parse s.toList

/-- A number that is not there or cannot be read counts as 0. -/
def kvGetInt (kv : Kv) (now : Int) (key : String) : Int :=
  match kvGet kv now key with
  | none => 0
  | some raw => (parseInt raw).getD 0

def kvSet (kv : Kv) (now : Int) (key value : String) (ttlSeconds : Int) : Kv :=
  Function.update kv key (some ⟨value, if 0 < ttlSeconds then now + ttlSeconds else 0⟩)

def kvDelete (kv : Kv) (key : String) : Kv := Function.update kv key none

/-- The counter after an increment; it starts at `base` and keeps its time. -/
def kvIncrWithBase (kv : Kv) (now : Int) (key : String) (ttlSeconds base : Int) : Int × Kv :=
  match kv key with
  | none => (base, kvSet kv now key (formatInt base) ttlSeconds)
  | some row =>
    if row.isLive now then
      let next := (parseInt (trimSpace row.value)).getD 0 + 1
      (next, Function.update kv key (some { row with value := formatInt next }))
    else (base, kvSet kv now key (formatInt base) ttlSeconds)

def kvIncr (kv : Kv) (now : Int) (key : String) (ttlSeconds : Int) : Int × Kv :=
  kvIncrWithBase kv now key ttlSeconds 1

section

variable {kv : Kv} {now : Int} {key other value : String} {ttlSeconds base : Int}

theorem parseInt_formatInt {n : Int} (fits : Decimal.Fits n) :
    parseInt (formatInt n) = some n := by
  rw [parseInt, formatInt, String.toList_ofList, Decimal.parse_format fits]

theorem visible_formatInt (n : Int) : ∀ c ∈ (formatInt n).toList, isSpace c = false := by
  intro c member
  rw [formatInt, String.toList_ofList] at member
  rcases Decimal.mem_format member with rfl | digit
  · decide
  · exact isSpace_of_isDigit digit

theorem trimSpace_formatInt (n : Int) : trimSpace (formatInt n) = formatInt n :=
  trimSpace_of_visible (visible_formatInt n)

theorem kvSet_of_ne (different : other ≠ key) :
    kvSet kv now key value ttlSeconds other = kv other :=
  Function.update_of_ne different ..

theorem kvSet_self (positive : 0 < ttlSeconds) :
    kvSet kv now key value ttlSeconds key = some ⟨value, now + ttlSeconds⟩ := by
  rw [kvSet, if_pos positive, Function.update_self]

theorem kvDelete_of_ne (different : other ≠ key) : kvDelete kv key other = kv other :=
  Function.update_of_ne different ..

theorem kvIncrWithBase_of_ne (different : other ≠ key) :
    (kvIncrWithBase kv now key ttlSeconds base).2 other = kv other := by
  unfold kvIncrWithBase
  split
  · exact kvSet_of_ne different
  · split
    · exact Function.update_of_ne different ..
    · exact kvSet_of_ne different

theorem kvGet_congr {kv' : Kv} (same : kv' key = kv key) : kvGet kv' now key = kvGet kv now key := by
  rw [kvGet, kvGet, same]

theorem kvGetInt_congr {kv' : Kv} (same : kv' key = kv key) :
    kvGetInt kv' now key = kvGetInt kv now key := by
  rw [kvGetInt, kvGetInt, kvGet_congr same]

theorem kvGet_eq_some : kvGet kv now key = some value ↔
    ∃ row, kv key = some row ∧ row.isLive now = true ∧ row.value = value := by
  unfold kvGet
  cases kv key with
  | none => simp
  | some row => simp

end

end ForestPanel.Passport
