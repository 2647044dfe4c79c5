import ForestPanel.Lib.Base64
import ForestPanel.Lib.Decimal
import ForestPanel.Lib.Outcome
import Mathlib.Data.List.Infix

/-!
# Share links

A share link is a string of bytes. A Shadowsocks link without a host is decoded and parsed
again, so the parser takes fuel and returns nothing when it runs out of it.
-/
namespace ForestPanel.SubscribeLink

open Outcome

abbrev Bytes := List UInt8

/-- The bytes of an ASCII text. -/
def ascii (text : String) : Bytes := text.toList.map fun c => .ofNat c.toNat

/-- `unicode.IsSpace`, encoded. -/
def spaces : List Bytes :=
  [[9], [10], [11], [12], [13], [32], [0xC2, 0x85], [0xC2, 0xA0], [0xE1, 0x9A, 0x80]] ++
    (List.range 11).map (fun n => [0xE2, 0x80, .ofNat (0x80 + n)]) ++
    [[0xE2, 0x80, 0xA8], [0xE2, 0x80, 0xA9], [0xE2, 0x80, 0xAF], [0xE2, 0x81, 0x9F],
      [0xE3, 0x80, 0x80]]

/-- Marks are taken off the front, at most so many. -/
def dropMarks (marks : List Bytes) : Nat → Bytes → Bytes
  | 0, raw => raw
  | count + 1, raw =>
    match marks.find? fun mark => mark.isPrefixOf raw with
    | none => raw
    | some mark => dropMarks marks count (raw.drop mark.length)

def trimSpace (raw : Bytes) : Bytes :=
  let rest := dropMarks spaces raw.length raw
  (dropMarks (spaces.map List.reverse) rest.length rest.reverse).reverse

/-- A control character or white space: `unicode.IsControl(char) || unicode.IsSpace(char)`. -/
def hasBlank (raw : Bytes) : Bool :=
  raw.any (fun b => b < 32 || b = 127) ||
    (List.range 32).any (fun n => decide ([0xC2, .ofNat (0x80 + n)] <:+: raw)) ||
    spaces.any fun space => decide (space <:+: raw)

/-- The digit at an alphabet's end: `-` and `_` of the URL alphabet, `+` and `/` of the other. -/
def digitValue (urlSafe : Bool) (b : UInt8) : Option Nat :=
  let n := b.toNat
  if 65 ≤ n ∧ n ≤ 90 then some (n - 65)
  else if 97 ≤ n ∧ n ≤ 122 then some (n - 71)
  else if 48 ≤ n ∧ n ≤ 57 then some (n + 4)
  else if n = (if urlSafe then 45 else 43) then some 62
  else if n = (if urlSafe then 95 else 47) then some 63
  else none

/-- The digits in front of the padding, which fills the last group of four. -/
def unpadded (text : Bytes) : Option Bytes :=
  if text.length % 4 ≠ 0 then none
  else if [61, 61] <:+ text then some (text.dropLast.dropLast)
  else if [61] <:+ text then some text.dropLast
  else some text

def digitsOf (padded : Bool) (text : Bytes) : Option Bytes :=
  if padded then unpadded text else some text

/-- `Encoding.DecodeString`; line ends are passed over. -/
def decodeString (urlSafe padded : Bool) (raw : Bytes) : Option Bytes := do
  let digits ← digitsOf padded (raw.filter fun b => b ≠ 10 ∧ b ≠ 13)
  let groups ← digits.mapM (digitValue urlSafe)
  Base64.bytes groups

def decodeFlexibleBase64 (raw : Bytes) : Option Bytes :=
  let text := trimSpace raw
  -- RawURLEncoding, URLEncoding, RawStdEncoding, StdEncoding
  [(true, false), (true, true), (false, false), (false, true)].findSome? fun encoding =>
    decodeString encoding.1 encoding.2 text

/-- What `url.Parse` makes of a link. -/
structure Url where
  scheme : Bytes
  user : Option (Bytes × Option Bytes)
  hostname : Bytes
  port : Bytes
  query : List (Bytes × Bytes)
  fragment : Bytes
deriving DecidableEq, Repr

inductive Field
  | text (value : Bytes)
  | number (value : Int)
deriving DecidableEq, Repr

abbrev Node := List (String × Field)

/-- The standard library, and the parsers of the schemes that are not decoded again. -/
structure Library where
  urlParse : Bytes → Option Url
  lower : Bytes → Bytes
  cacheKey : Bytes → Bytes
  parseVMess : Bytes → Except String Node
  parseURLNode : Bytes → Url → Bytes → Except String Node

def cut (separator : UInt8) (text : Bytes) : Option (Bytes × Bytes) :=
  if separator ∈ text then
    some (text.takeWhile (· ≠ separator), (text.dropWhile (· ≠ separator)).tail)
  else none

def parsePort (raw : Bytes) : Except String Int := do
  let port ← require (Decimal.parse ((trimSpace raw).map fun b => Char.ofNat b.toNat)) "分享链接端口无效"
  ensure (1 ≤ port ∧ port ≤ 65535) "分享链接端口无效"
  pure port

section

variable (lib : Library)

def baseNode (raw name host : Bytes) (port : Int) : Node :=
  [("name", .text name), ("host", .text host), ("port", .number port),
    ("client_entry_extra_node", .number 1), ("client_entry_extra_uri", .text raw),
    ("show", .number 1), ("is_online", .number 1), ("last_check_at", .number 0),
    ("cache_key", .text (lib.cacheKey raw))]

def setSingleCredential (value : Bytes) : Node :=
  [("client_entry_extra_credential", .text value), ("client_entry_extra_uuid", .text value),
    ("client_entry_extra_password", .text value)]

def supportedShadowsocksCipher (value : Bytes) : Bool :=
  lib.lower (trimSpace value) ∈
    ["aes-128-gcm", "aes-192-gcm", "aes-256-gcm", "chacha20-ietf-poly1305"].map ascii

/-- The method and the password, which may be encoded together. -/
def credentials (username : Bytes) (password : Option Bytes) : Except String (Bytes × Bytes) :=
  match password with
  | some password => pure (username, password)
  | none => do
    let decoded ← require (decodeFlexibleBase64 username) "Shadowsocks 分享链接认证信息无效"
    require (cut 58 decoded) "Shadowsocks 分享链接认证信息无效"

def pluginField (part : Bytes) : Node :=
  match cut 61 part with
  | none => []
  | some (key, value) =>
    let key := lib.lower (trimSpace key)
    if key = ascii "obfs" then [("obfs", .text (trimSpace value))]
    else if key = ascii "obfs-host" then [("obfs-host", .text (trimSpace value))]
    else if key = ascii "obfs-uri" ∨ key = ascii "obfs-path" then
      [("obfs-path", .text (trimSpace value))]
    else []

/-- The node of a link with a host and a user; a later field replaces an earlier one. -/
def shadowsocksNode (raw : Bytes) (parsed : Url) (username : Bytes) (password : Option Bytes) :
    Except String Node := do
  let host := trimSpace parsed.hostname
  let port ← (parsePort parsed.port).mapError fun _ => "Shadowsocks 分享链接缺少地址或端口"
  ensure (host ≠ []) "Shadowsocks 分享链接缺少地址或端口"
  let (method, password) ← credentials username password
  let method := trimSpace method
  ensure (supportedShadowsocksCipher lib method = true ∧ password ≠ [])
    "Shadowsocks 分享链接使用了不支持的加密方式或空密码"
  let fragment := trimSpace parsed.fragment
  let name :=
    if fragment = [] then host ++ 58 :: (Decimal.format port).map fun c => .ofNat c.toNat
    else fragment
  let plugin := ((parsed.query.find? fun pair => pair.1 = ascii "plugin").map Prod.snd).getD []
  pure (baseNode lib raw name host port ++ [("type", .text (ascii "shadowsocks")),
    ("cipher", .text method)] ++ setSingleCredential password ++
    (plugin.splitOn 59).flatMap (pluginField lib))

/-- The start of a Shadowsocks link, `ss://`. -/
def ssStart : Bytes := [115, 115, 58, 47, 47]

def vmessStart : Bytes := [118, 109, 101, 115, 115, 58, 47, 47]

/-- `strings.TrimPrefix(raw, "ss://")`. -/
def trimStart (raw : Bytes) : Bytes := if ssStart.isPrefixOf raw then raw.drop 5 else raw

/-- A text in front of the first mark, and the rest from this mark on. -/
def splitAt (mark : UInt8) (text : Bytes) : Bytes × Bytes :=
  (text.takeWhile (· ≠ mark), text.dropWhile (· ≠ mark))

/-- The payload, the query and the fragment of a link. -/
def payloadParts (raw : Bytes) : Bytes × Bytes × Bytes :=
  let (payload, fragment) := splitAt 35 (trimStart raw)
  let (payload, query) := splitAt 63 payload
  (payload, query, fragment)

def decodedLink (raw : Bytes) : Option Bytes :=
  let (payload, query, fragment) := payloadParts raw
  (decodeFlexibleBase64 payload).map fun decoded => ssStart ++ decoded ++ query ++ fragment

def parseShadowsocks : Nat → Bytes → Option (Except String Node)
  | 0, _ => none
  | fuel + 1, raw =>
    match lib.urlParse raw with
    | none => some (.error "Shadowsocks 分享链接格式无效")
    | some parsed =>
      -- a link without a host counts as one without a user
      match if parsed.hostname = [] then none else parsed.user with
      | some (username, password) => some (shadowsocksNode lib raw parsed username password)
      | none =>
        match decodedLink raw with
        | none => some (.error "Shadowsocks 分享链接编码无效")
        | some link => parseShadowsocks fuel link

def parse (fuel : Nat) (raw : Bytes) : Option (Except String Node) :=
  let raw := trimSpace raw
  if raw = [] then some (.error "分享链接不能为空")
  else if 8192 < raw.length then some (.error "分享链接过长")
  else if hasBlank raw then some (.error "分享链接不能包含空白或控制字符")
  else if vmessStart.isPrefixOf (lib.lower raw) then some (lib.parseVMess raw)
  else if ssStart.isPrefixOf (lib.lower raw) then parseShadowsocks lib fuel raw
  else
    match lib.urlParse raw with
    | none => some (.error "无法解析分享链接")
    | some parsed =>
      let scheme := lib.lower (trimSpace parsed.scheme)
      if scheme ∈ ["trojan", "vless", "hysteria2", "hy2", "anytls", "tuic"].map ascii then
        some (lib.parseURLNode raw parsed scheme)
      else
        some (.error ("暂不支持 \"" ++ String.ofList (scheme.map fun b => Char.ofNat b.toNat) ++
          "\" 协议"))

end

end ForestPanel.SubscribeLink
