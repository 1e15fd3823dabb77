import RoqHtx.Framework.Calendar
import RoqHtx.Framework.Machine
import RoqHtx.Impl.Response

/-!
# Signatures

`Crypto` signs what an account requests: the query of a REST request, and the
login on the websocket. It keeps one HMAC, one digest and one buffer for all of its
calls. `Mac` is what may be relied on of the HMAC, `Codecs` has the two codecs.
-/

namespace RoqHtx

/-! ## HMAC -/

/-- `utils::mac::HMAC<SHA256>`, with states `μ` and digests `δ`: what it is given
since it was cleared, and the digest of that. -/
class Mac (μ : Type) (δ : outParam Type) where
  init (secret : String) : μ
  clear : μ → μ
  update : μ → String → μ
  final : μ → δ × μ
  /-- The HMAC of a text under a secret. -/
  hmac : String → String → δ
  secret : μ → String
  text : μ → String
  secret_init (s : String) : secret (init s) = s
  secret_clear (m : μ) : secret (clear m) = secret m
  secret_update (m : μ) (s : String) : secret (update m s) = secret m
  secret_final (m : μ) : secret (final m).2 = secret m
  text_clear (m : μ) : text (clear m) = ""
  text_update (m : μ) (s : String) : text (update m s) = text m ++ s
  digest_final (m : μ) : (final m).1 = hmac (secret m) (text m)

/-- `utils::codec`: what the gateway encodes with. -/
structure Codecs (δ : Type) where
  base64 : δ → String
  urlEncode : String → String

/-- `magic_enum::enum_name`. -/
def Http.Method.name : Http.Method → String
  | .get => "GET"
  | .post => "POST"

/-! ## State -/

structure Crypto (μ δ : Type) where
  key : String
  mac : μ
  /-- Nothing has been signed yet, or the latest digest. -/
  digest : Option δ
  hostname : String
  encodeBuffer : String

namespace Crypto

open Calendar (civil)
open Digits (padded)

variable {μ δ : Type} [Mac μ δ]

def init (key secret hostname : String) : Crypto μ δ where
  key := key
  mac := Mac.init secret
  digest := none
  hostname := hostname
  encodeBuffer := ""

/-! ## Texts -/

/-- A number, with leading zeros: `{:02}`. -/
def format (width n : Nat) : String := String.ofList (padded width n)

/-- A number that may have a sign, which counts for the width: `{:04}`. -/
def formatInt (width : Nat) : Int → String
  | .ofNat n => format width n
  | .negSucc n => "-" ++ format (width - 1) (n + 1)

/-- A date and a time, with what stands between hours, minutes and seconds. -/
def dateTime (colon : String) (year : Int) (month day hms : Nat) : String :=
  formatInt 4 year ++ "-" ++ format 2 month ++ "-" ++ format 2 day ++ "T" ++
    format 2 (hms / 3600) ++ colon ++ format 2 (hms % 3600 / 60) ++ colon ++ format 2 (hms % 60)

def timestamp (colon : String) (nowUtc : Int) : String :=
  -- before 1970-01-01 the days are cut off towards zero, and `hh_mm_ss` drops the sign
  let days := nowUtc.tdiv 86400
  let ymd := civil days
  dateTime colon ymd.1 ymd.2.1 ymd.2.2 (nowUtc - days * 86400).natAbs

/-! ## Signing -/

/-- `mac_.update`, with one text after the other. -/
def updateAll (mac : μ) (texts : List String) : μ := texts.foldl Mac.update mac

/-- `create_query`: undefined where its assertion fails. The method is given by its
name. -/
def createQuery (codecs : Codecs δ) (assertions : Bool) (method path : String) (nowUtc : Int)
    (s : Crypto μ δ) : Option (String × Crypto μ δ) :=
  if assertions && path = "" then none
  else
    let buffer := Buffer.clear s.encodeBuffer
    let buffer := Buffer.formatTo buffer ("?AccessKeyId=" ++ s.key ++ "&" ++
      "SignatureMethod=HmacSHA256&" ++
      "SignatureVersion=2&" ++
      "Timestamp=" ++ timestamp "%3A" nowUtc)
    let tmp4 := String.ofList (buffer.toList.drop 1)
    let mac := Mac.clear s.mac
    let mac := updateAll mac [method, "\n", s.hostname, "\n", path, "\n", tmp4]
    let (digest, mac) := Mac.final mac
    let signature := codecs.base64 digest
    let buffer := Buffer.formatTo buffer ("&Signature=" ++ codecs.urlEncode signature)
    some (buffer, { s with mac, digest := some digest, encodeBuffer := buffer })

/-- The `params` of a login. -/
def paramsText (key timestamp signature : String) : String :=
  "\x7b" ++
    "\"authType\":\"api\"," ++
    "\"accessKey\":\"" ++ key ++ "\"," ++
    "\"signatureMethod\":\"HmacSHA256\"," ++
    "\"signatureVersion\":\"2.1\"," ++
    "\"timestamp\":\"" ++ timestamp ++ "\"," ++
    "\"signature\":\"" ++ signature ++ "\"" ++
    "\x7d"

/-- `create_ws_auth`: undefined where its assertion fails. -/
def createWsAuth (codecs : Codecs δ) (assertions : Bool) (path : String) (nowUtc : Int)
    (s : Crypto μ δ) : Option (String × Crypto μ δ) :=
  if assertions && path = "" then none
  else
    let buffer := Buffer.clear s.encodeBuffer
    let buffer := Buffer.formatTo buffer ("accessKey=" ++ s.key ++ "&" ++
      "signatureMethod=HmacSHA256&" ++
      "signatureVersion=2.1&" ++
      "timestamp=" ++ timestamp "%3A" nowUtc)
    let tmp4 := buffer
    let mac := Mac.clear s.mac
    let mac := updateAll mac ["GET\n", s.hostname, "\n", path, "\n", tmp4]
    let (digest, mac) := Mac.final mac
    let signature := codecs.base64 digest
    let buffer := Buffer.clear buffer
    let buffer := Buffer.formatTo buffer ("\x7b" ++
      "\"action\":\"req\"," ++
      "\"ch\":\"auth\"," ++
      "\"params\":" ++ paramsText s.key (timestamp ":" nowUtc) signature ++
      "\x7d")
    some (buffer, { s with mac, digest := some digest, encodeBuffer := buffer })

/-! ## Accounts -/

/-- `utils::safe_cast`, from nanoseconds to seconds. -/
def seconds (nanoseconds : Int) : Int := nanoseconds.tdiv 1000000000

/-- `Account::create_query`. -/
def accountQuery (codecs : Codecs δ) (assertions : Bool) (trace : TraceInfo) (method : Http.Method)
    (path : String) (s : Crypto μ δ) : Option (String × Crypto μ δ) :=
  s.createQuery codecs assertions method.name path (seconds trace.originCreateTimeUtc)

/-- `Account::create_ws_auth`. -/
def accountWsAuth (codecs : Codecs δ) (assertions : Bool) (trace : TraceInfo) (path : String)
    (s : Crypto μ δ) : Option (String × Crypto μ δ) :=
  s.createWsAuth codecs assertions path (seconds trace.originCreateTimeUtc)

end Crypto

/-! ## Calls -/

inductive CryptoCall where
  | query (method path : String) (nowUtc : Int)
  | wsAuth (path : String) (nowUtc : Int)

/-- One `Crypto`, called in any order. -/
def crypto {μ δ : Type} [Mac μ δ] (codecs : Codecs δ) (assertions : Bool)
    (key secret hostname : String) : Machine (Crypto μ δ) CryptoCall where
  init := Crypto.init key secret hostname
  step s call :=
    match call with
    | .query method path nowUtc => (s.createQuery codecs assertions method path nowUtc).map Prod.snd
    | .wsAuth path nowUtc => (s.createWsAuth codecs assertions path nowUtc).map Prod.snd

end RoqHtx
