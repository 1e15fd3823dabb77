import RoqHtx.Framework.JsonText
import RoqHtx.Framework.Percent
import RoqHtx.Framework.Query
import RoqHtx.Impl.Crypto

/-!
# Signatures verify

The exchange takes a request apart, puts the text together again that was signed,
and compares the signatures: `VerifiesQuery` and `VerifiesAuth` say what it finds.
Both texts are put together from parameters (`queryParameters`, `authParameters`),
and what is signed depends on nothing but the secret and the call
(`createQuery_eq`, `createWsAuth_eq`), whatever was signed before.
-/

namespace RoqHtx

/-- What is relied on of the codecs: Base64 has its own characters, and URL
encoding leaves an ASCII text with no others than unreserved ones and `%`, and is
undone by percent-decoding. -/
structure Codecs.Lawful {δ : Type} (codecs : Codecs δ) : Prop where
  base64 (digest : δ) : ∀ c ∈ (codecs.base64 digest).toList,
    c.isAlphanum = true ∨ c = '+' ∨ c = '/' ∨ c = '='
  urlEncode (s : String) : (∀ c ∈ s.toList, c.toNat < 128) →
    ∀ c ∈ (codecs.urlEncode s).toList, Percent.isUnreserved c = true ∨ c = '%'
  decode_urlEncode (s : String) : (∀ c ∈ s.toList, c.toNat < 128) →
    Percent.decode (codecs.urlEncode s).toList = some s.toList

namespace Crypto

open RoqHtx.JsonText (Value)
open RoqHtx.Query (Parameter)

variable {μ δ : Type} [Mac μ δ]

/-! ## What the exchange verifies -/

variable (μ) in
/-- The signature of a text. -/
def signature (codecs : Codecs δ) (secret text : String) : String :=
  codecs.base64 (@Mac.hmac μ δ _ secret text)

/-- The text that is signed. -/
def canonical (method hostname path : String) (parameters : List Parameter) : String :=
  method ++ "\n" ++ hostname ++ "\n" ++ path ++ "\n" ++
    String.ofList (Query.text (Query.sorted parameters))

variable (μ) in
/-- The query has the signature of its other parameters, and says who signed it
and when. -/
structure VerifiesQuery (codecs : Codecs δ) (key secret hostname method path : String) (nowUtc : Nat)
    (query : String) : Prop where
  start : query.toList.head? = some '?'
  signature : (Query.value? "Signature" (Query.read query.toList.tail)).bind Percent.decode =
    some (signature μ codecs secret (canonical method hostname path
      (Query.without "Signature" (Query.read query.toList.tail)))).toList
  key : Query.value? "AccessKeyId" (Query.read query.toList.tail) = some key.toList
  timestamp : ((Query.value? "Timestamp" (Query.read query.toList.tail)).bind Percent.decode).bind
    Calendar.seconds? = some nowUtc

/-- The parameters of a login. -/
def loginParameters (text : String) : Option (List (String × Value)) :=
  match JsonText.parse text with
  | some (.object members) =>
    match members.lookup "params" with
    | some (.object parameters) => some parameters
    | _ => none
  | _ => none

def stringOf (name : String) (parameters : List (String × Value)) : Option String :=
  match parameters.lookup name with
  | some (.string s) => some s
  | _ => none

/-- What is signed of the parameters of a login. -/
def loginSigned (parameters : List (String × Value)) : Option (List Parameter) := do
  let accessKey ← stringOf "accessKey" parameters
  let signatureMethod ← stringOf "signatureMethod" parameters
  let signatureVersion ← stringOf "signatureVersion" parameters
  let timestamp ← stringOf "timestamp" parameters
  some [("accessKey".toList, accessKey.toList), ("signatureMethod".toList, signatureMethod.toList),
    ("signatureVersion".toList, signatureVersion.toList),
    ("timestamp".toList, Percent.encode timestamp.toList)]

variable (μ) in
/-- The login has the signature of its parameters, and says who signed it and when. -/
structure VerifiesAuth (codecs : Codecs δ) (key secret hostname path : String) (nowUtc : Nat)
    (text : String) (parameters : List (String × Value)) (signed : List Parameter) : Prop where
  read : loginParameters text = some parameters
  rebuilt : loginSigned parameters = some signed
  signature : stringOf "signature" parameters =
    some (signature μ codecs secret (canonical "GET" hostname path signed))
  key : stringOf "accessKey" parameters = some key
  timestamp : (stringOf "timestamp" parameters).bind (fun s => Calendar.seconds? s.toList) =
    some nowUtc

/-! ## What is signed -/

def queryParameters (key : String) (nowUtc : Nat) : List Parameter :=
  [("AccessKeyId".toList, key.toList), ("SignatureMethod".toList, "HmacSHA256".toList),
    ("SignatureVersion".toList, "2".toList), ("Timestamp".toList, (timestamp "%3A" nowUtc).toList)]

def authParameters (key : String) (nowUtc : Nat) : List Parameter :=
  [("accessKey".toList, key.toList), ("signatureMethod".toList, "HmacSHA256".toList),
    ("signatureVersion".toList, "2.1".toList), ("timestamp".toList, (timestamp "%3A" nowUtc).toList)]

/-- The members of `params`. -/
def paramsMembers (key timestamp signature : String) : List (String × Value) :=
  [("authType", .string "api"), ("accessKey", .string key),
    ("signatureMethod", .string "HmacSHA256"), ("signatureVersion", .string "2.1"),
    ("timestamp", .string timestamp), ("signature", .string signature)]

/-- The members of a login. -/
def authMembers (key timestamp signature : String) : List (String × Value) :=
  [("action", .string "req"), ("ch", .string "auth"),
    ("params", .object (paramsMembers key timestamp signature))]

/-- What no call changes. -/
structure Signs (key secret hostname : String) (s : Crypto μ δ) : Prop where
  key : s.key = key
  hostname : s.hostname = hostname
  secret : Mac.secret s.mac = secret

theorem secret_updateAll (texts : List String) (mac : μ) :
    Mac.secret (updateAll mac texts) = Mac.secret mac := by
  induction texts generalizing mac with
  | nil => rfl
  | cons text texts ih =>
    rw [updateAll, List.foldl_cons]
    exact (ih _).trans (Mac.secret_update mac text)

variable {codecs : Codecs δ} {assertions : Bool} {key secret hostname : String} {s : Crypto μ δ}

theorem secret_final (hs : Signs key secret hostname s) (texts : List String) :
    Mac.secret (Mac.final (updateAll (Mac.clear s.mac) texts)).2 = secret := by
  rw [Mac.secret_final, secret_updateAll, Mac.secret_clear, hs.secret]

/-- The digest of a text that is given piece by piece. -/
theorem digest_eq (hs : Signs key secret hostname s) (texts : List String) :
    codecs.base64 (Mac.final (updateAll (Mac.clear s.mac) texts)).1 =
      signature μ codecs secret (Mac.text (updateAll (Mac.clear s.mac) texts)) := by
  rw [Mac.digest_final, secret_updateAll, Mac.secret_clear, hs.secret]
  rfl

/-- The text of what is signed, put together from its parts. -/
theorem text_updateAll (mac : μ) (method hostname path parameters : String) :
    Mac.text (updateAll (Mac.clear mac) [method, "\n", hostname, "\n", path, "\n", parameters]) =
      method ++ "\n" ++ hostname ++ "\n" ++ path ++ "\n" ++ parameters := by
  simp only [updateAll, List.foldl_cons, List.foldl_nil, Mac.text_update, Mac.text_clear,
    String.empty_append]

/-- A login is signed as a `GET` request. -/
theorem text_updateAll_get (mac : μ) (hostname path parameters : String) :
    Mac.text (updateAll (Mac.clear mac) ["GET\n", hostname, "\n", path, "\n", parameters]) =
      "GET" ++ "\n" ++ hostname ++ "\n" ++ path ++ "\n" ++ parameters := by
  simp only [updateAll, List.foldl_cons, List.foldl_nil, Mac.text_update, Mac.text_clear,
    String.empty_append]
  rfl

/-- The parameters that a call signs, as a text. -/
def signedText (method hostname path : String) (parameters : List Parameter) : String :=
  method ++ "\n" ++ hostname ++ "\n" ++ path ++ "\n" ++ String.ofList (Query.text parameters)

variable (codecs assertions) in
theorem createQuery_eq (hs : Signs key secret hostname s) (method : String) {path : String}
    (hpath : path ≠ "") (nowUtc : Nat) :
    ∃ s', s.createQuery codecs assertions method path nowUtc =
        some ("?" ++ String.ofList (Query.text (queryParameters key nowUtc)) ++ ("&Signature=" ++
          codecs.urlEncode (signature μ codecs secret
            (signedText method hostname path (queryParameters key nowUtc)))), s') := by
  have hbuffer : "?AccessKeyId=" ++ s.key ++ "&" ++ "SignatureMethod=HmacSHA256&" ++
      "SignatureVersion=2&" ++ "Timestamp=" ++ timestamp "%3A" nowUtc =
      "?" ++ String.ofList (Query.text (queryParameters key nowUtc)) := by
    apply String.toList_injective
    simp [Query.text, Query.parameterText, queryParameters, hs.key, List.intercalate]
  have hsubstr : ("?" ++ String.ofList (Query.text (queryParameters key nowUtc))).toList.drop 1 =
      Query.text (queryParameters key nowUtc) := by
    simp
  rw [createQuery, if_neg (by simp [hpath])]
  simp only [Buffer.clear, Buffer.formatTo, String.empty_append, hbuffer, hsubstr]
  refine ⟨_, congrArg some (Prod.ext ?_ rfl)⟩
  rw [digest_eq hs, text_updateAll, hs.hostname]
  rfl

theorem paramsText_eq (key timestamp signature : String) :
    (paramsText key timestamp signature).toList =
      (Value.object (paramsMembers key timestamp signature)).text := by
  delta paramsText
  simp [paramsMembers, Value.text, JsonText.memberText, JsonText.membersText, JsonText.quoted]

theorem authText_eq (key timestamp signature : String) :
    "\x7b" ++ "\"action\":\"req\"," ++ "\"ch\":\"auth\"," ++ "\"params\":" ++
        paramsText key timestamp signature ++ "\x7d" =
      String.ofList (Value.object (authMembers key timestamp signature)).text := by
  apply String.toList_injective
  rw [String.toList_append, String.toList_append, paramsText_eq]
  simp [authMembers, Value.text, JsonText.memberText, JsonText.membersText, JsonText.quoted]

variable (codecs assertions) in
theorem createWsAuth_eq (hs : Signs key secret hostname s) {path : String} (hpath : path ≠ "")
    (nowUtc : Nat) :
    ∃ s', s.createWsAuth codecs assertions path nowUtc =
        some (String.ofList (Value.object (authMembers key (timestamp ":" nowUtc)
          (signature μ codecs secret
            (signedText "GET" hostname path (authParameters key nowUtc))))).text, s') := by
  have hbuffer : "accessKey=" ++ s.key ++ "&" ++ "signatureMethod=HmacSHA256&" ++
      "signatureVersion=2.1&" ++ "timestamp=" ++ timestamp "%3A" nowUtc =
      String.ofList (Query.text (authParameters key nowUtc)) := by
    apply String.toList_injective
    simp [Query.text, Query.parameterText, authParameters, hs.key, List.intercalate]
  rw [createWsAuth, if_neg (by simp [hpath])]
  simp only [Buffer.clear, Buffer.formatTo, String.empty_append, hbuffer]
  refine ⟨_, congrArg some (Prod.ext ?_ rfl)⟩
  rw [authText_eq, digest_eq hs, text_updateAll_get, hs.hostname, hs.key]
  rfl

theorem signs_createQuery (hs : Signs key secret hostname s) {method path text : String}
    {nowUtc : Int} {s' : Crypto μ δ}
    (h : s.createQuery codecs assertions method path nowUtc = some (text, s')) :
    Signs key secret hostname s' := by
  unfold createQuery at h
  split at h
  · cases h
  cases h
  exact ⟨hs.key, hs.hostname, secret_final hs _⟩

theorem signs_createWsAuth (hs : Signs key secret hostname s) {path text : String}
    {nowUtc : Int} {s' : Crypto μ δ}
    (h : s.createWsAuth codecs assertions path nowUtc = some (text, s')) :
    Signs key secret hostname s' := by
  unfold createWsAuth at h
  split at h
  · cases h
  cases h
  exact ⟨hs.key, hs.hostname, secret_final hs _⟩

/-- Whatever was signed before. -/
theorem signs_reachable (h : (crypto codecs assertions key secret hostname).Reachable s) :
    Signs key secret hostname s := by
  refine h.invariant (I := Signs key secret hostname) ⟨rfl, rfl, Mac.secret_init secret⟩
    fun s call s' hs _ hstep => ?_
  cases call with
  | query method path nowUtc =>
    obtain ⟨⟨text, s'⟩, hquery, rfl⟩ := Option.map_eq_some_iff.mp hstep
    exact signs_createQuery hs hquery
  | wsAuth path nowUtc =>
    obtain ⟨⟨text, s'⟩, hauth, rfl⟩ := Option.map_eq_some_iff.mp hstep
    exact signs_createWsAuth hs hauth

/-! ## Times -/

/-- A date and a time of the day. -/
def timeText (colon : List Char) (date : Calendar.Date) (time : Nat) : List Char :=
  Digits.padded 4 date.year ++ '-' :: (Digits.padded 2 date.month ++ '-' ::
    (Digits.padded 2 date.day ++ 'T' :: (Digits.padded 2 (time / 3600) ++ (colon ++
      (Digits.padded 2 (time % 3600 / 60) ++ (colon ++ Digits.padded 2 (time % 60)))))))

theorem toList_dateTime (colon : String) (date : Calendar.Date) (time : Nat) :
    (dateTime colon date.year date.month date.day time).toList = timeText colon.toList date time := by
  show (format 4 date.year ++ "-" ++ format 2 date.month ++ "-" ++ format 2 date.day ++ "T" ++
    format 2 (time / 3600) ++ colon ++ format 2 (time % 3600 / 60) ++ colon ++
    format 2 (time % 60)).toList = timeText colon.toList date time
  simp only [format, timeText, String.toList_append, String.toList_ofList, List.append_assoc]
  rfl

theorem timestamp_eq (colon : String) {nowUtc days year : Int} {month day time : Nat}
    (hdays : nowUtc.tdiv 86400 = days) (hcivil : Calendar.civil days = (year, month, day))
    (htime : (nowUtc - days * 86400).natAbs = time) :
    timestamp colon nowUtc = dateTime colon year month day time := by
  subst hdays htime
  show dateTime colon (Calendar.civil (nowUtc.tdiv 86400)).1 (Calendar.civil (nowUtc.tdiv 86400)).2.1
    (Calendar.civil (nowUtc.tdiv 86400)).2.2 _ = _
  rw [hcivil]

/-- No second from 1970-01-01 on is cut off. -/
theorem toList_timestamp (colon : String) (nowUtc : Nat) :
    (timestamp colon nowUtc).toList = timeText colon.toList
      (Calendar.Date.ofDays (nowUtc / 86400)) (nowUtc - nowUtc / 86400 * 86400) := by
  have hdays : (nowUtc : Int).tdiv 86400 = (nowUtc / 86400 : Nat) := by
    rw [Int.tdiv_eq_ediv_of_nonneg (by omega)]
    omega
  have htime : ((nowUtc : Int) - (nowUtc / 86400 : Nat) * 86400).natAbs =
      nowUtc - nowUtc / 86400 * 86400 := by omega
  rw [timestamp_eq colon hdays (Calendar.civil_natCast _) htime, toList_dateTime]

theorem seconds?_timeText {date : Calendar.Date} (hyear : 1970 ≤ date.year ∧ date.year < 10000)
    (hdate : date.Valid) {time : Nat} (htime : time < 86400) :
    Calendar.seconds? (timeText [':'] date time) = some (date.days * 86400 + time) := by
  have hread := Calendar.seconds?_text hyear hdate (show time / 3600 < 24 by omega)
    (show time % 3600 / 60 < 60 by omega) (show time % 60 < 60 by omega)
  refine hread.trans (congrArg some ?_)
  omega

/-- A time says the second that it was made of. -/
theorem seconds?_timestamp {nowUtc : Nat} (h : nowUtc < 253402300800) :
    Calendar.seconds? (timestamp ":" nowUtc).toList = some nowUtc := by
  have hcolon : ":".toList = [':'] := rfl
  have hdays : nowUtc / 86400 < 2932897 := by omega
  rw [toList_timestamp, hcolon, seconds?_timeText ⟨Calendar.le_year_ofDays _,
    Calendar.year_ofDays hdays⟩ (Calendar.valid_ofDays _) (by omega), Calendar.days_ofDays]
  congr 1
  omega

theorem isUnreserved_digit {c : Char} (h : c.isDigit = true) : Percent.isUnreserved c = true := by
  simp [Percent.isUnreserved, Char.isAlphanum, h]

theorem encode_padded (width n : Nat) :
    Percent.encode (Digits.padded width n) = Digits.padded width n :=
  Percent.encode_unreserved fun _ hc => isUnreserved_digit (Digits.isDigit_padded hc)

/-- What is signed is the percent-encoded time. -/
theorem encode_timestamp (nowUtc : Nat) :
    Percent.encode (timestamp ":" nowUtc).toList = (timestamp "%3A" nowUtc).toList := by
  have hcolon : Percent.encode ":".toList = "%3A".toList := by decide
  have hdash : ∀ s, Percent.encode ('-' :: s) = '-' :: Percent.encode s := fun s => rfl
  have ht : ∀ s, Percent.encode ('T' :: s) = 'T' :: Percent.encode s := fun s => rfl
  rw [toList_timestamp, toList_timestamp, timeText, timeText]
  simp only [Percent.encode_append, encode_padded, hdash, ht, hcolon]

/-! ## Queries -/

/-- The parameters of a signed query. -/
def signedParameters (key : String) (nowUtc : Nat) (signature : String) : List Parameter :=
  queryParameters key nowUtc ++ [("Signature".toList, signature.toList)]

theorem sorted_queryParameters (key : String) (nowUtc : Nat) :
    Query.sorted (queryParameters key nowUtc) = queryParameters key nowUtc := by
  refine Query.sorted_eq ?_
  show ["AccessKeyId".toList, "SignatureMethod".toList, "SignatureVersion".toList,
    "Timestamp".toList].Pairwise fun s t => Query.le s t = true
  decide

theorem sorted_authParameters (key : String) (nowUtc : Nat) :
    Query.sorted (authParameters key nowUtc) = authParameters key nowUtc := by
  refine Query.sorted_eq ?_
  show ["accessKey".toList, "signatureMethod".toList, "signatureVersion".toList,
    "timestamp".toList].Pairwise fun s t => Query.le s t = true
  decide

theorem without_signedParameters (key : String) (nowUtc : Nat) (signature : String) :
    Query.without "Signature" (signedParameters key nowUtc signature) = queryParameters key nowUtc := by
  rfl

theorem signature_signedParameters (key : String) (nowUtc : Nat) (signature : String) :
    Query.value? "Signature" (signedParameters key nowUtc signature) = some signature.toList := by
  rfl

theorem mem_timestamp {colon : String} {nowUtc : Nat} {c : Char}
    (h : c ∈ (timestamp colon nowUtc).toList) :
    c.isDigit = true ∨ c = '-' ∨ c = 'T' ∨ c ∈ colon.toList := by
  have hpadded : ∀ {width n}, c ∈ Digits.padded width n → c.isDigit = true := Digits.isDigit_padded
  rw [toList_timestamp, timeText] at h
  simp only [List.mem_append, List.mem_cons] at h
  grind

theorem amp_timestamp (nowUtc : Nat) : '&' ∉ (timestamp "%3A" nowUtc).toList := by
  intro h
  have hamp := mem_timestamp h
  revert hamp
  decide

theorem plain_signedParameters (hkey : ∀ c ∈ key.toList, Percent.isUnreserved c = true) (nowUtc : Nat)
    {signature : String} (hsignature : '&' ∉ signature.toList) :
    ∀ p ∈ signedParameters key nowUtc signature, Query.Plain p := by
  have hamp : '&' ∉ key.toList := fun h => by cases hkey '&' h
  have htime := amp_timestamp nowUtc
  have hname : ∀ name ∈ ["AccessKeyId", "SignatureMethod", "SignatureVersion", "Timestamp",
      "Signature"], '=' ∉ name.toList ∧ '&' ∉ name.toList := by decide
  have hconst : ∀ value ∈ ["HmacSHA256", "2"], '&' ∉ value.toList := by decide
  rw [signedParameters, queryParameters]
  generalize (timestamp "%3A" nowUtc).toList = time at htime ⊢
  simp only [List.cons_append, List.nil_append, List.forall_mem_cons, List.not_mem_nil,
    false_implies, implies_true, and_true] at hname hconst ⊢
  exact ⟨⟨hname.1, hamp⟩, ⟨hname.2.1, hconst.1⟩, ⟨hname.2.2.1, hconst.2⟩, ⟨hname.2.2.2.1, htime⟩,
    ⟨hname.2.2.2.2, hsignature⟩⟩

theorem query_text (key : String) (nowUtc : Nat) (signature : String) :
    ("?" ++ String.ofList (Query.text (queryParameters key nowUtc)) ++
      ("&Signature=" ++ signature)).toList =
      '?' :: Query.text (signedParameters key nowUtc signature) := by
  have hl : queryParameters key nowUtc ≠ [] := List.cons_ne_nil _ _
  rw [signedParameters, Query.text_concat hl, Query.parameterText]
  simp only [String.toList_append, String.toList_ofList]
  rfl

theorem decode_timestamp (nowUtc : Nat) :
    Percent.decode (timestamp "%3A" nowUtc).toList = some (timestamp ":" nowUtc).toList := by
  rw [← encode_timestamp]
  refine Percent.decode_encode fun c hc => ?_
  rcases mem_timestamp hc with h | rfl | rfl | h
  · have := Digits.toNat_alphanum (by rw [Char.isAlphanum, h, Bool.or_true] : c.isAlphanum = true)
    omega
  · decide
  · decide
  · obtain rfl : c = ':' := by simpa using h
    decide

theorem toNat_signature (hcodecs : codecs.Lawful) (text : String) :
    ∀ c ∈ (signature μ codecs secret text).toList, c.toNat < 128 := by
  intro c hc
  rcases hcodecs.base64 _ c hc with h | rfl | rfl | rfl
  · exact Nat.lt_of_le_of_lt (Digits.toNat_alphanum h).2 (by decide)
  all_goals decide

theorem amp_urlEncode (hcodecs : codecs.Lawful) {s : String} (hs : ∀ c ∈ s.toList, c.toNat < 128) :
    '&' ∉ (codecs.urlEncode s).toList :=
  fun h => absurd (hcodecs.urlEncode s hs '&' h) (by decide)

variable {method path : String} {nowUtc : Nat}

/-- The query that is made verifies. -/
theorem verifiesQuery (hcodecs : codecs.Lawful)
    (hkey : ∀ c ∈ key.toList, Percent.isUnreserved c = true) (hnow : nowUtc < 253402300800) :
    VerifiesQuery μ codecs key secret hostname method path nowUtc
      ("?" ++ String.ofList (Query.text (queryParameters key nowUtc)) ++ ("&Signature=" ++
        codecs.urlEncode (signature μ codecs secret
          (signedText method hostname path (queryParameters key nowUtc))))) := by
  generalize hs : signature μ codecs secret
    (signedText method hostname path (queryParameters key nowUtc)) = sig
  have hascii : ∀ c ∈ sig.toList, c.toNat < 128 := hs ▸ toNat_signature hcodecs _
  have hdecode := hcodecs.decode_urlEncode sig hascii
  have hread := Query.read_text (plain_signedParameters hkey nowUtc (amp_urlEncode hcodecs hascii))
    (List.append_ne_nil_of_right_ne_nil _ (List.cons_ne_nil _ _))
  constructor
  · rw [query_text]
    rfl
  · rw [query_text, List.tail_cons, hread, signature_signedParameters, without_signedParameters,
      Option.bind_some, hdecode, canonical, sorted_queryParameters, ← hs]
    rfl
  · rw [query_text, List.tail_cons, hread]
    rfl
  · rw [query_text, List.tail_cons, hread]
    show ((some _).bind _).bind _ = _
    rw [Option.bind_some, decode_timestamp, Option.bind_some, seconds?_timestamp hnow]

/-! ## Logins -/

theorem plain_key (hkey : ∀ c ∈ key.toList, Percent.isUnreserved c = true) : JsonText.Plain key := by
  intro c hc
  have hunreserved := hkey c hc
  simp only [Percent.isUnreserved, Bool.or_eq_true, decide_eq_true_eq] at hunreserved
  rcases hunreserved with (((h | rfl) | rfl) | rfl) | rfl
  · exact JsonText.plain_alphanum h
  all_goals decide

theorem plain_timestamp (nowUtc : Nat) : JsonText.Plain (timestamp ":" nowUtc) := by
  intro c hc
  rcases mem_timestamp hc with h | rfl | rfl | h
  · exact JsonText.plain_digit h
  · decide
  · decide
  · obtain rfl : c = ':' := by simpa using h
    decide

theorem plain_signature (hcodecs : codecs.Lawful) (text : String) :
    JsonText.Plain (signature μ codecs secret text) := by
  intro c hc
  rcases hcodecs.base64 _ c hc with h | rfl | rfl | rfl
  · exact JsonText.plain_alphanum h
  all_goals decide

theorem plain_authMembers {timestamp signature : String} (hkey : JsonText.Plain key)
    (htimestamp : JsonText.Plain timestamp) (hsignature : JsonText.Plain signature) :
    (Value.object (authMembers key timestamp signature)).Plain := by
  have hname : ∀ name ∈ ["action", "req", "ch", "auth", "params", "authType", "api", "accessKey",
      "signatureMethod", "HmacSHA256", "signatureVersion", "2.1", "timestamp", "signature"],
      JsonText.Plain name := by decide
  simp only [List.forall_mem_cons, List.not_mem_nil, false_implies, implies_true, and_true] at hname
  simp only [authMembers, paramsMembers, Value.Plain, JsonText.membersPlain, JsonText.memberPlain]
  simp only [hname, hkey, htimestamp, hsignature, and_self]

theorem loginParameters_authMembers {timestamp signature : String} (hkey : JsonText.Plain key)
    (htimestamp : JsonText.Plain timestamp) (hsignature : JsonText.Plain signature) :
    loginParameters (String.ofList (Value.object (authMembers key timestamp signature)).text) =
      some (paramsMembers key timestamp signature) := by
  rw [loginParameters, JsonText.parse_text (plain_authMembers hkey htimestamp hsignature)]
  rfl

theorem loginSigned_paramsMembers (key : String) (nowUtc : Nat) (signature : String) :
    loginSigned (paramsMembers key (timestamp ":" nowUtc) signature) =
      some (authParameters key nowUtc) := by
  rw [authParameters, ← encode_timestamp]
  rfl

theorem stringOf_key (key timestamp signature : String) :
    stringOf "accessKey" (paramsMembers key timestamp signature) = some key := rfl

theorem stringOf_timestamp (key timestamp signature : String) :
    stringOf "timestamp" (paramsMembers key timestamp signature) = some timestamp := rfl

theorem stringOf_signature (key timestamp signature : String) :
    stringOf "signature" (paramsMembers key timestamp signature) = some signature := rfl

/-- The login that is made verifies. -/
theorem verifiesAuth (hcodecs : codecs.Lawful)
    (hkey : ∀ c ∈ key.toList, Percent.isUnreserved c = true) (hnow : nowUtc < 253402300800) :
    VerifiesAuth μ codecs key secret hostname path nowUtc
      (String.ofList (Value.object (authMembers key (timestamp ":" nowUtc) (signature μ codecs secret
        (signedText "GET" hostname path (authParameters key nowUtc))))).text)
      (paramsMembers key (timestamp ":" nowUtc) (signature μ codecs secret
        (signedText "GET" hostname path (authParameters key nowUtc))))
      (authParameters key nowUtc) := by
  constructor
  · exact loginParameters_authMembers (plain_key hkey) (plain_timestamp nowUtc)
      (plain_signature hcodecs _)
  · exact loginSigned_paramsMembers key nowUtc _
  · rw [stringOf_signature, canonical, sorted_authParameters, signedText]
  · exact stringOf_key key _ _
  · rw [stringOf_timestamp, Option.bind_some, seconds?_timestamp hnow]

/-! ## Calls -/

theorem query_verifies (hcodecs : codecs.Lawful)
    (hkey : ∀ c ∈ key.toList, Percent.isUnreserved c = true) (hs : Signs key secret hostname s)
    (method : String) (hpath : path ≠ "") (hnow : nowUtc < 253402300800) :
    ∃ query s', s.createQuery codecs assertions method path nowUtc = some (query, s') ∧
      VerifiesQuery μ codecs key secret hostname method path nowUtc query := by
  obtain ⟨s', h⟩ := createQuery_eq codecs assertions hs method hpath nowUtc
  exact ⟨_, s', h, verifiesQuery hcodecs hkey hnow⟩

theorem wsAuth_verifies (hcodecs : codecs.Lawful)
    (hkey : ∀ c ∈ key.toList, Percent.isUnreserved c = true) (hs : Signs key secret hostname s)
    (hpath : path ≠ "") (hnow : nowUtc < 253402300800) :
    ∃ text s' parameters signed, s.createWsAuth codecs assertions path nowUtc = some (text, s') ∧
      VerifiesAuth μ codecs key secret hostname path nowUtc text parameters signed := by
  obtain ⟨s', h⟩ := createWsAuth_eq codecs assertions hs hpath nowUtc
  exact ⟨_, s', _, _, h, verifiesAuth hcodecs hkey hnow⟩

theorem seconds_eq {nanoseconds : Int} (h : 0 ≤ nanoseconds) :
    seconds nanoseconds = (nanoseconds.toNat / 1000000000 : Nat) := by
  rw [seconds, Int.tdiv_eq_ediv_of_nonneg h]
  omega

/-- An account signs in the second of the trace. -/
theorem account_verifies (hcodecs : codecs.Lawful)
    (hkey : ∀ c ∈ key.toList, Percent.isUnreserved c = true)
    (hreach : (crypto codecs assertions key secret hostname).Reachable s) {trace : TraceInfo}
    (htrace : 0 ≤ trace.originCreateTimeUtc ∧ trace.originCreateTimeUtc < 253402300800000000000)
    (method : Http.Method) (hpath : path ≠ "") :
    (∃ query s', accountQuery codecs assertions trace method path s = some (query, s') ∧
      VerifiesQuery μ codecs key secret hostname method.name path
        (trace.originCreateTimeUtc.toNat / 1000000000) query) ∧
    ∃ text s' parameters signed, accountWsAuth codecs assertions trace path s = some (text, s') ∧
      VerifiesAuth μ codecs key secret hostname path
        (trace.originCreateTimeUtc.toNat / 1000000000) text parameters signed := by
  have hs := signs_reachable hreach
  have hnow : trace.originCreateTimeUtc.toNat / 1000000000 < 253402300800 := by omega
  rw [accountQuery, accountWsAuth, seconds_eq htrace.1]
  exact ⟨query_verifies hcodecs hkey hs method.name hpath hnow,
    wsAuth_verifies hcodecs hkey hs hpath hnow⟩

/-- Whatever was signed before, a query and a login verify. -/
theorem signatures_verify (hcodecs : codecs.Lawful)
    (hkey : ∀ c ∈ key.toList, Percent.isUnreserved c = true)
    (hreach : (crypto codecs assertions key secret hostname).Reachable s) (method : String)
    {path : String} (hpath : path ≠ "") {nowUtc : Nat} (hnow : nowUtc < 253402300800) :
    (∃ query s', s.createQuery codecs assertions method path nowUtc = some (query, s') ∧
      VerifiesQuery μ codecs key secret hostname method path nowUtc query) ∧
    ∃ text s' parameters signed, s.createWsAuth codecs assertions path nowUtc = some (text, s') ∧
      VerifiesAuth μ codecs key secret hostname path nowUtc text parameters signed := by
  have hs := signs_reachable hreach
  exact ⟨query_verifies hcodecs hkey hs method hpath hnow, wsAuth_verifies hcodecs hkey hs hpath hnow⟩

/-! ## An account -/

def base64Char (n : Nat) : Char :=
  "ABCDEFGHIJKLMNOPQRSTUVWXYZabcdefghijklmnopqrstuvwxyz0123456789+/".toList.getD (n % 64) '='

/-- Base64, with padding. -/
def base64 : List UInt8 → List Char
  | a :: b :: c :: s =>
    let n := (a.toNat * 256 + b.toNat) * 256 + c.toNat
    base64Char (n / 262144) :: base64Char (n / 4096) :: base64Char (n / 64) :: base64Char n :: base64 s
  | [a, b] =>
    let n := (a.toNat * 256 + b.toNat) * 4
    [base64Char (n / 4096), base64Char (n / 64), base64Char n, '=']
  | [a] => [base64Char (a.toNat / 4), base64Char (a.toNat * 16), '=', '=']
  | [] => []

/-- What was given to an HMAC since it was cleared. -/
structure Hasher where
  secret : String
  text : String

/-- The HMAC-SHA256 of a few texts. -/
def hmacs : List (String × List UInt8) :=
  [("GET\napi.huobi.pro\n/v1/account/accounts\nAccessKeyId=ab12-cd34&SignatureMethod=HmacSHA256&" ++
      "SignatureVersion=2&Timestamp=2000-02-29T12%3A34%3A56",
    [2, 246, 94, 2, 100, 28, 233, 251, 4, 143, 87, 134, 52, 201, 154, 200, 131, 248, 238, 42, 114, 125,
      1, 205, 105, 159, 172, 158, 250, 239, 201, 233]),
    ("GET\napi.huobi.pro\n/v1/account/accounts\naccessKey=ab12-cd34&signatureMethod=HmacSHA256&" ++
      "signatureVersion=2.1&timestamp=2000-02-29T12%3A34%3A56",
    [54, 27, 61, 222, 245, 209, 51, 221, 162, 102, 93, 140, 158, 126, 36, 187, 129, 158, 218, 95, 4,
      132, 213, 3, 125, 58, 167, 114, 76, 66, 69, 53]),
    ("GET\napi.huobi.pro\n/ws/v2\naccessKey=ab12-cd34&signatureMethod=HmacSHA256&" ++
      "signatureVersion=2.1&timestamp=2000-02-29T12%3A34%3A56",
    [244, 29, 255, 161, 158, 141, 120, 100, 238, 38, 123, 249, 32, 231, 103, 117, 42, 242, 111, 139,
      209, 16, 53, 11, 23, 251, 17, 144, 39, 187, 98, 151])]

instance : Mac Hasher (List UInt8) where
  init secret := ⟨secret, ""⟩
  clear m := ⟨m.secret, ""⟩
  update m s := ⟨m.secret, m.text ++ s⟩
  final m := (if m.secret = "secret" then (hmacs.lookup m.text).getD [] else [], m)
  hmac secret text := if secret = "secret" then (hmacs.lookup text).getD [] else []
  secret := Hasher.secret
  text := Hasher.text
  secret_init _ := rfl
  secret_clear _ := rfl
  secret_update _ _ := rfl
  secret_final _ := rfl
  text_clear _ := rfl
  text_update _ _ := rfl
  digest_final _ := rfl

def accountCodecs : Codecs (List UInt8) where
  base64 digest := String.ofList (base64 digest)
  urlEncode s := String.ofList (Percent.encode s.toList)

theorem base64Char_mem (n : Nat) :
    (base64Char n).isAlphanum = true ∨ base64Char n = '+' ∨ base64Char n = '/' := by
  have hdigits : ∀ i < 64, (base64Char i).isAlphanum = true ∨ base64Char i = '+' ∨ base64Char i = '/' := by
    decide +kernel
  have hmod : base64Char n = base64Char (n % 64) := by rw [base64Char, base64Char, Nat.mod_mod]
  rw [hmod]
  exact hdigits _ (Nat.mod_lt n (by decide))

theorem mem_base64 (digest : List UInt8) {c : Char} (h : c ∈ base64 digest) :
    c.isAlphanum = true ∨ c = '+' ∨ c = '/' ∨ c = '=' := by
  have hchar : ∀ n, c = base64Char n → c.isAlphanum = true ∨ c = '+' ∨ c = '/' ∨ c = '=' := by
    rintro n rfl
    rcases base64Char_mem n with h | h | h <;> simp [h]
  fun_induction base64 digest with
  | case1 a b d s n ih =>
    simp only [List.mem_cons] at h
    rcases h with h | h | h | h | h
    exacts [hchar _ h, hchar _ h, hchar _ h, hchar _ h, ih h]
  | case2 a b n =>
    simp only [List.mem_cons, List.not_mem_nil, or_false] at h
    rcases h with h | h | h | rfl
    exacts [hchar _ h, hchar _ h, hchar _ h, by simp]
  | case3 a =>
    simp only [List.mem_cons, List.not_mem_nil, or_false] at h
    rcases h with h | h | rfl | rfl
    exacts [hchar _ h, hchar _ h, by simp, by simp]
  | case4 => cases h

theorem lawful_accountCodecs : accountCodecs.Lawful where
  base64 digest c hc := mem_base64 digest (by simpa [accountCodecs] using hc)
  urlEncode s hs c hc := Percent.mem_encode (fun d hd => Nat.lt_trans (hs d hd) (by decide))
    (by simpa [accountCodecs] using hc)
  decode_urlEncode s hs := by
    rw [accountCodecs, String.toList_ofList]
    exact Percent.decode_encode fun c hc => Nat.lt_trans (hs c hc) (by decide)

def account : Machine (Crypto Hasher (List UInt8)) CryptoCall :=
  crypto accountCodecs true "ab12-cd34" "secret" "api.huobi.pro"

example :
    ((account.init.createQuery accountCodecs true "GET" "/v1/account/accounts" 951827696).map
      Prod.fst) = some ("?AccessKeyId=ab12-cd34&SignatureMethod=HmacSHA256&SignatureVersion=2&" ++
        "Timestamp=2000-02-29T12%3A34%3A56&" ++
        "Signature=AvZeAmQc6fsEj1eGNMmayIP47ipyfQHNaZ%2Bsnvrvyek%3D") := by
  decide +kernel

theorem signatures_verify_leap :
    ∃ s : Crypto Hasher (List UInt8),
      account.step account.init (.wsAuth "/v1/account/accounts" 951827696) = some s ∧
      (∃ query s', s.createQuery accountCodecs true "GET" "/v1/account/accounts" 951827696 =
          some (query, s') ∧
        VerifiesQuery Hasher accountCodecs "ab12-cd34" "secret" "api.huobi.pro" "GET"
          "/v1/account/accounts" 951827696 query) ∧
      ∃ text s' parameters signed,
        s.createWsAuth accountCodecs true "/v1/account/accounts" 951827696 = some (text, s') ∧
        VerifiesAuth Hasher accountCodecs "ab12-cd34" "secret" "api.huobi.pro"
          "/v1/account/accounts" 951827696 text parameters signed := by
  obtain ⟨s, hs⟩ : ∃ s, account.step account.init (.wsAuth "/v1/account/accounts" 951827696) = some s :=
    ⟨_, rfl⟩
  exact ⟨s, hs, signatures_verify lawful_accountCodecs
    (List.all_eq_true.mp (by decide : "ab12-cd34".toList.all Percent.isUnreserved = true))
    (.step .init trivial hs) "GET" (by decide) (by decide)⟩

end Crypto

end RoqHtx
