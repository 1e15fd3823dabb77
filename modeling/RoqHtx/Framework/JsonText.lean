import Mathlib.Data.List.TakeWhile
import RoqHtx.Framework.Digits

/-!
# JSON texts

A reader of JSON texts (`parse`), and the least text of a value (`Value.text`):
without spaces, and without escapes. `parse_text` is the round trip, for values
whose strings need no escapes and whose numbers are JSON numbers (`Value.Plain`).
The reader takes fuel, one unit for each value and each separator; the length of
the text is enough.
-/

namespace RoqHtx.JsonText

open RoqHtx.Digits (hexDigit?)

inductive Value where
  | null
  | bool (b : Bool)
  | number (text : String)
  | string (s : String)
  | array (l : List Value)
  | object (members : List (String × Value))

/-! ## Reading -/

def isSpace (c : Char) : Bool := c = ' ' || c = '\t' || c = '\n' || c = '\r'

def skip (s : List Char) : List Char := s.dropWhile isSpace

def readHex : List Char → Option (Nat × List Char)
  | a :: b :: c :: d :: s => do
    let a ← hexDigit? a
    let b ← hexDigit? b
    let c ← hexDigit? c
    let d ← hexDigit? d
    some (((a * 16 + b) * 16 + c) * 16 + d, s)
  | _ => none

/-- What follows `\u`; a character outside the basic plane takes two of them. -/
def readUnicode (s : List Char) : Option (Char × List Char) := do
  let (high, s) ← readHex s
  if high < 0xd800 || 0xdfff < high then some (Char.ofNat high, s)
  else if 0xdbff < high then none
  else
    match s with
    | '\\' :: 'u' :: s => do
      let (low, s) ← readHex s
      if 0xdc00 ≤ low && low ≤ 0xdfff then
        some (Char.ofNat (0x10000 + (high - 0xd800) * 0x400 + (low - 0xdc00)), s)
      else none
    | _ => none

def escape? : Char → Option Char
  | '"' => some '"'
  | '\\' => some '\\'
  | '/' => some '/'
  | 'b' => some '\x08'
  | 'f' => some '\x0c'
  | 'n' => some '\n'
  | 'r' => some '\r'
  | 't' => some '\t'
  | _ => none

def unescape : Nat → List Char → Option (List Char)
  | _, [] => some []
  | 0, _ => none
  | fuel + 1, '\\' :: s =>
    match s with
    | 'u' :: s => do
      let (c, s) ← readUnicode s
      (unescape fuel s).map (c :: ·)
    | c :: s => do
      let c ← escape? c
      (unescape fuel s).map (c :: ·)
    | [] => none
  | fuel + 1, c :: s => (unescape fuel s).map (c :: ·)

/-- A string up to its quote, with its escapes, and what follows the quote. -/
def readRaw : List Char → Option (List Char × List Char)
  | [] => none
  | '"' :: s => some ([], s)
  | '\\' :: c :: s => (readRaw s).map fun (t, s) => ('\\' :: c :: t, s)
  | c :: s => if c < ' ' then none else (readRaw s).map fun (t, s) => (c :: t, s)

def readString (s : List Char) : Option (String × List Char) := do
  let (raw, s) ← readRaw s
  let t ← unescape raw.length raw
  some (String.ofList t, s)

/-! ### Numbers -/

def isNumberChar (c : Char) : Bool :=
  c.isDigit || c = '-' || c = '+' || c = '.' || c = 'e' || c = 'E'

/-- What follows some digits. -/
def dropDigits : List Char → Option (List Char)
  | [] => none
  | c :: s => if c.isDigit then some (s.dropWhile Char.isDigit) else none

def isExponent : List Char → Bool
  | [] => true
  | c :: s => (c = 'e' || c = 'E') &&
    match s with
    | '+' :: s | '-' :: s => dropDigits s == some []
    | s => dropDigits s == some []

def isFraction : List Char → Bool
  | '.' :: s => (dropDigits s).any isExponent
  | s => isExponent s

/-- A number without a sign. -/
def isUnsigned : List Char → Bool
  | '0' :: s => isFraction s
  | s => (dropDigits s).any isFraction

def isNumber : List Char → Bool
  | '-' :: s => isUnsigned s
  | s => isUnsigned s

def readNumber (s : List Char) : Option (Value × List Char) :=
  let t := s.takeWhile isNumberChar
  if isNumber t then some (.number (String.ofList t), s.dropWhile isNumberChar) else none

/-! ### Values -/

mutual

/-- A value, from its first character on. -/
def readValue : Nat → List Char → Option (Value × List Char)
  | 0, _ => none
  | _ + 1, 'n' :: 'u' :: 'l' :: 'l' :: s => some (.null, s)
  | _ + 1, 't' :: 'r' :: 'u' :: 'e' :: s => some (.bool true, s)
  | _ + 1, 'f' :: 'a' :: 'l' :: 's' :: 'e' :: s => some (.bool false, s)
  | _ + 1, '"' :: s => (readString s).map fun (t, s) => (.string t, s)
  | fuel + 1, '[' :: s =>
    match skip s with
    | ']' :: s => some (.array [], s)
    | s => do
      let (v, s) ← readValue fuel s
      let (l, s) ← readElements fuel (skip s)
      some (.array (v :: l), s)
  | fuel + 1, '\x7b' :: s =>
    match skip s with
    | '\x7d' :: s => some (.object [], s)
    | s => do
      let (member, s) ← readMember fuel s
      let (l, s) ← readMembers fuel (skip s)
      some (.object (member :: l), s)
  | _ + 1, s => readNumber s

/-- The further elements of an array. -/
def readElements : Nat → List Char → Option (List Value × List Char)
  | _ + 1, ']' :: s => some ([], s)
  | fuel + 1, ',' :: s => do
    let (v, s) ← readValue fuel (skip s)
    let (l, s) ← readElements fuel (skip s)
    some (v :: l, s)
  | _, _ => none

def readMember : Nat → List Char → Option ((String × Value) × List Char)
  | fuel + 1, '"' :: s => do
    let (name, s) ← readString s
    match skip s with
    | ':' :: s => do
      let (v, s) ← readValue fuel (skip s)
      some ((name, v), s)
    | _ => none
  | _, _ => none

/-- The further members of an object. -/
def readMembers : Nat → List Char → Option (List (String × Value) × List Char)
  | _ + 1, '\x7d' :: s => some ([], s)
  | fuel + 1, ',' :: s => do
    let (member, s) ← readMember fuel (skip s)
    let (l, s) ← readMembers fuel (skip s)
    some (member :: l, s)
  | _, _ => none

end

def parse (text : String) : Option Value := do
  let (v, s) ← readValue text.length (skip text.toList)
  if skip s = [] then some v else none

example : (["\x7b \"a\" : [-2.5e+3, \"\\u00e9\\n\", \x7b\x7d]\x7d", "\x7b\"a\":01\x7d",
    "\x7b\"a\":1,\x7d"].map fun text => (parse text).isSome) = [true, false, false] := by
  decide +kernel

/-! ## Writing -/

def quoted (s : String) : List Char := '"' :: s.toList ++ ['"']

mutual

def Value.text : Value → List Char
  | .null => ['n', 'u', 'l', 'l']
  | .bool true => ['t', 'r', 'u', 'e']
  | .bool false => ['f', 'a', 'l', 's', 'e']
  | .number t => t.toList
  | .string s => quoted s
  | .array [] => ['[', ']']
  | .array (v :: l) => '[' :: v.text ++ elementsText l
  | .object [] => ['\x7b', '\x7d']
  | .object (member :: l) => '\x7b' :: memberText member ++ membersText l

def elementsText : List Value → List Char
  | [] => [']']
  | v :: l => ',' :: v.text ++ elementsText l

def memberText : String × Value → List Char
  | (name, v) => quoted name ++ ':' :: v.text

def membersText : List (String × Value) → List Char
  | [] => ['\x7d']
  | member :: l => ',' :: memberText member ++ membersText l

end

/-- A string that needs no escapes. -/
def Plain (s : String) : Prop := ∀ c ∈ s.toList, c ≠ '"' ∧ c ≠ '\\' ∧ ¬c < ' '

instance (s : String) : Decidable (Plain s) := List.decidableBAll _ s.toList

theorem plain_alphanum {c : Char} (h : c.isAlphanum = true) :
    c ≠ '"' ∧ c ≠ '\\' ∧ ¬c < ' ' := by
  refine ⟨(by rintro rfl; cases h), (by rintro rfl; cases h), fun hlt => ?_⟩
  have hspace : c.toNat < 32 := UInt32.lt_iff_toNat_lt.mp hlt
  have := (Digits.toNat_alphanum h).1
  omega

theorem plain_digit {c : Char} (h : c.isDigit = true) : c ≠ '"' ∧ c ≠ '\\' ∧ ¬c < ' ' :=
  plain_alphanum (by rw [Char.isAlphanum, h, Bool.or_true])

theorem plain_toString (n : Int) : Plain (toString n) := by
  intro c hc
  rw [Digits.toList_toString] at hc
  split at hc
  · exact plain_digit (Digits.isDigit_toDigits hc)
  · rcases List.mem_cons.mp hc with rfl | hc
    · decide
    · exact plain_digit (Digits.isDigit_toDigits hc)

theorem plain_append {s t : String} (hs : Plain s) (ht : Plain t) : Plain (s ++ t) := by
  intro c hc
  rw [String.toList_append, List.mem_append] at hc
  exact hc.elim (hs c) (ht c)

mutual

/-- A value that its text says. -/
def Value.Plain : Value → Prop
  | .null | .bool _ => True
  | .number t => isNumber t.toList = true ∧ t.toList.all isNumberChar = true
  | .string s => JsonText.Plain s
  | .array l => elementsPlain l
  | .object l => membersPlain l

def elementsPlain : List Value → Prop
  | [] => True
  | v :: l => v.Plain ∧ elementsPlain l

def memberPlain : String × Value → Prop
  | (name, v) => JsonText.Plain name ∧ v.Plain

def membersPlain : List (String × Value) → Prop
  | [] => True
  | member :: l => memberPlain member ∧ membersPlain l

end

/-! ## Round trip -/

theorem unescape_plain {s : List Char} (h : ∀ c ∈ s, c ≠ '\\') : unescape s.length s = some s := by
  induction s with
  | nil => rfl
  | cons c s ih =>
    have hc := h c List.mem_cons_self
    rw [List.length_cons, unescape.eq_def]
    split <;> simp_all

theorem readRaw_plain {s : List Char} (h : ∀ c ∈ s, c ≠ '"' ∧ c ≠ '\\' ∧ ¬c < ' ')
    (rest : List Char) : readRaw (s ++ '"' :: rest) = some (s, rest) := by
  induction s with
  | nil => rfl
  | cons c s ih =>
    obtain ⟨hquote, hescape, hcontrol⟩ := h c List.mem_cons_self
    rw [List.cons_append, readRaw.eq_def]
    split <;> simp_all

theorem readString_plain {s : String} (h : Plain s) (rest : List Char) :
    readString (s.toList ++ '"' :: rest) = some (s, rest) := by
  rw [readString, readRaw_plain h]
  simp [unescape_plain fun c hc => (h c hc).2.1]

theorem isUnsigned_toDigits (n : Nat) : isUnsigned (Nat.toDigits 10 n) = true := by
  rcases Nat.eq_zero_or_pos n with rfl | hn
  · rfl
  · obtain ⟨c, s, hs, hc⟩ := Digits.toDigits_eq_cons hn
    have hdigit : ∀ d ∈ c :: s, d.isDigit = true := fun d hd => Digits.isDigit_toDigits (hs ▸ hd)
    have hdrop : s.dropWhile Char.isDigit = [] :=
      List.dropWhile_eq_nil_iff.mpr fun d hd => hdigit d (List.mem_cons_of_mem c hd)
    rw [hs]
    unfold isUnsigned
    split
    · rename_i heq
      exact absurd (List.cons.inj heq).1 hc
    · rw [dropDigits, if_pos (hdigit c List.mem_cons_self), hdrop]
      rfl

theorem isNumberChar_digit {c : Char} (h : c.isDigit = true) : isNumberChar c = true := by
  simp [isNumberChar, h]

/-- A whole number is a JSON number. -/
theorem plain_int (n : Int) : (Value.number (toString n)).Plain := by
  have hchar : ∀ {n : Nat} {c : Char}, c ∈ Nat.toDigits 10 n → isNumberChar c = true :=
    fun hc => isNumberChar_digit (Digits.isDigit_toDigits hc)
  rw [Value.Plain, Digits.toList_toString, List.all_eq_true]
  split
  · refine ⟨?_, fun c hc => hchar hc⟩
    unfold isNumber
    split
    · rename_i heq
      have : '-' ∈ Nat.toDigits 10 n.toNat := heq ▸ List.mem_cons_self
      cases Digits.isDigit_toDigits this
    · exact isUnsigned_toDigits _
  · exact ⟨isUnsigned_toDigits _, List.forall_mem_cons.mpr ⟨by decide, fun c hc => hchar hc⟩⟩

/-- What follows a value does not go on with a number. -/
def Ends (rest : List Char) : Prop := ∀ c ∈ rest.head?, isNumberChar c = false

theorem readNumber_text {t rest : List Char} (hnumber : isNumber t = true)
    (hall : t.all isNumberChar = true) (hrest : Ends rest) :
    readNumber (t ++ rest) = some (.number (String.ofList t), rest) := by
  have hspan : ∀ c ∈ t, isNumberChar c = true := List.all_eq_true.mp hall
  have htake : rest.takeWhile isNumberChar = [] := by
    cases rest with
    | nil => rfl
    | cons c rest => rw [List.takeWhile_cons, hrest c rfl]; rfl
  have hdrop : rest.dropWhile isNumberChar = rest := by
    cases rest with
    | nil => rfl
    | cons c rest => rw [List.dropWhile_cons, hrest c rfl]; rfl
  rw [readNumber, List.takeWhile_append_of_pos hspan, List.dropWhile_append_of_pos hspan, htake,
    hdrop, List.append_nil, if_pos hnumber]

theorem isNumber_head {t : List Char} (h : isNumber t = true) :
    ∃ c s, t = c :: s ∧ (c = '-' ∨ c.isDigit = true) := by
  have unsigned : ∀ {t : List Char}, isUnsigned t = true → ∃ c s, t = c :: s ∧ c.isDigit = true := by
    intro t h
    unfold isUnsigned at h
    split at h
    · exact ⟨_, _, rfl, rfl⟩
    · cases t with
      | nil => cases h
      | cons c s =>
        refine ⟨c, s, rfl, ?_⟩
        rw [dropDigits] at h
        split at h
        · assumption
        · cases h
  unfold isNumber at h
  split at h
  · exact ⟨_, _, rfl, .inl rfl⟩
  · obtain ⟨c, s, ht, hc⟩ := unsigned h
    exact ⟨c, s, ht, .inr hc⟩

theorem readValue_number (fuel : Nat) {c : Char} (h : c = '-' ∨ c.isDigit = true) (s : List Char) :
    readValue (fuel + 1) (c :: s) = readNumber (c :: s) := by
  have hother : ∀ d : Char, d ≠ '-' → d.isDigit = false → c ≠ d := by
    rintro d hd hdigit rfl
    simp [hd, hdigit] at h
  have hn := hother 'n' (by decide) (by decide)
  have ht := hother 't' (by decide) (by decide)
  have hf := hother 'f' (by decide) (by decide)
  have hquote := hother '"' (by decide) (by decide)
  have hbracket := hother '[' (by decide) (by decide)
  have hbrace := hother '\x7b' (by decide) (by decide)
  rw [readValue.eq_def]
  split <;> simp_all

theorem skip_cons {c : Char} (h : isSpace c = false) (s : List Char) : skip (c :: s) = c :: s := by
  rw [skip, List.dropWhile_cons, h]
  rfl

theorem isSpace_of_number {c : Char} (h : c = '-' ∨ c.isDigit = true) :
    isSpace c = false ∧ c ≠ ']' := by
  rcases h with rfl | h
  · decide
  refine ⟨Bool.eq_false_iff.mpr fun hspace => ?_, by rintro rfl; cases h⟩
  simp only [isSpace, Bool.or_eq_true, decide_eq_true_eq] at hspace
  rcases hspace with ((rfl | rfl) | rfl) | rfl <;> cases h

theorem head_text {v : Value} (hv : v.Plain) :
    ∃ c s, v.text = c :: s ∧ isSpace c = false ∧ c ≠ ']' := by
  match v with
  | .null | .bool true | .bool false | .string _ | .array [] | .array (_ :: _) | .object []
  | .object (_ :: _) =>
    simp only [Value.text, quoted, List.cons_append, List.cons.injEq]
    exact ⟨_, _, ⟨rfl, rfl⟩, by decide, by decide⟩
  | .number t =>
    obtain ⟨c, s, ht, hc⟩ := isNumber_head hv.1
    exact ⟨c, s, ht, isSpace_of_number hc⟩

theorem ends_cons {c : Char} (h : isNumberChar c = false) (rest : List Char) : Ends (c :: rest) :=
  fun _ hc => Option.some.inj hc ▸ h

/-! ### Further elements and members -/

/-- A text that starts with no number and no space. -/
structure Starts (t : List Char) : Prop where
  skip (rest : List Char) : skip (t ++ rest) = t ++ rest
  ends (rest : List Char) : Ends (t ++ rest)
  length : 0 < t.length

theorem starts_cons {c : Char} (hspace : isSpace c = false) (hnumber : isNumberChar c = false)
    (s : List Char) : Starts (c :: s) where
  skip rest := skip_cons hspace (s ++ rest)
  ends rest := ends_cons hnumber (s ++ rest)
  length := Nat.succ_pos _

theorem starts_elements : ∀ l : List Value, Starts (elementsText l)
  | [] | _ :: _ => starts_cons (by decide) (by decide) _

theorem starts_members : ∀ l : List (String × Value), Starts (membersText l)
  | [] | _ :: _ => starts_cons (by decide) (by decide) _

theorem skip_text {v : Value} (hv : v.Plain) (rest : List Char) :
    skip (v.text ++ rest) = v.text ++ rest := by
  obtain ⟨c, s, hc, hspace, -⟩ := head_text hv
  rw [hc]
  exact skip_cons hspace (s ++ rest)

theorem skip_member (member : String × Value) (rest : List Char) :
    skip (memberText member ++ rest) = memberText member ++ rest := by
  obtain ⟨name, v⟩ := member
  rfl

/-! ### Values -/

theorem readValue_array (fuel : Nat) {v : Value} (hv : v.Plain) (rest : List Char) :
    readValue (fuel + 1) ('[' :: (v.text ++ rest)) =
      (readValue fuel (v.text ++ rest)).bind fun (v, s) =>
        (readElements fuel (skip s)).bind fun (l, s) => some (.array (v :: l), s) := by
  obtain ⟨c, s, hc, hspace, hbracket⟩ := head_text hv
  rw [readValue, hc, List.cons_append, skip_cons hspace]
  split
  · rename_i heq
    exact absurd (List.cons.inj heq).1 hbracket
  · rfl

theorem readValue_object (fuel : Nat) (member : String × Value) (rest : List Char) :
    readValue (fuel + 1) ('\x7b' :: (memberText member ++ rest)) =
      (readMember fuel (memberText member ++ rest)).bind fun (member, s) =>
        (readMembers fuel (skip s)).bind fun (l, s) => some (.object (member :: l), s) := by
  obtain ⟨name, v⟩ := member
  rfl

mutual

theorem readValue_text : ∀ v : Value, v.Plain → ∀ (fuel : Nat) (rest : List Char),
    v.text.length ≤ fuel → Ends rest → readValue fuel (v.text ++ rest) = some (v, rest)
  | .null, _, fuel + 1, rest, _, _ => rfl
  | .bool true, _, fuel + 1, rest, _, _ => rfl
  | .bool false, _, fuel + 1, rest, _, _ => rfl
  | .number t, hv, fuel + 1, rest, _, hrest => by
    obtain ⟨c, s, ht, hc⟩ := isNumber_head hv.1
    rw [Value.text, ht, List.cons_append, readValue_number fuel hc, ← List.cons_append, ← ht,
      readNumber_text hv.1 hv.2 hrest, String.ofList_toList]
  | .string t, hv, fuel + 1, rest, _, _ => by
    show readValue (fuel + 1) ('"' :: (t.toList ++ ['"'] ++ rest)) = _
    rw [List.append_assoc, readValue, List.singleton_append, readString_plain hv]
    rfl
  | .array [], _, fuel + 1, rest, _, _ => rfl
  | .array (v :: l), hv, fuel + 1, rest, hfuel, _ => by
    have hlength : v.text.length + (elementsText l).length ≤ fuel := by
      simp only [Value.text, List.length_append, List.length_cons] at hfuel
      omega
    have hl := starts_elements l
    have hpos := hl.length
    have hvalue := readValue_text v hv.1 fuel (elementsText l ++ rest) (by omega) (hl.ends rest)
    have helements := readElements_text l hv.2 fuel rest (by omega)
    show readValue (fuel + 1) ('[' :: (v.text ++ elementsText l ++ rest)) = _
    rw [List.append_assoc, readValue_array fuel hv.1, hvalue, Option.bind_some]
    dsimp only
    rw [hl.skip, helements]
    rfl
  | .object [], _, fuel + 1, rest, _, _ => rfl
  | .object (member :: l), hv, fuel + 1, rest, hfuel, _ => by
    have hlength : (memberText member).length + (membersText l).length ≤ fuel := by
      simp only [Value.text, List.length_append, List.length_cons] at hfuel
      omega
    have hl := starts_members l
    have hpos := hl.length
    have hmember := readMember_text member hv.1 fuel (membersText l ++ rest) (by omega) (hl.ends rest)
    have hmembers := readMembers_text l hv.2 fuel rest (by omega)
    show readValue (fuel + 1) ('\x7b' :: (memberText member ++ membersText l ++ rest)) = _
    rw [List.append_assoc, readValue_object, hmember, Option.bind_some]
    dsimp only
    rw [hl.skip, hmembers]
    rfl
  | v, hv, 0, rest, hfuel, _ => by
    obtain ⟨c, s, hc, -⟩ := head_text hv
    rw [hc] at hfuel
    cases hfuel

theorem readElements_text : ∀ l : List Value, elementsPlain l → ∀ (fuel : Nat) (rest : List Char),
    (elementsText l).length ≤ fuel → readElements fuel (elementsText l ++ rest) = some (l, rest)
  | [], _, fuel + 1, rest, _ => rfl
  | v :: l, hl, fuel + 1, rest, hfuel => by
    have hlength : v.text.length + (elementsText l).length ≤ fuel := by
      simp only [elementsText, List.length_append, List.length_cons] at hfuel
      omega
    have hstarts := starts_elements l
    have hpos := hstarts.length
    have hvalue := readValue_text v hl.1 fuel (elementsText l ++ rest) (by omega) (hstarts.ends rest)
    have helements := readElements_text l hl.2 fuel rest (by omega)
    show readElements (fuel + 1) (',' :: (v.text ++ elementsText l ++ rest)) = _
    rw [List.append_assoc, readElements, skip_text hl.1, hvalue]
    show (readElements fuel (skip (elementsText l ++ rest))).bind _ = _
    rw [hstarts.skip, helements]
    rfl
  | l, _, 0, rest, hfuel => absurd hfuel (Nat.not_le.mpr (starts_elements l).length)

theorem readMember_text : ∀ member : String × Value, memberPlain member →
    ∀ (fuel : Nat) (rest : List Char), (memberText member).length < fuel → Ends rest →
      readMember fuel (memberText member ++ rest) = some (member, rest)
  | (name, v), hmember, fuel + 1, rest, hfuel, hrest => by
    have hlength : v.text.length ≤ fuel := by
      simp only [memberText, quoted, List.length_append, List.length_cons] at hfuel
      omega
    have hvalue := readValue_text v hmember.2 fuel rest hlength hrest
    show readMember (fuel + 1) ('"' :: (name.toList ++ ['"'] ++ ':' :: v.text ++ rest)) = _
    have htext : name.toList ++ ['"'] ++ ':' :: v.text ++ rest =
        name.toList ++ '"' :: ':' :: (v.text ++ rest) := by simp
    rw [htext, readMember, readString_plain hmember.1]
    show (readValue fuel (skip (v.text ++ rest))).bind _ = _
    rw [skip_text hmember.2, hvalue]
    rfl
  | _, _, 0, _, hfuel, _ => absurd hfuel (Nat.not_lt_zero _)

theorem readMembers_text : ∀ l : List (String × Value), membersPlain l →
    ∀ (fuel : Nat) (rest : List Char), (membersText l).length ≤ fuel →
      readMembers fuel (membersText l ++ rest) = some (l, rest)
  | [], _, fuel + 1, rest, _ => rfl
  | member :: l, hl, fuel + 1, rest, hfuel => by
    have hlength : (memberText member).length + (membersText l).length ≤ fuel := by
      simp only [membersText, List.length_append, List.length_cons] at hfuel
      omega
    have hstarts := starts_members l
    have hpos := hstarts.length
    have hmember := readMember_text member hl.1 fuel (membersText l ++ rest) (by omega)
      (hstarts.ends rest)
    have hmembers := readMembers_text l hl.2 fuel rest (by omega)
    show readMembers (fuel + 1) (',' :: (memberText member ++ membersText l ++ rest)) = _
    rw [List.append_assoc, readMembers, skip_member, hmember]
    show (readMembers fuel (skip (membersText l ++ rest))).bind _ = _
    rw [hstarts.skip, hmembers]
    rfl
  | l, _, 0, rest, hfuel => absurd hfuel (Nat.not_le.mpr (starts_members l).length)

end

/-- The text of a value is read as that value. -/
theorem parse_text {v : Value} (hv : v.Plain) : parse (String.ofList v.text) = some v := by
  have hvalue := readValue_text v hv v.text.length [] (Nat.le_refl _) (by simp [Ends])
  have hskip := skip_text hv []
  rw [List.append_nil] at hvalue hskip
  rw [parse, String.toList_ofList, String.length_ofList, hskip, hvalue]
  rfl

end RoqHtx.JsonText
