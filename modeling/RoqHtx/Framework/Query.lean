import Mathlib.Data.List.Basic
import Mathlib.Data.List.TakeWhile

/-!
# Query strings

Parameters, as names and values, with `=` between the two and `&` between one and
the next (`text`), and read back (`read_text`).
-/

namespace RoqHtx.Query

/-- A name and a value. -/
abbrev Parameter := List Char × List Char

def parameterText (p : Parameter) : List Char := p.1 ++ '=' :: p.2

def text (l : List Parameter) : List Char := ['&'].intercalate (l.map parameterText)

theorem text_cons (p : Parameter) {l : List Parameter} (hl : l ≠ []) :
    text (p :: l) = parameterText p ++ '&' :: text l := by
  rw [text, List.map_cons, List.intercalate_cons_of_ne_nil (by simpa using hl), List.append_assoc]
  rfl

theorem text_concat {l : List Parameter} (hl : l ≠ []) (p : Parameter) :
    text (l ++ [p]) = text l ++ '&' :: parameterText p := by
  induction l with
  | nil => contradiction
  | cons q l ih =>
    cases l with
    | nil =>
      rw [List.singleton_append, text_cons q (List.cons_ne_nil p [])]
      simp [text]
    | cons r l =>
      rw [List.cons_append, text_cons q (by simp), ih (List.cons_ne_nil r l),
        text_cons q (List.cons_ne_nil r l), List.append_assoc, List.cons_append]

/-! ## Reading -/

/-- A parameter, up to its first `=` and from there on. -/
def readParameter (s : List Char) : Parameter :=
  (s.takeWhile (· != '='), (s.dropWhile (· != '=')).tail)

def read (s : List Char) : List Parameter := (s.splitOn '&').map readParameter

def value? (name : String) (l : List Parameter) : Option (List Char) := l.lookup name.toList

/-- All the parameters but those of a name. -/
def without (name : String) (l : List Parameter) : List Parameter :=
  l.filter fun p => p.1 != name.toList

/-- The order of names: that of the first characters in which they differ. -/
def le (s t : List Char) : Bool := !t.lex s fun c d => decide (c < d)

/-- By their names. -/
def sorted (l : List Parameter) : List Parameter := l.mergeSort fun p q => le p.1 q.1

/-! ## Round trip -/

/-- A parameter that its text says. -/
structure Plain (p : Parameter) : Prop where
  name : '=' ∉ p.1 ∧ '&' ∉ p.1
  value : '&' ∉ p.2

theorem readParameter_text {p : Parameter} (h : Plain p) : readParameter (parameterText p) = p := by
  have hname : ∀ c ∈ p.1, (c != '=') = true := fun c hc => by
    simpa using fun heq : c = '=' => h.name.1 (heq ▸ hc)
  have htake : (p.1 ++ '=' :: p.2).takeWhile (· != '=') = p.1 := by
    rw [List.takeWhile_append_of_pos hname, List.takeWhile_cons_of_neg (by decide), List.append_nil]
  have hdrop : (p.1 ++ '=' :: p.2).dropWhile (· != '=') = '=' :: p.2 := by
    rw [List.dropWhile_append_of_pos hname, List.dropWhile_cons_of_neg (by decide)]
  rw [readParameter, parameterText, htake, hdrop]
  rfl

/-- The parameters are read as they were written. -/
theorem read_text {l : List Parameter} (h : ∀ p ∈ l, Plain p) (hl : l ≠ []) : read (text l) = l := by
  have hamp : ∀ s ∈ l.map parameterText, '&' ∉ s := by
    intro s hs
    obtain ⟨p, hp, rfl⟩ := List.mem_map.mp hs
    simpa [parameterText] using ⟨(h p hp).name.2, (h p hp).value⟩
  rw [read, text, List.splitOn_intercalate '&' hamp (by simpa using hl), List.map_map]
  calc l.map (readParameter ∘ parameterText)
    _ = l.map id := List.map_congr_left fun p hp => readParameter_text (h p hp)
    _ = l := List.map_id l

theorem sorted_eq {l : List Parameter} (h : (l.map Prod.fst).Pairwise fun s t => le s t = true) :
    sorted l = l :=
  List.mergeSort_of_pairwise (List.pairwise_map.mp h)

end RoqHtx.Query
