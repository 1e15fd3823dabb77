import Mathlib.Data.List.Basic
import Mathlib.Data.List.Infix

/-!
# Staged downloads

A download goes through a fixed list of stages in order. On entering a stage it
calls back into its owner: a result of `0` moves on at once, any other result
waits until the owner checks that same stage (`Download.check`). `begin` starts
from the first stage, whatever the download was doing.

`Download all` is the part of the stages `all` still to be completed, the stage
it waits in first. It carries the proof that it is a suffix of `all`, so the
stage determines what remains (`remaining_of_state`). `visit_rule` is the rule for
what a walk through the stages establishes.
-/

namespace RoqHtx

structure Download {S : Type} (all : List S) where
  remaining : List S
  suffix : remaining <:+ all

namespace Download

variable {S σ : Type} {all : List S}

/-- Enters stages until one waits. -/
def visit (callback : S → σ → Int × σ) : List S → σ → List S × σ
  | [], s => ([], s)
  | stage :: rest, s =>
    if (callback stage s).1 = 0 then visit callback rest (callback stage s).2
    else (stage :: rest, (callback stage s).2)

theorem visit_suffix (callback : S → σ → Int × σ) :
    ∀ (l : List S) (s : σ), (visit callback l s).1 <:+ l
  | [], _ => List.suffix_rfl
  | stage :: rest, s => by
    rw [visit]
    split
    · exact (visit_suffix callback rest _).trans (List.suffix_cons stage rest)
    · exact List.suffix_rfl

/-- Nothing remains after the last stage. -/
theorem rest_of_last {rest : List S} {last : S} (hnodup : all.Nodup) (hlast : all.getLast? = some last)
    (h : last :: rest <:+ all) : rest = [] := by
  obtain ⟨pre, rfl⟩ := h
  by_contra hne
  rw [List.getLast?_append_of_ne_nil _ (List.cons_ne_nil last rest), List.getLast?_cons_of_ne_nil hne]
    at hlast
  exact (List.nodup_cons.mp (List.nodup_append.mp hnodup).2.1).1 (List.mem_of_getLast? hlast)

/-- A stage that waits ends the walk. -/
theorem visit_of_wait {callback : S → σ → Int × σ} {stage : S} {s : σ} (h : (callback stage s).1 ≠ 0)
    (rest : List S) : visit callback (stage :: rest) s = (stage :: rest, (callback stage s).2) := by
  rw [visit, if_neg h]

theorem visit_of_move {callback : S → σ → Int × σ} {stage : S} {s : σ} (h : (callback stage s).1 = 0)
    (rest : List S) : visit callback (stage :: rest) s = visit callback rest (callback stage s).2 := by
  rw [visit, if_pos h]

/-- A walk through the stages: `I` holds on entering each of them, `J` where the
walk stops. -/
theorem visit_rule {callback : S → σ → Int × σ} {I J : List S → σ → Prop}
    (hmove : ∀ stage rest s, I (stage :: rest) s → (callback stage s).1 = 0 →
      I rest (callback stage s).2)
    (hwait : ∀ stage rest s, I (stage :: rest) s → (callback stage s).1 ≠ 0 →
      J (stage :: rest) (callback stage s).2)
    (hdone : ∀ s, I [] s → J [] s) :
    ∀ {l : List S} {s : σ}, I l s → J (visit callback l s).1 (visit callback l s).2
  | [], s, h => hdone s h
  | stage :: rest, s, h => by
    rw [visit]
    split
    · rename_i h0
      exact visit_rule hmove hwait hdone (hmove stage rest s h h0)
    · rename_i h0
      exact hwait stage rest s h h0

/-- A property that every callback keeps is kept by the walk. -/
theorem visit_state {callback : S → σ → Int × σ} {P : σ → Prop}
    (h : ∀ stage s, P s → P (callback stage s).2) {l : List S} {s : σ} (hs : P s) :
    P (visit callback l s).2 :=
  visit_rule (I := fun _ s => P s) (J := fun _ s => P s) (fun stage _ s hs _ => h stage s hs)
    (fun stage _ s hs _ => h stage s hs) (fun _ hs => hs) hs

/-- No download in progress. -/
def idle : Download all := ⟨[], List.nil_suffix⟩

/-- The stage the download waits in. -/
def state (d : Download all) : Option S := d.remaining.head?

def downloading (d : Download all) : Bool := !d.remaining.isEmpty

theorem downloading_eq_false {d : Download all} : d.downloading = false ↔ d.state = none := by
  obtain ⟨l, h⟩ := d
  cases l <;> simp [downloading, state]

def begin (callback : S → σ → Int × σ) (s : σ) : Download all × σ :=
  (⟨(visit callback all s).1, visit_suffix ..⟩, (visit callback all s).2)

/-- Moves on from `stage`, and only if the download waits in it. -/
def check [DecidableEq S] (callback : S → σ → Int × σ) (stage : S) (d : Download all) (s : σ) :
    Download all × σ :=
  if d.state = some stage then
    (⟨(visit callback d.remaining.tail s).1,
      (visit_suffix ..).trans ((List.tail_suffix _).trans d.suffix)⟩,
      (visit callback d.remaining.tail s).2)
  else (d, s)

/-- Enters the stage the download waits in once more. -/
def bump (callback : S → σ → Int × σ) (d : Download all) (s : σ) : Download all × σ :=
  (⟨(visit callback d.remaining s).1, (visit_suffix ..).trans d.suffix⟩,
    (visit callback d.remaining s).2)

/-- A stage has been completed, or no download is in progress. -/
def passed [DecidableEq S] (stage : S) (d : Download all) : Bool := decide (stage ∉ d.remaining)

/-- The stage a download waits in determines the stages that remain. -/
theorem remaining_of_state [DecidableEq S] (hall : all.Nodup) {d : Download all} {stage : S}
    (h : d.state = some stage) : d.remaining = all.dropWhile (fun t => t != stage) := by
  obtain ⟨l, pre, rfl⟩ := d
  cases l with
  | nil => simp [state] at h
  | cons t l =>
    simp only [state, List.head?_cons, Option.some.injEq] at h
    subst h
    have hpre : ∀ x ∈ pre, (x != t) = true := fun x hx => by
      have := (List.nodup_append.mp hall).2.2 x hx t List.mem_cons_self
      simpa using this
    rw [List.dropWhile_append_of_pos hpre]
    simp

end Download

end RoqHtx
