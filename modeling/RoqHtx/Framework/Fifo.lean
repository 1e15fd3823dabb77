import RoqHtx.Framework.Machine

/-!
# Queues and their histories

An entry of a history may put an item at the end of a queue, take the first item
from it, or clear it (`Fifo.Op`). `Fifo.puts` and `Fifo.takes` are the items that
have been put and taken since the queue was last cleared, in order. A queue agrees
with its history (`Fifo.Agrees`) if what has been put is what has been taken and,
behind it, what is still there: nothing is lost, taken twice or overtaken.
-/

namespace RoqHtx.Fifo

variable {ε α : Type}

/-- What an entry does to a queue. -/
inductive Op (α : Type) where
  | put (a : α)
  | take (a : α)
  | clear

namespace Op

def isClear : Op α → Bool
  | clear => true
  | put _ | take _ => false

def put? : Op α → Option α
  | put a => some a
  | take _ | clear => none

def take? : Op α → Option α
  | take a => some a
  | put _ | clear => none

end Op

variable (op : ε → Option (Op α))

/-- What has been put since the queue was cleared. -/
def puts (l : List ε) : List α :=
  ((since (fun x => (op x).any Op.isClear) l).filterMap fun x => (op x).bind Op.put?).reverse

/-- What has been taken since the queue was cleared. -/
def takes (l : List ε) : List α :=
  ((since (fun x => (op x).any Op.isClear) l).filterMap fun x => (op x).bind Op.take?).reverse

/-- The queue has what has been put and not taken. -/
def Agrees (l : List ε) (q : List α) : Prop := puts op l = takes op l ++ q

variable {op} {x : ε} {a : α} {l : List ε} {q : List α}

theorem puts_cons (hx : (op x).any Op.isClear = false) :
    puts op (x :: l) = puts op l ++ ((op x).bind Op.put?).toList :=
  reverse_filterMap_since_cons _ hx

theorem takes_cons (hx : (op x).any Op.isClear = false) :
    takes op (x :: l) = takes op l ++ ((op x).bind Op.take?).toList :=
  reverse_filterMap_since_cons _ hx

theorem puts_clear (hx : op x = some .clear) : puts op (x :: l) = [] := by
  simp [puts, since, hx, Op.isClear]

theorem takes_clear (hx : op x = some .clear) : takes op (x :: l) = [] := by
  simp [takes, since, hx, Op.isClear]

namespace Agrees

theorem nil : Agrees op [] [] := rfl

theorem put (h : Agrees op l q) (hx : op x = some (.put a)) : Agrees op (x :: l) (q ++ [a]) := by
  have hclear : (op x).any Op.isClear = false := by simp [hx, Op.isClear]
  unfold Agrees at h ⊢
  rw [puts_cons hclear, takes_cons hclear, h, hx]
  simp [Op.put?, Op.take?]

theorem take (h : Agrees op l (a :: q)) (hx : op x = some (.take a)) : Agrees op (x :: l) q := by
  have hclear : (op x).any Op.isClear = false := by simp [hx, Op.isClear]
  unfold Agrees at h ⊢
  rw [puts_cons hclear, takes_cons hclear, h, hx]
  simp [Op.put?, Op.take?]

theorem clear (hx : op x = some .clear) : Agrees op (x :: l) [] := by
  unfold Agrees
  rw [puts_clear hx, takes_clear hx, List.append_nil]

theorem other (h : Agrees op l q) (hx : op x = none) : Agrees op (x :: l) q := by
  have hclear : (op x).any Op.isClear = false := by simp [hx]
  unfold Agrees at h ⊢
  rw [puts_cons hclear, takes_cons hclear, h, hx]
  simp

/-- Taking puts nothing. -/
theorem puts_takeAll {entry : α → ε} (hentry : ∀ a, op (entry a) = some (.take a)) :
    ∀ (items : List α) (l : List ε), puts op (items.foldl (fun l a => entry a :: l) l) = puts op l
  | [], _ => rfl
  | a :: items, l => by
    rw [List.foldl_cons, puts_takeAll hentry items, puts_cons (by simp [hentry, Op.isClear]), hentry]
    exact List.append_nil _

end Agrees

end RoqHtx.Fifo
