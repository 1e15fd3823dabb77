import Mathlib.Algebra.GroupWithZero.Nat
import RoqHtx.Framework.Fifo
import RoqHtx.Framework.Simulation
import RoqHtx.Proof.Channels
import RoqHtx.Proof.Slices
import RoqHtx.Proof.Streams

/-!
# What a stream sends

Since a stream was last disconnected, it has sent what was put into its queue, in
this order, up to what is still there; and it has only sent while it was ready
(`Market.sent_in_order`). Timers that let enough through send all of it
(`Market.drained`).
-/

namespace RoqHtx

namespace Feed

/-! ## The queue of a stream -/

/-- What an entry does to the queue of a stream. -/
def queueOp (feed : Feed) (index : Nat) : MarketEntry → Option (Fifo.Op Message)
  | .enqueued f i message => if f = feed ∧ i = index then some (.put message) else none
  | .socketText f i message => if f = feed ∧ i = index then some (.take message) else none
  | .feedDisconnected f i => if f = feed ∧ i = index then some .clear else none
  | _ => none

/-- What has been put into the queue of a stream since it was disconnected. -/
def queuedSince (feed : Feed) (index : Nat) (l : List MarketEntry) : List Message :=
  Fifo.puts (queueOp feed index) l

/-- What a stream has sent since it was disconnected. -/
def textsSince (feed : Feed) (index : Nat) (l : List MarketEntry) : List Message :=
  Fifo.takes (queueOp feed index) l

def statusEntry (feed : Feed) (index : Nat) : MarketEntry → Option ConnectionStatus
  | .feedStatus f i status => if f = feed ∧ i = index then some status else none
  | _ => none

/-- The latest status that has been published of a stream. -/
def statusOf (feed : Feed) (index : Nat) (l : List MarketEntry) : Option ConnectionStatus :=
  l.findSome? (statusEntry feed index)

theorem statusOf_cons {feed : Feed} {index : Nat} {x : MarketEntry}
    (hx : statusEntry feed index x = none) (l : List MarketEntry) :
    statusOf feed index (x :: l) = statusOf feed index l := by
  rw [statusOf, List.findSome?_cons, hx]
  rfl

/-- What is sent is sent by a stream that is ready. -/
def SentReady (before : List MarketEntry) (x : MarketEntry) : Prop :=
  ∀ feed index message, x = .socketText feed index message → statusOf feed index before = some .ready

def queueOf (feed : Feed) (index : Nat) (m : Market) : List Message :=
  ((m.feeds feed)[index]?).elim [] State.requestQueue

/-- The queues, the statuses and the history agree. -/
structure Queued (m : Market) : Prop where
  agrees : ∀ feed index, Fifo.Agrees (queueOp feed index) m.log (queueOf feed index m)
  status : ∀ feed index, isReady feed index m = true → statusOf feed index m.log = some .ready
  sent : Always SentReady m.log

theorem queueOf_congr {m m' : Market} (h : m'.feeds = m.feeds) (feed : Feed) (index : Nat) :
    queueOf feed index m' = queueOf feed index m := by
  rw [queueOf, h, queueOf]

/-- A change to one stream. -/
theorem queueOf_modify (m : Market) (feed : Feed) (index : Nat) (g : State → State) (f : Feed)
    (i : Nat) :
    queueOf f i (m.setFeeds ((m.feeds feed).modify index g) feed) =
      if f = feed ∧ i = index then ((m.feeds feed)[index]?).elim [] fun s => (g s).requestQueue
      else queueOf f i m := by
  unfold queueOf
  rw [feeds_setFeeds]
  split
  · rename_i hf
    subst hf
    by_cases hi : index = i
    · subst hi
      rw [List.getElem?_modify_eq, if_pos ⟨rfl, rfl⟩]
      cases (m.feeds f)[index]? <;> rfl
    · rw [List.getElem?_modify_ne _ _ hi, if_neg fun h => hi h.2.symm]
  · rename_i hf
    rw [if_neg fun h => hf h.1]

theorem queueOf_set {m : Market} {feed : Feed} {index : Nat} {s : State}
    (hs : (m.feeds feed)[index]? = some s) (s' : State) (f : Feed) (i : Nat) :
    queueOf f i (m.setFeeds ((m.feeds feed).set index s') feed) =
      if f = feed ∧ i = index then s'.requestQueue else queueOf f i m := by
  unfold queueOf
  rw [feeds_setFeeds]
  split
  · rename_i hf
    subst hf
    by_cases hi : index = i
    · subst hi
      rw [List.getElem?_set_self (List.getElem?_eq_some_iff.mp hs).1, if_pos ⟨rfl, rfl⟩]
      rfl
    · rw [List.getElem?_set_ne hi, if_neg fun h => hi h.2.symm]
  · rename_i hf
    rw [if_neg fun h => hf h.1]

theorem queueOf_publish (status : ConnectionStatus) (feed : Feed) (index : Nat) (m : Market) (f : Feed)
    (i : Nat) : queueOf f i (publish status feed index m) = queueOf f i m := by
  refine (queueOf_modify m feed index _ f i).trans ?_
  split
  · rename_i hown
    obtain ⟨rfl, rfl⟩ := hown
    rfl
  · rfl

/-! ### A stream that is disconnected -/

theorem queueOf_onDisconnected (feed f : Feed) (index i : Nat) (m : Market) :
    queueOf f i (onDisconnected feed index m) =
      if f = feed ∧ i = index then [] else queueOf f i m := by
  let published := publish .disconnected feed index (m.push (.feedDisconnected feed index))
  refine (queueOf_modify published feed index _ f i).trans ?_
  split
  · cases (published.feeds feed)[index]? <;> rfl
  · exact queueOf_publish ..

theorem isReady_onDisconnected (feed f : Feed) (index i : Nat) (m : Market) :
    isReady f i (onDisconnected feed index m) =
      if f = feed ∧ i = index then false else isReady f i m := by
  let published := publish .disconnected feed index (m.push (.feedDisconnected feed index))
  split
  · rename_i hown
    obtain ⟨rfl, rfl⟩ := hown
    have hcleared : isReady f i (onDisconnected f i m) = isReady f i published :=
      isReady_modify_self published f i _
    rw [hcleared, isReady_publish_self]
    cases ((m.push (.feedDisconnected f i)).feeds f)[i]? <;> rfl
  · rename_i hown
    have hcleared : isReady f i (onDisconnected feed index m) = isReady f i published :=
      isReady_modify_other published _ hown
    rw [hcleared, isReady_publish_other _ hown]
    rfl

theorem queueOf_create (feed f : Feed) (i : Nat) (m : Market) :
    queueOf f i (Controller.create feed m) = queueOf f i m := by
  unfold queueOf
  rw [Controller.feeds_create]
  split
  · rcases Nat.lt_trichotomy i (m.feeds f).length with hi | hi | hi
    · rw [List.getElem?_append_left hi]
    · subst hi
      simp
    · rw [List.getElem?_eq_none (by simp; omega), List.getElem?_eq_none (by omega)]
  · rfl

namespace Queued

variable {m : Market}

/-- An entry that says nothing of any queue or status. -/
theorem push (h : Queued m) {x : MarketEntry} (hop : ∀ f i, queueOp f i x = none)
    (hstatus : ∀ f i, statusEntry f i x = none) (hsent : SentReady m.log x) : Queued (m.push x) where
  agrees feed index := (h.agrees feed index).other (hop feed index)
  status feed index hready :=
    (statusOf_cons (hstatus feed index) m.log).trans (h.status feed index hready)
  sent := ⟨hsent, h.sent⟩

theorem push_quiet (h : Queued m) {x : MarketEntry} (hx : Quiet x) : Queued (m.push x) := by
  refine h.push (fun _ _ => ?_) (fun _ _ => ?_) fun _ _ _ hx' => ?_
  · cases x <;> first | rfl | exact hx.elim
  · cases x <;> first | rfl | exact hx.elim
  · subst hx'
    exact hx.elim

theorem publish (h : Queued m) (status : ConnectionStatus) (feed : Feed) (index : Nat) :
    Queued (publish status feed index m) where
  agrees f i := by
    rw [queueOf_publish, log_publish]
    exact (h.agrees f i).other rfl
  status f i hready := by
    rw [log_publish]
    by_cases hown : f = feed ∧ i = index
    · obtain ⟨rfl, rfl⟩ := hown
      rw [isReady_publish_self] at hready
      obtain ⟨s, -, hs⟩ := (Option.any_eq_true ..).mp hready
      have hstatus : status = .ready := by simpa using hs
      simp [statusOf, statusEntry, hstatus]
    · rw [isReady_publish_other _ hown] at hready
      have hne : ¬(feed = f ∧ index = i) := fun h => hown ⟨h.1.symm, h.2.symm⟩
      rw [statusOf_cons (by simp [statusEntry, hne])]
      exact h.status f i hready
  sent := by
    rw [log_publish]
    exact ⟨(fun _ _ _ hx => by cases hx), h.sent⟩

theorem emplaceBack (h : Queued m) (feed : Feed) (index : Nat) (message : UInt64 → Message) :
    Queued (emplaceBack feed index message m) := by
  unfold Feed.emplaceBack
  split
  · exact h
  · rename_i s hs
    refine ⟨fun f i => ?_, fun f i hready => ?_, ?_⟩
    · show Fifo.Agrees _ (.enqueued feed index (message (s.requestId + 1)) :: (m.setFeeds _ feed).log)
        (queueOf f i (m.setFeeds _ feed))
      rw [log_setFeeds, queueOf_set hs]
      split
      · rename_i hown
        obtain ⟨rfl, rfl⟩ := hown
        have before := h.agrees f i
        rw [queueOf, hs] at before
        exact before.put (by simp [queueOp])
      · rename_i hown
        have hne : ¬(feed = f ∧ index = i) := fun h => hown ⟨h.1.symm, h.2.symm⟩
        exact (h.agrees f i).other (by simp [queueOp, hne])
    · show statusOf f i (.enqueued feed index (message (s.requestId + 1)) :: (m.setFeeds _ feed).log) = _
      rw [log_setFeeds, statusOf_cons rfl]
      have same := isReady_set hs
        ⟨s.connectionStatus, s.requestId + 1, s.requestQueue ++ [message (s.requestId + 1)]⟩ rfl f i
      exact h.status f i (same.symm.trans hready)
    · show Always SentReady (.enqueued feed index (message (s.requestId + 1)) :: (m.setFeeds _ feed).log)
      rw [log_setFeeds]
      exact ⟨(fun _ _ _ hx => by cases hx), h.sent⟩

/-- Some messages that are on their way, in front of the queue of a stream. -/
theorem sendAll {feed : Feed} {index : Nat} : ∀ (items : List Message) {m : Market},
    (∀ f i, Fifo.Agrees (queueOp f i) m.log
      ((if f = feed ∧ i = index then items else []) ++ queueOf f i m)) →
    (∀ f i, isReady f i m = true → statusOf f i m.log = some .ready) →
    isReady feed index m = true → Always SentReady m.log →
    Queued (items.foldl (fun m message => m.push (.socketText feed index message)) m)
  | [], _, hagrees, hstatus, _, hsent => ⟨fun f i => by simpa using hagrees f i, hstatus, hsent⟩
  | message :: items, m, hagrees, hstatus, hready, hsent => by
    rw [List.foldl_cons]
    refine sendAll items (fun f i => ?_) (fun f i hr => ?_) hready ⟨fun f i _ hx => ?_, hsent⟩
    · have before := hagrees f i
      by_cases hown : f = feed ∧ i = index
      · obtain ⟨rfl, rfl⟩ := hown
        rw [if_pos ⟨rfl, rfl⟩] at before ⊢
        exact before.take (by simp [queueOp])
      · have hne : ¬(feed = f ∧ index = i) := fun h => hown ⟨h.1.symm, h.2.symm⟩
        rw [if_neg hown] at before ⊢
        exact before.other (by simp [queueOp, hne])
    · show statusOf f i (.socketText feed index message :: m.log) = _
      rw [statusOf_cons rfl]
      exact hstatus f i hr
    · cases hx
      exact hstatus feed index hready

theorem checkRequestQueue (h : Queued m) {feed : Feed} {index : Nat} (count : Nat)
    (hready : isReady feed index m = true) : Queued (checkRequestQueue feed index count m) := by
  obtain ⟨s, hs, -⟩ := exists_of_isReady hready
  unfold Feed.checkRequestQueue
  rw [hs]
  have same := isReady_set hs { s with requestQueue := s.requestQueue.drop count } rfl
  refine sendAll (s.requestQueue.take count) (fun f i => ?_) (fun f i hr => ?_) ?_ ?_
  · rw [log_setFeeds, queueOf_set hs]
    have before := h.agrees f i
    split
    · rename_i hown
      obtain ⟨rfl, rfl⟩ := hown
      rw [queueOf, hs] at before
      rw [List.take_append_drop]
      exact before
    · exact before
  · rw [log_setFeeds]
    exact h.status f i ((same f i).symm.trans hr)
  · exact (same feed index).trans hready
  · rw [log_setFeeds]
    exact h.sent

theorem onDisconnected (h : Queued m) (feed : Feed) (index : Nat) :
    Queued (Feed.onDisconnected feed index m) := by
  refine ⟨fun f i => ?_, fun f i hready => ?_, ?_⟩
  · rw [log_onDisconnected, queueOf_onDisconnected]
    refine Fifo.Agrees.other ?_ rfl
    split
    · rename_i hown
      obtain ⟨rfl, rfl⟩ := hown
      exact .clear (by simp [queueOp])
    · rename_i hown
      have hne : ¬(feed = f ∧ index = i) := fun h => hown ⟨h.1.symm, h.2.symm⟩
      exact (h.agrees f i).other (by simp [queueOp, hne])
  · rw [isReady_onDisconnected] at hready
    split at hready
    · cases hready
    · rename_i hown
      have hne : ¬(feed = f ∧ index = i) := fun h => hown ⟨h.1.symm, h.2.symm⟩
      rw [log_onDisconnected, statusOf_cons (by simp [statusEntry, hne]), statusOf_cons rfl]
      exact h.status f i hready
  · rw [log_onDisconnected]
    exact ⟨(fun _ _ _ hx => by cases hx), (fun _ _ _ hx => by cases hx), h.sent⟩

theorem create (h : Queued m) (feed : Feed) : Queued (Controller.create feed m) := by
  have hready := (Controller.create_adds feed m).isReady
  refine ⟨fun f i => ?_, fun f i hr => ?_, ⟨(fun _ _ _ hx => by cases hx), h.sent⟩⟩
  · rw [queueOf_create]
    exact (h.agrees f i).other rfl
  · rw [hready] at hr
    exact (statusOf_cons rfl _).trans (h.status f i hr)

theorem operations : Operations Queued where
  push _ _ hx h := h.push_quiet hx
  rest _ _ h := ⟨h.agrees, h.status, h.sent⟩
  requests _ _ h := ⟨h.agrees, h.status, h.sent⟩
  halted _ _ h := ⟨h.agrees, h.status, h.sent⟩
  symbols _ _ h := ⟨h.agrees, h.status, h.sent⟩
  allSymbols _ _ h := ⟨h.agrees, h.status, h.sent⟩
  getReady feed index _ h :=
    (h.push (fun _ _ => rfl) (fun _ _ => rfl) (fun _ _ _ hx => by cases hx)).publish .ready feed index
  subscribe feed index _ _ _ _ h := h.emplaceBack feed index _
  checkRequestQueue _ _ count _ hready h := h.checkRequestQueue count hready
  onDisconnected feed index _ h := h.onDisconnected feed index
  create feed _ h := h.create feed

theorem reachable {env : MarketEnv} (h : (market env).Reachable m) : Queued m := by
  refine operations.reachable (fun index _ _ h => h.emplaceBack .mbpFeed index _)
    ⟨fun feed index => ?_, fun feed index hready => ?_, trivial⟩ h
  · cases feed <;> exact .nil
  · cases feed <;> cases hready

end Queued

/-! ## Since a stream got ready -/

def isFeedDisconnected (feed : Feed) (index : Nat) : MarketEntry → Bool
  | .feedDisconnected f i => f == feed && i == index
  | _ => false

theorem isClear_queueOp (feed : Feed) (index : Nat) (x : MarketEntry) :
    (queueOp feed index x).any Fifo.Op.isClear = isFeedDisconnected feed index x := by
  cases x with
  | feedDisconnected f i =>
    by_cases hown : f = feed ∧ i = index
    · simp [queueOp, isFeedDisconnected, Fifo.Op.isClear, hown]
    · simp only [queueOp, isFeedDisconnected, if_neg hown, Option.any_none]
      exact (by simpa using hown : (f == feed && i == index) = false).symm
  | enqueued f i message | socketText f i message =>
    rw [queueOp]
    split <;> rfl
  | _ => rfl

/-- A stream that is ready has not been disconnected since it got ready. -/
def StaysReady (m : Market) : Prop :=
  ∀ feed index, isReady feed index m = true →
    ∀ x ∈ since (isFeedReady feed index) m.log, isFeedDisconnected feed index x = false

namespace StaysReady

variable {m : Market}

/-- New entries that disconnect no stream, and a change that makes none ready. -/
theorem append (h : StaysReady m) {m' : Market} (new : List MarketEntry) (hlog : m'.log = new ++ m.log)
    (hnew : ∀ x ∈ new, ∀ f i, isFeedReady f i x = false ∧ isFeedDisconnected f i x = false)
    (hready : ∀ f i, isReady f i m' = isReady f i m) : StaysReady m' := fun feed index hr x hx => by
  rw [hlog, since_append fun y hy => (hnew y hy feed index).1] at hx
  rcases List.mem_append.mp hx with hx | hx
  · exact (hnew x hx feed index).2
  · exact h feed index (hready feed index ▸ hr) x hx

theorem getReady (h : StaysReady m) (feed : Feed) (index : Nat) :
    StaysReady (publish .ready feed index (m.push (.feedReady feed index))) := fun f i hr x hx => by
  have hlog : (publish .ready feed index (m.push (.feedReady feed index))).log =
      .feedStatus feed index .ready :: .feedReady feed index :: m.log := log_publish ..
  rw [hlog, since_cons_neg rfl] at hx
  rcases List.mem_cons.mp hx with rfl | hx
  · rfl
  by_cases hown : f = feed ∧ i = index
  · obtain ⟨rfl, rfl⟩ := hown
    simp [since, isFeedReady] at hx
  · rw [isReady_publish_other _ hown] at hr
    have hne : isFeedReady f i (.feedReady feed index) = false := by
      simp only [isFeedReady, Bool.and_eq_false_imp, beq_iff_eq, beq_eq_false_iff_ne]
      exact fun hf hi => hown ⟨hf.symm, hi.symm⟩
    rw [since_cons_neg hne] at hx
    rcases List.mem_cons.mp hx with rfl | hx
    · rfl
    · exact h f i hr x hx

theorem emplaceBack (h : StaysReady m) (feed : Feed) (index : Nat) (message : UInt64 → Message) :
    StaysReady (emplaceBack feed index message m) := by
  unfold Feed.emplaceBack
  split
  · exact h
  · rename_i s hs
    refine h.append [.enqueued feed index (message (s.requestId + 1))] ?_ ?_ ?_
    · exact congrArg _ (log_setFeeds ..)
    · intro x hx f i
      cases List.mem_singleton.mp hx
      exact ⟨rfl, rfl⟩
    · exact isReady_set hs
        ⟨s.connectionStatus, s.requestId + 1, s.requestQueue ++ [message (s.requestId + 1)]⟩ rfl

theorem checkRequestQueue (h : StaysReady m) (feed : Feed) (index count : Nat) :
    StaysReady (checkRequestQueue feed index count m) := by
  unfold Feed.checkRequestQueue
  split
  · exact h
  · rename_i s hs
    have dropped : StaysReady (m.setFeeds ((m.feeds feed).set index
        { s with requestQueue := s.requestQueue.drop count }) feed) :=
      h.append [] (log_setFeeds ..) (fun _ hx => absurd hx List.not_mem_nil)
        (isReady_set hs { s with requestQueue := s.requestQueue.drop count } rfl)
    refine List.foldlRecOn _ _ dropped fun m hm message _ => ?_
    refine hm.append [.socketText feed index message] rfl (fun x hx f i => ?_) fun _ _ => rfl
    cases List.mem_singleton.mp hx
    exact ⟨rfl, rfl⟩

/-- The stream is no longer ready. -/
theorem onDisconnected (h : StaysReady m) (feed : Feed) (index : Nat) :
    StaysReady (Feed.onDisconnected feed index m) := fun f i hr x hx => by
  have hready : isReady f i (Feed.onDisconnected feed index m) =
      if f = feed ∧ i = index then false else isReady f i m := isReady_onDisconnected ..
  rw [hready] at hr
  split at hr
  · cases hr
  · rename_i hother
    rw [log_onDisconnected, since_cons_neg rfl, since_cons_neg rfl] at hx
    rcases List.mem_cons.mp hx with rfl | hx
    · rfl
    rcases List.mem_cons.mp hx with rfl | hx
    · simp only [isFeedDisconnected, Bool.and_eq_false_imp, beq_iff_eq, beq_eq_false_iff_ne]
      exact fun hf hi => hother ⟨hf.symm, hi.symm⟩
    · exact h f i hr x hx

theorem operations : Operations StaysReady where
  push x m hx h := by
    refine h.append [x] rfl (fun y hy f i => ?_) fun _ _ => rfl
    cases List.mem_singleton.mp hy
    cases x <;> first | exact ⟨rfl, rfl⟩ | exact hx.elim
  rest _ _ h := h
  requests _ _ h := h
  halted _ _ h := h
  symbols _ _ h := h
  allSymbols _ _ h := h
  getReady feed index _ h := h.getReady feed index
  subscribe feed index _ _ _ _ h := h.emplaceBack feed index _
  checkRequestQueue feed index count _ _ h := h.checkRequestQueue feed index count
  onDisconnected feed index _ h := h.onDisconnected feed index
  create feed m h := by
    refine h.append [.created feed (m.feeds feed).length (m.streamId + 1)] rfl (fun x hx f i => ?_)
      (Controller.create_adds feed m).isReady
    cases List.mem_singleton.mp hx
    exact ⟨rfl, rfl⟩

end StaysReady

/-- What a stream that is ready has subscribed to is among what it has put into its
queue since it was disconnected. -/
theorem StaysReady.mem_queuedSince {m : Market} (h : StaysReady m) (hasked : AllAsked m.log)
    {feed : Feed}
    {index : Nat} (hready : isReady feed index m = true) {symbol theme : String}
    (hmem : (symbol, theme) ∈ subscriptions feed index m.log) :
    ∃ id, .sub "market" symbol theme id ∈ queuedSince feed index m.log := by
  obtain ⟨x, hx, hsub⟩ := List.mem_filterMap.mp (List.mem_reverse.mp hmem)
  have hsince := mem_since_of_mem_since (h feed index hready) x hx
  cases x with
  | enqueued f i message =>
    cases message with
    | sub source s t id =>
      simp only [subscriptionOf, Option.ite_none_right_eq_some, Option.some.injEq,
        Prod.mk.injEq] at hsub
      obtain ⟨⟨rfl, rfl⟩, rfl, rfl⟩ := hsub
      cases hasked f i _ (List.takeWhile_subset _ hx)
      have hput : (queueOp f i (.enqueued f i (.sub "market" s t id))).bind Fifo.Op.put? =
          some (.sub "market" s t id) := by simp [queueOp, Fifo.Op.put?]
      refine ⟨id, List.mem_reverse.mpr (List.mem_filterMap.mpr ⟨_, ?_, hput⟩)⟩
      exact (funext (isClear_queueOp f i) : _ = isFeedDisconnected f i) ▸ hsince
    | req => cases hsub
  | _ => cases hsub

end Feed


namespace Market

open Feed (isReady queueOf queuedSince textsSince SentReady Queued StaysReady)

/-- Since a stream was disconnected, it has sent what was put into its queue, in
order, but for what is still there. It only sends while it is ready. -/
theorem sent_in_order {env : MarketEnv} {m : Market} (h : (market env).Reachable m) :
    (∀ feed index s, (m.feeds feed)[index]? = some s →
      queuedSince feed index m.log = textsSince feed index m.log ++ s.requestQueue) ∧
    Always SentReady m.log := by
  have queued := Queued.reachable h
  refine ⟨fun feed index s hs => ?_, queued.sent⟩
  have agrees := queued.agrees feed index
  rwa [Feed.queueOf, hs] at agrees

/-- A stream that has been disconnected, and has sent some of what it subscribes to
since. -/
theorem sent_in_order_again : ∃ m : Market,
    (m.feeds .marketData).map (·.requestQueue.length) = [5] ∧
      textsSince .marketData 0 m.log =
        [.sub "market" "btcusdt" "bbo" 4000005, .sub "market" "btcusdt" "ticker" 4000006,
          .sub "market" "btcusdt" "trade.detail" 4000007] ∧
      ∀ feed index s, (m.feeds feed)[index]? = some s →
        queuedSince feed index m.log = textsSince feed index m.log ++ s.requestQueue := by
  obtain ⟨m, hm, hqueue, hsent⟩ := Machine.exists_reach (M := market Reader.marketEnv)
    (C := fun _ _ => True)
    (P := fun m => (m.feeds .marketData).map (·.requestQueue.length) = [5] ∧
      textsSince .marketData 0 m.log =
        [.sub "market" "btcusdt" "bbo" 4000005, .sub "market" "btcusdt" "ticker" 4000006,
          .sub "market" "btcusdt" "trade.detail" 4000007])
    [.subscribe ["btcusdt"], .feedReady .marketData 0, .timer .marketData 0 2,
      .feedDisconnected .marketData 0, .subscribe ["ethusdt"], .feedReady .marketData 0,
      .timer .marketData 0 3]
    (by decide +kernel)
  exact ⟨m, hqueue, hsent, (sent_in_order hm).1⟩

/-! ## Timers -/

/-- What timers do to the queue of a stream that is ready: they send from it, and
nothing else changes. -/
structure Drains (feed : Feed) (index count : Nat) (m m' : Market) : Prop where
  queue : queueOf feed index m' = (queueOf feed index m).drop count
  enqueued : queuedSince feed index m'.log = queuedSince feed index m.log
  ready : isReady feed index m' = true
  halted : m'.halted = m.halted

namespace Drains

theorem trans {feed : Feed} {index count count' : Nat} {a b c : Market}
    (h : Drains feed index count a b) (h' : Drains feed index count' b c) :
    Drains feed index (count + count') a c where
  queue := by rw [h'.queue, h.queue, List.drop_drop]
  enqueued := h'.enqueued.trans h.enqueued
  ready := h'.ready
  halted := h'.halted.trans h.halted

theorem pushAll (feed : Feed) (index : Nat) (items : List Feed.Message) (m : Market) :
    let sent := items.foldl (fun m message => m.push (.socketText feed index message)) m
    sent.feeds = m.feeds ∧ sent.halted = m.halted ∧
      sent.log = items.foldl (fun l message => .socketText feed index message :: l) m.log := by
  induction items generalizing m with
  | nil => exact ⟨rfl, rfl, rfl⟩
  | cons message items ih => exact ih (m.push (.socketText feed index message))

theorem timer {feed : Feed} {index : Nat} {m : Market} (hready : isReady feed index m = true)
    (count : Nat) : Drains feed index count m (Feed.onTimer feed index count m) := by
  obtain ⟨s, hs, -⟩ := Feed.exists_of_isReady hready
  unfold Feed.onTimer Feed.checkRequestQueue
  rw [if_pos hready, hs]
  let dropped := m.setFeeds ((m.feeds feed).set index
    { s with requestQueue := s.requestQueue.drop count }) feed
  obtain ⟨hfeeds, hhalted, hlog⟩ := pushAll feed index (s.requestQueue.take count) dropped
  have same := Feed.isReady_set hs { s with requestQueue := s.requestQueue.drop count } rfl feed index
  refine ⟨?_, ?_, ?_, ?_⟩
  · refine (Feed.queueOf_congr hfeeds feed index).trans ?_
    rw [Feed.queueOf_set hs, if_pos ⟨rfl, rfl⟩, Feed.queueOf, hs]
    rfl
  · refine (congrArg (queuedSince feed index) hlog).trans ?_
    rw [Feed.log_setFeeds]
    exact Fifo.Agrees.puts_takeAll (fun message => by simp [Feed.queueOp]) _ m.log
  · show (((List.foldl _ dropped _).feeds feed)[index]?).any Feed.ready = true
    rw [hfeeds]
    exact same.trans hready
  · exact hhalted.trans (by cases feed <;> rfl)

/-- Timers one after the other. -/
theorem timers (env : MarketEnv) {feed : Feed} {index : Nat} :
    ∀ (counts : List Nat) {m : Market}, isReady feed index m = true → m.halted = false →
      ∃ m', (market env).runAll m (counts.map (.timer feed index)) = some m' ∧
        Drains feed index counts.sum m m'
  | [], m, hready, _ => ⟨m, rfl, by rw [List.sum_nil, List.drop_zero], rfl, hready, rfl⟩
  | count :: counts, m, hready, hhalted => by
    have first := timer hready count
    obtain ⟨m', hrun, rest⟩ := timers env counts first.ready (first.halted.trans hhalted)
    refine ⟨m', ?_, by rw [List.sum_cons]; exact first.trans rest⟩
    have hstep : (market env).step m (.timer feed index count) =
        some (Feed.onTimer feed index count m) := by
      show Market.step env m _ = _
      rw [Market.step, hhalted]
      rfl
    rw [List.map_cons, Machine.runAll_cons, hstep, Option.bind_some, hrun]

end Drains

/-- A queue that is empty has been sent. -/
theorem texts_of_empty {env : MarketEnv} {m : Market} (h : (market env).Reachable m) {feed : Feed}
    {index : Nat} (hempty : queueOf feed index m = []) :
    textsSince feed index m.log = queuedSince feed index m.log := by
  have agrees := (Queued.reachable h).agrees feed index
  rw [hempty, Fifo.Agrees, List.append_nil] at agrees
  exact agrees.symm

/-- A stream that is ready has put a subscription to each of its symbols into its
queue since it was disconnected. -/
theorem slice_queued {env : MarketEnv} {m : Market} (h : (market env).Reachable m) {feed : Feed}
    {index : Nat} (hready : isReady feed index m = true) :
    ∀ symbol ∈ Feed.getSlice env.slicing index 0 m.symbols, ∀ theme ∈ Feed.themes feed,
      ∃ id, .sub "market" symbol theme id ∈ queuedSince feed index m.log := by
  intro symbol hsymbol theme htheme
  have steady : StaysReady m := by
    refine StaysReady.operations.reachable (fun index _ _ h => h.emplaceBack .mbpFeed index _)
      (fun feed index hr => ?_) h
    cases feed <;> cases hr
  refine steady.mem_queuedSince (allAsked env h) hready ?_
  rw [(subscribed_reachable h).each feed index hready]
  exact List.mem_product.mpr ⟨hsymbol, htheme⟩

/-- Timers that let enough through send all that a stream has put into its queue,
in order; each of its subscriptions is then sent. -/
theorem drained {env : MarketEnv} {m : Market} (h : (market env).Reachable m) {feed : Feed}
    {index : Nat} {s : Feed.State} (hs : (m.feeds feed)[index]? = some s)
    (hready : Feed.ready s = true) (hhalted : m.halted = false) {counts : List Nat}
    (hcounts : s.requestQueue.length ≤ counts.sum) :
    ∃ m', (market env).runAll m (counts.map (.timer feed index)) = some m' ∧
      textsSince feed index m'.log = queuedSince feed index m.log ∧
      ∀ symbol ∈ Feed.getSlice env.slicing index 0 m'.symbols, ∀ theme ∈ Feed.themes feed,
        ∃ id, .sub "market" symbol theme id ∈ textsSince feed index m'.log := by
  have hready : isReady feed index m = true := by
    rw [isReady, hs]
    exact hready
  obtain ⟨m', hrun, drains⟩ := Drains.timers env counts hready hhalted
  have hm' : (market env).Reachable m' := h.runAll hrun
  have hqueue : queueOf feed index m' = [] := by
    rw [drains.queue, Feed.queueOf, hs]
    exact List.drop_eq_nil_of_le hcounts
  have sentAll := texts_of_empty hm' hqueue
  refine ⟨m', hrun, sentAll.trans drains.enqueued, ?_⟩
  rw [sentAll]
  exact slice_queued hm' drains.ready

/-- Two symbols are subscribed to with eight messages, sent by three timers. -/
theorem drained_two : ∃ m m' : Market,
    (market Reader.marketEnv).runAll m ([3, 3, 3].map (.timer .marketData 0)) = some m' ∧
      textsSince .marketData 0 m'.log = queuedSince .marketData 0 m.log := by
  obtain ⟨m, hm, hqueue⟩ := Machine.exists_reach (M := market Reader.marketEnv)
    (C := fun _ _ => True)
    (P := fun m => m.halted = false ∧ ∃ s, (m.feeds .marketData)[0]? = some s ∧
      Feed.ready s = true ∧ s.requestQueue.length ≤ [3, 3, 3].sum)
    [.subscribe ["btcusdt", "ethusdt"], .feedReady .marketData 0] (by decide +kernel)
  obtain ⟨hhalted, s, hs, hready, hcounts⟩ := hqueue
  obtain ⟨m', hrun, hsent, -⟩ := drained hm hs hready hhalted hcounts
  exact ⟨m, m', hrun, hsent⟩

end Market

end RoqHtx
