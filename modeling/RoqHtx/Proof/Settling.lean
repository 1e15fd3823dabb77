import RoqHtx.Proof.Ownership
import RoqHtx.Proof.Recovery

/-!
# Every symbol is subscribed to in the end

Whatever has happened, a connection for each stream and one timer each, after the
download, are enough for every symbol to be subscribed to (`Market.settles`): what is
done for one stream leaves the others as they are (`Feed.Spares`), so they can be
served one after the other (`Market.serveAll`).
-/

namespace RoqHtx

namespace Feed

/-! ## One stream among others -/

/-- A stream is ready, and has nothing left to send. -/
structure Served (feed : Feed) (index : Nat) (m : Market) : Prop where
  ready : isReady feed index m = true
  empty : queueOf feed index m = []

/-- What one stream does leaves the others alone, and all that is not a stream's. -/
structure Spares (feed : Feed) (index : Nat) (m m' : Market) : Prop where
  others : ∀ f i, ¬(f = feed ∧ i = index) → (m'.feeds f)[i]? = (m.feeds f)[i]?
  length : ∀ f, (m'.feeds f).length = (m.feeds f).length
  rest : m'.rest = m.rest
  halted : m'.halted = m.halted

namespace Spares

variable {feed : Feed} {index : Nat} {m : Market}

theorem refl (m : Market) : Spares feed index m m := ⟨fun _ _ _ => rfl, fun _ => rfl, rfl, rfl⟩

theorem trans {a b c : Market} (h : Spares feed index a b) (h' : Spares feed index b c) :
    Spares feed index a c where
  others f i hother := (h'.others f i hother).trans (h.others f i hother)
  length f := (h'.length f).trans (h.length f)
  rest := h'.rest.trans h.rest
  halted := h'.halted.trans h.halted

theorem push (m : Market) (x : MarketEntry) : Spares feed index m (m.push x) :=
  ⟨fun _ _ _ => rfl, fun _ => rfl, rfl, rfl⟩

theorem setFeeds {l : List State} (hlength : l.length = (m.feeds feed).length)
    (hl : ∀ i, index ≠ i → l[i]? = (m.feeds feed)[i]?) :
    Spares feed index m (m.setFeeds l feed) := by
  refine ⟨fun f i hother => ?_, fun f => ?_, ?_, ?_⟩
  · rw [feeds_setFeeds]
    split
    · rename_i hf
      subst hf
      exact hl i fun hi => hother ⟨rfl, hi.symm⟩
    · rfl
  · rw [feeds_setFeeds]
    split
    · rename_i hf
      exact hf ▸ hlength
    · rfl
  · cases feed <;> rfl
  · cases feed <;> rfl

theorem set (m : Market) (s : State) :
    Spares feed index m (m.setFeeds ((m.feeds feed).set index s) feed) :=
  setFeeds (List.length_set ..) fun _ hi => List.getElem?_set_ne hi

theorem publish (m : Market) (status : ConnectionStatus) :
    Spares feed index m (publish status feed index m) := by
  have changed : Spares feed index m (m.setFeeds ((m.feeds feed).modify index fun s =>
      { s with connectionStatus := status }) feed) :=
    setFeeds (List.length_modify ..) fun _ hi => List.getElem?_modify_ne _ _ hi
  exact changed.trans (push _ _)

theorem emplaceBack (m : Market) (message : UInt64 → Message) :
    Spares feed index m (emplaceBack feed index message m) := by
  unfold Feed.emplaceBack
  split
  · exact refl m
  · exact (set m _).trans (push _ _)

theorem subscribe (slicing : Slicing) (startFrom : Nat) (m : Market) :
    Spares feed index m (subscribe slicing feed startFrom m index) := by
  unfold Feed.subscribe
  split
  · refine List.foldlRecOn _ _ (refl m) fun m' h symbol _ => h.trans ?_
    exact List.foldlRecOn _ _ (refl m') fun _ h theme _ => h.trans (emplaceBack _ _)
  · exact refl m

theorem onReady (slicing : Slicing) (m : Market) :
    Spares feed index m (onReady slicing feed index m) :=
  ((push m (.feedReady feed index)).trans (publish _ .ready)).trans (subscribe slicing 0 _)

theorem onTimer (count : Nat) (m : Market) : Spares feed index m (onTimer feed index count m) := by
  unfold Feed.onTimer
  split
  · unfold Feed.checkRequestQueue
    split
    · exact refl m
    · exact List.foldlRecOn _ _ (set m _) fun _ h _ _ => h.trans (push _ _)
  · exact refl m

/-- The others stay served. -/
theorem served {m' : Market} (h : Spares feed index m m') {f : Feed} {i : Nat}
    (hother : ¬(f = feed ∧ i = index)) (hs : Served f i m) : Served f i m' where
  ready := by
    rw [isReady, h.others f i hother]
    exact hs.ready
  empty := by
    rw [queueOf, h.others f i hother]
    exact hs.empty

end Spares

end Feed

namespace Market

open Rest (Answers IsReady)
open Feed (isReady queueOf Served Spares)

variable {env : MarketEnv} {m : Market}

/-- The exchange answers, streams get ready, and timers pass. -/
def Tends (answers : Answers env) : MarketEvent → Prop
  | .feedReady _ _ | .timer _ _ _ => True
  | e => Exchange answers e

/-! ## One stream after the other -/

section

variable (answers : Answers env)

/-- A timer that lets everything through. -/
theorem sends {feed : Feed} {index : Nat} (hrunning : m.halted = false)
    (hready : isReady feed index m = true) :
    ∃ m', (market env).Leads (Tends answers) 1 m m' ∧ Served feed index m' ∧ Spares feed index m m' := by
  have drains := Drains.timer hready (queueOf feed index m).length
  have hstep : (market env).step m (.timer feed index (queueOf feed index m).length) =
      some (Feed.onTimer feed index (queueOf feed index m).length m) := by
    show Market.step env m _ = _
    rw [Market.step, hrunning]
    rfl
  refine ⟨_, .step (e := .timer feed index _) trivial hstep, ⟨drains.ready, ?_⟩, .onTimer _ m⟩
  rw [drains.queue, List.drop_length]

/-- A connection, if there is none, and a timer. -/
theorem serve {feed : Feed} {index : Nat} (hrunning : m.halted = false)
    (hindex : index < (m.feeds feed).length) :
    ∃ m', (market env).Leads (Tends answers) 2 m m' ∧ Served feed index m' ∧ Spares feed index m m' := by
  cases hready : isReady feed index m with
  | true =>
    obtain ⟨m', hleads, hserved, hspares⟩ := sends answers hrunning hready
    exact ⟨m', hleads.mono (by decide), hserved, hspares⟩
  | false =>
    have connects : Spares feed index m (Feed.onReady env.slicing feed index m) := .onReady env.slicing m
    have hstep : (market env).step m (.feedReady feed index) =
        some (Feed.onReady env.slicing feed index m) := by
      show Market.step env m _ = _
      rw [Market.step, hrunning, Market.handle, if_pos hindex]
      rfl
    have hready' : isReady feed index (Feed.onReady env.slicing feed index m) = true := by
      refine ((Feed.subscribe_adds env.slicing feed 0 _ index).isReady feed index).trans ?_
      rw [Feed.isReady_publish_self]
      show ((m.feeds feed)[index]?).any _ = true
      rw [List.getElem?_eq_getElem hindex]
      rfl
    obtain ⟨m', hleads, hserved, hspares⟩ :=
      sends answers (connects.halted.trans hrunning) hready'
    exact ⟨m', .cons (e := .feedReady feed index) trivial hstep hleads, hserved, connects.trans hspares⟩

/-- Some streams have been served, and what has been served before still is. -/
structure Serves (l : List (Feed × Nat)) (m m' : Market) : Prop where
  served : ∀ feed index, (feed, index) ∈ l ∨ Served feed index m → Served feed index m'
  length : ∀ f, (m'.feeds f).length = (m.feeds f).length
  rest : m'.rest = m.rest
  halted : m'.halted = m.halted

theorem serveAll : ∀ (l : List (Feed × Nat)) {m : Market}, m.halted = false →
    (∀ feed index, (feed, index) ∈ l → index < (m.feeds feed).length) →
    ∃ m', (market env).Leads (Tends answers) (2 * l.length) m m' ∧ Serves l m m'
  | [], m, _, _ =>
    ⟨m, .refl m, fun _ _ h => h.resolve_left List.not_mem_nil, fun _ => rfl, rfl, rfl⟩
  | (feed, index) :: l, m, hrunning, hl => by
    obtain ⟨m₁, hleads₁, hserved, hspares⟩ :=
      serve answers hrunning (hl feed index List.mem_cons_self)
    obtain ⟨m', hleads, hserves⟩ := serveAll l (hspares.halted.trans hrunning) fun f i hmem =>
      hspares.length f ▸ hl f i (List.mem_cons_of_mem _ hmem)
    refine ⟨m', ?_, fun f i h => hserves.served f i ?_,
      fun f => (hserves.length f).trans (hspares.length f), hserves.rest.trans hspares.rest,
      hserves.halted.trans hspares.halted⟩
    · rw [List.length_cons, Nat.mul_succ, Nat.add_comm]
      exact hleads₁.trans hleads
    · by_cases hown : f = feed ∧ i = index
      · obtain ⟨rfl, rfl⟩ := hown
        exact .inr hserved
      · refine h.imp (fun hmem => ?_) (hspares.served hown)
        exact (List.mem_cons.mp hmem).resolve_left fun heq => hown (by simpa using heq)

end

/-! ## All of them -/

/-- The streams that there are. -/
def streams (m : Market) : List (Feed × Nat) :=
  (List.range m.marketData.length).map (Feed.marketData, ·) ++
    (List.range m.mbpFeed.length).map (Feed.mbpFeed, ·)

theorem mem_streams {feed : Feed} {index : Nat} :
    (feed, index) ∈ streams m ↔ index < (m.feeds feed).length := by
  cases feed <;> simp [streams, feeds]

theorem length_streams (m : Market) : (streams m).length = m.marketData.length + m.mbpFeed.length := by
  simp [streams]

theorem Leads.symbols {E : MarketEvent → Prop} {n : Nat} {m' : Market}
    (h : (market env).Leads E n m m') : m.symbols <+: m'.symbols := by
  obtain ⟨es, -, -, hrun⟩ := h
  induction es generalizing m with
  | nil =>
    cases hrun
    exact List.prefix_refl _
  | cons e es ih =>
    rw [Machine.runAll_cons, Option.bind_eq_some_iff] at hrun
    obtain ⟨m₁, hstep, hrun⟩ := hrun
    exact (leaves_of_step hstep).2.extends.trans (ih hrun)

/-- Wherever a run has got to, no more than six events for the download and two for
each stream make the download and every stream ready, and then every symbol, also
every one that was known before, has been subscribed to with each theme of each kind
of stream, on a connection that is still up. -/
theorem settles (answers : Answers env) (h : (market env).Reachable m) (hrunning : m.halted = false) :
    ∃ m', (market env).Leads (Tends answers) (6 + 2 * (m'.marketData.length + m'.mbpFeed.length)) m m' ∧
      IsReady m' ∧ (∀ feed index, index < (m'.feeds feed).length → isReady feed index m' = true) ∧
      m.symbols <+: m'.symbols ∧
      ∀ feed, ∀ symbol ∈ m'.symbols, ∃ index, isReady feed index m' = true ∧
        ∀ theme ∈ Feed.themes feed, ∃ id,
          .sub "market" symbol theme id ∈ Feed.textsSince feed index m'.log := by
  obtain ⟨m₁, hdownload, hready⟩ := download_recovers answers h hrunning
  have hdownload : (market env).Leads (Tends answers) 6 m m₁ :=
    hdownload.imp fun e he => by cases e <;> first | exact he | trivial
  obtain ⟨m', hleads, hserves⟩ := serveAll answers (streams m₁) hready.running
    fun _ _ hmem => mem_streams.mp hmem
  have all := hdownload.trans hleads
  have hm' := all.reachable h
  have hlength : m'.marketData.length + m'.mbpFeed.length = (streams m₁).length := by
    rw [length_streams]
    exact congrArg₂ (· + ·) (hserves.length .marketData) (hserves.length .mbpFeed)
  have served : ∀ feed index, index < (m'.feeds feed).length → Served feed index m' :=
    fun feed index hindex =>
      hserves.served feed index (.inl (mem_streams.mpr (hserves.length feed ▸ hindex)))
  refine ⟨m', hlength ▸ all, ?_, fun feed index hindex => (served feed index hindex).ready,
    Leads.symbols all, fun feed symbol hsymbol => ?_⟩
  · refine ⟨hserves.halted.trans hready.running, ?_, ?_, ?_⟩
    · exact hserves.rest ▸ hready.up
    · exact hserves.rest ▸ hready.ready
    · exact hserves.rest ▸ hready.status
  · obtain ⟨index, hindex, hslice⟩ := (subscribed_reachable hm').once.covered feed symbol hsymbol
    have hserved := served feed index hindex
    refine ⟨index, hserved.ready, fun theme htheme => ?_⟩
    rw [texts_of_empty hm' hserved.empty]
    exact slice_queued hm' hserved.ready symbol hslice theme htheme

/-- A download that is lost, and a stream that is disconnected before it has sent
anything. -/
theorem settles_lost : ∃ m m' : Market, m.symbols = ["btcusdt"] ∧ m.rest.up = false ∧ IsReady m' ∧
    (∀ feed index, index < (m'.feeds feed).length → isReady feed index m' = true) ∧
    m.symbols <+: m'.symbols ∧ ∀ feed, ∀ symbol ∈ m'.symbols, ∃ index, isReady feed index m' = true ∧
      ∀ theme ∈ Feed.themes feed, ∃ id,
        .sub "market" symbol theme id ∈ Feed.textsSince feed index m'.log := by
  obtain ⟨m, hm, hsymbols, hup, hrunning⟩ := Machine.exists_reach (M := market Reader.marketEnv)
    (C := fun _ _ => True)
    (P := fun m => m.symbols = ["btcusdt"] ∧ m.rest.up = false ∧ m.halted = false)
    [.subscribe ["btcusdt"], .feedReady .marketData 0, .restConnected, .feedDisconnected .marketData 0,
      .restDisconnected] (by decide +kernel)
  obtain ⟨m', -, hready, hstreams, hkept, hsent⟩ := settles bodies hm hrunning
  exact ⟨m, m', hsymbols, hup, hready, hstreams, hkept, hsent⟩

end Market

end RoqHtx
