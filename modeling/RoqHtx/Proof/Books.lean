import RoqHtx.Impl.MbpFeed
import RoqHtx.Impl.MarketReader
import RoqHtx.Proof.Market

/-!
# The recovery of a book

A book that has lost its sequence recovers through a snapshot, which its sequencer
asks for. Past `mbp_request_max_retries` requests in a row nothing is requested
any more and nothing is reset, so that the book stays as it is (`abandoned_for_good`). Up
to that limit every sequencer that asks is heard (`not_abandoned`): the requests
in a row are counted along the run (`requests_le`), and a sequencer is reset
where its sequence is broken.

The market data of the books runs as it does by itself (`market_reachable`).
-/

namespace RoqHtx.Books

open Sequencer (Call Reply Counted)

variable {σ : Type} [Sequencer σ MBPUpdate] {env : BooksEnv} {s s' : Books σ}

/-! ## What a step can do -/

/-- A sequencer that is handed something, and what it makes of that. -/
structure Sequenced (σ : Type) where
  index : Nat
  symbol : String
  reply : Reply σ MBPUpdate

/-- The sequencer that an event is for. -/
def sequenced (s : Books σ) : BooksEvent → Option (Sequenced σ)
  | .market _ => none
  | .mbp index mbp => some ⟨index, Parser.extractSymbol mbp.ch, updateReply mbp s⟩
  | .mbpSnapshot index mbpSnapshot =>
    some ⟨index, Parser.extractSymbol mbpSnapshot.rep, snapshotReply mbpSnapshot s⟩

theorem sequenced_counted {e : BooksEvent} {x : Sequenced σ} (h : sequenced s e = some x) :
    Counted (Sequencer.requests (s.sequencers x.symbol)) x.reply.calls
      (Sequencer.requests x.reply.state) := by
  cases e with
  | market e => cases h
  | mbp index mbp => exact Option.some.inj h ▸ Sequencer.counted_update _ _ _ _ _ _
  | mbpSnapshot index mbpSnapshot =>
    exact Option.some.inj h ▸ Sequencer.counted_snapshot _ _ _ _

/-- A step is one of the market data by itself, or a sequencer is handed something; what
is published then is for its own symbol. -/
theorem step_cases {e : BooksEvent} (h : step env s e = some s') :
    (∃ e' m, e = .market e' ∧ (∀ index symbol, e' ≠ .requestSnapshot index symbol) ∧
      Market.step env.market s.market e' = some m ∧ s' = { s with market := m }) ∨
    ∃ x published, sequenced s e = some x ∧ s.market.halted = false ∧
      x.index < s.market.mbpFeed.length ∧
      (∀ call update, published call = some update → update.symbol = x.symbol) ∧
      s' = onReply env x.index x.symbol published x.reply s := by
  unfold step at h
  split at h
  · cases h
  rename_i hrunning
  obtain ⟨-, hhalted⟩ : s.halted = false ∧ s.market.halted = false := by simpa using hrunning
  cases e with
  | market e =>
    refine .inl ?_
    cases e with
    | requestSnapshot index symbol => cases h
    | _ =>
      obtain ⟨m, hm, rfl⟩ := Option.map_eq_some_iff.mp h
      exact ⟨_, m, rfl, nofun, hm, rfl⟩
  | mbp index mbp =>
    rw [handle] at h
    split at h
    · rename_i hindex
      refine .inr ⟨_, updatePublished env mbp, rfl, hhalted, hindex, ?_, (Option.some.inj h).symm⟩
      rintro (_ | _ | _) update hupdate <;> cases hupdate <;> rfl
    · cases h
  | mbpSnapshot index mbpSnapshot =>
    rw [handle] at h
    split at h
    · rename_i hindex
      refine .inr ⟨_, snapshotPublished env mbpSnapshot, rfl, hhalted, hindex, ?_,
        (Option.some.inj h).symm⟩
      rintro (_ | _ | _) update hupdate <;> cases hupdate
      rfl
    · cases h

/-! ## Handlers -/

omit [Sequencer σ MBPUpdate] in
/-- What requests and published updates keep, all the callbacks keep. -/
theorem calls_rule {P : Books σ → Prop} {index : Nat} {symbol : String}
    (hrequest : ∀ s, P s → P (request index symbol s))
    (hpublish : ∀ update s, P s → P (publish index update s))
    (published : Call MBPUpdate → Option MarketByPriceUpdate) (calls : List (Call MBPUpdate))
    (hs : P s) : P (calls.foldl (onCall env index symbol published) s) := by
  refine List.foldlRecOn _ _ hs fun s hs call _ => ?_
  unfold onCall
  split
  · rw [requestSnapshot]
    split
    · exact hs
    · exact hrequest s hs
  · cases published call with
    | none => exact hs
    | some update => exact hpublish update s hs

/-- Of the market data, requests are all that matters. -/
theorem market_onReply {P : Market → Prop} {index : Nat} {symbol : String}
    (hrequest : ∀ m, P m → P (Feed.request index symbol m))
    (published : Call MBPUpdate → Option MarketByPriceUpdate) (reply : Reply σ MBPUpdate)
    (hs : P s.market) : P (onReply env index symbol published reply s).market := by
  have hcalls : P (reply.calls.foldl (onCall env index symbol published)
      (setSequencer symbol reply.state s)).market :=
    calls_rule (P := fun s => P s.market) (fun s => hrequest s.market) (fun _ _ hs => hs) published
      reply.calls hs
  unfold onReply onEnding
  split
  · exact hcalls
  · exact hrequest _ hcalls
  · exact hcalls

/-- The sequencer is left as it says, or cleared. -/
theorem sequencers_onReply (index : Nat) (symbol : String)
    (published : Call MBPUpdate → Option MarketByPriceUpdate) (reply : Reply σ MBPUpdate) :
    (onReply env index symbol published reply s).sequencers =
      Function.update s.sequencers symbol
        (if reply.ending = .badState then Sequencer.clear reply.state else reply.state) := by
  have hcalls : (reply.calls.foldl (onCall env index symbol published)
      (setSequencer symbol reply.state s)).sequencers =
        Function.update s.sequencers symbol reply.state :=
    calls_rule (P := fun s' => s'.sequencers = Function.update s.sequencers symbol reply.state)
      (fun _ hs => hs) (fun _ _ hs => hs) published reply.calls rfl
  rw [onReply, onEnding]
  split
  · rename_i hending
    rw [hcalls, hending, if_neg (by simp)]
  · rename_i hending
    rw [request, setSequencer, hcalls, hending, if_pos rfl, Function.update_idem]
  · rename_i hending
    rw [hcalls, hending, if_neg (by simp)]

/-! ## The market data -/

/-- The market data runs as it does by itself. -/
theorem market_reachable (h : (books σ env).Reachable s) :
    (RoqHtx.market env.market).Reachable s.market := by
  refine h.invariant (I := fun s => (RoqHtx.market env.market).Reachable s.market) .init
    fun s e s' hs _ hstep => ?_
  obtain ⟨e', m, -, -, hm, rfl⟩ | ⟨x, published, -, hhalted, -, -, rfl⟩ := step_cases hstep
  · exact .step hs trivial hm
  have running : Feed.Subscribes fun m => m.halted = false :=
    ⟨fun _ _ _ hm => hm, fun _ _ feed hm => by cases feed <;> exact hm, fun _ _ hm => hm⟩
  refine (market_onReply
    (P := fun m => (RoqHtx.market env.market).Reachable m ∧ m.halted = false)
    (fun m hm => ⟨?_, running.request x.index x.symbol hm.2⟩) published x.reply ⟨hs, hhalted⟩).1
  refine .step (e := .requestSnapshot x.index x.symbol) hm.1 trivial ?_
  show Market.step env.market m _ = _
  rw [Market.step, hm.2]
  rfl

/-! ## Requests in a row -/

/-- Whatever is asked for, it is asked for while there are fewer than
`mbp_request_max_retries` requests in a row, or the sequence turns out to be
broken. -/
def Within (env : BooksEnv) (s : Books σ) (e : BooksEvent) : Prop :=
  ∀ x ∈ sequenced s e, x.reply.ending = .badState ∨
    Call.Within env.mbpRequestMaxRetries.toNat x.reply.calls

instance (e : BooksEvent) : Decidable (Within env s e) :=
  inferInstanceAs (Decidable (∀ x ∈ sequenced s e, _))

theorem requests_le (h : (books σ env).Reach (Within env) s) (symbol : String) :
    Sequencer.requests (s.sequencers symbol) ≤ env.mbpRequestMaxRetries.toNat := by
  revert symbol
  refine h.invariant (I := fun s => ∀ symbol, Sequencer.requests (s.sequencers symbol) ≤
    env.mbpRequestMaxRetries.toNat) (fun symbol => ?_) fun s e s' hs hc hstep symbol => ?_
  · exact (Sequencer.requests_init).trans_le (Nat.zero_le _)
  obtain ⟨e', m, -, -, -, rfl⟩ | ⟨x, published, hx, -, -, -, rfl⟩ := step_cases hstep
  · exact hs symbol
  rw [sequencers_onReply]
  rcases eq_or_ne symbol x.symbol with rfl | hne
  · rw [Function.update_self]
    split
    · exact (Sequencer.requests_clear _).trans_le (Nat.zero_le _)
    · rename_i hending
      exact (sequenced_counted hx).le (hs x.symbol) ((hc x hx).resolve_left hending)
  · rw [Function.update_of_ne hne]
    exact hs symbol

/-! ## The queue of a stream -/

/-- The messages that a stream is still to send. -/
def queue (index : Nat) (s : Books σ) : List Feed.Message :=
  (s.market.mbpFeed[index]?).elim [] Feed.State.requestQueue

/-- How many of the requests are within the limit. -/
def heard (env : BooksEnv) (calls : List (Call MBPUpdate)) : Nat :=
  (calls.filterMap Call.retries).countP fun retries => retries ≤ env.mbpRequestMaxRetries.toNat

/-- From a state on, a stream has put `n` messages on its queue: requests for the
snapshot of a symbol. -/
structure Requested (index : Nat) (symbol : String) (n : Nat) (s s' : Books σ) : Prop where
  length : s'.market.mbpFeed.length = s.market.mbpFeed.length
  queue : ∃ new, s'.queue index = s.queue index ++ new ∧ new.length = n ∧
    ∀ message ∈ new, ∃ id, message = .req "market" symbol "mbp.20" id

namespace Requested

omit [Sequencer σ MBPUpdate]

variable {index n n' : Nat} {symbol : String} {s'' : Books σ}

theorem of_market (h : s'.market = s.market) : Requested index symbol 0 s s' where
  length := by rw [h]
  queue := ⟨[], by simp [Books.queue, h], rfl, by simp⟩

/-- Nothing but the market data matters. -/
theorem congr (h : Requested index symbol n s s') (hmarket : s''.market = s'.market) :
    Requested index symbol n s s'' where
  length := hmarket ▸ h.length
  queue := by simpa only [Books.queue, hmarket] using h.queue

theorem trans (h : Requested index symbol n s s') (h' : Requested index symbol n' s' s'') :
    Requested index symbol (n + n') s s'' where
  length := h'.length.trans h.length
  queue := by
    obtain ⟨new, hqueue, hlength, hnew⟩ := h.queue
    obtain ⟨new', hqueue', hlength', hnew'⟩ := h'.queue
    refine ⟨new ++ new', by rw [hqueue', hqueue, List.append_assoc], by simp [*], ?_⟩
    simpa [or_imp, forall_and] using ⟨hnew, hnew'⟩

theorem request (hindex : index < s.market.mbpFeed.length) :
    Requested index symbol 1 s (request index symbol s) := by
  have hstate : s.market.mbpFeed[index]? = some s.market.mbpFeed[index] :=
    List.getElem?_eq_getElem hindex
  refine ⟨?_, [.req "market" symbol "mbp.20" (s.market.mbpFeed[index].requestId + 1)], ?_, rfl, ?_⟩
  · simp [Books.request, Feed.request, Feed.emplaceBack, Market.feeds, Market.setFeeds,
      Market.push, hstate]
  · simp [Books.queue, Books.request, Feed.request, Feed.emplaceBack, Market.feeds,
      Market.setFeeds, Market.push, hindex]
  · simp

theorem call (published : Call MBPUpdate → Option MarketByPriceUpdate) (call : Call MBPUpdate)
    (hindex : index < s.market.mbpFeed.length) :
    Requested index symbol (heard env [call]) s (onCall env index symbol published s call) := by
  cases call with
  | publishUpdate bids asks =>
    refine of_market ?_
    rw [onCall]
    cases published (.publishUpdate bids asks) <;> rfl
    simp
  | publishSnapshot bids asks sequence lastSequence =>
    refine of_market ?_
    rw [onCall]
    cases published (.publishSnapshot bids asks sequence lastSequence) <;> rfl
    simp
  | requestSnapshot retries =>
    rw [onCall, requestSnapshot]
    split
    · rename_i hlimit
      have hheard : heard env [.requestSnapshot retries] = 0 := by
        simpa [heard, Call.retries] using hlimit
      exact hheard ▸ of_market rfl
    · rename_i hlimit
      have hheard : heard env [.requestSnapshot retries] = 1 := by
        simpa [heard, Call.retries, List.countP_cons] using hlimit
      exact hheard ▸ request hindex

/-- The callbacks request what is asked for up to the limit. -/
theorem calls (published : Call MBPUpdate → Option MarketByPriceUpdate)
    (calls : List (Call MBPUpdate)) (hindex : index < s.market.mbpFeed.length) :
    Requested index symbol (heard env calls) s
      (calls.foldl (onCall env index symbol published) s) := by
  induction calls generalizing s with
  | nil => exact of_market rfl
  | cons first calls ih =>
    have hfirst : Requested index symbol (heard env [first]) s
        (onCall env index symbol published s first) := call published first hindex
    have hheard : heard env (first :: calls) = heard env [first] + heard env calls := by
      rw [heard, ← List.singleton_append, List.filterMap_append, List.countP_append]
      rfl
    rw [List.foldl_cons, hheard]
    exact hfirst.trans (ih (hfirst.length ▸ hindex))

end Requested

theorem requested_onReply {index : Nat} (symbol : String)
    (published : Call MBPUpdate → Option MarketByPriceUpdate) (reply : Reply σ MBPUpdate)
    (hindex : index < s.market.mbpFeed.length) :
    Requested index symbol
      (heard env reply.calls + if reply.ending = .badState then 1 else 0) s
      (onReply env index symbol published reply s) := by
  have hset : Requested index symbol 0 s (setSequencer symbol reply.state s) := .of_market rfl
  have hcalls : Requested index symbol (0 + heard env reply.calls) s
      (reply.calls.foldl (onCall env index symbol published) (setSequencer symbol reply.state s)) :=
    hset.trans (.calls published reply.calls hindex)
  rw [Nat.zero_add] at hcalls
  rw [onReply, onEnding]
  cases reply.ending with
  | returned => exact hcalls
  | badState =>
    have hclear : Requested index symbol (heard env reply.calls) s
        (setSequencer symbol (Sequencer.clear reply.state)
          (reply.calls.foldl (onCall env index symbol published)
            (setSequencer symbol reply.state s))) := hcalls.congr rfl
    exact hclear.trans (.request (hclear.length ▸ hindex))
  | threw => exact hcalls.congr rfl

/-! ## Recovery -/

/-- Every further update of a symbol asks for a snapshot, and nothing is put on a
queue. -/
structure Abandoned (env : BooksEnv) (s : Books σ) (symbol : String) : Prop where
  next : ∃ index mbp s', Parser.extractSymbol mbp.ch = symbol ∧
    step env s (.mbp index mbp) = some s'
  every : ∀ index mbp s', Parser.extractSymbol mbp.ch = symbol →
    step env s (.mbp index mbp) = some s' →
      (updateReply mbp s).calls.filterMap Call.retries ≠ [] ∧ s'.queue index = s.queue index

/-- Every sequencer that asks for a snapshot is heard: the stream requests it. -/
theorem not_abandoned (h : (books σ env).Reach (Within env) s) :
    (∀ e s' x, step env s e = some s' → sequenced s e = some x →
      x.reply.calls.filterMap Call.retries ≠ [] →
        ∃ n, 0 < n ∧ Requested x.index x.symbol n s s') ∧
    ∀ symbol, ¬ Abandoned env s symbol := by
  have served : ∀ e s' x, step env s e = some s' → sequenced s e = some x →
      x.reply.calls.filterMap Call.retries ≠ [] →
        ∃ n, 0 < n ∧ Requested x.index x.symbol n s s' := by
    intro e s' x hstep hx hasks
    obtain ⟨e', m, rfl, -⟩ | ⟨y, published, hy, -, hindex, -, rfl⟩ := step_cases hstep
    · cases hx
    obtain rfl : x = y := Option.some.inj (hx.symm.trans hy)
    refine ⟨_, ?_, requested_onReply x.symbol published x.reply hindex⟩
    obtain ⟨retries, l, hretries⟩ := List.exists_cons_of_ne_nil hasks
    have hle : retries ≤ env.mbpRequestMaxRetries.toNat :=
      ((sequenced_counted hx).first_le (by rw [hretries]; rfl)).trans (requests_le h x.symbol)
    have hheard : 0 < heard env x.reply.calls :=
      List.countP_pos_iff.mpr ⟨retries, by simp [hretries], by simpa using hle⟩
    omega
  refine ⟨served, fun symbol habandoned => ?_⟩
  obtain ⟨index, mbp, s', hsymbol, hstep⟩ := habandoned.next
  obtain ⟨hasks, hqueue⟩ := habandoned.every index mbp s' hsymbol hstep
  obtain ⟨n, hn, hrequested⟩ := served _ s' _ hstep rfl hasks
  obtain ⟨new, hnew, hlength, -⟩ := hrequested.queue
  have : new = [] := by simpa [hqueue] using hnew.symm
  simp [this] at hlength
  omega

theorem step_mbp {index : Nat} (mbp : Json.MBP) (hrunning : (s.halted || s.market.halted) = false)
    (hindex : index < s.market.mbpFeed.length) :
    step env s (.mbp index mbp) = some (onMBP env index mbp s) := by
  rw [step, hrunning, handle, if_pos hindex]
  rfl

/-- A snapshot, an update, a gap, and then nothing for a while. -/
theorem not_abandoned_gap :
    ∃ s : Books Reader.Sequence, (books _ Reader.booksEnv).Reach (Within Reader.booksEnv) s ∧
      s.sequencers "btcusdt" = ⟨none, 3⟩ ∧
      (∃ s', step Reader.booksEnv s (.mbp 0 (Reader.mbp 8 7)) = some s' ∧
        ∃ n, 0 < n ∧ Requested 0 "btcusdt" n s s') ∧
      ¬ Abandoned Reader.booksEnv s "btcusdt" := by
  obtain ⟨s, hs, hsequencer, hrunning, hlength⟩ := Machine.exists_reach
    (M := books Reader.Sequence Reader.booksEnv) (C := Within Reader.booksEnv)
    (P := fun s => s.sequencers "btcusdt" = ⟨none, 3⟩ ∧
      (s.halted || s.market.halted) = false ∧ 0 < s.market.mbpFeed.length)
    [.market (.subscribe ["btcusdt"]), .market (.feedReady .mbpFeed 0), .mbp 0 (Reader.mbp 1 0),
      .market (.timer .mbpFeed 0 2), .mbpSnapshot 0 (Reader.mbpSnapshot 1), .mbp 0 (Reader.mbp 2 1),
      .mbp 0 (Reader.mbp 4 3), .mbp 0 (Reader.mbp 5 4), .mbp 0 (Reader.mbp 6 5),
      .mbp 0 (Reader.mbp 7 6)]
    (by decide)
  have hstep : step Reader.booksEnv s (.mbp 0 (Reader.mbp 8 7)) = some _ :=
    step_mbp (Reader.mbp 8 7) hrunning hlength
  have hsymbol : Parser.extractSymbol (Reader.mbp 8 7).ch = "btcusdt" := by decide
  have hreply : updateReply (Reader.mbp 8 7) s = ⟨[.requestSnapshot 3], .returned, ⟨none, 4⟩⟩ := by
    rw [updateReply, hsymbol, hsequencer]
    rfl
  obtain ⟨served, habandoned⟩ := not_abandoned hs
  refine ⟨s, hs, hsequencer, ⟨_, hstep, ?_⟩, habandoned _⟩
  have := served _ _ _ hstep rfl (by simp [hreply, Call.retries])
  rwa [hsymbol] at this

/-! ## Past the limit -/

/-- A sequencer waits for a snapshot, past the limit. -/
structure Waits (env : BooksEnv) (s : Books Reader.Sequence) (symbol : String) (n : Nat) : Prop where
  running : (s.halted || s.market.halted) = false
  stream : 0 < s.market.mbpFeed.length
  sequencer : s.sequencers symbol = ⟨none, n⟩
  limit : env.mbpRequestMaxRetries.toNat < n

namespace Waits

variable {s s' : Books Reader.Sequence} {symbol : String} {n : Nat} (h : Waits env s symbol n)

include h

theorem updateReply {mbp : Json.MBP} (hsymbol : Parser.extractSymbol mbp.ch = symbol) :
    updateReply mbp s = ⟨[.requestSnapshot n], .returned, ⟨none, n + 1⟩⟩ := by
  rw [Books.updateReply, hsymbol, h.sequencer]
  rfl

/-- An update counts a request that is not made. -/
theorem onMBP (index : Nat) {mbp : Json.MBP} (hsymbol : Parser.extractSymbol mbp.ch = symbol) :
    onMBP env index mbp s = setSequencer symbol ⟨none, n + 1⟩ s := by
  rw [Books.onMBP, h.updateReply hsymbol, onReply, onEnding, List.foldl_cons, List.foldl_nil, onCall,
    requestSnapshot, if_pos h.limit, hsymbol]

theorem setSequencer : Waits env (setSequencer symbol ⟨none, n + 1⟩ s) symbol (n + 1) where
  running := h.running
  stream := h.stream
  sequencer := Function.update_self _ _ _
  limit := Nat.lt_succ_of_lt h.limit

theorem abandoned (hsymbol : ∃ mbp : Json.MBP, Parser.extractSymbol mbp.ch = symbol) :
    Abandoned env s symbol := by
  refine ⟨?_, fun index mbp s' hsymbol hstep => ?_⟩
  · obtain ⟨mbp, hmbp⟩ := hsymbol
    exact ⟨0, mbp, _, hmbp, step_mbp mbp h.running h.stream⟩
  · obtain ⟨e', m, he, -⟩ | ⟨x, published, hx, -, hindex, -⟩ := step_cases hstep
    · cases he
    obtain rfl := Option.some.inj hx
    obtain rfl : Books.onMBP env index mbp s = s' :=
      Option.some.inj ((step_mbp mbp h.running hindex).symm.trans hstep)
    rw [h.onMBP index hsymbol, h.updateReply hsymbol]
    exact ⟨by simp [Call.retries], rfl⟩

end Waits

/-- However many updates follow, the symbol stays abandoned. -/
theorem Waits.run {symbol : String} (updates : List Json.MBP)
    (hupdates : ∀ mbp ∈ updates, Parser.extractSymbol mbp.ch = symbol) :
    ∀ {s : Books Reader.Sequence} {n : Nat}, Waits env s symbol n →
      ∃ s', (books Reader.Sequence env).run (fun _ _ => True) s (updates.map (.mbp 0)) = some s' ∧
        Waits env s' symbol (n + updates.length) ∧ s'.market = s.market := by
  induction updates with
  | nil => exact fun h => ⟨_, rfl, h, rfl⟩
  | cons mbp updates ih =>
    intro s n h
    have hsymbol := hupdates mbp List.mem_cons_self
    obtain ⟨s', hrun, hwaits, hmarket⟩ :=
      ih (fun mbp hmbp => hupdates mbp (List.mem_cons_of_mem _ hmbp)) h.setSequencer
    refine ⟨s', ?_, ?_, hmarket⟩
    · rw [List.map_cons, Machine.run, if_pos trivial]
      show ((Books.step env s (.mbp 0 mbp)).bind _) = _
      rw [step_mbp mbp h.running h.stream, h.onMBP 0 hsymbol]
      exact hrun
    · have : n + (updates.length + 1) = n + 1 + updates.length := by omega
      exact this ▸ hwaits

/-- Four requests, all of whose replies are lost, one of them to a reconnect. -/
theorem abandoned_for_good :
    ∃ s : Books Reader.Sequence, (books _ Reader.booksEnv).Reachable s ∧
      Abandoned Reader.booksEnv s "btcusdt" ∧
      ∀ updates : List Json.MBP, (∀ mbp ∈ updates, Parser.extractSymbol mbp.ch = "btcusdt") →
        ∃ s', (books _ Reader.booksEnv).run (fun _ _ => True) s (updates.map (.mbp 0)) = some s' ∧
          Abandoned Reader.booksEnv s' "btcusdt" ∧ s'.queue 0 = s.queue 0 ∧
          Sequencer.requests (s'.sequencers "btcusdt") = 4 + updates.length := by
  have hsymbol : ∃ mbp : Json.MBP, Parser.extractSymbol mbp.ch = "btcusdt" :=
    ⟨Reader.mbp 1 0, by decide⟩
  obtain ⟨s, hs, hsequencer, hrunning, hlength⟩ := Machine.exists_reach
    (M := books Reader.Sequence Reader.booksEnv) (C := fun _ _ => True)
    (P := fun s => s.sequencers "btcusdt" = ⟨none, 4⟩ ∧
      (s.halted || s.market.halted) = false ∧ 0 < s.market.mbpFeed.length)
    [.market (.subscribe ["btcusdt"]), .market (.feedReady .mbpFeed 0), .mbp 0 (Reader.mbp 1 0),
      .market (.timer .mbpFeed 0 2), .mbp 0 (Reader.mbp 2 1),
      .market (.feedDisconnected .mbpFeed 0), .market (.feedReady .mbpFeed 0),
      .mbp 0 (Reader.mbp 3 2), .mbp 0 (Reader.mbp 4 3), .market (.timer .mbpFeed 0 4)]
    (by decide)
  have hwaits : Waits Reader.booksEnv s "btcusdt" 4 := ⟨hrunning, hlength, hsequencer, by decide⟩
  refine ⟨s, hs, hwaits.abandoned hsymbol, fun updates hupdates => ?_⟩
  obtain ⟨s', hrun, hwaits', hmarket⟩ := Waits.run updates hupdates hwaits
  refine ⟨s', hrun, hwaits'.abandoned hsymbol, by rw [queue, queue, hmarket], ?_⟩
  rw [hwaits'.sequencer]
  rfl

end RoqHtx.Books
