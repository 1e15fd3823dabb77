import RoqHtx.Proof.Ownership

/-!
# A symbol is announced before anything is published for it

A symbol is announced by its reference data, unless it is discarded, or by a client
that asks for it. Only symbols that have been announced are ever added, and whatever a
stream asks for is for a symbol that had been added by then (`InOrder`). So is
everything that is fed to a sequencer, and all that is published
(`Sockets.AnnouncedBefore`).
-/

namespace RoqHtx

/-- The entry has the reference data of the symbol, and does not discard it, or
somebody asks for the symbol. -/
def Announces (symbol : String) : MarketEntry → Prop
  | .referenceData referenceData => referenceData.symbol = symbol ∧ referenceData.discard = false
  | .subscribed symbols => symbol ∈ symbols
  | _ => False

def Announced (symbol : String) (l : List MarketEntry) : Prop := ∃ x ∈ l, Announces symbol x

theorem Announced.cons {symbol : String} {l : List MarketEntry} (h : Announced symbol l)
    (x : MarketEntry) : Announced symbol (x :: l) := by
  obtain ⟨y, hy, hsymbol⟩ := h
  exact ⟨y, List.mem_cons_of_mem x hy, hsymbol⟩

theorem Announced.suffix {symbol : String} {l l' : List MarketEntry} (h : Announced symbol l)
    (hl : l <:+ l') : Announced symbol l' := by
  obtain ⟨x, hx, hsymbol⟩ := h
  exact ⟨x, hl.subset hx, hsymbol⟩

/-- If the entry puts something into a queue, its symbol has been announced before. -/
def AnnouncedFirst (before : List MarketEntry) (x : MarketEntry) : Prop :=
  ∀ feed index message, x = .enqueued feed index message → Announced message.symbol before

/-- Every symbol has been announced, and each that a stream has asked for was announced
before. -/
structure InOrder (slicing : Slicing) (m : Market) : Prop where
  owned : Owned slicing m
  introduced : ∀ symbol ∈ m.symbols, Announced symbol m.log
  announced : Always AnnouncedFirst m.log

/-- So has every one that is new, and will be added. -/
structure Introducing (slicing : Slicing) (s : List String × Market) : Prop where
  inOrder : InOrder slicing s.2
  new : ∀ symbol ∈ s.1, Announced symbol s.2.log

/-- A piece of the streams' code: what has been in the history stays there, and no
symbol is added. -/
def Prolongs (m m' : Market) : Prop := m'.symbols = m.symbols ∧ m.log <:+ m'.log

namespace Prolongs

theorem refl (m : Market) : Prolongs m m := ⟨rfl, List.suffix_refl _⟩

theorem streams (m : Market) : Feed.Subscribes (Prolongs m) where
  push x _ _ h := ⟨h.1, h.2.trans (List.suffix_cons x _)⟩
  setFeeds t l feed h := by
    rw [Prolongs, Feed.symbols_setFeeds, Feed.log_setFeeds]
    exact h
  streamId _ _ h := h

end Prolongs

namespace InOrder

variable {slicing : Slicing} {m m' : Market}

theorem push (h : InOrder slicing m) {x : MarketEntry} (hx : Market.asked x = none) :
    InOrder slicing (m.push x) where
  owned := h.owned.push hx
  introduced symbol hsymbol := (h.introduced symbol hsymbol).cons x
  announced := by
    refine ⟨fun _ _ _ heq => ?_, h.announced⟩
    subst heq
    cases hx

theorem closed (slicing : Slicing) : Rest.Closed (InOrder slicing) where
  push x _ hx h := h.push (by cases x <;> first | rfl | exact hx.elim)
  rest _ _ h := ⟨h.owned, h.introduced, h.announced⟩
  requests _ _ h := ⟨h.owned, h.introduced, h.announced⟩
  halted _ _ h := ⟨h.owned, h.introduced, h.announced⟩

/-- Whatever the streams do, they ask for symbols that were there before, if they ask
for symbols of their slices. -/
theorem prolongs (h : InOrder slicing m) (howned : Owned slicing m') (hprolongs : Prolongs m m') :
    InOrder slicing m' := by
  obtain ⟨hsymbols, new, hlog⟩ := hprolongs
  have known : ∀ symbol ∈ m'.symbols, Announced symbol m.log := fun symbol hsymbol =>
    h.introduced symbol (hsymbols ▸ hsymbol)
  have asked : ∀ x ∈ new, ∀ feed index message, x = .enqueued feed index message →
      Announced message.symbol m.log := by
    rintro x hx feed index message rfl
    refine known _ (Slicing.members_sublist.subset (howned feed index message ?_))
    exact hlog ▸ List.mem_append_left _ hx
  refine ⟨howned, fun symbol hsymbol => (known symbol hsymbol).suffix ⟨new, hlog⟩, hlog ▸ ?_⟩
  refine h.announced.append (Q := fun x => ∀ feed index message, x = .enqueued feed index message →
    Announced message.symbol m.log) (fun x pre hx _ feed index message heq => ?_) asked
  exact (hx feed index message heq).suffix (List.suffix_append pre m.log)

end InOrder

namespace Introducing

variable {slicing : Slicing} {s : List String × Market}

theorem push (h : Introducing slicing s) {x : MarketEntry} (hx : Market.asked x = none) :
    Introducing slicing (s.1, s.2.push x) :=
  ⟨h.inOrder.push hx, fun symbol hsymbol => (h.new symbol hsymbol).cons x⟩

theorem emplace (h : Introducing slicing s) {symbol : String} (hsymbol : Announced symbol s.2.log) :
    Introducing slicing (Controller.emplace s symbol) := by
  unfold Controller.emplace
  split
  · exact h
  · refine ⟨⟨h.inOrder.owned, h.inOrder.introduced, h.inOrder.announced⟩, fun other hother => ?_⟩
    rcases List.mem_append.mp hother with hother | hother
    · exact h.new other hother
    · rwa [List.mem_singleton.mp hother]

/-- New symbols are added once all of them have been announced, and asked for after
that. -/
theorem onSymbolsUpdate (h : Introducing slicing s) :
    InOrder slicing (Controller.onSymbolsUpdate slicing s.1 s.2) := by
  have pushed := h.push (x := .symbolsUpdate s.1) rfl
  have added : InOrder slicing (Controller.addSymbols s.1 (s.2.push (.symbolsUpdate s.1))) := by
    refine ⟨?_, fun symbol hsymbol => ?_, pushed.inOrder.announced⟩
    · exact pushed.inOrder.owned.mono (List.prefix_append _ _) fun _ _ _ hx => hx
    · exact (List.mem_append.mp hsymbol).elim (pushed.inOrder.introduced symbol) (pushed.new symbol)
  exact added.prolongs (h.inOrder.owned.onSymbolsUpdate s.1)
    ((Prolongs.streams _).onSymbolsUpdate slicing s.1 (.refl _))

/-! ## The download -/

variable (env : MarketEnv) (t : Rest.Handling)

/-- An item gives the reference data of its symbol before the symbol is new. -/
theorem publishItem (i : Nat) (item : Json.SymbolsItem) (h : Introducing slicing s) :
    Introducing slicing (Rest.publishItem env t i item s).state := by
  unfold Rest.publishItem
  split
  · exact h
  cases hraises : t.raises (.referenceData i) with
  | some e => exact h
  | none =>
    have pushed := h.push
      (x := .referenceData (Rest.referenceData env item (t.discards item.symbol))) rfl
    cases hdiscard : t.discards item.symbol with
    | true =>
      rw [hdiscard] at pushed
      exact pushed
    | false =>
      rw [hdiscard] at pushed
      have announced : Announced item.symbol
          (s.2.push (.referenceData (Rest.referenceData env item false))).log :=
        ⟨_, List.mem_cons_self, rfl, rfl⟩
      have known := pushed.emplace announced
      exact Rest.dispatch_state (P := Introducing slicing)
        (f := fun s => (s.1, s.2.push (.marketStatus (Rest.marketStatus env item)))) _ known
        (known.push rfl)

theorem publishItems : ∀ (items : List Json.SymbolsItem) (i : Nat) {s : List String × Market},
    Introducing slicing s → Introducing slicing (Rest.publishItems env t i items s).state
  | [], _, _, h => h
  | item :: items, i, _, h =>
    Outcome.state_bind (P := Introducing slicing) (h.publishItem env t i item) fun _ hs =>
      publishItems items (i + 1) hs

theorem handOn (h : Introducing env.slicing s) :
    InOrder env.slicing (Rest.handOn env t s).state.2 := by
  unfold Rest.handOn
  split
  · exact h.inOrder
  · exact Rest.dispatch_state (P := fun s : List String × Market => InOrder env.slicing s.2) _
      h.inOrder h.onSymbolsUpdate

end Introducing

namespace InOrder

variable {env : MarketEnv} {m : Market}

theorem onSymbols (h : InOrder env.slicing m) (t : Rest.Handling) (symbols : Json.Symbols) :
    InOrder env.slicing (Rest.onSymbols env t symbols m).state := by
  have published := Introducing.publishItems env t symbols.data 0
    (s := ([], m)) ⟨h, fun _ hs => absurd hs List.not_mem_nil⟩
  have handed : InOrder env.slicing
      ((Rest.publishItems env t 0 symbols.data ([], m)).bind (Rest.handOn env t)).state.2 := by
    obtain ⟨s, hs, hbind⟩ | hstays :=
      (Rest.publishItems env t 0 symbols.data ([], m)).bind_cases (Rest.handOn env t)
    · rw [hs] at published
      rw [hbind]
      exact published.handOn env t
    · rw [hstays]
      exact published.inOrder
  unfold Rest.onSymbols
  refine Outcome.state_bind (P := InOrder env.slicing) ?_ fun _ hm => hm.push rfl
  rw [Outcome.state_map]
  exact handed

/-- Whoever asks for symbols announces them. -/
theorem onSubscribe (h : InOrder env.slicing m) (symbols : List String) :
    InOrder env.slicing (Controller.onSubscribe env.slicing symbols m) := by
  have first : Introducing env.slicing ([], m.push (.subscribed symbols)) :=
    ⟨h.push rfl, fun _ hs => absurd hs List.not_mem_nil⟩
  -- the entry that announces them stays in the history while they are gone over
  have known := List.foldlRecOn (motive := fun s : List String × Market =>
      Introducing env.slicing s ∧ .subscribed symbols ∈ s.2.log) symbols Controller.emplace
    ⟨first, List.mem_cons_self⟩ fun s hs symbol hsymbol => by
      refine ⟨hs.1.emplace ⟨_, hs.2, hsymbol⟩, ?_⟩
      unfold Controller.emplace
      split <;> exact hs.2
  exact known.1.onSymbolsUpdate

end InOrder

namespace Market

theorem Leaves.inOrder {env : MarketEnv} {m m' : Market} {e : MarketEvent} (h : Leaves env m m' e)
    (hrequest : ∀ index symbol, e = .requestSnapshot index symbol →
      symbol ∈ Feed.getSlice env.slicing index 0 m.symbols) (hm : InOrder env.slicing m) :
    InOrder env.slicing m' := by
  have closed := InOrder.closed env.slicing
  have streams := Prolongs.streams m
  have howned := h.owned hrequest hm.owned
  cases e with
  | restConnected => exact h.2 ▸ closed.onConnected hm
  | restDisconnected => exact h.2 ▸ closed.onDisconnected hm
  | response stage sequence response t =>
    exact h.2 ▸ closed.onResponse stage sequence response t
      (fun _ => closed.ack (fun symbols _ hm => hm.onSymbols t symbols) sequence response t hm) hm
  | subscribe symbols => exact h ▸ hm.onSubscribe symbols
  | feedReady feed index =>
    exact hm.prolongs howned (h.2 ▸ streams.onReady env.slicing feed index (.refl m))
  | feedDisconnected feed index =>
    exact hm.prolongs howned (h.2 ▸ streams.onDisconnected feed index (.refl m))
  | timer feed index count => exact hm.prolongs howned (h ▸ streams.onTimer feed index count (.refl m))
  | requestSnapshot index symbol => exact hm.prolongs howned (h ▸ streams.request index symbol (.refl m))

end Market

/-! ## Books -/

namespace Books

variable {σ : Type} [Sequencer σ MBPUpdate] {env : BooksEnv} {s s' : Books σ}

theorem step_inOrder {e : BooksEvent} (h : step env s e = some s') (he : Rightful env s e)
    (howned : Owned env s) (hs : InOrder env.market.slicing s.market) :
    InOrder env.market.slicing s'.market := by
  have howned' := (step_owned h he howned).1.market
  obtain ⟨e', m, -, hother, hm, rfl⟩ | ⟨x, published, -, -, -, -, rfl⟩ := step_cases h
  · have leaves := (Market.leaves_of_step hm).2
    exact leaves.inOrder (fun index symbol he => absurd he (hother index symbol)) hs
  · refine hs.prolongs howned' ?_
    exact market_onReply (P := Prolongs s.market)
      (fun m hm => (Prolongs.streams s.market).request x.index x.symbol hm) published x.reply (.refl _)

theorem step_published {e : BooksEvent} (h : step env s e = some s') :
    s.published <:+ s'.published := by
  obtain ⟨e', m, -, -, -, rfl⟩ | ⟨x, published, -, -, -, -, rfl⟩ := step_cases h
  · exact List.suffix_refl _
  have called : s.published <:+ (x.reply.calls.foldl (onCall env x.index x.symbol published)
      (setSequencer x.symbol x.reply.state s)).published :=
    calls_rule (P := fun t => s.published <:+ t.published) (fun _ ht => ht)
      (fun _ _ ht => ht.trans (List.suffix_cons _ _)) published x.reply.calls (List.suffix_refl _)
  unfold onReply onEnding
  split <;> exact called

/-- What holds of one event holds of all that a message tells the books. -/
theorem runAll_inOrder {es : List BooksEvent} (h : (books σ env).runAll s es = some s')
    (hes : ∀ e ∈ es, Rightful env s e) (howned : Owned env s)
    (hs : InOrder env.market.slicing s.market) :
    InOrder env.market.slicing s'.market ∧ s.published <:+ s'.published := by
  induction es generalizing s with
  | nil =>
    cases h
    exact ⟨hs, List.suffix_refl _⟩
  | cons e es ih =>
    obtain ⟨t, ht, h⟩ := Option.bind_eq_some_iff.mp h
    have hrightful := hes e List.mem_cons_self
    obtain ⟨howned', hsymbols⟩ := step_owned ht hrightful howned
    obtain ⟨hinOrder, hpublished⟩ := ih h
      (fun e he => (hes e (List.mem_cons_of_mem _ he)).mono hsymbols) howned'
      (step_inOrder ht hrightful howned hs)
    exact ⟨hinOrder, (step_published ht).trans hpublished⟩

end Books

/-! ## Sockets -/

namespace Sockets

variable {σ : Type} [Sequencer σ MBPUpdate] {env : SocketsEnv} {s s' : Sockets σ}

theorem inOrder_reach (h : (sockets σ env).Reach (Answers env) s) :
    InOrder env.books.market.slicing s.books.market := by
  refine h.invariant_of (J := fun s => Owned env s ∧ Feed.AllAsked s.books.market.log)
    (I := fun s => InOrder env.books.market.slicing s.books.market)
    (fun _ hs => ⟨owned_reachable hs, allAsked_reach hs⟩)
    ⟨(owned_init env).books.market, fun _ hsymbol => absurd hsymbol List.not_mem_nil, always_nil⟩
    fun s e s' ⟨howned, hasked⟩ hs he hstep => ?_
  exact (Books.runAll_inOrder (step_follows hstep).2.does.books
    (rightful_bookEvents hstep howned hasked he) howned.books hs).1

/-- Of a step: every sequencer is fed with what its own symbol's messages say, and with
nothing else; and whatever is fed or published is for a symbol that had been announced
when the step was taken. -/
structure AnnouncedBefore (env : SocketsEnv) (s : Sockets σ) (e : SocketsEvent) (s' : Sockets σ) :
    Prop where
  book : ∀ symbol, (RoqHtx.book σ env.books).runAll (Books.bookOf symbol s.books)
    (told env symbol [e]) = some (Books.bookOf symbol s'.books)
  told : ∀ symbol, told env symbol [e] ≠ [] → Announced symbol s.books.market.log
  published : ∃ new, s'.books.published = new ++ s.books.published ∧
    ∀ x ∈ new, Announced x.2.symbol s.books.market.log
  log : ∃ new, s'.log = new ++ s.log ∧ ∀ x ∈ new, ∀ index symbol,
    x.subject? = some (index, symbol) → Announced symbol s.books.market.log

theorem announcedBefore {e : SocketsEvent} (hs : (sockets σ env).Reach (Answers env) s)
    (he : Answers env s e) (h : step env s e = some s') : AnnouncedBefore env s e s' := by
  have howned := owned_reachable hs
  have hasked := allAsked_reach hs
  have inOrder := inOrder_reach hs
  have announced {index : Nat} {symbol : String} (hsymbol : Books.Owns env.books s.books index symbol) :
      Announced symbol s.books.market.log :=
    inOrder.introduced symbol (Slicing.members_sublist.subset hsymbol)
  have follows := (step_follows h).2.does
  have hrightful := rightful_bookEvents h howned hasked he
  have one : ∀ symbol, told env symbol [e] = (env.bookEvents e).flatMap (Books.eventsFor symbol) :=
    fun symbol => by rw [told, List.flatMap_singleton]
  have book : ∀ symbol, (RoqHtx.book σ env.books).runAll (Books.bookOf symbol s.books)
      (told env symbol [e]) = some (Books.bookOf symbol s'.books) := fun symbol =>
    one symbol ▸ Books.runAll_eventsFor follows.books symbol
  have told : ∀ symbol, told env symbol [e] ≠ [] → Announced symbol s.books.market.log := by
    intro symbol htold
    obtain ⟨b, hb⟩ := List.exists_mem_of_ne_nil _ (one symbol ▸ htold)
    obtain ⟨e', he', hb⟩ := List.mem_flatMap.mp hb
    exact announced ((hrightful e' he').owns hb)
  refine ⟨book, told, ?_, (env.entries e).reverse, ?_, fun x hx index symbol hsubject => ?_⟩
  · -- a book that is told nothing is as it was, so that nothing is published for it
    obtain ⟨new, hnew⟩ := (Books.runAll_inOrder follows.books hrightful howned.books inOrder).2
    refine ⟨new, hnew.symm, fun x hx => told x.2.symbol fun hnothing => ?_⟩
    have same := book x.2.symbol
    rw [hnothing, Machine.runAll_nil] at same
    have hpublished : (Books.bookOf x.2.symbol s.books).published =
        (Books.bookOf x.2.symbol s'.books).published := congrArg _ (Option.some.inj same)
    simp only [Books.bookOf, ← hnew, List.filter_append] at hpublished
    exact List.filter_eq_nil_iff.mp (List.append_left_eq_self.mp hpublished.symm) x hx (by simp)
  · rw [← List.reverse_inj, follows.log, List.reverse_append, List.reverse_reverse]
  · exact announced (owns_entries howned hasked he x (List.mem_reverse.mp hx) index symbol hsubject)

/-- As long as the exchange sends to a stream what the stream has asked for, whatever
a stream asks for, feeds to a sequencer or publishes is for a symbol that has been
announced before that: its reference data have been published, and not discarded, or
somebody has asked for it. -/
theorem announced (h : (sockets σ env).Reach (Answers env) s) :
    Always AnnouncedFirst s.books.market.log ∧
      ∀ e s', Answers env s e → step env s e = some s' → AnnouncedBefore env s e s' :=
  ⟨(inOrder_reach h).announced, fun _ _ => announcedBefore h⟩

/-- The first snapshot of a symbol that has been downloaded, after a message for one
that has been asked for. -/
theorem announced_two : ∃ s s' : Sockets Reader.Sequence,
    step Reader.socketsEnv s (.binary .mbpFeed 0 (some Reader.snapshotMessage)) = some s' ∧
      s.log.filterMap SocketEntry.subject? = [(1, "xrpusdt")] ∧ s.books.published = [] ∧
      s'.books.published.map (fun (index, update) => (index, update.symbol)) = [(0, "btcusdt")] ∧
      AnnouncedBefore Reader.socketsEnv s (.binary .mbpFeed 0 (some Reader.snapshotMessage)) s' := by
  let e : SocketsEvent := .binary .mbpFeed 0 (some Reader.snapshotMessage)
  obtain ⟨s, hs, ⟨hlog, hanswers⟩, hpublished, hstep⟩ := Machine.exists_reach
    (M := sockets Reader.Sequence Reader.socketsEnv) (C := Answers Reader.socketsEnv)
    (P := fun s => (s.log.filterMap SocketEntry.subject? = [(1, "xrpusdt")] ∧
      Answers Reader.socketsEnv s e) ∧ s.books.published = [] ∧
        (step Reader.socketsEnv s e).any (fun s' => decide
          (s'.books.published.map (fun (index, update) => (index, update.symbol)) =
            [(0, "btcusdt")])) = true)
    (.books (.market .restConnected) ::
      (Reader.symbolsDownload 1 Reader.openBody).map (fun e => .books (.market e)) ++
      [.books (.market (.subscribe ["xrpusdt"])),
        .books (.market (.feedReady .marketData 1)), .books (.market (.feedReady .mbpFeed 0)),
        .binary .marketData 1 (some (Reader.ticked "market.xrpusdt.bbo" Reader.bboTick)),
        .binary .mbpFeed 0 (some (Reader.ticked "market.btcusdt.mbp.20" Reader.mbpTick))])
    (by decide +kernel)
  obtain ⟨s', hs', hsnapshot⟩ := (Option.any_eq_true ..).mp hstep
  exact ⟨s, s', hs', hlog, hpublished, of_decide_eq_true hsnapshot,
    (announced hs).2 e s' hanswers hs'⟩

end Sockets

end RoqHtx
