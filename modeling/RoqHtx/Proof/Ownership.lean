import RoqHtx.Proof.Channels
import RoqHtx.Proof.Queues
import RoqHtx.Proof.Separation
import RoqHtx.Proof.Sockets

/-!
# Whose symbol it is

A stream asks for the symbols of its slice, and for no others (`Owned`). Streams
share the sequencers by symbol, so what keeps two streams from feeding one of them
is that the exchange sends to a stream what the stream has asked for. Then every
publication and request of a stream is for a symbol of its slice, and so is every
update and snapshot that it feeds to a sequencer (`Sockets.FedByOwner`); and no
symbol is in the slices of two streams (`Sockets.owners`).
-/

namespace RoqHtx

open Feed (getSlice)

/-! ## Messages -/

/-- What a stream asks for is for the symbols of its slice. -/
def Owned (slicing : Slicing) (m : Market) : Prop :=
  ∀ feed index message, .enqueued feed index message ∈ m.log →
    message.symbol ∈ getSlice slicing index 0 m.symbols

theorem getSlice_prefix {slicing : Slicing} {index : Nat} {l l' : List String} (h : l <+: l') :
    ∀ symbol ∈ getSlice slicing index 0 l, symbol ∈ getSlice slicing index 0 l' := by
  obtain ⟨new, rfl⟩ := h
  intro symbol hs
  rw [getSlice, Slicing.members_append]
  exact List.mem_append_left _ hs

theorem getSlice_from {slicing : Slicing} {index startFrom : Nat} {l : List String} :
    ∀ symbol ∈ getSlice slicing index startFrom l, symbol ∈ getSlice slicing index 0 l := by
  intro symbol hs
  obtain ⟨position, hposition, hslice, -⟩ := Slicing.mem_members.mp hs
  exact Slicing.mem_members.mpr ⟨position, hposition, hslice, Nat.zero_le _⟩

namespace Owned

variable {slicing : Slicing} {m m' : Market}

/-- A piece that asks for nothing. -/
theorem mono (h : Owned slicing m) (hsymbols : m.symbols <+: m'.symbols)
    (hlog : ∀ feed index message, .enqueued feed index message ∈ m'.log →
      .enqueued feed index message ∈ m.log) : Owned slicing m' :=
  fun feed index message hx =>
    getSlice_prefix hsymbols _ (h feed index message (hlog feed index message hx))

theorem push (h : Owned slicing m) {x : MarketEntry} (hx : Market.asked x = none) :
    Owned slicing (m.push x) :=
  h.mono (List.prefix_refl _) fun _ _ _ hm => (List.mem_cons.mp hm).resolve_left fun heq => by
    subst heq
    cases hx

theorem closed (slicing : Slicing) : Rest.Closed (Owned slicing) where
  push x m hx h := h.push (by cases x <;> first | rfl | exact hx.elim)
  rest _ _ h := h
  requests _ _ h := h
  halted _ _ h := h

theorem publish (h : Owned slicing m) (status : ConnectionStatus) (feed : Feed) (index : Nat) :
    Owned slicing (Feed.publish status feed index m) := by
  refine h.mono ?_ fun f i message hx => ?_
  · rw [show (Feed.publish status feed index m).symbols = m.symbols from Feed.symbols_setFeeds ..]
  · rw [Feed.log_publish] at hx
    exact (List.mem_cons.mp hx).resolve_left nofun

theorem onDisconnected (h : Owned slicing m) (feed : Feed) (index : Nat) :
    Owned slicing (Feed.onDisconnected feed index m) := by
  refine h.mono ?_ fun f i message hx => ?_
  · rw [show (Feed.onDisconnected feed index m).symbols = m.symbols from
      (Feed.symbols_setFeeds ..).trans (Feed.symbols_setFeeds ..)]
  · rw [Feed.log_onDisconnected] at hx
    exact (List.mem_cons.mp ((List.mem_cons.mp hx).resolve_left nofun)).resolve_left nofun

theorem symbols_emplaceBack (feed : Feed) (index : Nat) (message : UInt64 → Feed.Message) (m : Market) :
    (Feed.emplaceBack feed index message m).symbols = m.symbols := by
  unfold Feed.emplaceBack
  split
  · rfl
  · exact Feed.symbols_setFeeds ..

theorem emplaceBack (h : Owned slicing m) (feed : Feed) (index : Nat) {message : UInt64 → Feed.Message}
    {symbol : String} (hmessage : ∀ id, (message id).symbol = symbol)
    (hsymbol : symbol ∈ getSlice slicing index 0 m.symbols) :
    Owned slicing (Feed.emplaceBack feed index message m) := by
  cases hs : (m.feeds feed)[index]? with
  | none =>
    unfold Feed.emplaceBack
    rw [hs]
    exact h
  | some s =>
    intro f i asked hx
    rw [symbols_emplaceBack]
    rw [Feed.log_emplaceBack hs] at hx
    rcases List.mem_cons.mp hx with heq | hx
    · cases heq
      rw [hmessage]
      exact hsymbol
    · exact h f i asked hx

theorem checkRequestQueue (h : Owned slicing m) (feed : Feed) (index count : Nat) :
    Owned slicing (Feed.checkRequestQueue feed index count m) := by
  unfold Feed.checkRequestQueue
  split
  · exact h
  · rename_i s hs
    refine List.foldlRecOn (motive := Owned slicing) _
      (fun m message => m.push (.socketText feed index message)) ?_ fun _ ht _ _ => ht.push rfl
    refine h.mono ?_ fun f i message hx => ?_
    · rw [Feed.symbols_setFeeds]
    · rwa [Feed.log_setFeeds] at hx

/-! ### Subscribing -/

/-- A stream subscribes to symbols of its slice. -/
theorem subscribe (h : Owned slicing m) (feed : Feed) (startFrom index : Nat) :
    Owned slicing (Feed.subscribe slicing feed startFrom m index) ∧
      (Feed.subscribe slicing feed startFrom m index).symbols = m.symbols := by
  unfold Feed.subscribe
  split
  · refine List.foldlRecOn (motive := fun t : Market => Owned slicing t ∧ t.symbols = m.symbols) _ _
      ⟨h, rfl⟩ fun t ht symbol hsymbol => ?_
    refine List.foldlRecOn (motive := fun t : Market => Owned slicing t ∧ t.symbols = m.symbols) _ _
      ht fun t ht theme _ => ⟨?_, (symbols_emplaceBack ..).trans ht.2⟩
    exact ht.1.emplaceBack feed index (fun _ => rfl) (ht.2.symm ▸ getSlice_from symbol hsymbol)
  · exact ⟨h, rfl⟩

theorem onReady (h : Owned slicing m) (feed : Feed) (index : Nat) :
    Owned slicing (Feed.onReady slicing feed index m) :=
  (((h.push (x := .feedReady feed index) rfl).publish .ready feed index).subscribe feed 0 index).1

theorem onTimer (h : Owned slicing m) (feed : Feed) (index count : Nat) :
    Owned slicing (Feed.onTimer feed index count m) := by
  unfold Feed.onTimer
  split
  · exact h.checkRequestQueue feed index count
  · exact h

theorem create (h : Owned slicing m) (feed : Feed) : Owned slicing (Controller.create feed m) := by
  refine h.mono ?_ fun f i message hx => (List.mem_cons.mp hx).resolve_left nofun
  rw [(Controller.create_adds feed m).symbols]

theorem createAll (feed : Feed) : ∀ (n : Nat) {m : Market}, Owned slicing m →
    Owned slicing (Controller.createAll feed n m)
  | 0, _, h => h
  | n + 1, _, h => createAll feed n (h.create feed)

theorem subscribeAll (h : Owned slicing m) (startFrom : Nat) (feed : Feed) :
    Owned slicing (Controller.subscribeAll slicing startFrom feed m) :=
  List.foldlRecOn _ _ h fun _ h index _ => (h.subscribe feed startFrom index).1

theorem onSymbolsUpdate (h : Owned slicing m) (symbols : List String) :
    Owned slicing (Controller.onSymbolsUpdate slicing symbols m) := by
  have added : Owned slicing (Controller.addSymbols symbols (m.push (.symbolsUpdate symbols))) :=
    (h.push (x := .symbolsUpdate symbols) rfl).mono (List.prefix_append _ _) fun _ _ _ hx => hx
  have created := createAll .mbpFeed (slicing.size (m.symbols ++ symbols).length -
    ((Controller.ensureFeed (slicing.size (m.symbols ++ symbols).length) .marketData
      (Controller.addSymbols symbols (m.push (.symbolsUpdate symbols)))).feeds .mbpFeed).length)
    (createAll .marketData (slicing.size (m.symbols ++ symbols).length -
      ((Controller.addSymbols symbols (m.push (.symbolsUpdate symbols))).feeds .marketData).length) added)
  exact (created.subscribeAll m.symbols.length .marketData).subscribeAll m.symbols.length .mbpFeed

theorem emplace {s : List String × Market} (h : Owned slicing s.2) (symbol : String) :
    Owned slicing (Controller.emplace s symbol).2 := by
  unfold Controller.emplace
  split
  · exact h
  · exact h

theorem onSubscribe (h : Owned slicing m) (symbols : List String) :
    Owned slicing (Controller.onSubscribe slicing symbols m) := by
  have known : Owned slicing (symbols.foldl Controller.emplace ([], m.push (.subscribed symbols))).2 :=
    List.foldlRecOn (motive := fun s : List String × Market => Owned slicing s.2) symbols _
      (h.push (x := .subscribed symbols) rfl) fun _ hs symbol _ => hs.emplace symbol
  exact known.onSymbolsUpdate _

end Owned

/-! ## The market data -/

namespace Market

theorem Leaves.owned {env : MarketEnv} {m m' : Market} {e : MarketEvent} (h : Leaves env m m' e)
    (hrequest : ∀ index symbol, e = .requestSnapshot index symbol →
      symbol ∈ getSlice env.slicing index 0 m.symbols) (hm : Owned env.slicing m) :
    Owned env.slicing m' := by
  have closed := Owned.closed env.slicing
  cases e with
  | restConnected => exact h.2 ▸ closed.onConnected hm
  | restDisconnected => exact h.2 ▸ closed.onDisconnected hm
  | response stage sequence response t =>
    refine h.2 ▸ closed.onResponse stage sequence response t (fun _ => ?_) hm
    refine closed.ack (fun symbols m hm => ?_) sequence response t hm
    rw [← Outcome.bind_ok (Rest.onSymbols env t symbols m)]
    exact Rest.onSymbols_rule (P := fun s : List String × Market => Owned env.slicing s.2)
      (I := Owned env.slicing) (fun _ _ hs => hs.push rfl) (fun symbol _ hs => hs.emplace symbol)
      (fun _ _ _ _ _ hs => hs.push rfl) (fun _ hs => hs) (fun s hs => hs.onSymbolsUpdate s.1)
      (fun _ hm => hm) (fun _ hm => hm.push rfl) hm
  | subscribe symbols => exact h ▸ hm.onSubscribe symbols
  | feedReady feed index => exact h.2 ▸ hm.onReady feed index
  | feedDisconnected feed index => exact h.2 ▸ hm.onDisconnected feed index
  | timer feed index count => exact h ▸ hm.onTimer feed index count
  | requestSnapshot index symbol =>
    exact h ▸ hm.emplaceBack .mbpFeed index (fun _ => rfl) (hrequest index symbol rfl)

/-! ### Symbols are only ever added -/

theorem extends_streams (l : List String) : Feed.Subscribes fun m => l <+: m.symbols where
  push _ _ _ hm := hm
  setFeeds _ _ _ hm := by rwa [Feed.symbols_setFeeds]
  streamId _ _ hm := hm

theorem extends_rest (l : List String) : Rest.Closed fun m => l <+: m.symbols where
  push _ _ _ hm := hm
  rest _ _ hm := hm
  requests _ _ hm := hm
  halted _ _ hm := hm

theorem onSymbolsUpdate_extends {l : List String} {m : Market} (slicing : Slicing)
    (symbols : List String) (hm : l <+: m.symbols) :
    l <+: (Controller.onSymbolsUpdate slicing symbols m).symbols :=
  (extends_streams l).onSymbolsUpdate slicing symbols (hm.trans (List.prefix_append _ _))

theorem emplace_extends {l : List String} {s : List String × Market} (symbol : String)
    (hs : l <+: s.2.symbols) : l <+: (Controller.emplace s symbol).2.symbols := by
  unfold Controller.emplace
  split <;> exact hs

theorem Leaves.extends {env : MarketEnv} {m m' : Market} {e : MarketEvent} (h : Leaves env m m' e) :
    m.symbols <+: m'.symbols := by
  refine h.rule (P := fun m' => m.symbols <+: m'.symbols) (extends_rest _) (extends_streams _)
    (fun sequence response t _ => ?_) (fun symbols => ?_) (List.prefix_refl _)
  · refine (extends_rest m.symbols).ack (fun symbols m' hm => ?_) sequence response t
      (List.prefix_refl m.symbols)
    rw [← Outcome.bind_ok (Rest.onSymbols env t symbols m')]
    exact Rest.onSymbols_rule (P := fun s : List String × Market => m.symbols <+: s.2.symbols)
      (I := fun m' => m.symbols <+: m'.symbols) (fun _ _ hs => hs)
      (fun symbol _ hs => emplace_extends symbol hs) (fun _ _ _ _ _ hs => hs) (fun _ hs => hs)
      (fun s hs => onSymbolsUpdate_extends env.slicing s.1 hs) (fun _ hm => hm) (fun _ hm => hm) hm
  · have known : m.symbols <+:
        (symbols.foldl Controller.emplace ([], m.push (.subscribed symbols))).2.symbols :=
      List.foldlRecOn (motive := fun s : List String × Market => m.symbols <+: s.2.symbols) symbols _
        (List.prefix_refl _) fun _ hs symbol _ => emplace_extends symbol hs
    exact onSymbolsUpdate_extends env.slicing _ known

end Market

/-! ## Books -/

/-- The stream that an update or a snapshot of one symbol comes from. -/
def BookEvent.index : BookEvent → Nat
  | .update index _ | .snapshot index _ => index

namespace Books

open Sequencer (Call Reply)

variable {σ : Type}

/-- The stream has the symbol in its slice. -/
def Owns (env : BooksEnv) (s : Books σ) (index : Nat) (symbol : String) : Prop :=
  symbol ∈ getSlice env.market.slicing index 0 s.market.symbols

/-- What is asked for and what is published is for the symbols of the stream's own
slice. -/
structure Owned (env : BooksEnv) (s : Books σ) : Prop where
  market : RoqHtx.Owned env.market.slicing s.market
  published : ∀ index update, (index, update) ∈ s.published → Owns env s index update.symbol

namespace Owned

variable {env : BooksEnv} {s : Books σ} {index : Nat} {symbol : String}

theorem request (h : Owned env s) (hsymbol : Owns env s index symbol) :
    Owned env (request index symbol s) ∧ (request index symbol s).market.symbols = s.market.symbols := by
  have hsymbols : (Feed.request index symbol s.market).symbols = s.market.symbols :=
    RoqHtx.Owned.symbols_emplaceBack ..
  refine ⟨⟨h.market.emplaceBack .mbpFeed index (fun _ => rfl) hsymbol, fun i update hu => ?_⟩, hsymbols⟩
  show _ ∈ getSlice _ i 0 (Feed.request index symbol s.market).symbols
  rw [hsymbols]
  exact h.published i update hu

theorem publish (h : Owned env s) {update : MarketByPriceUpdate}
    (hsymbol : Owns env s index update.symbol) : Owned env (publish index update s) := by
  refine ⟨h.market, fun i u hu => ?_⟩
  rcases List.mem_cons.mp hu with hu | hu
  · cases hu
    exact hsymbol
  · exact h.published i u hu

variable {published : Call MBPUpdate → Option MarketByPriceUpdate}

theorem onCall (h : Owned env s) (hsymbol : Owns env s index symbol)
    (hpublished : ∀ call update, published call = some update → update.symbol = symbol)
    (call : Call MBPUpdate) :
    Owned env (onCall env index symbol published s call) ∧
      (onCall env index symbol published s call).market.symbols = s.market.symbols := by
  have publishes : ∀ call : Call MBPUpdate,
      Owned env ((published call).elim s fun update => Books.publish index update s) ∧
        ((published call).elim s fun update => Books.publish index update s).market.symbols =
          s.market.symbols := by
    intro call
    cases hcall : published call with
    | none => exact ⟨h, rfl⟩
    | some update =>
      exact ⟨h.publish (hpublished call update hcall ▸ hsymbol), rfl⟩
  cases call with
  | publishUpdate bids asks => exact publishes (.publishUpdate bids asks)
  | publishSnapshot bids asks sequence last => exact publishes (.publishSnapshot bids asks sequence last)
  | requestSnapshot retries =>
    unfold Books.onCall requestSnapshot
    dsimp only
    split
    · exact ⟨h, rfl⟩
    · exact h.request hsymbol

variable [Sequencer σ MBPUpdate]

theorem onReply (h : Owned env s) (hsymbol : Owns env s index symbol)
    (hpublished : ∀ call update, published call = some update → update.symbol = symbol)
    (reply : Reply σ MBPUpdate) :
    Owned env (onReply env index symbol published reply s) ∧
      (onReply env index symbol published reply s).market.symbols = s.market.symbols := by
  have called := List.foldlRecOn (motive := fun t : Books σ =>
      Owned env t ∧ t.market.symbols = s.market.symbols) reply.calls (Books.onCall env index symbol published)
    (b := setSequencer symbol reply.state s) ⟨⟨h.market, h.published⟩, rfl⟩ fun t ht call _ => by
      obtain ⟨howned, hsymbols⟩ := ht.1.onCall (show Owns env t index symbol by
        unfold Owns
        rw [ht.2]
        exact hsymbol) hpublished call
      exact ⟨howned, hsymbols.trans ht.2⟩
  unfold Books.onReply onEnding
  generalize reply.calls.foldl (Books.onCall env index symbol published)
    (setSequencer symbol reply.state s) = t at called
  cases reply.ending with
  | returned => exact called
  | threw => exact ⟨⟨called.1.market, called.1.published⟩, called.2⟩
  | badState =>
    have cleared : Owned env (setSequencer symbol (Sequencer.clear reply.state) t) :=
      ⟨called.1.market, called.1.published⟩
    obtain ⟨howned, hsymbols⟩ := cleared.request (show Owns env _ index symbol by
      unfold Owns
      rw [show (setSequencer symbol (Sequencer.clear reply.state) t).market = t.market from rfl, called.2]
      exact hsymbol)
    exact ⟨howned, hsymbols.trans called.2⟩

end Owned

/-- An update or a snapshot is for a symbol of its stream's slice. -/
def Rightful (env : BooksEnv) (s : Books σ) : BooksEvent → Prop
  | .market _ => True
  | .mbp index mbp => Owns env s index (Parser.extractSymbol mbp.ch)
  | .mbpSnapshot index mbpSnapshot => Owns env s index (Parser.extractSymbol mbpSnapshot.rep)

theorem Rightful.owns {env : BooksEnv} {s : Books σ} {e : BooksEvent} (h : Rightful env s e)
    {symbol : String} {b : BookEvent} (hb : b ∈ eventsFor symbol e) : Owns env s b.index symbol := by
  cases e with
  | market e => cases hb
  | mbp index mbp | mbpSnapshot index mbpSnapshot =>
    simp only [eventsFor, List.mem_ite_nil_right, List.mem_singleton] at hb
    obtain ⟨rfl, rfl⟩ := hb
    exact h

theorem Rightful.mono {env : BooksEnv} {s s' : Books σ} {e : BooksEvent} (h : Rightful env s e)
    (hsymbols : s.market.symbols <+: s'.market.symbols) : Rightful env s' e := by
  cases e with
  | market e => trivial
  | mbp index mbp => exact getSlice_prefix hsymbols _ h
  | mbpSnapshot index mbpSnapshot => exact getSlice_prefix hsymbols _ h

variable [Sequencer σ MBPUpdate]

/-- So is what a sequencer is handed. -/
theorem Rightful.sequenced {env : BooksEnv} {s : Books σ} {e : BooksEvent} (h : Rightful env s e)
    {x : Sequenced σ} (hx : sequenced s e = some x) : Owns env s x.index x.symbol := by
  cases e with
  | market e => cases hx
  | mbp index mbp | mbpSnapshot index mbpSnapshot =>
    cases hx
    exact h

theorem step_owned {env : BooksEnv} {s s' : Books σ} {e : BooksEvent} (h : step env s e = some s')
    (he : Rightful env s e) (hs : Owned env s) :
    Owned env s' ∧ s.market.symbols <+: s'.market.symbols := by
  obtain ⟨e', m, -, hother, hm, rfl⟩ | ⟨x, published, hx, -, -, hpublished, rfl⟩ := step_cases h
  · have leaves := (Market.leaves_of_step hm).2
    refine ⟨⟨leaves.owned (fun index symbol he => absurd he (hother index symbol)) hs.market,
      fun index update hu => ?_⟩, leaves.extends⟩
    exact getSlice_prefix leaves.extends _ (hs.published index update hu)
  · obtain ⟨howned, hsymbols⟩ := hs.onReply (he.sequenced hx) hpublished x.reply
    exact ⟨howned, hsymbols.symm ▸ List.prefix_refl _⟩

theorem runAll_owned {env : BooksEnv} {s s' : Books σ} {es : List BooksEvent}
    (h : (books σ env).runAll s es = some s') (hes : ∀ e ∈ es, Rightful env s e) (hs : Owned env s) :
    Owned env s' ∧ s.market.symbols <+: s'.market.symbols := by
  induction es generalizing s with
  | nil =>
    cases h
    exact ⟨hs, List.prefix_refl _⟩
  | cons e es ih =>
    obtain ⟨t, ht, h⟩ := Option.bind_eq_some_iff.mp h
    obtain ⟨howned, hsymbols⟩ := step_owned ht (hes e List.mem_cons_self) hs
    obtain ⟨howned', hsymbols'⟩ := ih h
      (fun e he => (hes e (List.mem_cons_of_mem _ he)).mono hsymbols) howned
    exact ⟨howned', hsymbols.trans hsymbols'⟩

end Books

/-! ## Sockets -/

/-- The stream that publishes, and the symbol. -/
def SocketEntry.subject? : SocketEntry → Option (Nat × String)
  | .pong _ _ _ => none
  | .topOfBook index update => some (index, update.symbol)
  | .tradeSummary index update => some (index, update.symbol)
  | .statisticsUpdate index update => some (index, update.symbol)

namespace SocketsEnv

open Json (Members Message)

variable (env : SocketsEnv)

/-- The channel of a message that is for one. -/
def channel? (members : Members) : Message → Option String
  | .bbo => (env.bbo members).toOption.map Json.BBO.ch
  | .trade => (env.trade members).toOption.map Json.Trade.ch
  | .detail => (env.detail members).toOption.map Json.Detail.ch
  | .mbp => (env.mbp members).toOption.map Json.MBP.ch
  | .mbpSnapshot => (env.mbpSnapshot members).toOption.map Json.MBPSnapshot.rep
  | _ => none

variable {env} {feed : Feed} {index : Nat} {members : Members} {m : Message}

/-- What is published for a message is for the symbol of its channel, by the stream
that has received it. -/
theorem subject_entriesOf {x : SocketEntry} (hx : x ∈ env.entriesOf feed index members m)
    {subject : Nat × String} (hsubject : x.subject? = some subject) :
    ∃ channel, env.channel? members m = some channel ∧
      subject = (index, Parser.extractSymbol channel) := by
  have read : ∀ {α : Type} {r : Except Exn α} {entry : α → SocketEntry} {ch : α → String},
      (∀ a, (entry a).subject? = some (index, Parser.extractSymbol (ch a))) →
      x ∈ (if feed = .marketData then (r.toOption.map entry).toList else []) →
      ∃ channel, r.toOption.map ch = some channel ∧
        subject = (index, Parser.extractSymbol channel) := by
    intro α r entry ch hentry hx
    split at hx
    · obtain ⟨a, ha, rfl⟩ := Option.map_eq_some_iff.mp (Option.mem_toList.mp hx)
      rw [hentry] at hsubject
      exact ⟨ch a, by rw [ha]; rfl, (Option.some.inj hsubject).symm⟩
    · cases hx
  cases m with
  | bbo => exact read (fun _ => rfl) hx
  | trade => exact read (fun _ => rfl) hx
  | detail => exact read (fun _ => rfl) hx
  | ping ts | ping2 ts =>
    rw [List.mem_singleton.mp hx] at hsubject
    cases hsubject
  | _ => cases hx

theorem rightful_bookEventsOf {σ : Type} {s : Books σ}
    (h : ∀ channel, env.channel? members m = some channel →
      Books.Owns env.books s index (Parser.extractSymbol channel)) :
    ∀ e ∈ env.bookEventsOf feed index members m, Books.Rightful env.books s e := by
  intro e he
  cases m with
  | mbp =>
    simp only [bookEventsOf] at he
    split at he
    · obtain ⟨mbp, hmbp, rfl⟩ := Option.map_eq_some_iff.mp (Option.mem_toList.mp he)
      exact h mbp.ch (by rw [channel?, hmbp]; rfl)
    · cases he
  | mbpSnapshot =>
    simp only [bookEventsOf] at he
    split at he
    · obtain ⟨mbpSnapshot, hsnapshot, rfl⟩ := Option.map_eq_some_iff.mp (Option.mem_toList.mp he)
      exact h mbpSnapshot.rep (by rw [channel?, hsnapshot]; rfl)
    · cases he
  | _ => cases he

end SocketsEnv

/-- A request for the channel has been put into the queue of the stream. -/
def AskedFor (feed : Feed) (index : Nat) (channel : String) (l : List MarketEntry) : Prop :=
  ∃ message : Feed.Message, .enqueued feed index message ∈ l ∧
    message.channel = channel ∧ '.' ∉ message.symbol.toList

instance (feed : Feed) (index : Nat) (channel : String) (l : List MarketEntry) :
    Decidable (AskedFor feed index channel l) :=
  decidable_of_iff (∃ asked ∈ l.filterMap Market.asked, asked.1 = feed ∧ asked.2.1 = index ∧
      asked.2.2.channel = channel ∧ '.' ∉ asked.2.2.symbol.toList)
    ⟨fun ⟨_, hmem, hfeed, hindex, hmessage⟩ =>
        ⟨_, Market.mem_of_asked (hfeed ▸ hindex ▸ hmem), hmessage⟩,
      fun ⟨message, hmem, hmessage⟩ =>
        ⟨(feed, index, message), List.mem_filterMap.mpr ⟨_, hmem, rfl⟩, rfl, rfl, hmessage⟩⟩

namespace Sockets

variable {σ : Type}

/-- The exchange sends to a stream what the stream has asked for. -/
def Answers (env : SocketsEnv) (s : Sockets σ) : SocketsEvent → Prop
  | .binary feed index (some members) =>
    ∀ channel ∈ (env.parser.delivered members).bind (env.channel? members),
      AskedFor feed index channel s.books.market.log
  | .binary _ _ none | .text _ _ | .books _ => True

instance (env : SocketsEnv) (s : Sockets σ) : DecidablePred (Answers env s)
  | .binary feed index (some members) => inferInstanceAs (Decidable
      (∀ channel ∈ (env.parser.delivered members).bind (env.channel? members),
        AskedFor feed index channel s.books.market.log))
  | .binary _ _ none | .text _ _ | .books _ => .isTrue trivial

/-- What is asked for and what is published is for the symbols of the stream's own
slice. -/
structure Owned (env : SocketsEnv) (s : Sockets σ) : Prop where
  books : Books.Owned env.books s.books
  log : ∀ x ∈ s.log, ∀ index symbol, x.subject? = some (index, symbol) →
    Books.Owns env.books s.books index symbol

variable {env : SocketsEnv} {s s' : Sockets σ}

/-- An answer is for a symbol of the stream's slice. -/
theorem owns_of_answers {feed : Feed} {index : Nat} {message : Feed.Message}
    (hasked : Feed.Asks feed message) (hdot : '.' ∉ message.symbol.toList)
    (howned : RoqHtx.Owned env.books.market.slicing s.books.market)
    (hmem : .enqueued feed index message ∈ s.books.market.log) :
    Books.Owns env.books s.books index (Parser.extractSymbol message.channel) := by
  have hsymbol : Parser.extractSymbol message.channel = message.symbol := by
    cases hasked <;> exact (Parser.extract_channel (by decide) hdot (by decide) _).1
  rw [hsymbol]
  exact howned feed index message hmem

/-- The symbol of a message that the exchange may send is in the stream's slice. -/
theorem owns_of_delivered {feed : Feed} {index : Nat} {members : Json.Members} (hs : Owned env s)
    (hasked : Feed.AllAsked s.books.market.log)
    (he : Answers env s (.binary feed index (some members))) {m : Json.Message} {channel : String}
    (hm : env.parser.delivered members = some m) (hchannel : env.channel? members m = some channel) :
    Books.Owns env.books s.books index (Parser.extractSymbol channel) := by
  obtain ⟨message, hmem, rfl, hdot⟩ := he channel (by rw [hm]; exact hchannel)
  exact owns_of_answers (hasked feed index message hmem) hdot hs.books.market hmem

theorem owns_entries {e : SocketsEvent} (hs : Owned env s) (hasked : Feed.AllAsked s.books.market.log)
    (he : Answers env s e) : ∀ x ∈ env.entries e, ∀ index symbol,
      x.subject? = some (index, symbol) → Books.Owns env.books s.books index symbol := by
  intro x hx i symbol hsubject
  cases e with
  | binary feed index payload =>
    cases payload with
    | none => cases hx
    | some members =>
      obtain ⟨m, hm, hx⟩ := List.mem_flatMap.mp hx
      obtain ⟨channel, hchannel, hsubject⟩ := SocketsEnv.subject_entriesOf hx hsubject
      cases hsubject
      exact owns_of_delivered hs hasked he (Option.mem_toList.mp hm) hchannel
  | text feed index | books e => cases hx

variable [Sequencer σ MBPUpdate]

theorem books_reachable (h : (sockets σ env).Reachable s) :
    (RoqHtx.books σ env.books).Reachable s.books :=
  h.invariant (I := fun s => (RoqHtx.books σ env.books).Reachable s.books) .init
    fun _ _ _ hs _ hstep => hs.runAll (step_follows hstep).2.does.books

theorem market_reachable (h : (sockets σ env).Reachable s) :
    (RoqHtx.market env.books.market).Reachable s.books.market :=
  Books.market_reachable (books_reachable h)

/-- A step keeps to the slices if what the books are told and what is published at
once does. -/
theorem Owned.follows {e : SocketsEvent} (h : Owned env s) (hfollows : Follows env s e s')
    (hbooks : ∀ b ∈ env.bookEvents e, Books.Rightful env.books s.books b)
    (hentries : ∀ x ∈ env.entries e, ∀ index symbol, x.subject? = some (index, symbol) →
      Books.Owns env.books s.books index symbol) : Owned env s' := by
  obtain ⟨howned, hsymbols⟩ := Books.runAll_owned hfollows.does.books hbooks h.books
  refine ⟨howned, fun x hx index symbol hsubject => ?_⟩
  have hx : x ∈ s.log.reverse ++ env.entries e := by
    rw [← hfollows.does.log]
    exact List.mem_reverse.mpr hx
  refine getSlice_prefix hsymbols _ ?_
  rcases List.mem_append.mp hx with hx | hx
  · exact h.log x (List.mem_reverse.mp hx) index symbol hsubject
  · exact hentries x hx index symbol hsubject

/-- What the books are told is for the stream's own slice. -/
theorem rightful_bookEvents {e : SocketsEvent} (h : step env s e = some s') (hs : Owned env s)
    (hasked : Feed.AllAsked s.books.market.log) (he : Answers env s e) :
    ∀ b ∈ env.bookEvents e, Books.Rightful env.books s.books b := by
  intro b hb
  cases e with
  | binary feed index payload =>
    cases payload with
    | none => cases hb
    | some members =>
      obtain ⟨m, hm, hb⟩ := List.mem_flatMap.mp hb
      exact SocketsEnv.rightful_bookEventsOf
        (fun _ => owns_of_delivered hs hasked he (Option.mem_toList.mp hm)) b hb
  | text feed index => cases hb
  | books e =>
    cases List.mem_singleton.mp hb
    cases b with
    | market e => trivial
    | mbp index mbp | mbpSnapshot index mbpSnapshot =>
      unfold step at h
      split at h <;> cases h

theorem step_owned {e : SocketsEvent} (h : step env s e = some s') (hs : Owned env s)
    (hasked : Feed.AllAsked s.books.market.log) (he : Answers env s e) : Owned env s' :=
  hs.follows (step_follows h).2 (rightful_bookEvents h hs hasked he) (owns_entries hs hasked he)

theorem owned_init (env : SocketsEnv) : Owned env (init env : Sockets σ) :=
  ⟨⟨fun _ _ _ hm => absurd hm List.not_mem_nil, fun _ _ hu => absurd hu List.not_mem_nil⟩,
    fun _ hx => absurd hx List.not_mem_nil⟩

theorem allAsked_reach (h : (sockets σ env).Reach (Answers env) s) :
    Feed.AllAsked s.books.market.log :=
  Market.allAsked env.books.market (market_reachable h.reachable)

theorem owned_reachable (h : (sockets σ env).Reach (Answers env) s) : Owned env s :=
  h.invariant_of (I := Owned env) (fun _ => allAsked_reach) (owned_init env)
    fun _ _ _ hasked hs he hstep => step_owned hstep hs hasked he

/-! ### Sequencers -/

/-- What a run tells the book of a symbol, in order. -/
def told (env : SocketsEnv) (symbol : String) (ds : List SocketsEvent) : List BookEvent :=
  (ds.flatMap env.bookEvents).flatMap (Books.eventsFor symbol)

/-- The sequencer of a symbol is fed with what the run tells its book, and with nothing
else; and all of that comes from one stream, which has the symbol in its slice. -/
structure FedByOwner (env : SocketsEnv) (ds : List SocketsEvent) (s : Sockets σ) (symbol : String) :
    Prop where
  book : (book σ env.books).runAll Book.init (told env symbol ds) = some (Books.bookOf symbol s.books)
  owns : ∀ b ∈ told env symbol ds, Books.Owns env.books s.books b.index symbol
  one : ∀ b ∈ told env symbol ds, ∀ b' ∈ told env symbol ds, b.index = b'.index

/-- All that the books are told in a run stays for the slices of the streams. -/
theorem run_rightful {ds : List SocketsEvent} (hs : (sockets σ env).Reach (Answers env) s)
    (h : (sockets σ env).run (Answers env) s ds = some s') :
    (∀ b ∈ ds.flatMap env.bookEvents, Books.Rightful env.books s'.books b) ∧
      s.books.market.symbols <+: s'.books.market.symbols := by
  induction ds generalizing s with
  | nil =>
    cases h
    exact ⟨fun b hb => absurd hb List.not_mem_nil, List.prefix_refl _⟩
  | cons e ds ih =>
    rw [Machine.run] at h
    split at h
    · rename_i he
      obtain ⟨t, ht, h⟩ := Option.bind_eq_some_iff.mp h
      have hrightful := rightful_bookEvents ht (owned_reachable hs) (allAsked_reach hs) he
      have hsymbols := (Books.runAll_owned (step_follows ht).2.does.books hrightful
        (owned_reachable hs).books).2
      obtain ⟨hlater, hsymbols'⟩ := ih (.step hs he ht) h
      refine ⟨fun b hb => ?_, hsymbols.trans hsymbols'⟩
      rw [List.flatMap_cons] at hb
      rcases List.mem_append.mp hb with hb | hb
      · exact (hrightful b hb).mono (hsymbols.trans hsymbols')
      · exact hlater b hb
    · cases h

theorem unique_owner (h : (sockets σ env).Reachable s) {index other : Nat} {symbol : String}
    (hindex : Books.Owns env.books s.books index symbol)
    (hother : Books.Owns env.books s.books other symbol) : index = other := by
  have nodup := (Market.subscribed_reachable (market_reachable h)).nodup
  by_contra hne
  exact Slicing.not_mem_members nodup hne hindex hother

/-- As long as the exchange sends to a stream what the stream has asked for, a
stream asks for, feeds to a sequencer and publishes what is in its own slice only:
no two streams ever feed the sequencer of one symbol, or publish anything for it. -/
theorem owners {ds : List SocketsEvent}
    (h : (sockets σ env).run (Answers env) (init env) ds = some s) :
    (∀ feed index message, .enqueued feed index message ∈ s.books.market.log →
      Books.Owns env.books s.books index message.symbol) ∧
    (∀ index update, (index, update) ∈ s.books.published →
      Books.Owns env.books s.books index update.symbol) ∧
    (∀ x ∈ s.log, ∀ index symbol, x.subject? = some (index, symbol) →
      Books.Owns env.books s.books index symbol) ∧
    (∀ symbol, FedByOwner env ds s symbol) ∧
    ∀ index other symbol, Books.Owns env.books s.books index symbol →
      Books.Owns env.books s.books other symbol → index = other := by
  have reach : (sockets σ env).Reach (Answers env) s := Machine.Reach.init.run h
  have owned := owned_reachable reach
  have unique : ∀ index other symbol, Books.Owns env.books s.books index symbol →
      Books.Owns env.books s.books other symbol → index = other :=
    fun _ _ _ => unique_owner reach.reachable
  refine ⟨owned.books.market, owned.books.published, owned.log, fun symbol => ?_, unique⟩
  have owns : ∀ b ∈ told env symbol ds, Books.Owns env.books s.books b.index symbol := by
    intro b hb
    obtain ⟨e, he, hb⟩ := List.mem_flatMap.mp hb
    exact ((run_rightful .init h).1 e he).owns hb
  exact ⟨Books.runAll_eventsFor (runAll_follows (Machine.runAll_of_run h)).1.books symbol, owns,
    fun b hb b' hb' => unique b.index b'.index symbol (owns b hb) (owns b' hb')⟩

/-- Two streams of either kind, each with messages for its own symbols. -/
theorem owners_two : ∃ s : Sockets Reader.Sequence,
    s.log.filterMap SocketEntry.subject? = [(1, "xrpusdt"), (0, "btcusdt")] ∧
      s.books.published.map (fun (index, update) => (index, update.symbol)) =
        [(0, "btcusdt"), (0, "btcusdt")] ∧
      (∀ other, Books.Owns Reader.booksEnv s.books other "xrpusdt" → other = 1) ∧
      ∃ ds, (told Reader.socketsEnv "btcusdt" ds).map BookEvent.index = [0, 0] ∧
        FedByOwner Reader.socketsEnv ds s "btcusdt" := by
  let ds : List SocketsEvent :=
    [.books (.market (.subscribe ["btcusdt", "ethusdt", "xrpusdt"])),
      .books (.market (.feedReady .marketData 0)), .books (.market (.feedReady .marketData 1)),
      .books (.market (.feedReady .mbpFeed 0)), .books (.market (.feedReady .mbpFeed 1)),
      .binary .marketData 0 (some (Reader.ticked "market.btcusdt.trade.detail" Reader.tradeTick)),
      .binary .marketData 1 (some (Reader.ticked "market.xrpusdt.bbo" Reader.bboTick)),
      .binary .mbpFeed 0 (some Reader.snapshotMessage),
      .binary .mbpFeed 1 (some (Reader.ticked "market.xrpusdt.mbp.20" Reader.mbpTick)),
      .binary .mbpFeed 0 (some (Reader.ticked "market.btcusdt.mbp.20" Reader.mbpTick))]
  have computed : ((sockets Reader.Sequence Reader.socketsEnv).run (Answers Reader.socketsEnv)
      (init Reader.socketsEnv) ds).any (fun s => decide
        (s.log.filterMap SocketEntry.subject? = [(1, "xrpusdt"), (0, "btcusdt")] ∧
          s.books.published.map (fun (index, update) => (index, update.symbol)) =
            [(0, "btcusdt"), (0, "btcusdt")])) = true := by decide +kernel
  obtain ⟨s, hs, hpublishes⟩ := (Option.any_eq_true ..).mp computed
  obtain ⟨hlog, hpublished⟩ := of_decide_eq_true hpublishes
  obtain ⟨-, -, published, fed, unique⟩ := owners hs
  refine ⟨s, hlog, hpublished, fun other hother => ?_, ds, by decide +kernel, fed "btcusdt"⟩
  obtain ⟨x, hx, hsubject⟩ := List.mem_filterMap.mp
    (show (1, "xrpusdt") ∈ s.log.filterMap SocketEntry.subject? by rw [hlog]; exact List.mem_cons_self)
  exact unique other 1 "xrpusdt" hother (published x hx 1 "xrpusdt" hsubject)

end Sockets

end RoqHtx
