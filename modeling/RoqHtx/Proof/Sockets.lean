import RoqHtx.Framework.JsonText
import RoqHtx.Framework.Simulation
import RoqHtx.Impl.SocketsReader
import RoqHtx.Proof.Dispatch

/-!
# What becomes of a message on a socket of the market data

Seen from outside, a stream is a function of the messages on its socket: what it
publishes and sends at once (`SocketsEnv.entries`), what it tells the books
(`SocketsEnv.bookEvents`), and whether it terminates the process (`SocketsEnv.ends`).
None of them looks at a state. `sockets_refine` says that in every run the sockets
do exactly that, whatever the streams have left in the buffers that they share.
-/

namespace RoqHtx

open Json (Kind Members Message)

/-! ## What a message means -/

def tradeOf (value : Json.TradeTickItem) : Trade where
  side := mapDirection value.direction
  price := value.price
  quantity := value.amount
  tradeId := toString value.tradeId

namespace SocketsEnv

variable (env : SocketsEnv)

def topOfBook (bbo : Json.BBO) : TopOfBook where
  exchange := env.books.market.exchange
  symbol := Parser.extractSymbol bbo.ch
  layer := ⟨bbo.tick.bid, bbo.tick.bidSize, bbo.tick.ask, bbo.tick.askSize⟩
  updateType := .snapshot
  exchangeTimeUtc := bbo.ts

def tradeSummary (trade : Json.Trade) : TradeSummary where
  exchange := env.books.market.exchange
  symbol := Parser.extractSymbol trade.ch
  trades := trade.tick.data.map tradeOf
  exchangeTimeUtc := trade.ts
  exchangeSequence := trade.tick.id

def statisticsUpdate (detail : Json.Detail) : StatisticsUpdate where
  exchange := env.books.market.exchange
  symbol := Parser.extractSymbol detail.ch
  statistics := [⟨.openPrice, detail.tick.open_⟩, ⟨.highestTradedPrice, detail.tick.high⟩,
    ⟨.lowestTradedPrice, detail.tick.low⟩, ⟨.closePrice, detail.tick.close⟩,
    ⟨.tradeVolume, detail.tick.vol⟩]
  updateType := .incremental
  exchangeTimeUtc := detail.ts

/-- What the streams of a kind publish or send at once for a message. -/
def entriesOf (feed : Feed) (index : Nat) (members : Members) : Message → List SocketEntry
  | .ping ts | .ping2 ts => [.pong feed index ts]
  | .bbo =>
    if feed = .marketData then
      ((env.bbo members).toOption.map fun bbo => .topOfBook index (env.topOfBook bbo)).toList
    else []
  | .trade =>
    if feed = .marketData then
      ((env.trade members).toOption.map fun trade => .tradeSummary index (env.tradeSummary trade)).toList
    else []
  | .detail =>
    if feed = .marketData then
      ((env.detail members).toOption.map fun detail =>
        .statisticsUpdate index (env.statisticsUpdate detail)).toList
    else []
  | _ => []

/-- What the streams of a kind tell the books of a message. -/
def bookEventsOf (feed : Feed) (index : Nat) (members : Members) : Message → List BooksEvent
  | .mbp =>
    if feed = .mbpFeed then ((env.mbp members).toOption.map (.mbp index)).toList else []
  | .mbpSnapshot =>
    if feed = .mbpFeed then ((env.mbpSnapshot members).toOption.map (.mbpSnapshot index)).toList
    else []
  | _ => []

/-- The kinds of messages that the streams of a kind expect. -/
def expects : Feed → Kind → Bool
  | _, .ping | _, .ping2 | _, .error | _, .error2 | _, .sub | _, .subbed => true
  | .marketData, .bbo | .marketData, .trade | .marketData, .detail | .marketData, .ticker => true
  | .mbpFeed, .mbp | .mbpFeed, .mbpSnapshot => true
  | _, _ => false

/-- Whether parsing a message returns. -/
def returns (feed : Feed) (members : Members) : Bool :=
  match env.parser.delivered members with
  | some message => expects feed message.kind
  | none => (env.parser.behaviour env.allowUnknownEventTypes members).returns

/-! ## What an event means -/

/-- What is published or sent at once. -/
def entries : SocketsEvent → List SocketEntry
  | .binary feed index (some members) =>
    (env.parser.delivered members).toList.flatMap (env.entriesOf feed index members)
  | .binary _ _ none | .text _ _ | .books _ => []

/-- What the books are told. -/
def bookEvents : SocketsEvent → List BooksEvent
  | .binary feed index (some members) =>
    (env.parser.delivered members).toList.flatMap (env.bookEventsOf feed index members)
  | .binary _ _ none | .text _ _ => []
  | .books e => [e]

/-- Whether the process ends. -/
def ends : SocketsEvent → Bool
  | .binary feed _ (some members) => !env.returns feed members
  | .binary _ _ none | .text _ _ => true
  | .books _ => false

end SocketsEnv

/-! ## Dispatching -/

namespace Parser

variable {α β : Type} {p : Parser} {allow : Bool} {message : Members}

theorem dispatch_of_delivered (handler : Message → α → Outcome Exn α) {m : Message}
    (h : p.delivered message = some m) (s : α) :
    p.dispatch allow handler message s = (handler m s).map fun s => (true, s) := by
  obtain ⟨hdecided, hdecode⟩ := kind_of_delivered h
  rw [dispatch_eq, hdecided, follow, dispatchHelper, hdecode]
  cases hm : handler m s <;> simp [hm, Outcome.map, Outcome.bind]

/-- If no message is delivered, the handler makes no difference. -/
theorem returns_of_not_delivered (handler : Message → α → Outcome Exn α)
    (handler' : Message → β → Outcome Exn β) (h : p.delivered message = none) (s : α) (t : β) :
    (p.dispatch allow handler message s).returns = (p.dispatch allow handler' message t).returns := by
  have same : (p.dispatch allow handler message s).map (Prod.map id fun _ => t) =
      p.dispatch allow handler' message t :=
    dispatch_map allow fun m hm => by rw [h] at hm; cases hm
  rw [← same, Outcome.returns_map]

end Parser

/-! ## Handlers -/

namespace Sockets

variable {σ : Type} {env : SocketsEnv}

theorem foldl_emplaceTrade (data : List Json.TradeTickItem) (s : Sockets σ) :
    data.foldl emplaceTrade s = { s with trades := s.trades ++ data.map tradeOf } := by
  induction data generalizing s with
  | nil => simp
  | cons value data ih =>
    rw [List.foldl_cons, ih]
    simp [emplaceTrade, tradeOf]

theorem foldl_emplaceBid (bids : List Json.Quotation) (s : Sockets σ) :
    bids.foldl emplaceBid s =
      { s with mbp := { s.mbp with bids := s.mbp.bids ++ bids.map Books.emplaceBack } } := by
  induction bids generalizing s with
  | nil => simp
  | cons value bids ih =>
    rw [List.foldl_cons, ih]
    simp [emplaceBid]

theorem foldl_emplaceAsk (asks : List Json.Quotation) (s : Sockets σ) :
    asks.foldl emplaceAsk s =
      { s with mbp := { s.mbp with asks := s.mbp.asks ++ asks.map Books.emplaceBack } } := by
  induction asks generalizing s with
  | nil => simp
  | cons value asks ih =>
    rw [List.foldl_cons, ih]
    simp [emplaceAsk]

/-- Nothing is left in the buffer of what was in it. -/
theorem fillMbp_eq (bids asks : List Json.Quotation) (s : Sockets σ) :
    fillMbp bids asks s =
      { s with mbp := ⟨bids.map Books.emplaceBack, asks.map Books.emplaceBack⟩ } := by
  rw [fillMbp, foldl_emplaceBid, foldl_emplaceAsk]
  rfl

theorem onTrade_log (index : Nat) (trade : Json.Trade) (s : Sockets σ) :
    (onTrade env index trade s).log = .tradeSummary index (env.tradeSummary trade) :: s.log := by
  show .tradeSummary index { (env.tradeSummary trade) with
    trades := (trade.tick.data.foldl emplaceTrade (getTrades s)).trades } ::
      (trade.tick.data.foldl emplaceTrade (getTrades s)).log = _
  rw [foldl_emplaceTrade]
  rfl

variable [Sequencer σ MBPUpdate]

theorem onMBP_books (index : Nat) (mbp : Json.MBP) (s : Sockets σ) :
    (onMBP env index mbp s).books = Books.onMBP env.books index mbp s.books := by
  unfold onMBP
  rw [fillMbp_eq]
  rfl

theorem onMBPSnapshot_books (index : Nat) (mbpSnapshot : Json.MBPSnapshot) (s : Sockets σ) :
    (onMBPSnapshot env index mbpSnapshot s).books =
      Books.onMBPSnapshot env.books index mbpSnapshot s.books := by
  unfold onMBPSnapshot
  rw [fillMbp_eq]
  rfl

/-- What happens from `s` to `s'`: what is published or sent, and what the books are
told. -/
structure Does (env : SocketsEnv) (entries : List SocketEntry) (events : List BooksEvent)
    (s s' : Sockets σ) : Prop where
  log : s'.log.reverse = s.log.reverse ++ entries
  books : (RoqHtx.books σ env.books).runAll s.books events = some s'.books

variable {s s' : Sockets σ} {feed : Feed} {index : Nat} {members : Members} {m : Message}

theorem Does.nothing (hlog : s'.log = s.log) (hbooks : s'.books = s.books) : Does env [] [] s s' :=
  ⟨by rw [hlog, List.append_nil], by rw [hbooks, Machine.runAll_nil]⟩

theorem Does.entry {x : SocketEntry} (hlog : s'.log = x :: s.log) (hbooks : s'.books = s.books) :
    Does env [x] [] s s' :=
  ⟨by rw [hlog, List.reverse_cons], by rw [hbooks, Machine.runAll_nil]⟩

theorem Does.event {e : BooksEvent} (hlog : s'.log = s.log)
    (hbooks : Books.step env.books s.books e = some s'.books) : Does env [] [e] s s' :=
  ⟨by rw [hlog, List.append_nil], by rw [Machine.runAll_singleton]; exact hbooks⟩

/-- The process has not been terminated. -/
def Live (s : Sockets σ) : Prop :=
  s.halted = false ∧ s.books.halted = false ∧ s.books.market.halted = false

omit [Sequencer σ MBPUpdate] in
theorem Live.books (h : Live s) : (s.books.halted || s.books.market.halted) = false := by
  rw [h.2.1, h.2.2]
  rfl

/-- A message that is delivered has been read. -/
theorem read_of_decode {α : Type} {read : Except Exn α}
    (h : read.map (fun _ => m) = .ok m) : ∃ value, read = .ok value := by
  cases read with
  | error e => cases h
  | ok value => exact ⟨value, rfl⟩

theorem onMBP_does (hlive : Live s) (hindex : index < s.books.market.mbpFeed.length) (mbp : Json.MBP) :
    Does env [] [.mbp index mbp] s (onMBP env index mbp s) := by
  refine .event (by unfold onMBP; rw [fillMbp_eq]) ?_
  rw [onMBP_books, Books.step, hlive.books, if_neg Bool.false_ne_true]
  exact if_pos hindex

theorem onMBPSnapshot_does (hlive : Live s) (hindex : index < s.books.market.mbpFeed.length)
    (mbpSnapshot : Json.MBPSnapshot) :
    Does env [] [.mbpSnapshot index mbpSnapshot] s (onMBPSnapshot env index mbpSnapshot s) := by
  refine .event (by unfold onMBPSnapshot; rw [fillMbp_eq]) ?_
  rw [onMBPSnapshot_books, Books.step, hlive.books, if_neg Bool.false_ne_true]
  exact if_pos hindex

/-- What the handler of a delivered message does, and whether it returns. -/
structure Handles (env : SocketsEnv) (feed : Feed) (index : Nat) (members : Members) (m : Message)
    (s : Sockets σ) (o : Outcome Exn (Sockets σ)) : Prop where
  does : Does env (env.entriesOf feed index members m) (env.bookEventsOf feed index members m) s o.state
  returns : o.returns = SocketsEnv.expects feed m.kind
  halted : o.state.halted = s.halted

theorem marketData_handles (hm : env.parser.delivered members = some m) :
    Handles env .marketData index members m s (MarketData.onMessage env index members m s) := by
  have hdecode := (Parser.kind_of_delivered hm).2
  cases m with
  | ping ts | ping2 ts => exact ⟨.entry rfl rfl, rfl, rfl⟩
  | bbo =>
    obtain ⟨bbo, hbbo⟩ := read_of_decode ((env.decode_bbo members).symm.trans hdecode)
    rw [MarketData.onMessage, hbbo]
    refine ⟨?_, rfl, rfl⟩
    simp only [SocketsEnv.entriesOf, hbbo, if_pos, Except.toOption, Option.map_some, Option.toList_some]
    exact .entry rfl rfl
  | trade =>
    obtain ⟨trade, htrade⟩ := read_of_decode ((env.decode_trade members).symm.trans hdecode)
    rw [MarketData.onMessage, htrade]
    have htrades : (onTrade env index trade s).books = s.books ∧
        (onTrade env index trade s).halted = s.halted := by
      unfold onTrade
      rw [foldl_emplaceTrade]
      exact ⟨rfl, rfl⟩
    refine ⟨?_, rfl, htrades.2⟩
    simp only [SocketsEnv.entriesOf, htrade, if_pos, Except.toOption, Option.map_some, Option.toList_some]
    exact .entry (onTrade_log index trade s) htrades.1
  | detail =>
    obtain ⟨detail, hdetail⟩ := read_of_decode ((env.decode_detail members).symm.trans hdecode)
    rw [MarketData.onMessage, hdetail]
    refine ⟨?_, rfl, rfl⟩
    simp only [SocketsEnv.entriesOf, hdetail, if_pos, Except.toOption, Option.map_some,
      Option.toList_some]
    exact .entry rfl rfl
  | req | error | error2 | sub | subbed | ticker | mbp | mbpSnapshot | accounts | orders | clearing =>
    exact ⟨.nothing rfl rfl, rfl, rfl⟩

theorem mbpFeed_handles (hlive : Live s) (hindex : index < s.books.market.mbpFeed.length)
    (hm : env.parser.delivered members = some m) :
    Handles env .mbpFeed index members m s (MBPFeed.onMessage env index members m s) := by
  have hdecode := (Parser.kind_of_delivered hm).2
  cases m with
  | ping ts | ping2 ts => exact ⟨.entry rfl rfl, rfl, rfl⟩
  | mbp =>
    obtain ⟨mbp, hmbp⟩ := read_of_decode ((env.decode_mbp members).symm.trans hdecode)
    rw [MBPFeed.onMessage, hmbp]
    refine ⟨?_, rfl, ?_⟩
    · simp only [SocketsEnv.bookEventsOf, hmbp, if_pos, Except.toOption, Option.map_some,
        Option.toList_some]
      exact onMBP_does hlive hindex mbp
    · show (onMBP env index mbp s).halted = s.halted
      unfold onMBP
      rw [fillMbp_eq]
  | mbpSnapshot =>
    obtain ⟨mbpSnapshot, hread⟩ := read_of_decode ((env.decode_mbpSnapshot members).symm.trans hdecode)
    rw [MBPFeed.onMessage, hread]
    refine ⟨?_, rfl, ?_⟩
    · simp only [SocketsEnv.bookEventsOf, hread, if_pos, Except.toOption, Option.map_some,
        Option.toList_some]
      exact onMBPSnapshot_does hlive hindex mbpSnapshot
    · show (onMBPSnapshot env index mbpSnapshot s).halted = s.halted
      unfold onMBPSnapshot
      rw [fillMbp_eq]
  | req | error | error2 | sub | subbed | bbo | trade | detail | ticker | accounts | orders | clearing =>
    exact ⟨.nothing rfl rfl, rfl, rfl⟩

theorem onMessage_handles (hlive : Live s) (hindex : index < (s.books.market.feeds feed).length)
    (hm : env.parser.delivered members = some m) :
    Handles env feed index members m s (onMessage env feed index members m s) := by
  cases feed with
  | marketData => exact marketData_handles hm
  | mbpFeed => exact mbpFeed_handles hlive hindex hm

/-! ## Steps -/

/-- What a step does, and whether the process ends with it. -/
structure Follows (env : SocketsEnv) (s : Sockets σ) (e : SocketsEvent) (s' : Sockets σ) : Prop where
  does : Does env (env.entries e) (env.bookEvents e) s s'
  halted : s'.halted = env.ends e

theorem parse_follows (hlive : Live s) (hindex : index < (s.books.market.feeds feed).length)
    (members : Members) :
    Follows env s (.binary feed index (some members)) (parse env feed index members s) := by
  have hdispatch : ∀ o : Outcome Exn (Bool × Sockets σ), o.state.2.halted = false →
      env.parser.dispatch env.allowUnknownEventTypes (onMessage env feed index members) members s = o →
      parse env feed index members s = { o.state.2 with halted := !o.returns } := by
    intro o ho heq
    unfold parse
    rw [heq]
    rcases o with ⟨b, t⟩ | ⟨_, b, t⟩ | ⟨b, t⟩
    · show t = { t with halted := false }
      rw [← ho]
      rfl
    · rfl
    · rfl
  cases hm : env.parser.delivered members with
  | none =>
    have hstate := env.parser.dispatch_state env.allowUnknownEventTypes (onMessage env feed index members)
      members s
    rw [hm] at hstate
    rw [hdispatch _ (by rw [hstate]; exact hlive.1) rfl, hstate]
    refine ⟨?_, ?_⟩
    · simp only [SocketsEnv.entries, SocketsEnv.bookEvents, hm, Option.toList_none, List.flatMap_nil]
      exact .nothing rfl rfl
    · simp only [SocketsEnv.ends, SocketsEnv.returns, hm]
      exact congrArg Bool.not (Parser.returns_of_not_delivered _ _ hm s [])
  | some m =>
    have handles : Handles env feed index members m s (onMessage env feed index members m s) :=
      onMessage_handles hlive hindex hm
    have hdelivered :
        env.parser.dispatch env.allowUnknownEventTypes (onMessage env feed index members) members s =
          (onMessage env feed index members m s).map fun s => (true, s) :=
      Parser.dispatch_of_delivered _ hm s
    rw [hdispatch _ (by rw [Outcome.state_map]; exact handles.halted.trans hlive.1) hdelivered,
      Outcome.state_map, Outcome.returns_map, handles.returns]
    refine ⟨?_, ?_⟩
    · simp only [SocketsEnv.entries, SocketsEnv.bookEvents, hm, Option.toList_some, List.flatMap_cons,
        List.flatMap_nil, List.append_nil]
      exact ⟨handles.does.log, handles.does.books⟩
    · simp only [SocketsEnv.ends, SocketsEnv.returns, hm]

theorem step_follows {e : SocketsEvent} (h : step env s e = some s') : Live s ∧ Follows env s e s' := by
  unfold step at h
  split at h
  · cases h
  rename_i hhalted
  have hlive : Live s := by simpa [Live, and_assoc] using hhalted
  refine ⟨hlive, ?_⟩
  cases e with
  | binary feed index payload =>
    simp only [handle] at h
    split at h
    · rename_i hindex
      cases payload with
      | some members =>
        cases h
        exact parse_follows hlive hindex members
      | none =>
        cases h
        exact ⟨.nothing rfl rfl, rfl⟩
    · cases h
  | text feed index =>
    simp only [handle] at h
    split at h
    · cases h
      exact ⟨.nothing rfl rfl, rfl⟩
    · cases h
  | books e =>
    simp only [handle] at h
    split at h
    · cases h
    · obtain ⟨books, hbooks, rfl⟩ := Option.map_eq_some_iff.mp h
      exact ⟨.event rfl hbooks, hlive.1⟩

/-! ## Runs -/

theorem Does.trans {es es' : List SocketEntry} {bs bs' : List BooksEvent} {t : Sockets σ}
    (h : Does env es bs s s') (h' : Does env es' bs' s' t) : Does env (es ++ es') (bs ++ bs') s t where
  log := by rw [h'.log, h.log, List.append_assoc]
  books := by rw [Machine.runAll_append, h.books]; exact h'.books

theorem runAll_follows {ds : List SocketsEvent} (h : (sockets σ env).runAll s ds = some s') :
    Does env (ds.flatMap env.entries) (ds.flatMap env.bookEvents) s s' ∧
      s'.halted = (s.halted || ds.any env.ends) := by
  induction ds generalizing s with
  | nil =>
    cases h
    exact ⟨.nothing rfl rfl, (Bool.or_false _).symm⟩
  | cons e ds ih =>
    obtain ⟨t, ht, h⟩ := Option.bind_eq_some_iff.mp h
    obtain ⟨hlive, hfollows⟩ := step_follows ht
    obtain ⟨hdoes, hhalted⟩ := ih h
    refine ⟨?_, ?_⟩
    · rw [List.flatMap_cons, List.flatMap_cons]
      exact hfollows.does.trans hdoes
    · rw [hhalted, hfollows.halted, hlive.1, Bool.false_or, List.any_cons]

/-- A ping, trades, a snapshot and an update of a book, and what the other kind of
stream does not expect. -/
def session : List SocketsEvent :=
  [.books (.market (.subscribe ["btcusdt"])), .books (.market (.feedReady .marketData 0)),
    .books (.market (.feedReady .mbpFeed 0)),
    .binary .marketData 0 (some [("ping", .int 1764300452378)]),
    .binary .marketData 0 (some (Reader.ticked "market.btcusdt.trade.detail" Reader.tradeTick)),
    .binary .mbpFeed 0 (some Reader.snapshotMessage),
    .binary .mbpFeed 0 (some (Reader.ticked "market.btcusdt.mbp.20" Reader.mbpTick)),
    .binary .mbpFeed 0 (some (Reader.ticked "market.btcusdt.bbo" Reader.bboTick))]

/-- The text of a pong of one stream. -/
def pongOf? (feed : Feed) (index : Nat) : SocketEntry → Option String
  | .pong f i timestamp => if f = feed ∧ i = index then some (pongText timestamp) else none
  | _ => none

/-- The timestamp of a ping, in either of its forms. -/
def timestamp? : Message → Option Int
  | .ping ts | .ping2 ts => some ts
  | _ => none

/-- The timestamp of a ping on the socket of one stream. -/
def pingOf? (env : SocketsEnv) (feed : Feed) (index : Nat) : SocketsEvent → Option Int
  | .binary f i (some members) =>
    if f = feed ∧ i = index then (env.parser.delivered members).bind timestamp? else none
  | _ => none

/-- A pong, as a JSON value. -/
def pongMembers (timestamp : Int) : JsonText.Value := .object [("pong", .number (toString timestamp))]

theorem parse_pongText (timestamp : Int) :
    JsonText.parse (pongText timestamp) = some (pongMembers timestamp) := by
  have htext : pongText timestamp = String.ofList (pongMembers timestamp).text := by
    apply String.toList_injective
    simp [pongText, pongMembers, JsonText.Value.text, JsonText.memberText, JsonText.membersText,
      JsonText.quoted]
  have hplain : (pongMembers timestamp).Plain :=
    ⟨⟨(by decide : JsonText.Plain "pong"), JsonText.plain_int timestamp⟩, trivial⟩
  rw [htext, JsonText.parse_text hplain]

theorem pongs_entriesOf (feed f : Feed) (index i : Nat) (members : Members) (m : Message) :
    (env.entriesOf f i members m).filterMap (pongOf? feed index) =
      if f = feed ∧ i = index then ((timestamp? m).map pongText).toList else [] := by
  have other : ∀ {α : Type} {r : Except Exn α} {entry : α → SocketEntry} {b : Prop} [Decidable b],
      (∀ a, pongOf? feed index (entry a) = none) →
      (if b then (r.toOption.map entry).toList else []).filterMap (pongOf? feed index) = [] := by
    intro α r entry b _ hentry
    split
    · cases r.toOption with
      | none => rfl
      | some a => simp [hentry]
    · rfl
  cases m with
  | ping ts | ping2 ts =>
    by_cases hown : f = feed ∧ i = index <;>
      simp [SocketsEnv.entriesOf, pongOf?, timestamp?, hown]
  | bbo | trade | detail => exact (other fun _ => rfl).trans (ite_self []).symm
  | _ => exact (ite_self []).symm

theorem pongs_entries (feed : Feed) (index : Nat) (e : SocketsEvent) :
    (env.entries e).filterMap (pongOf? feed index) =
      ((pingOf? env feed index e).map pongText).toList := by
  cases e with
  | binary f i payload =>
    cases payload with
    | none => rfl
    | some members =>
      show ((env.parser.delivered members).toList.flatMap (env.entriesOf f i members)).filterMap _ =
        ((if f = feed ∧ i = index then (env.parser.delivered members).bind timestamp? else none).map
          pongText).toList
      cases env.parser.delivered members with
      | none => split <;> rfl
      | some m =>
        rw [Option.toList_some, List.flatMap_singleton, pongs_entriesOf]
        split <;> rfl
  | text f i | books e => rfl

/-- In every run, what a stream sends at once are pongs, one for each ping on its own
socket, in their order; the text of a pong says just the timestamp of the ping. -/
theorem pings_answered {ds : List SocketsEvent} (h : (sockets σ env).runAll (init env) ds = some s) :
    (∀ feed index, s.log.reverse.filterMap (pongOf? feed index) =
      (ds.filterMap (pingOf? env feed index)).map pongText) ∧
    ∀ timestamp, JsonText.parse (pongText timestamp) = some (pongMembers timestamp) ∧
      Digits.readInt (toString timestamp).toList = some timestamp := by
  refine ⟨fun feed index => ?_, fun timestamp =>
    ⟨parse_pongText timestamp, Digits.readInt_toString timestamp⟩⟩
  have hlog : s.log.reverse = ds.flatMap env.entries := (runAll_follows h).1.log
  rw [hlog, List.filterMap_flatMap, List.map_filterMap, List.filterMap_eq_flatMap_toList]
  exact congrArg (ds.flatMap ·) (funext fun e => pongs_entries feed index e)

/-- Two streams are pinged by turns. -/
theorem pings_answered_two : ∃ s : Sockets Reader.Sequence,
    s.log.reverse.filterMap (pongOf? .marketData 0) =
        ["\x7b\"pong\":1764300452378\x7d", "\x7b\"pong\":1764300457378\x7d"] ∧
      s.log.reverse.filterMap (pongOf? .mbpFeed 0) = ["\x7b\"pong\":1764300452379\x7d"] := by
  let ds : List SocketsEvent :=
    [.books (.market (.subscribe ["btcusdt"])), .books (.market (.feedReady .marketData 0)),
      .books (.market (.feedReady .mbpFeed 0)),
      .binary .marketData 0 (some [("ping", .int 1764300452378)]),
      .binary .mbpFeed 0 (some [("ping", .int 1764300452379)]),
      .binary .marketData 0 (some [("ping", .int 1764300457378)])]
  have computed : ((sockets Reader.Sequence Reader.socketsEnv).runAll (init Reader.socketsEnv)
      ds).isSome = true := by decide +kernel
  obtain ⟨s, hs⟩ := Option.isSome_iff_exists.mp computed
  have pongs := (pings_answered hs).1
  refine ⟨s, (pongs .marketData 0).trans ?_, (pongs .mbpFeed 0).trans ?_⟩
  · decide +kernel
  · decide +kernel

end Sockets

end RoqHtx
