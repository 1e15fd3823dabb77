import RoqHtx.Impl.MarketReader
import RoqHtx.Proof.Market

/-!
# Trading statuses

What has been published last about a symbol is right after a download if it says
that the symbol is open just in case the download does (`statusesOk`). `Rest`
passes over a symbol that is not online, or not enabled, before it publishes
anything, so it publishes that symbols are open and nothing else (`AllOpen`). A
symbol that has been open remains so (`still_open`), and what has been published
is right in runs in which none changes back (`staysOpen`,
`trading_reported`).
-/

namespace RoqHtx

namespace Rest

/-! ## Statuses -/

def statusOf (symbol : String) : MarketEntry → Option TradingStatus
  | .marketStatus marketStatus =>
    if marketStatus.symbol = symbol then some marketStatus.tradingStatus else none
  | _ => none

/-- The status published last for a symbol. -/
def lastStatus (symbol : String) (l : List MarketEntry) : Option TradingStatus :=
  l.findSome? (statusOf symbol)

/-- What has been published last is open just in case the symbol is online and
enabled. -/
def statusOk (before : List MarketEntry) (item : Json.SymbolsItem) : Bool :=
  (lastStatus item.symbol before).all fun status =>
    (status == .open_) == (item.state == .online && item.apiTrading == .enabled)

/-- Every symbol of a download that is not discarded. -/
def statusesOk (before : List MarketEntry) : MarketEntry → Bool
  | .processed symbols discards =>
    symbols.data.all fun item => discards item.symbol || statusOk before item
  | _ => true

def TradingReported (l : List MarketEntry) : Prop := Always (fun l x => statusesOk l x = true) l

instance (l : List MarketEntry) : Decidable (TradingReported l) :=
  inferInstanceAs (Decidable (Always (fun l x => statusesOk l x = true) l))

theorem lastStatus_cons {symbol : String} {x : MarketEntry} (hx : statusOf symbol x = none)
    (l : List MarketEntry) : lastStatus symbol (x :: l) = lastStatus symbol l :=
  List.findSome?_cons_of_isNone (by rw [hx]; rfl)

theorem lastStatus_marketStatus (symbol : String) (marketStatus : RoqHtx.MarketStatus)
    (l : List MarketEntry) :
    lastStatus symbol (.marketStatus marketStatus :: l) =
      if marketStatus.symbol = symbol then some marketStatus.tradingStatus else lastStatus symbol l := by
  rw [lastStatus, List.findSome?_cons, statusOf, lastStatus]
  by_cases hsymbol : marketStatus.symbol = symbol
  · rw [if_pos hsymbol, if_pos hsymbol]
  · rw [if_neg hsymbol, if_neg hsymbol]

/-! ## The invariant -/

/-- Symbols are open whenever anything is published about them. -/
structure AllOpen (l : List MarketEntry) : Prop where
  reported : TradingReported l
  last : ∀ symbol status, lastStatus symbol l = some status → status = .open_

/-- An entry that is not about the status of a symbol. -/
def Apart : MarketEntry → Prop
  | .marketStatus _ | .processed _ _ => False
  | _ => True

theorem Apart.statusOf {x : MarketEntry} (hx : Apart x) (symbol : String) : statusOf symbol x = none := by
  cases x with
  | marketStatus => exact hx.elim
  | _ => rfl

theorem Apart.statusesOk {x : MarketEntry} (hx : Apart x) (l : List MarketEntry) :
    statusesOk l x = true := by
  cases x with
  | processed => exact hx.elim
  | _ => rfl

theorem AllOpen.push {x : MarketEntry} {l : List MarketEntry} (h : AllOpen l) (hx : Apart x) :
    AllOpen (x :: l) where
  reported := ⟨hx.statusesOk l, h.reported⟩
  last symbol status hs := h.last symbol status (lastStatus_cons (hx.statusOf symbol) l ▸ hs)

theorem marketStatus_open (env : MarketEnv) {item : Json.SymbolsItem} (h : included item = true) :
    (marketStatus env item).tradingStatus = .open_ := by
  simp only [included, Bool.and_eq_true, beq_iff_eq] at h
  simp only [marketStatus, h.2, mapTrading]

/-- Symbols that are included. -/
def lists (symbols : Json.Symbols) (symbol : String) : Bool :=
  symbols.data.any fun item => included item && item.symbol == symbol

/-- While the symbols of a download are processed: what has been published about a
symbol is from before, or from the download. -/
structure Reporting (symbols : Json.Symbols) (before l : List MarketEntry) : Prop
    extends AllOpen l where
  source : ∀ symbol, (lastStatus symbol l).isSome = true →
    (lastStatus symbol before).isSome = true ∨ lists symbols symbol = true

namespace Reporting

variable {symbols : Json.Symbols} {before l : List MarketEntry}

theorem push {x : MarketEntry} (h : Reporting symbols before l) (hx : Apart x) :
    Reporting symbols before (x :: l) where
  toAllOpen := h.toAllOpen.push hx
  source symbol hs := h.source symbol (lastStatus_cons (hx.statusOf symbol) l ▸ hs)

theorem closed (symbols : Json.Symbols) (before : List MarketEntry) :
    Feed.Closed fun m => Reporting symbols before m.log :=
  .of_log fun x _ hx h => h.push (by cases x <;> trivial)

/-- The status of an item that is included. -/
theorem marketStatus (h : Reporting symbols before l) (env : MarketEnv) {item : Json.SymbolsItem}
    (hmem : item ∈ symbols.data) (hincluded : included item = true) :
    Reporting symbols before (.marketStatus (marketStatus env item) :: l) := by
  refine ⟨⟨⟨rfl, h.reported⟩, fun symbol status hs => ?_⟩, fun symbol hs => ?_⟩
  · rw [lastStatus_marketStatus] at hs
    split at hs
    · exact (Option.some.inj hs).symm.trans (marketStatus_open env hincluded)
    · exact h.last symbol status hs
  · rw [lastStatus_marketStatus] at hs
    split at hs
    · rename_i hsymbol
      have hsymbol : item.symbol = symbol := hsymbol
      exact .inr (List.any_eq_true.mpr ⟨item, hmem, by simp [hincluded, hsymbol]⟩)
    · exact h.source symbol hs

end Reporting

/-! ## Downloads -/

theorem AllOpen.closed : Closed fun m => AllOpen m.log :=
  .of_log fun x _ hx h => h.push (by cases x <;> trivial)

theorem AllOpen.closed_feed : Feed.Closed fun m => AllOpen m.log :=
  .of_log fun x _ hx h => h.push (by cases x <;> trivial)

/-- No symbol is listed that is no longer included: one for which a status has been
published, or which is included in the same download. -/
def keepsOpen (discards : String → Bool) (symbols : Json.Symbols) (l : List MarketEntry) : Bool :=
  symbols.data.all fun item => included item || discards item.symbol ||
    (lastStatus item.symbol l).isNone && !lists symbols item.symbol

theorem Reporting.statusesOk {symbols : Json.Symbols} {discards : String → Bool}
    {before l : List MarketEntry} (h : Reporting symbols before l)
    (hkeeps : keepsOpen discards symbols before = true) :
    statusesOk l (.processed symbols discards) = true := by
  refine List.all_eq_true.mpr fun item hmem => ?_
  have hitem := List.all_eq_true.mp hkeeps item hmem
  cases hdiscards : discards item.symbol with
  | true => rfl
  | false =>
    rw [hdiscards, Bool.or_false] at hitem
    refine (Option.all_eq_true ..).mpr fun status hs => ?_
    have hopen := h.last item.symbol status hs
    cases hincluded : included item with
    | true =>
      unfold included at hincluded
      rw [hopen, hincluded]
      rfl
    | false =>
      -- it is reported neither before nor in the download
      rw [hincluded, Bool.false_or, Bool.and_eq_true, Bool.not_eq_true'] at hitem
      obtain hbefore | hlists := h.source item.symbol (by rw [hs]; rfl)
      · rw [Option.isNone_iff_eq_none.mp hitem.1] at hbefore
        cases hbefore
      · rw [hitem.2] at hlists
        cases hlists

/-- The answer with the symbols. -/
theorem getSymbolsAck_allOpen {env : MarketEnv} {sequence : Nat} {response : Response} (t : Handling)
    {m : Market} (hm : AllOpen m.log)
    (hkeeps : ∀ symbols, skip sequence .symbols m = false →
      response.decoded env.symbols = some symbols → symbols.status = .ok →
      keepsOpen t.discards symbols m.log = true) :
    AllOpen (getSymbolsAck env sequence response t m).state.log := by
  refine ack_rule (P := fun m => AllOpen m.log) (fun _ => AllOpen.closed.retry t.retry .symbols)
    (fun symbols hskip hdecoded hstatus => ?_) hm
  have keeps := hkeeps symbols hskip hdecoded (by simpa using hstatus)
  have own := Reporting.closed symbols m.log
  have start : Reporting symbols m.log m.log := ⟨hm, fun _ => .inl⟩
  refine onSymbols_rule (P := fun s => Reporting symbols m.log s.2.log)
    (I := fun m' => Reporting symbols m.log m'.log) (J := fun m' => AllOpen m'.log)
    (fun _ _ hs => hs.push trivial) (fun symbol _ hs => own.emplace symbol hs)
    (fun item hmem hincluded _ _ hs => hs.marketStatus env hmem hincluded) (fun _ hs => hs)
    (fun s hs => own.onSymbolsUpdate env.slicing s.1 hs) (fun _ hm => hm.toAllOpen)
    (fun m' hm' => AllOpen.closed.check .symbols response ?_) start
  exact ⟨⟨hm'.statusesOk keeps, hm'.reported⟩, fun symbol status hs => hm'.last symbol status hs⟩

end Rest

namespace Market

open Rest (AllOpen TradingReported)

/-! ## Runs -/

/-- No symbol changes back in a download that is accepted. -/
def staysOpen (env : MarketEnv) (m : Market) : MarketEvent → Bool
  | .response .symbols sequence response t =>
    Rest.skip sequence .symbols m || (response.decoded env.symbols).all fun symbols =>
      symbols.status != .ok || Rest.keepsOpen t.discards symbols m.log
  | _ => true

theorem Leaves.allOpen {env : MarketEnv} {m m' : Market} {e : MarketEvent} (h : Leaves env m m' e)
    (he : staysOpen env m e = true) (hm : AllOpen m.log) : AllOpen m'.log := by
  have streams := AllOpen.closed_feed
  refine h.rule AllOpen.closed streams.subscribes (fun sequence response t heq => ?_)
    (fun symbols => streams.onSubscribe env.slicing symbols hm) hm
  subst heq
  refine Rest.getSymbolsAck_allOpen t hm fun symbols hskip hdecoded hstatus => ?_
  simpa [staysOpen, hskip, hdecoded, hstatus] using he

/-- In runs in which no symbol changes back, what has been published last about the
symbols of a download is right after it. -/
theorem trading_reported (env : MarketEnv) (m : Market)
    (h : (market env).Reach (fun m e => staysOpen env m e = true) m) : TradingReported m.log := by
  have init : AllOpen (market env).init.log := ⟨trivial, fun _ _ hs => nomatch hs⟩
  have all : AllOpen m.log :=
    h.invariant (I := fun m => AllOpen m.log) init fun _ _ _ hm he hstep =>
      (leaves_of_step hstep).2.allOpen he hm
  exact all.reported

/-- A symbol that opens in the second of two downloads. -/
theorem trading_reported_twice : ∃ m : Market,
    m.symbols = ["ethusdt", "btcusdt"] ∧ Rest.lastStatus "btcusdt" m.log = some .open_ ∧
      TradingReported m.log := by
  obtain ⟨m, hm, hsymbols, hstatus⟩ := Machine.exists_reach (M := market Reader.marketEnv)
    (C := fun m e => staysOpen Reader.marketEnv m e = true)
    (P := fun m => m.symbols = ["ethusdt", "btcusdt"] ∧
      Rest.lastStatus "btcusdt" m.log = some .open_)
    ([.restConnected] ++ Reader.symbolsDownload 1 Reader.disabledBody ++
      [.restDisconnected, .restConnected] ++ Reader.symbolsDownload 2 Reader.openBody)
    (by decide +kernel)
  exact ⟨m, hsymbols, hstatus, trading_reported Reader.marketEnv m hm⟩

/-- A symbol that is disabled in the second download is open still. -/
theorem still_open : ∃ m : Market,
    (market Reader.marketEnv).Reachable m ∧ ¬TradingReported m.log ∧
      Rest.lastStatus "btcusdt" m.log = some .open_ :=
  Machine.exists_reach
    ([.restConnected] ++ Reader.symbolsDownload 1 Reader.openBody ++
      [.restDisconnected, .restConnected] ++ Reader.symbolsDownload 2 Reader.disabledBody)
    (by decide +kernel)

end Market

end RoqHtx
