import RoqHtx.Proof.Slices

/-!
# Streams by their operations

All that ever happens to the streams of market data is that one is created, that
one gets ready or is disconnected, that it subscribes, that messages are sent from
its queue (`Feed.Operations`), and that a sequencer makes it request a snapshot.
What each of these keeps, and everything else leaves alone, holds in every state
reached (`Operations.reachable`).
-/

namespace RoqHtx

namespace Feed

/-! ## Histories -/

theorem log_publish (status : ConnectionStatus) (feed : Feed) (index : Nat) (m : Market) :
    (publish status feed index m).log = .feedStatus feed index status :: m.log := by
  show _ :: (Market.setFeeds _ _ feed).log = _
  rw [log_setFeeds]

theorem log_onDisconnected (feed : Feed) (index : Nat) (m : Market) :
    (onDisconnected feed index m).log =
      .feedStatus feed index .disconnected :: .feedDisconnected feed index :: m.log := by
  show (Market.setFeeds (publish _ feed index (m.push _)) _ feed).log = _
  rw [log_setFeeds, log_publish]
  rfl

theorem log_emplaceBack {m : Market} {feed : Feed} {index : Nat} {s : State}
    (hs : (m.feeds feed)[index]? = some s) (message : UInt64 → Message) :
    (emplaceBack feed index message m).log =
      .enqueued feed index (message (s.requestId + 1)) :: m.log := by
  unfold emplaceBack
  rw [hs]
  show _ :: (Market.setFeeds _ _ feed).log = _
  rw [log_setFeeds]

/-! ## Operations -/

/-- The entries that no operation on a stream makes. -/
def Quiet : MarketEntry → Prop
  | .created _ _ _ | .feedReady _ _ | .feedDisconnected _ _ | .feedStatus _ _ _
  | .enqueued _ _ _ | .socketText _ _ _ => False
  | _ => True

/-- A property that every operation keeps, except for a request. -/
structure Operations (P : Market → Prop) : Prop where
  push : ∀ x m, Quiet x → P m → P (m.push x)
  rest : ∀ (m : Market) (rest : Rest.State), P m → P { m with rest }
  requests : ∀ (m : Market) (requests : List (Rest.Stage × Nat)), P m → P { m with requests }
  halted : ∀ (m : Market) (halted : Bool), P m → P { m with halted }
  symbols : ∀ (m : Market) (symbols : List String), P m → P { m with symbols }
  allSymbols : ∀ (m : Market) (allSymbols : List String), P m → P { m with allSymbols }
  getReady : ∀ feed index m, P m → P (publish .ready feed index (m.push (.feedReady feed index)))
  subscribe : ∀ feed index symbol theme m, theme ∈ themes feed → P m →
    P (emplaceBack feed index (.sub "market" symbol theme) m)
  checkRequestQueue : ∀ feed index count m, isReady feed index m = true → P m →
    P (checkRequestQueue feed index count m)
  onDisconnected : ∀ feed index m, P m → P (onDisconnected feed index m)
  create : ∀ feed m, P m → P (Controller.create feed m)

namespace Operations

variable {P : Market → Prop} (h : Operations P) {m : Market}

include h

/-- The download is none of the streams' business. -/
theorem closed : Rest.Closed P where
  push x m hx hm := h.push x m (by cases x <;> trivial) hm
  rest := h.rest
  requests := h.requests
  halted := h.halted

theorem subscribeSlice (slicing : Slicing) (feed : Feed) (startFrom index : Nat) (hm : P m) :
    P (Feed.subscribe slicing feed startFrom m index) := by
  have each : ∀ m symbol, P m → P (subscribeSymbol feed index m symbol) := fun m symbol hm =>
    List.foldlRecOn _ _ hm fun m hm theme htheme => h.subscribe feed index symbol theme m htheme hm
  unfold Feed.subscribe
  split
  · exact List.foldlRecOn _ _ hm fun m hm symbol _ => each m symbol hm
  · exact hm

theorem onReady (slicing : Slicing) (feed : Feed) (index : Nat) (hm : P m) :
    P (onReady slicing feed index m) :=
  h.subscribeSlice slicing feed 0 index (h.getReady feed index m hm)

theorem onTimer (feed : Feed) (index count : Nat) (hm : P m) : P (onTimer feed index count m) := by
  unfold Feed.onTimer
  split
  · exact h.checkRequestQueue feed index count m ‹_› hm
  · exact hm

theorem createAll (feed : Feed) :
    ∀ (n : Nat) {s : Market}, P s → P (Controller.createAll feed n s)
  | 0, _, hs => hs
  | n + 1, _, hs => createAll feed n (h.create feed _ hs)

theorem subscribeAll (slicing : Slicing) (startFrom : Nat) (feed : Feed) (hm : P m) :
    P (Controller.subscribeAll slicing startFrom feed m) :=
  List.foldlRecOn _ _ hm fun _ hm index _ => h.subscribeSlice slicing feed startFrom index hm

theorem onSymbolsUpdate (slicing : Slicing) (symbols : List String) (hm : P m) :
    P (Controller.onSymbolsUpdate slicing symbols m) := by
  have added : P (Controller.addSymbols symbols (m.push (.symbolsUpdate symbols))) :=
    h.symbols _ (m.symbols ++ symbols) (h.push (.symbolsUpdate symbols) m trivial hm)
  exact h.subscribeAll slicing _ .mbpFeed <| h.subscribeAll slicing _ .marketData <|
    h.createAll .mbpFeed _ (h.createAll .marketData _ added)

theorem emplace (symbol : String) {s : List String × Market} (hs : P s.2) :
    P (Controller.emplace s symbol).2 := by
  unfold Controller.emplace
  split
  · exact hs
  · exact h.allSymbols _ _ hs

theorem onSubscribe (slicing : Slicing) (symbols : List String) (hm : P m) :
    P (Controller.onSubscribe slicing symbols m) := by
  have known : P (symbols.foldl Controller.emplace ([], m.push (.subscribed symbols))).2 :=
    List.foldlRecOn (motive := fun s : List String × Market => P s.2) symbols _
      (h.push (.subscribed symbols) m trivial hm) fun _ hs symbol _ => h.emplace symbol hs
  exact h.onSymbolsUpdate slicing _ known

theorem onSymbols (env : MarketEnv) (t : Rest.Handling) (symbols : Json.Symbols) (hm : P m) :
    P (Rest.onSymbols env t symbols m).state := by
  rw [← Outcome.bind_ok (Rest.onSymbols env t symbols m)]
  exact Rest.onSymbols_rule (P := fun s : List String × Market => P s.2) (I := P)
    (fun _ _ hs => h.push _ _ trivial hs) (fun symbol _ hs => h.emplace symbol hs)
    (fun _ _ _ _ _ hs => h.push _ _ trivial hs) (fun _ hs => hs)
    (fun s hs => h.onSymbolsUpdate env.slicing s.1 hs) (fun _ hm => hm)
    (fun _ hm => h.push _ _ trivial hm) hm

theorem step {env : MarketEnv} {m' : Market} {e : MarketEvent}
    (hrequest : ∀ index symbol, e = .requestSnapshot index symbol → P (request index symbol m))
    (hstep : (market env).step m e = some m') (hm : P m) : P m' := by
  have leaves := (Market.leaves_of_step hstep).2
  cases e with
  | restConnected => exact leaves.2 ▸ h.closed.onConnected hm
  | restDisconnected => exact leaves.2 ▸ h.closed.onDisconnected hm
  | response stage sequence response t =>
    have hsymbols : P (Rest.getSymbolsAck env sequence response t m).state :=
      h.closed.ack (fun symbols _ hm => h.onSymbols env t symbols hm) sequence response t hm
    exact leaves.2 ▸ h.closed.onResponse stage sequence response t (fun _ => hsymbols) hm
  | subscribe symbols => exact leaves ▸ h.onSubscribe env.slicing symbols hm
  | feedReady feed index => exact leaves.2 ▸ h.onReady env.slicing feed index hm
  | feedDisconnected feed index => exact leaves.2 ▸ h.onDisconnected feed index m hm
  | timer feed index count => exact leaves ▸ h.onTimer feed index count hm
  | requestSnapshot index symbol => exact leaves ▸ hrequest index symbol rfl

/-- What every operation keeps holds on every run. -/
theorem reachable {env : MarketEnv}
    (hrequest : ∀ index symbol m, P m → P (request index symbol m)) (hinit : P (Market.init env))
    (hm : (market env).Reachable m) : P m :=
  hm.invariant hinit fun m _ _ hs _ hstep =>
    h.step (fun index symbol _ => hrequest index symbol m hs) hstep hs

end Operations

end Feed

end RoqHtx
