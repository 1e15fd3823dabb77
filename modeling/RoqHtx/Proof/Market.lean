import RoqHtx.Impl.MarketSystem
import RoqHtx.Proof.Responses

/-!
# Pieces of the market data

Everything `Rest` does, but for what it does with the symbols themselves, is
composed of a few pieces, so a property that each of them keeps is kept by the
whole (`Rest.Closed`), and so is everything the streams do (`Feed.Closed`).
What an event leaves behind is `Market.Leaves`.
-/

namespace RoqHtx

namespace Rest

/-- The entries of the download. -/
def Own : MarketEntry → Prop
  | .restConnected | .restDisconnected | .restRequest _ _ | .restStatus _ _ | .downloadBegin
  | .download _ | .downloadRetry _ | .downloadCheck _ _ | .asserted _ => True
  | _ => False

/-- What holds after each of the two handlers holds after a response. -/
theorem processResponse_rule {σ : Type} {P : σ → Prop} {response : Response}
    {errorHandler : ErrorHandler σ} {successHandler : SuccessHandler σ} {s : σ}
    (herror : ∀ origin status error text s, P s → P (errorHandler origin status error text s))
    (hsuccess : ∀ status body, response.result = .ok (status, .success, body) →
      P (successHandler body s).state)
    (hs : P s) : P (processResponse response errorHandler successHandler s).state := by
  have result : P (processResult response errorHandler successHandler s).state := by
    unfold processResult
    split
    · exact hs
    · rename_i status category body hr
      cases category with
      | success => exact hsuccess status body hr
      | clientError | serverError => exact herror _ _ _ _ _ hs
      | unknown | informationalResponse | redirection =>
        dsimp only
        split <;> exact hs
  unfold processResponse
  generalize processResult response errorHandler successHandler s = o at result
  rcases o with s | ⟨e, s⟩ | s
  · exact result
  · cases e <;> exact herror _ _ _ _ _ result
  · exact result

/-- What trying again keeps, and what an accepted answer establishes, holds after
the answer to a stage. -/
theorem ack_rule {α : Type} {P : Market → Prop} {env : MarketEnv} {stage : Stage}
    {decode : String → Except Exn α} {accepted : α → Bool} {text : α → String}
    {onAck : α → Market → Outcome Exn Market} {sequence : Nat} {response : Response} {t : Handling}
    {m : Market} (hretry : ∀ m, P m → P (retry env t.retry stage m))
    (haccept : ∀ a, skip sequence stage m = false → response.decoded decode = some a →
      accepted a = true → P ((onAck a m).bind fun m => .ok (check env stage response m)).state)
    (hm : P m) : P (ack env stage decode accepted text onAck sequence response t m).state := by
  refine processResponse_rule (fun _ _ _ _ => hretry) (fun status body hr => ?_) hm
  split
  · exact hm
  · rename_i hskip
    split
    · exact hm
    · rename_i a ha
      split
      · rename_i haccepted
        have hdecoded : response.decoded decode = some a := by
          simp [Response.decoded, hr, ha, Except.toOption]
        exact haccept a (by simpa using hskip) hdecoded haccepted
      · exact hretry m hm

/-- A property that every piece keeps. -/
structure Closed (P : Market → Prop) : Prop where
  push : ∀ x m, Own x → P m → P (m.push x)
  rest : ∀ (m : Market) (rest : State), P m → P { m with rest }
  requests : ∀ (m : Market) (requests : List (Stage × Nat)), P m → P { m with requests }
  halted : ∀ (m : Market) (halted : Bool), P m → P { m with halted }

namespace Closed

/-- A property of the history. -/
theorem of_log {P : List MarketEntry → Prop} (h : ∀ x l, Own x → P l → P (x :: l)) :
    Closed fun m => P m.log where
  push x m hx hm := h x m.log hx hm
  rest _ _ hm := hm
  requests _ _ hm := hm
  halted _ _ hm := hm

variable {P : Market → Prop} (h : Closed P) {env : MarketEnv} {m : Market}

include h

theorem publish (status : ConnectionStatus) (reason : String) (hm : P m) : P (publish status reason m) :=
  h.push (.restStatus status reason) _ trivial
    (h.rest m { m.rest with connectionStatus := status } hm)

theorem get (stage : Stage) (hm : P m) : P (get stage m) :=
  h.push (.restRequest stage m.rest.sequence) _ trivial
    (h.requests m ((stage, m.rest.sequence) :: m.requests) hm)

theorem assert (holds : Bool) (hm : P m) : P (assert env holds m) :=
  h.push (.asserted holds) _ trivial (h.halted m (m.halted || !holds && env.assertions) hm)

theorem download (stage : Stage) (hm : P m) : P (download env stage m).2 := by
  have entered : P (m.push (.download stage)) := h.push _ m trivial hm
  cases stage with
  | marketStatus | currencies | symbols => exact h.get _ (h.publish _ _ entered)
  | done => exact h.rest _ _ (h.assert _ (h.publish _ _ entered))

theorem visit (env : MarketEnv) (l : List Stage) (hm : P m) :
    P (Download.visit (Rest.download env) l m).2 :=
  Download.visit_state (fun stage _ => h.download stage) hm

theorem nextSequence (hm : P m) : P (nextSequence m) := h.rest m _ hm

theorem begin (hm : P m) : P (begin env m) :=
  h.rest _ _ (h.visit env Stage.all (h.push .downloadBegin _ trivial (h.nextSequence hm)))

theorem reissue (hm : P m) : P (reissue env m) := h.rest _ _ (h.visit env _ hm)

theorem bump (hm : P m) : P (bump env m) := h.reissue (h.nextSequence hm)

theorem check (stage : Stage) (response : Response) (hm : P m) : P (check env stage response m) := by
  have checked : P (m.push (.downloadCheck stage response)) := h.push _ m trivial hm
  refine h.rest _ _ ?_
  unfold Download.check
  split
  · exact h.visit env _ checked
  · exact checked

theorem retry (how : Retry) (stage : Stage) (hm : P m) : P (retry env how stage m) := by
  have logged : P (m.push (.downloadRetry stage)) := h.push _ m trivial hm
  unfold Rest.retry
  dsimp only
  split
  · cases how with
    | later => exact logged
    | reissue => exact h.reissue logged
    | bump => exact h.bump logged
  · exact logged

theorem onConnected (hm : P m) : P (onConnected env m) := by
  have connected : P (({ m with rest := { m.rest with up := true } } : Market).push .restConnected) :=
    h.push _ _ trivial (h.rest m _ hm)
  unfold Rest.onConnected
  dsimp only
  split
  · exact h.bump connected
  · exact h.begin connected

theorem onDisconnected (hm : P m) : P (onDisconnected m) := by
  have lost := h.publish .disconnected ""
    (h.push .restDisconnected _ trivial (h.rest m { m.rest with up := false, ready := false } hm))
  unfold Rest.onDisconnected
  dsimp only
  split
  · exact h.rest _ _ lost
  · exact lost

theorem ack {α : Type} {stage : Stage} {decode : String → Except Exn α} {accepted : α → Bool}
    {text : α → String} {onAck : α → Market → Outcome Exn Market}
    (hack : ∀ a m, P m → P (onAck a m).state) (sequence : Nat) (response : Response) (t : Handling)
    (hm : P m) : P (ack env stage decode accepted text onAck sequence response t m).state :=
  ack_rule (fun _ => h.retry t.retry stage)
    (fun a _ _ _ => Outcome.state_bind (hack a m hm) fun _ hs => h.check stage response hs) hm

/-- A response, given what one with the symbols does. -/
theorem onResponse (stage : Stage) (sequence : Nat) (response : Response) (t : Handling)
    (hsymbols : stage = .symbols → P (getSymbolsAck env sequence response t m).state) (hm : P m) :
    P (onResponse env stage sequence response t m).state := by
  have logged : ∀ {α : Type} (_ : α) m, P m → P (Outcome.ok m : Outcome Exn Market).state :=
    fun _ _ hm => hm
  cases stage with
  | marketStatus => exact h.ack logged sequence response t hm
  | currencies => exact h.ack logged sequence response t hm
  | symbols => exact hsymbols rfl
  | done => exact hm

end Closed

end Rest

namespace Feed

/-- The entries of the streams. -/
def Own : MarketEntry → Prop
  | .subscribed _ | .feedReady _ _ | .feedDisconnected _ _ | .enqueued _ _ _ | .socketText _ _ _
  | .feedStatus _ _ _ | .symbolsUpdate _ | .created _ _ _ => True
  | _ => False

/-- What a stream subscribes to, or requests. -/
inductive Asks : Feed → Message → Prop where
  | sub {feed : Feed} {symbol theme : String} {id : UInt64} :
    theme ∈ themes feed → Asks feed (.sub "market" symbol theme id)
  | req {symbol : String} {id : UInt64} : Asks .mbpFeed (.req "market" symbol "mbp.20" id)

/-- The entries of a stream by itself. -/
def Alone : MarketEntry → Prop
  | .subscribed _ | .symbolsUpdate _ => False
  | .enqueued feed _ message => Asks feed message
  | x => Own x

/-- A property that every piece keeps of what streams do by themselves. -/
structure Subscribes (P : Market → Prop) : Prop where
  push : ∀ x m, Alone x → P m → P (m.push x)
  setFeeds : ∀ (m : Market) (l : List State) (feed : Feed), P m → P (m.setFeeds l feed)
  streamId : ∀ (m : Market) (streamId : UInt16), P m → P { m with streamId }

namespace Subscribes

variable {P : Market → Prop} (h : Subscribes P) {m : Market}

include h

theorem emplaceBack {feed : Feed} (index : Nat) {message : UInt64 → Message}
    (hasks : ∀ id, Asks feed (message id)) (hm : P m) : P (emplaceBack feed index message m) := by
  unfold Feed.emplaceBack
  split
  · exact hm
  · exact h.push (.enqueued feed index _) _ (hasks _) (h.setFeeds _ _ _ hm)

theorem subscribeSymbol (feed : Feed) (index : Nat) (symbol : String) (hm : P m) :
    P (subscribeSymbol feed index m symbol) :=
  List.foldlRecOn _ _ hm fun _ hm _ htheme => h.emplaceBack index (fun _ => .sub htheme) hm

theorem request (index : Nat) (symbol : String) (hm : P m) : P (request index symbol m) :=
  h.emplaceBack index (fun _ => .req) hm

theorem subscribe (slicing : Slicing) (feed : Feed) (startFrom index : Nat) (hm : P m) :
    P (subscribe slicing feed startFrom m index) := by
  unfold Feed.subscribe
  split
  · exact List.foldlRecOn _ _ hm fun _ hm symbol _ => h.subscribeSymbol feed index symbol hm
  · exact hm

theorem publish (status : ConnectionStatus) (feed : Feed) (index : Nat) (hm : P m) :
    P (publish status feed index m) :=
  h.push (.feedStatus feed index status) _ trivial (h.setFeeds _ _ _ hm)

theorem onDisconnected (feed : Feed) (index : Nat) (hm : P m) : P (onDisconnected feed index m) :=
  h.setFeeds _ _ _ (h.publish _ feed index (h.push (.feedDisconnected feed index) m trivial hm))

theorem onReady (slicing : Slicing) (feed : Feed) (index : Nat) (hm : P m) :
    P (onReady slicing feed index m) :=
  h.subscribe slicing feed 0 index
    (h.publish .ready feed index (h.push (.feedReady feed index) m trivial hm))

theorem onTimer (feed : Feed) (index count : Nat) (hm : P m) : P (onTimer feed index count m) := by
  unfold Feed.onTimer
  split
  · unfold checkRequestQueue
    split
    · exact hm
    · exact List.foldlRecOn _ _ (h.setFeeds _ _ _ hm) fun m hm message _ =>
        h.push (.socketText feed index message) m trivial hm
  · exact hm

theorem create (feed : Feed) (hm : P m) : P (Controller.create feed m) := by
  have added := h.setFeeds m
    (m.feeds feed ++ [⟨.undefined, (m.streamId + 1).toUInt64 * 1000000, []⟩]) feed hm
  have created := h.push (.created feed (m.feeds feed).length (m.streamId + 1)) _ trivial
    (h.streamId _ (m.streamId + 1) added)
  cases feed <;> exact created

theorem createAll (feed : Feed) :
    ∀ (n : Nat) {s : Market}, P s → P (Controller.createAll feed n s)
  | 0, _, hs => hs
  | n + 1, _, hs => createAll feed n (h.create feed hs)

theorem subscribeAll (slicing : Slicing) (startFrom : Nat) (feed : Feed) (hm : P m) :
    P (Controller.subscribeAll slicing startFrom feed m) :=
  List.foldlRecOn _ _ hm fun _ hm index _ => h.subscribe slicing feed startFrom index hm

/-- An update with symbols, once they have been handed on and added. -/
theorem onSymbolsUpdate (slicing : Slicing) (symbols : List String)
    (hm : P (Controller.addSymbols symbols (m.push (.symbolsUpdate symbols)))) :
    P (Controller.onSymbolsUpdate slicing symbols m) :=
  h.subscribeAll slicing _ .mbpFeed
    (h.subscribeAll slicing _ .marketData (h.createAll .mbpFeed _ (h.createAll .marketData _ hm)))

end Subscribes

/-- A property that every piece of the streams keeps. -/
structure Closed (P : Market → Prop) : Prop where
  push : ∀ x m, Own x → P m → P (m.push x)
  setFeeds : ∀ (m : Market) (l : List State) (feed : Feed), P m → P (m.setFeeds l feed)
  streamId : ∀ (m : Market) (streamId : UInt16), P m → P { m with streamId }
  symbols : ∀ (m : Market) (symbols : List String), P m → P { m with symbols }
  allSymbols : ∀ (m : Market) (allSymbols : List String), P m → P { m with allSymbols }

namespace Closed

/-- A property of the history. -/
theorem of_log {P : List MarketEntry → Prop} (h : ∀ x l, Own x → P l → P (x :: l)) :
    Closed fun m => P m.log where
  push x m hx hm := h x m.log hx hm
  setFeeds _ _ feed hm := by cases feed <;> exact hm
  streamId _ _ hm := hm
  symbols _ _ hm := hm
  allSymbols _ _ hm := hm

variable {P : Market → Prop} (h : Closed P) {m : Market}

include h

theorem subscribes : Subscribes P where
  push x m hx hm := h.push x m (by cases x <;> trivial) hm
  setFeeds := h.setFeeds
  streamId := h.streamId

theorem onSymbolsUpdate (slicing : Slicing) (symbols : List String) (hm : P m) :
    P (Controller.onSymbolsUpdate slicing symbols m) :=
  h.subscribes.onSymbolsUpdate slicing symbols
    (h.symbols _ (m.symbols ++ symbols) (h.push (.symbolsUpdate symbols) m trivial hm))

theorem emplace (symbol : String) {s : List String × Market} (hs : P s.2) :
    P (Controller.emplace s symbol).2 := by
  unfold Controller.emplace
  split
  · exact hs
  · exact h.allSymbols _ _ hs

theorem onSubscribe (slicing : Slicing) (symbols : List String) (hm : P m) :
    P (Controller.onSubscribe slicing symbols m) := by
  have known : P (symbols.foldl Controller.emplace ([], m.push (.subscribed symbols))).2 :=
    List.foldlRecOn (motive := fun s : List String × Market => P s.2) symbols _
      (h.push (.subscribed symbols) m trivial hm) fun _ hs symbol _ => h.emplace symbol hs
  exact h.onSymbolsUpdate slicing _ known

end Closed

end Feed

/-! ## Symbols -/

namespace Rest

theorem dispatch_state {σ : Type} {P : σ → Prop} (raised : Option Exn) {f : σ → σ} {s : σ}
    (hs : P s) (hf : P (f s)) : P (dispatch raised f s).state := by
  cases raised with
  | none => exact hf
  | some e => exact hs

/-- What each publication and each new symbol keeps holds wherever the loop over
the items ends. -/
theorem publishItems_rule {env : MarketEnv} {t : Handling} {P : List String × Market → Prop}
    (hreference : ∀ item s, P s →
      P (s.1, s.2.push (.referenceData (referenceData env item (t.discards item.symbol)))))
    (hemplace : ∀ symbol s, P s → P (Controller.emplace s symbol)) :
    ∀ (items : List Json.SymbolsItem)
      (_ : ∀ item ∈ items, included item = true → t.discards item.symbol = false → ∀ s, P s →
        P (s.1, s.2.push (.marketStatus (marketStatus env item))))
      (i : Nat) {s : List String × Market}, P s → P (publishItems env t i items s).state
  | [], _, _, _, hs => hs
  | item :: items, hmarket, i, s, hs => by
    have rest : ∀ s, P s → P (publishItems env t (i + 1) items s).state := fun s =>
      publishItems_rule hreference hemplace items
        (fun item hi => hmarket item (List.mem_cons_of_mem _ hi)) (i + 1)
    refine Outcome.state_bind (P := P) ?_ rest
    unfold publishItem
    split
    · exact hs
    · rename_i hincluded
      refine Outcome.state_bind (P := P) (dispatch_state _ hs (hreference item s hs)) fun s hs => ?_
      split
      · exact hs
      · rename_i hdiscards
        have known := hemplace item.symbol s hs
        exact dispatch_state _ known
          (hmarket item List.mem_cons_self (by simpa using hincluded) (by simpa using hdiscards) _ known)

/-- What is done with the symbols: `P` holds while the items are published, and `I`
once new symbols are handed on. An exception ends it, and else what comes next
finds the symbols processed. -/
theorem onSymbols_rule {env : MarketEnv} {t : Handling} {symbols : Json.Symbols} {m : Market}
    {P : List String × Market → Prop} {I J : Market → Prop} {f : Market → Outcome Exn Market}
    (hreference : ∀ item s, P s →
      P (s.1, s.2.push (.referenceData (referenceData env item (t.discards item.symbol)))))
    (hemplace : ∀ symbol s, P s → P (Controller.emplace s symbol))
    (hmarket : ∀ item ∈ symbols.data, included item = true → t.discards item.symbol = false →
      ∀ s, P s → P (s.1, s.2.push (.marketStatus (marketStatus env item))))
    (hitems : ∀ s, P s → I s.2)
    (hupdate : ∀ s, P s → I (Controller.onSymbolsUpdate env.slicing s.1 s.2))
    (hthrows : ∀ m, I m → J m)
    (hprocessed : ∀ m, I m → J (f (m.push (.processed symbols t.discards))).state)
    (hm : P ([], m)) : J ((onSymbols env t symbols m).bind f).state := by
  have published := publishItems_rule hreference hemplace _ hmarket 0 hm
  have handed : I ((publishItems env t 0 symbols.data ([], m)).bind (handOn env t)).state.2 := by
    obtain ⟨s, hs, hbind⟩ | hstays :=
      (publishItems env t 0 symbols.data ([], m)).bind_cases (handOn env t)
    · rw [hs] at published
      rw [hbind]
      unfold handOn
      split
      · exact hitems s published
      · exact dispatch_state (P := fun s : List String × Market => I s.2) _ (hitems s published)
          (hupdate s published)
    · rw [hstays]
      exact hitems _ published
  unfold onSymbols
  generalize (publishItems env t 0 symbols.data ([], m)).bind (handOn env t) = o at handed
  cases o with
  | ok s => exact hprocessed _ handed
  | throws e s => exact hthrows _ handed
  | fatal s => exact hthrows _ handed

end Rest

namespace Market

/-- The state that the handler of an event leaves behind. -/
def Leaves (env : MarketEnv) (m m' : Market) : MarketEvent → Prop
  | .restConnected => m.rest.up = false ∧ m' = Rest.onConnected env m
  | .restDisconnected => m.rest.up = true ∧ m' = Rest.onDisconnected m
  | .response stage sequence response t =>
    (stage, sequence) ∈ m.requests ∧
      m' = (Rest.onResponse env stage sequence response t m).state
  | .subscribe symbols => m' = Controller.onSubscribe env.slicing symbols m
  | .feedReady feed index =>
    index < (m.feeds feed).length ∧ m' = Feed.onReady env.slicing feed index m
  | .feedDisconnected feed index =>
    index < (m.feeds feed).length ∧ m' = Feed.onDisconnected feed index m
  | .timer feed index count => m' = Feed.onTimer feed index count m
  | .requestSnapshot index symbol => m' = Feed.request index symbol m

theorem leaves_of_step {env : MarketEnv} {m m' : Market} {e : MarketEvent}
    (h : step env m e = some m') : m.halted = false ∧ Leaves env m m' e := by
  unfold step at h
  split at h
  · cases h
  · rename_i hhalted
    refine ⟨by simpa using hhalted, ?_⟩
    cases e with
    | restConnected =>
      simp only [handle, Option.ite_none_left_eq_some, Option.some.injEq] at h
      exact ⟨by simpa using h.1, h.2.symm⟩
    | restDisconnected | response | feedReady | feedDisconnected =>
      simp only [handle, Option.ite_none_right_eq_some, Option.some.injEq] at h
      exact ⟨h.1, h.2.symm⟩
    | subscribe | timer | requestSnapshot =>
      simp only [handle, Option.some.injEq] at h
      exact h.symm

/-- What `Rest` and the streams keep by themselves, a step keeps if the symbols of a
response and those of a subscription do. -/
theorem Leaves.rule {env : MarketEnv} {P : Market → Prop} {m m' : Market} {e : MarketEvent}
    (h : Leaves env m m' e) (rest : Rest.Closed P) (streams : Feed.Subscribes P)
    (hsymbols : ∀ sequence response t, e = .response .symbols sequence response t →
      P (Rest.getSymbolsAck env sequence response t m).state)
    (hsubscribe : ∀ symbols, P (Controller.onSubscribe env.slicing symbols m)) (hm : P m) : P m' := by
  cases e with
  | restConnected => exact h.2 ▸ rest.onConnected hm
  | restDisconnected => exact h.2 ▸ rest.onDisconnected hm
  | response stage sequence response t =>
    refine h.2 ▸ rest.onResponse stage sequence response t (fun hstage => ?_) hm
    subst hstage
    exact hsymbols sequence response t rfl
  | subscribe symbols => exact h ▸ hsubscribe symbols
  | feedReady feed index => exact h.2 ▸ streams.onReady env.slicing feed index hm
  | feedDisconnected feed index => exact h.2 ▸ streams.onDisconnected feed index hm
  | timer feed index count => exact h ▸ streams.onTimer feed index count hm
  | requestSnapshot index symbol => exact h ▸ streams.request index symbol hm

end Market

end RoqHtx
