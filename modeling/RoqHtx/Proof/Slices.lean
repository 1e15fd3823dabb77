import Mathlib.Data.List.ProdSigma
import RoqHtx.Impl.MarketReader
import RoqHtx.Proof.Market

/-!
# Subscriptions

While a stream is ready, every symbol of its slice has been subscribed to once
for each theme since it got ready, and no other symbol has been; every symbol is
in the slice of a stream (`subscribed_once`). What a piece of the streams' code
subscribes to is `Adds`.
-/

namespace RoqHtx

open Feed (themes isReady getSlice)

/-! ## What has been subscribed to -/

def isFeedReady (feed : Feed) (index : Nat) : MarketEntry → Bool
  | .feedReady f i => f == feed && i == index
  | _ => false

/-- The symbol and the theme of a subscription. -/
def subscriptionOf (feed : Feed) (index : Nat) : MarketEntry → Option (String × String)
  | .enqueued f i (.sub _ symbol theme _) =>
    if f = feed ∧ i = index then some (symbol, theme) else none
  | _ => none

/-- What a stream has subscribed to since it got ready, in order. -/
def subscriptions (feed : Feed) (index : Nat) (l : List MarketEntry) : List (String × String) :=
  ((since (isFeedReady feed index) l).filterMap (subscriptionOf feed index)).reverse

theorem subscriptions_cons {feed : Feed} {index : Nat} {x : MarketEntry}
    (hx : isFeedReady feed index x = false) (l : List MarketEntry) :
    subscriptions feed index (x :: l) =
      subscriptions feed index l ++ (subscriptionOf feed index x).toList :=
  reverse_filterMap_since_cons _ hx

theorem subscriptions_ready (feed : Feed) (index : Nat) (l : List MarketEntry) :
    subscriptions feed index (.feedReady feed index :: l) = [] := by
  simp [subscriptions, since, isFeedReady]

/-- Every symbol with every theme. -/
def themed (feed : Feed) (symbols : List String) : List (String × String) :=
  symbols.flatMap fun symbol => (themes feed).map (symbol, ·)

/-! ## What a piece subscribes to -/

/-- What a piece of the streams' code adds to the subscriptions, and what it
leaves alone. -/
structure Adds (new : Feed → Nat → List (String × String)) (m m' : Market) : Prop where
  symbols : m'.symbols = m.symbols
  allSymbols : m'.allSymbols = m.allSymbols
  length : ∀ feed, (m.feeds feed).length ≤ (m'.feeds feed).length
  isReady : ∀ feed index, isReady feed index m' = isReady feed index m
  subscriptions : ∀ feed index,
    subscriptions feed index m'.log = subscriptions feed index m.log ++ new feed index

namespace Adds

theorem refl (m : Market) : Adds (fun _ _ => []) m m :=
  ⟨rfl, rfl, fun _ => Nat.le_refl _, fun _ _ => rfl, fun _ _ => (List.append_nil _).symm⟩

theorem trans {new new' : Feed → Nat → List (String × String)} {a b c : Market}
    (h : Adds new a b) (h' : Adds new' b c) : Adds (fun feed index => new feed index ++ new' feed index) a c where
  symbols := h'.symbols.trans h.symbols
  allSymbols := h'.allSymbols.trans h.allSymbols
  length feed := (h.length feed).trans (h'.length feed)
  isReady feed index := (h'.isReady feed index).trans (h.isReady feed index)
  subscriptions feed index := by
    rw [h'.subscriptions, h.subscriptions, List.append_assoc]

theorem congr {new new' : Feed → Nat → List (String × String)} {m m' : Market} (h : Adds new m m')
    (hnew : ∀ feed index, new feed index = new' feed index) : Adds new' m m' :=
  ⟨h.symbols, h.allSymbols, h.length, h.isReady, fun feed index =>
    hnew feed index ▸ h.subscriptions feed index⟩

end Adds

/-- What is for one stream only. -/
def only (feed : Feed) (index : Nat) (l : List (String × String)) (f : Feed) (i : Nat) :
    List (String × String) :=
  if f = feed ∧ i = index then l else []

theorem only_append (feed : Feed) (index : Nat) (l l' : List (String × String)) (f : Feed) (i : Nat) :
    only feed index l f i ++ only feed index l' f i = only feed index (l ++ l') f i := by
  unfold only
  split <;> rfl

namespace Feed

theorem feeds_setFeeds (m : Market) (l : List State) (feed f : Feed) :
    (m.setFeeds l feed).feeds f = if f = feed then l else m.feeds f := by
  cases feed <;> cases f <;> rfl

theorem log_setFeeds (m : Market) (l : List State) (feed : Feed) : (m.setFeeds l feed).log = m.log := by
  cases feed <;> rfl

theorem symbols_setFeeds (m : Market) (l : List State) (feed : Feed) :
    (m.setFeeds l feed).symbols = m.symbols := by
  cases feed <;> rfl

theorem allSymbols_setFeeds (m : Market) (l : List State) (feed : Feed) :
    (m.setFeeds l feed).allSymbols = m.allSymbols := by
  cases feed <;> rfl

theorem length_setFeeds {m : Market} {l : List State} {feed : Feed}
    (hl : (m.feeds feed).length ≤ l.length) (f : Feed) :
    (m.feeds f).length ≤ ((m.setFeeds l feed).feeds f).length := by
  rw [feeds_setFeeds]
  split
  · rename_i hf
    exact hf ▸ hl
  · exact Nat.le_refl _

/-- A stream whose status stays as it is. -/
theorem isReady_set {m : Market} {feed : Feed} {index : Nat} {s : State}
    (h : (m.feeds feed)[index]? = some s) (s' : State)
    (hs : s'.connectionStatus = s.connectionStatus) (f : Feed) (i : Nat) :
    isReady f i (m.setFeeds ((m.feeds feed).set index s') feed) = isReady f i m := by
  unfold isReady
  rw [feeds_setFeeds]
  split
  · rename_i hf
    subst hf
    by_cases hi : index = i
    · subst hi
      have hlt : index < (m.feeds f).length := (List.getElem?_eq_some_iff.mp h).1
      rw [List.getElem?_set_self hlt, h, Option.any_some, Option.any_some, ready, ready, hs]
    · rw [List.getElem?_set_ne hi]
  · rfl

theorem exists_of_isReady {feed : Feed} {index : Nat} {m : Market} (h : isReady feed index m = true) :
    ∃ s, (m.feeds feed)[index]? = some s ∧ ready s = true :=
  (Option.any_eq_true ..).mp h

/-- A message that is put into the queue of a stream. -/
theorem emplaceBack_adds {m : Market} {feed : Feed} {index : Nat} {message : UInt64 → Message}
    {s : State} (hs : (m.feeds feed)[index]? = some s) {l : List (String × String)}
    (hl : ∀ id, (subscriptionOf feed index (.enqueued feed index (message id))).toList = l) :
    Adds (only feed index l) m (emplaceBack feed index message m) := by
  unfold emplaceBack
  rw [hs]
  refine ⟨symbols_setFeeds .., allSymbols_setFeeds .., length_setFeeds (List.length_set ..).ge,
    fun f i => ?_, fun f i => ?_⟩
  · exact isReady_set hs ⟨s.connectionStatus, s.requestId + 1, s.requestQueue ++ [message (s.requestId + 1)]⟩
      rfl f i
  show subscriptions f i (.enqueued feed index _ :: (m.setFeeds _ feed).log) = _
  rw [log_setFeeds, subscriptions_cons rfl]
  refine congrArg _ ?_
  unfold only
  split
  · rename_i hown
    obtain ⟨rfl, rfl⟩ := hown
    exact hl _
  · rename_i hother
    have hne : ¬(feed = f ∧ index = i) := fun h => hother ⟨h.1.symm, h.2.symm⟩
    cases message (s.requestId + 1) with
    | sub source symbol theme id => simp [subscriptionOf, hne]
    | req => rfl

/-- A loop of a stream. -/
theorem foldl_adds {β : Type} {f : Market → β → Market} {feed : Feed} {index : Nat}
    {l : β → List (String × String)}
    (h : ∀ m b, isReady feed index m = true → Adds (only feed index (l b)) m (f m b)) :
    ∀ (items : List β) {m : Market}, isReady feed index m = true →
      Adds (only feed index (items.flatMap l)) m (items.foldl f m)
  | [], m, _ => (Adds.refl m).congr fun _ _ => by simp [only]
  | b :: items, m, hm => by
    have first := h m b hm
    have rest := foldl_adds h items ((first.isReady feed index).trans hm)
    exact (first.trans rest).congr fun f i => only_append feed index (l b) (items.flatMap l) f i

theorem subscribeSymbol_adds {feed : Feed} {index : Nat} {m : Market} (symbol : String)
    (h : isReady feed index m = true) :
    Adds (only feed index ((themes feed).map (symbol, ·))) m (subscribeSymbol feed index m symbol) := by
  rw [List.map_eq_flatMap]
  refine foldl_adds (fun m theme hm => ?_) (themes feed) h
  obtain ⟨s, hs, -⟩ := exists_of_isReady hm
  exact emplaceBack_adds hs fun id => by simp [subscriptionOf]

theorem subscribeSymbols_adds {feed : Feed} {index : Nat} {m : Market} (symbols : List String)
    (h : isReady feed index m = true) :
    Adds (only feed index (themed feed symbols)) m (subscribeSymbols feed index symbols m) :=
  foldl_adds (fun _ symbol hm => subscribeSymbol_adds symbol hm) symbols h

/-- What streams subscribe to that are ready. -/
def due (slicing : Slicing) (startFrom : Nat) (m : Market) (feed : Feed) (index : Nat) :
    List (String × String) :=
  if isReady feed index m then themed feed (getSlice slicing index startFrom m.symbols) else []

theorem subscribe_adds (slicing : Slicing) (feed : Feed) (startFrom : Nat) (m : Market) (index : Nat) :
    Adds (only feed index (due slicing startFrom m feed index)) m
      (subscribe slicing feed startFrom m index) := by
  unfold subscribe due
  split
  · exact subscribeSymbols_adds _ ‹_›
  · exact (Adds.refl m).congr fun _ _ => by simp [only]

end Feed

namespace Controller

open Feed (due)

theorem due_of_adds {new : Feed → Nat → List (String × String)} {m m' : Market} (h : Adds new m m')
    (slicing : Slicing) (startFrom : Nat) : due slicing startFrom m' = due slicing startFrom m := by
  funext feed index
  rw [due, due, h.isReady, h.symbols]

/-- The loop over the streams of a kind. -/
theorem subscribeRange_adds (slicing : Slicing) (startFrom : Nat) (feed : Feed) (m : Market) (n : Nat) :
    Adds (fun f i => if f = feed ∧ i < n then due slicing startFrom m f i else []) m
      ((List.range n).foldl (Feed.subscribe slicing feed startFrom) m) := by
  induction n with
  | zero => exact (Adds.refl m).congr fun _ _ => by simp
  | succ n ih =>
    rw [List.range_succ, List.foldl_append]
    have last := Feed.subscribe_adds slicing feed startFrom
      ((List.range n).foldl (Feed.subscribe slicing feed startFrom) m) n
    rw [due_of_adds ih] at last
    refine (ih.trans last).congr fun f i => ?_
    by_cases hf : f = feed
    · subst hf
      rcases Nat.lt_trichotomy i n with hi | rfl | hi
      · have : i < n + 1 := by omega
        have : i ≠ n := by omega
        simp [only, *]
      · simp [only]
      · have : ¬i < n := by omega
        have : ¬i < n + 1 := by omega
        have : i ≠ n := by omega
        simp [only, *]
    · simp [only, hf]

theorem subscribeAll_adds (slicing : Slicing) (startFrom : Nat) (feed : Feed) (m : Market) :
    Adds (fun f i => if f = feed then due slicing startFrom m f i else []) m
      (subscribeAll slicing startFrom feed m) := by
  refine (subscribeRange_adds slicing startFrom feed m _).congr fun f i => ?_
  by_cases hf : f = feed
  · subst hf
    by_cases hi : i < (m.feeds f).length
    · simp [hi]
    · have hnone : (m.feeds f)[i]? = none := List.getElem?_eq_none (Nat.le_of_not_lt hi)
      simp [due, Feed.isReady, hnone]
  · simp [hf]

end Controller

/-! ## The invariant -/

/-- The symbols are all different and known, there is a stream for every slice, and
ready streams have subscribed to the symbols of their slice. -/
structure Subscribed (slicing : Slicing) (m : Market) : Prop where
  nodup : m.symbols.Nodup
  known : ∀ symbol ∈ m.symbols, symbol ∈ m.allSymbols
  streams : m.symbols ≠ [] → ∀ feed, slicing.size m.symbols.length ≤ (m.feeds feed).length
  each : ∀ feed index, isReady feed index m = true →
    subscriptions feed index m.log = themed feed (getSlice slicing index 0 m.symbols)

theorem themed_append (feed : Feed) (l l' : List String) :
    themed feed (l ++ l') = themed feed l ++ themed feed l' := List.flatMap_append

/-- An entry that is no subscription, and does not make a stream ready. -/
def Unrelated : MarketEntry → Prop
  | .feedReady _ _ | .enqueued _ _ (.sub _ _ _ _) => False
  | _ => True

theorem subscriptions_unrelated {x : MarketEntry} (hx : Unrelated x) (feed : Feed) (index : Nat)
    (l : List MarketEntry) : subscriptions feed index (x :: l) = subscriptions feed index l := by
  have hready : isFeedReady feed index x = false := by
    cases x with
    | feedReady => exact hx.elim
    | _ => rfl
  have hnone : subscriptionOf feed index x = none := by
    cases x with
    | enqueued f i message =>
      cases message with
      | sub => exact hx.elim
      | req => rfl
    | _ => rfl
  rw [subscriptions_cons hready, hnone, Option.toList_none, List.append_nil]

namespace Subscribed

variable {slicing : Slicing} {m : Market}

theorem push (h : Subscribed slicing m) {x : MarketEntry} (hx : Unrelated x) :
    Subscribed slicing (m.push x) where
  nodup := h.nodup
  known := h.known
  streams := h.streams
  each feed index hready := by
    rw [Market.push, subscriptions_unrelated hx]
    exact h.each feed index hready

/-- A piece that subscribes to nothing. -/
theorem mono {m' : Market} (h : Subscribed slicing m) (hsymbols : m'.symbols = m.symbols)
    (hknown : ∀ symbol ∈ m.allSymbols, symbol ∈ m'.allSymbols)
    (hlength : ∀ feed, (m.feeds feed).length ≤ (m'.feeds feed).length)
    (hready : ∀ feed index, isReady feed index m' = true → isReady feed index m = true)
    (hlog : ∀ feed index, isReady feed index m' = true →
      subscriptions feed index m'.log = subscriptions feed index m.log) : Subscribed slicing m' where
  nodup := hsymbols ▸ h.nodup
  known symbol hs := hknown symbol (h.known symbol (hsymbols ▸ hs))
  streams hne feed := by
    rw [hsymbols] at hne ⊢
    exact (h.streams hne feed).trans (hlength feed)
  each feed index hr := by
    rw [hlog feed index hr, hsymbols]
    exact h.each feed index (hready feed index hr)

theorem closed (slicing : Slicing) : Rest.Closed (Subscribed slicing) where
  push x m hx h := h.push (by cases x <;> trivial)
  rest m rest h := h.mono rfl (fun _ => id) (fun _ => Nat.le_refl _) (fun _ _ hr => hr) fun _ _ _ => rfl
  requests m requests h := h.mono rfl (fun _ => id) (fun _ => Nat.le_refl _) (fun _ _ hr => hr) fun _ _ _ => rfl
  halted m halted h := h.mono rfl (fun _ => id) (fun _ => Nat.le_refl _) (fun _ _ hr => hr) fun _ _ _ => rfl

end Subscribed

namespace Controller

open Feed (due)

/-! ## New symbols -/

theorem feeds_create (feed f : Feed) (m : Market) :
    (create feed m).feeds f =
      if f = feed then m.feeds f ++ [⟨.undefined, (m.streamId + 1).toUInt64 * 1000000, []⟩]
      else m.feeds f := by
  cases feed <;> cases f <;> rfl

theorem length_create (feed f : Feed) (m : Market) :
    ((create feed m).feeds f).length = (m.feeds f).length + if f = feed then 1 else 0 := by
  rw [feeds_create]
  split
  · exact List.length_append
  · rfl

/-- New streams are not ready. -/
theorem create_adds (feed : Feed) (m : Market) : Adds (fun _ _ => []) m (create feed m) := by
  refine ⟨by cases feed <;> rfl, by cases feed <;> rfl, fun f => ?_, fun f i => ?_, fun f i => ?_⟩
  · rw [length_create]
    exact Nat.le_add_right ..
  · unfold isReady
    rw [feeds_create]
    split
    · rcases Nat.lt_trichotomy i (m.feeds f).length with hi | hi | hi
      · rw [List.getElem?_append_left hi]
      · subst hi
        simp [Feed.ready]
      · rw [List.getElem?_eq_none (by simp; omega), List.getElem?_eq_none (by omega)]
    · rfl
  · rw [List.append_nil]
    exact subscriptions_unrelated (x := .created feed _ _) trivial f i m.log

theorem createAll_adds (feed : Feed) : ∀ (n : Nat) (m : Market),
    Adds (fun _ _ => []) m (createAll feed n m)
  | 0, m => .refl m
  | n + 1, m => (create_adds feed m).trans (createAll_adds feed n (create feed m))

theorem length_createAll (feed : Feed) : ∀ (n : Nat) (m : Market),
    ((createAll feed n m).feeds feed).length = (m.feeds feed).length + n
  | 0, _ => rfl
  | n + 1, m => by
    rw [createAll, length_createAll feed n, length_create, if_pos rfl]
    omega

/-- There is a stream for every slice. -/
theorem le_length_ensureSymbolSlices (size : Nat) (m : Market) (feed : Feed) :
    size ≤ ((ensureSymbolSlices size m).feeds feed).length := by
  cases feed with
  | marketData =>
    refine le_trans ?_ ((createAll_adds .mbpFeed _ (ensureFeed size .marketData m)).length .marketData)
    rw [ensureFeed, length_createAll]
    omega
  | mbpFeed =>
    rw [ensureSymbolSlices, ensureFeed, length_createAll]
    omega

theorem ensureSymbolSlices_adds (size : Nat) (m : Market) :
    Adds (fun _ _ => []) m (ensureSymbolSlices size m) :=
  (createAll_adds .marketData _ m).trans (createAll_adds .mbpFeed _ _)

/-- An update with new symbols, that are known already. -/
theorem onSymbolsUpdate_subscribed {slicing : Slicing} {symbols : List String} {m : Market}
    (h : Subscribed slicing m) (hnodup : symbols.Nodup)
    (hnew : ∀ symbol ∈ symbols, symbol ∈ m.allSymbols ∧ symbol ∉ m.symbols) :
    Subscribed slicing (onSymbolsUpdate slicing symbols m) := by
  have logged : Subscribed slicing (m.push (.symbolsUpdate symbols)) := h.push trivial
  let added := addSymbols symbols (m.push (.symbolsUpdate symbols))
  have slices := ensureSymbolSlices_adds (slicing.size added.symbols.length) added
  have first := subscribeAll_adds slicing m.symbols.length .marketData
    (ensureSymbolSlices (slicing.size added.symbols.length) added)
  have second := subscribeAll_adds slicing m.symbols.length .mbpFeed
    (subscribeAll slicing m.symbols.length .marketData
      (ensureSymbolSlices (slicing.size added.symbols.length) added))
  rw [due_of_adds first] at second
  rw [due_of_adds slices] at first second
  have whole := (slices.trans first).trans second
  change Adds _ added (onSymbolsUpdate slicing symbols m) at whole
  refine ⟨?_, ?_, fun _ feed => ?_, fun feed index hready => ?_⟩
  · rw [whole.symbols]
    refine List.nodup_append.mpr ⟨h.nodup, hnodup, fun s hs t ht hst => ?_⟩
    exact (hnew t ht).2 (hst ▸ hs)
  · rw [whole.symbols, whole.allSymbols]
    intro symbol hs
    rcases List.mem_append.mp hs with hs | hs
    · exact h.known symbol hs
    · exact (hnew symbol hs).1
  · rw [whole.symbols]
    exact (le_length_ensureSymbolSlices _ added feed).trans ((first.trans second).length feed)
  · rw [whole.isReady] at hready
    rw [whole.subscriptions, whole.symbols]
    have before := logged.each feed index hready
    have hdue : due slicing m.symbols.length added feed index =
        themed feed (getSlice slicing index m.symbols.length (m.symbols ++ symbols)) := by
      simp only [due, hready, if_true]
      rfl
    show subscriptions feed index (m.push (.symbolsUpdate symbols)).log ++ _ =
      themed feed (slicing.members index 0 (m.symbols ++ symbols))
    rw [before, Slicing.members_append, themed_append]
    refine congrArg _ ?_
    cases feed <;> simp [hdue, getSlice]

/-- Symbols that have just become known, and have not been handed on. -/
structure Fresh (slicing : Slicing) (s : List String × Market) : Prop where
  subscribed : Subscribed slicing s.2
  nodup : s.1.Nodup
  known : ∀ symbol ∈ s.1, symbol ∈ s.2.allSymbols ∧ symbol ∉ s.2.symbols

theorem Fresh.push {slicing : Slicing} {s : List String × Market} (h : Fresh slicing s)
    {x : MarketEntry} (hx : Unrelated x) : Fresh slicing (s.1, s.2.push x) :=
  ⟨h.subscribed.push hx, h.nodup, h.known⟩

theorem emplace_fresh {slicing : Slicing} {s : List String × Market} (h : Fresh slicing s)
    (symbol : String) : Fresh slicing (emplace s symbol) := by
  unfold emplace
  split
  · exact h
  · rename_i hnew
    refine ⟨?_, ?_, fun t ht => ?_⟩
    · exact h.subscribed.mono rfl (fun _ => List.mem_cons_of_mem symbol) (fun _ => Nat.le_refl _)
        (fun _ _ hr => hr) fun _ _ _ => rfl
    · refine List.nodup_append.mpr ⟨h.nodup, List.nodup_singleton symbol, fun s hs t ht hst => ?_⟩
      rw [List.mem_singleton] at ht
      exact hnew (ht ▸ hst ▸ (h.known s hs).1)
    · rcases List.mem_append.mp ht with ht | ht
      · exact ⟨List.mem_cons_of_mem symbol (h.known t ht).1, (h.known t ht).2⟩
      · rw [List.mem_singleton] at ht
        subst ht
        exact ⟨List.mem_cons_self, fun hs => hnew (h.subscribed.known t hs)⟩

theorem onSubscribe_subscribed {slicing : Slicing} {m : Market} (h : Subscribed slicing m)
    (symbols : List String) : Subscribed slicing (onSubscribe slicing symbols m) := by
  have start : Fresh slicing ([], m.push (.subscribed symbols)) :=
    ⟨h.push trivial, List.nodup_nil, fun _ hs => absurd hs List.not_mem_nil⟩
  have fresh : Fresh slicing (symbols.foldl emplace ([], m.push (.subscribed symbols))) :=
    List.foldlRecOn symbols emplace start fun _ h symbol _ => emplace_fresh h symbol
  exact onSymbolsUpdate_subscribed fresh.subscribed fresh.nodup fresh.known

end Controller

namespace Rest

open Controller (Fresh)

theorem onSymbols_subscribed {env : MarketEnv} (t : Handling) (symbols : Json.Symbols) {m : Market}
    (h : Subscribed env.slicing m) : Subscribed env.slicing (onSymbols env t symbols m).state := by
  have start : Fresh env.slicing ([], m) :=
    ⟨h, List.nodup_nil, fun _ hs => absurd hs List.not_mem_nil⟩
  rw [← Outcome.bind_ok (onSymbols env t symbols m)]
  exact onSymbols_rule (P := Fresh env.slicing) (I := Subscribed env.slicing)
    (fun _ _ hs => hs.push trivial) (fun symbol _ hs => Controller.emplace_fresh hs symbol)
    (fun _ _ _ _ _ hs => hs.push trivial) (fun _ hs => hs.subscribed)
    (fun _ hs => Controller.onSymbolsUpdate_subscribed hs.subscribed hs.nodup hs.known)
    (fun _ hm => hm) (fun _ hm => hm.push trivial) start

end Rest

/-! ## Streams -/

namespace Feed

theorem isReady_modify_self (m : Market) (feed : Feed) (index : Nat) (g : State → State) :
    isReady feed index (m.setFeeds ((m.feeds feed).modify index g) feed) =
      ((m.feeds feed)[index]?).any fun s => ready (g s) := by
  rw [isReady, feeds_setFeeds, if_pos rfl, List.getElem?_modify_eq]
  cases (m.feeds feed)[index]? <;> rfl

theorem isReady_modify_other (m : Market) {feed f : Feed} {index i : Nat} (g : State → State)
    (h : ¬(f = feed ∧ i = index)) :
    isReady f i (m.setFeeds ((m.feeds feed).modify index g) feed) = isReady f i m := by
  unfold isReady
  rw [feeds_setFeeds]
  split
  · rename_i hf
    subst hf
    have hi : index ≠ i := fun hi => h ⟨rfl, hi.symm⟩
    rw [List.getElem?_modify_ne _ _ hi]
  · rfl

theorem isReady_publish_self (status : ConnectionStatus) (feed : Feed) (index : Nat) (m : Market) :
    isReady feed index (publish status feed index m) =
      ((m.feeds feed)[index]?).any fun _ => status == .ready :=
  isReady_modify_self ..

theorem isReady_publish_other (status : ConnectionStatus) {feed f : Feed} {index i : Nat}
    (h : ¬(f = feed ∧ i = index)) (m : Market) :
    isReady f i (publish status feed index m) = isReady f i m :=
  isReady_modify_other m _ h

variable {slicing : Slicing} {m : Market}

/-- A change to a stream that does not make it ready. -/
theorem setFeeds_subscribed (h : Subscribed slicing m) {feed : Feed} {l : List State}
    (hl : (m.feeds feed).length ≤ l.length)
    (hready : ∀ f i, isReady f i (m.setFeeds l feed) = true → isReady f i m = true) :
    Subscribed slicing (m.setFeeds l feed) := by
  refine h.mono (symbols_setFeeds ..) (fun symbol hs => ?_) (length_setFeeds hl) hready
    fun f i _ => by rw [log_setFeeds]
  rwa [allSymbols_setFeeds]

theorem onDisconnected_subscribed (h : Subscribed slicing m) (feed : Feed) (index : Nat) :
    Subscribed slicing (onDisconnected feed index m) := by
  have logged : Subscribed slicing (m.push (.feedDisconnected feed index)) := h.push trivial
  have published : Subscribed slicing
      (publish .disconnected feed index (m.push (.feedDisconnected feed index))) := by
    refine (setFeeds_subscribed logged (List.length_modify ..).ge fun f i hr => ?_).push trivial
    change isReady f i (publish .disconnected feed index (m.push (.feedDisconnected feed index))) = true
      at hr
    by_cases hown : f = feed ∧ i = index
    · obtain ⟨rfl, rfl⟩ := hown
      rw [isReady_publish_self] at hr
      obtain ⟨s, -, hs⟩ := (Option.any_eq_true ..).mp hr
      cases hs
    · rwa [isReady_publish_other _ hown] at hr
  refine setFeeds_subscribed published (List.length_modify ..).ge fun f i hr => ?_
  by_cases hown : f = feed ∧ i = index
  · obtain ⟨rfl, rfl⟩ := hown
    rwa [isReady_modify_self] at hr
  · rwa [isReady_modify_other _ _ hown] at hr

/-- A stream that has just got ready has subscribed to nothing yet. -/
theorem subscriptions_onReady (feed f : Feed) (index i : Nat) (m : Market) :
    subscriptions f i (publish .ready feed index (m.push (.feedReady feed index))).log =
      if f = feed ∧ i = index then [] else subscriptions f i m.log := by
  show subscriptions f i (.feedStatus feed index .ready :: (Market.setFeeds _ _ _).log) = _
  rw [subscriptions_unrelated (x := .feedStatus feed index .ready) trivial, log_setFeeds]
  show subscriptions f i (.feedReady feed index :: m.log) = _
  split
  · rename_i hown
    obtain ⟨rfl, rfl⟩ := hown
    exact subscriptions_ready f i m.log
  · rename_i hother
    have hne : isFeedReady f i (.feedReady feed index) = false := by
      simp only [isFeedReady, Bool.and_eq_false_imp, beq_iff_eq, beq_eq_false_iff_ne]
      exact fun hf hi => hother ⟨hf.symm, hi.symm⟩
    rw [subscriptions_cons hne]
    exact List.append_nil _

/-- A stream that gets ready subscribes to all its symbols. -/
theorem onReady_subscribed (h : Subscribed slicing m) {feed : Feed} {index : Nat}
    (hindex : index < (m.feeds feed).length) : Subscribed slicing (onReady slicing feed index m) := by
  let published := publish .ready feed index (m.push (.feedReady feed index))
  have adds := subscribe_adds slicing feed 0 published index
  have hsymbols : published.symbols = m.symbols := symbols_setFeeds ..
  have hready : isReady feed index published = true := by
    have hs : (m.feeds feed)[index]? = some (m.feeds feed)[index] := List.getElem?_eq_getElem hindex
    rw [isReady_publish_self]
    show ((m.feeds feed)[index]?).any _ = true
    rw [hs]
    rfl
  refine ⟨?_, fun symbol hs => ?_, fun hne f => ?_, fun f i hr => ?_⟩
  · rw [onReady, adds.symbols, hsymbols]
    exact h.nodup
  · rw [onReady, adds.symbols, hsymbols] at hs
    rw [onReady, adds.allSymbols]
    show symbol ∈ (Market.setFeeds _ _ _).allSymbols
    rw [allSymbols_setFeeds]
    exact h.known symbol hs
  · rw [onReady, adds.symbols, hsymbols] at hne ⊢
    have hpublished : (m.feeds f).length ≤ (published.feeds f).length :=
      length_setFeeds (m := m.push (.feedReady feed index)) (List.length_modify ..).ge f
    exact ((h.streams hne f).trans hpublished).trans (adds.length f)
  · rw [onReady, adds.isReady] at hr
    rw [onReady, adds.subscriptions, adds.symbols, subscriptions_onReady, hsymbols]
    by_cases hown : f = feed ∧ i = index
    · obtain ⟨rfl, rfl⟩ := hown
      simp [only, due, hready, hsymbols]
    · have hbefore : isReady f i m = true := by
        rwa [isReady_publish_other _ hown] at hr
      rw [if_neg hown, only, if_neg hown, List.append_nil]
      exact h.each f i hbefore

theorem onTimer_subscribed (h : Subscribed slicing m) (feed : Feed) (index count : Nat) :
    Subscribed slicing (onTimer feed index count m) := by
  unfold onTimer
  split
  · unfold checkRequestQueue
    split
    · exact h
    · rename_i s hs
      refine List.foldlRecOn _ _ (setFeeds_subscribed h (List.length_set ..).ge fun f i hr => ?_)
        fun _ h _ _ => h.push trivial
      exact (isReady_set hs { s with requestQueue := s.requestQueue.drop count } rfl f i) ▸ hr
  · exact h

theorem request_subscribed (h : Subscribed slicing m) (index : Nat) (symbol : String) :
    Subscribed slicing (request index symbol m) := by
  cases hs : (m.feeds .mbpFeed)[index]? with
  | none =>
    have nothing : request index symbol m = m := by
      unfold request emplaceBack
      rw [hs]
    rwa [nothing]
  | some s =>
    have adds : Adds (only .mbpFeed index []) m (request index symbol m) :=
      emplaceBack_adds hs fun id => rfl
    refine h.mono adds.symbols (fun _ hk => adds.allSymbols ▸ hk) adds.length
      (fun f i hr => adds.isReady f i ▸ hr) fun f i _ => ?_
    rw [adds.subscriptions]
    simp [only]

end Feed

/-! ## Runs -/

/-- Every symbol of the slice of a ready stream has been subscribed to once for
each theme, and nothing else has; no symbol is in two slices, or twice in one, and
every symbol is in the slice of some stream. -/
structure SubscribedOnce (slicing : Slicing) (m : Market) : Prop where
  once : ∀ feed index, isReady feed index m = true → ∀ symbol theme,
    (subscriptions feed index m.log).count (symbol, theme) =
      if symbol ∈ getSlice slicing index 0 m.symbols ∧ theme ∈ themes feed then 1 else 0
  nodup : ∀ index, (getSlice slicing index 0 m.symbols).Nodup
  disjoint : ∀ index other, index ≠ other → ∀ symbol ∈ getSlice slicing index 0 m.symbols,
    symbol ∉ getSlice slicing other 0 m.symbols
  covered : ∀ feed, ∀ symbol ∈ m.symbols, ∃ index < (m.feeds feed).length,
    symbol ∈ getSlice slicing index 0 m.symbols

theorem Subscribed.once {slicing : Slicing} {m : Market} (h : Subscribed slicing m) :
    SubscribedOnce slicing m where
  once feed index hready symbol theme := by
    have hthemes : (themes feed).Nodup := by cases feed <;> decide
    have hnodup : (themed feed (getSlice slicing index 0 m.symbols)).Nodup :=
      (Slicing.members_nodup h.nodup).product hthemes
    have hmem : (symbol, theme) ∈ themed feed (getSlice slicing index 0 m.symbols) ↔
        symbol ∈ getSlice slicing index 0 m.symbols ∧ theme ∈ themes feed := List.mem_product
    rw [h.each feed index hready, hnodup.count]
    simp only [hmem]
  nodup _ := Slicing.members_nodup h.nodup
  disjoint _ _ hne _ hs := Slicing.not_mem_members h.nodup hne hs
  covered feed symbol hs := by
    obtain ⟨index, hindex, hmem⟩ := Slicing.exists_mem_members (s := slicing) hs
    exact ⟨index, hindex.trans_le (h.streams (List.ne_nil_of_mem hs) feed), hmem⟩

namespace Market

theorem Leaves.subscribed {env : MarketEnv} {m m' : Market} {e : MarketEvent}
    (h : Leaves env m m' e) (hm : Subscribed env.slicing m) : Subscribed env.slicing m' := by
  have closed := Subscribed.closed env.slicing
  cases e with
  | restConnected => exact h.2 ▸ closed.onConnected hm
  | restDisconnected => exact h.2 ▸ closed.onDisconnected hm
  | response stage sequence response t =>
    have hsymbols : Subscribed env.slicing (Rest.getSymbolsAck env sequence response t m).state :=
      closed.ack (fun symbols m hm => Rest.onSymbols_subscribed t symbols hm) sequence response t hm
    exact h.2 ▸ closed.onResponse stage sequence response t (fun _ => hsymbols) hm
  | subscribe symbols => exact h ▸ Controller.onSubscribe_subscribed hm symbols
  | feedReady feed index => exact h.2 ▸ Feed.onReady_subscribed hm h.1
  | feedDisconnected feed index => exact h.2 ▸ Feed.onDisconnected_subscribed hm feed index
  | timer feed index count => exact h ▸ Feed.onTimer_subscribed hm feed index count
  | requestSnapshot index symbol => exact h ▸ Feed.request_subscribed hm index symbol

theorem subscribed_reachable {env : MarketEnv} {m : Market} (h : (market env).Reachable m) :
    Subscribed env.slicing m := by
  have init : Subscribed env.slicing (market env).init := by
    refine ⟨List.nodup_nil, fun _ hs => absurd hs List.not_mem_nil, fun hne => absurd rfl hne,
      fun feed index hready => ?_⟩
    cases feed <;> cases hready
  exact h.invariant init fun _ _ _ hs _ hstep => (leaves_of_step hstep).2.subscribed hs

/-- In every state reached, the streams that are ready have subscribed to their
slice, once. -/
theorem subscribed_once (env : MarketEnv) (m : Market) (h : (market env).Reachable m) :
    SubscribedOnce env.slicing m :=
  (subscribed_reachable h).once

/-- Streams get ready before, between and after updates with some of the same
symbols. -/
theorem subscribed_once_overlapping : ∃ m : Market,
    m.symbols = ["btcusdt", "ethusdt", "xrpusdt"] ∧
      (subscriptions .marketData 0 m.log).length = 8 ∧
      (subscriptions .mbpFeed 1 m.log).length = 1 ∧ SubscribedOnce Reader.marketEnv.slicing m := by
  obtain ⟨m, hm, hsymbols, hmarketData, hmbpFeed⟩ := Machine.exists_reach
    (M := market Reader.marketEnv) (C := fun _ _ => True)
    (P := fun m => m.symbols = ["btcusdt", "ethusdt", "xrpusdt"] ∧
      (subscriptions .marketData 0 m.log).length = 8 ∧
        (subscriptions .mbpFeed 1 m.log).length = 1)
    ([.subscribe ["btcusdt", "btcusdt"], .feedReady .marketData 0, .restConnected] ++
      Reader.symbolsDownload 1 Reader.openBody ++
      [.feedDisconnected .marketData 0, .subscribe ["ethusdt", "xrpusdt"], .feedReady .mbpFeed 1,
        .feedReady .marketData 0, .requestSnapshot 1 "xrpusdt", .timer .marketData 0 3])
    (by decide +kernel)
  exact ⟨m, hsymbols, hmarketData, hmbpFeed, subscribed_once Reader.marketEnv m hm⟩

end Market

end RoqHtx
