import RoqHtx.Framework.Simulation
import RoqHtx.Impl.Book
import RoqHtx.Proof.Books
import RoqHtx.Proof.Streams

/-!
# Symbols are apart

The sequencers of all the symbols share the streams, their queues and the list of
what is published. What all of that says of one symbol is the book of that symbol
(`Books.bookOf`), and it is what the symbol's own updates and snapshots, in their
order, make of a book by itself (`Books.separated`).
-/

namespace RoqHtx.Books

open Sequencer (Call Reply)

variable {σ : Type}

/-! ## The book of a symbol -/

/-- The stream at which a snapshot is requested. -/
def requestFor (symbol : String) : MarketEntry → Option Nat
  | .enqueued _ index (.req _ s _ _) => if s = symbol then some index else none
  | _ => none

/-- At which streams a snapshot has been requested, newest first. -/
def requestsFor (symbol : String) (l : List MarketEntry) : List Nat := l.filterMap (requestFor symbol)

/-- What is known of one symbol. -/
def bookOf (symbol : String) (s : Books σ) : Book σ where
  sequencer := s.sequencers symbol
  published := s.published.filter (·.2.symbol = symbol)
  requested := requestsFor symbol s.market.log

/-- What an event tells the book of a symbol. -/
def eventsFor (symbol : String) : BooksEvent → List BookEvent
  | .market _ => []
  | .mbp index mbp => if Parser.extractSymbol mbp.ch = symbol then [.update index mbp] else []
  | .mbpSnapshot index mbpSnapshot =>
    if Parser.extractSymbol mbpSnapshot.rep = symbol then [.snapshot index mbpSnapshot] else []

/-! ## The streams -/

theorem requestsFor_cons {symbol : String} {x : MarketEntry} (hx : requestFor symbol x = none)
    (l : List MarketEntry) : requestsFor symbol (x :: l) = requestsFor symbol l :=
  List.filterMap_cons_none hx

/-- The streams by themselves request nothing. -/
theorem requestsFor_operations (symbol : String) (l : List Nat) :
    Feed.Operations fun m => requestsFor symbol m.log = l where
  push x m hx hm := (requestsFor_cons (by cases x <;> first | rfl | exact hx.elim) m.log).trans hm
  rest _ _ hm := hm
  requests _ _ hm := hm
  halted _ _ hm := hm
  symbols _ _ hm := hm
  allSymbols _ _ hm := hm
  getReady feed index m hm := by
    rw [Feed.log_publish, requestsFor_cons rfl]
    exact (requestsFor_cons rfl m.log).trans hm
  subscribe feed index s theme m _ hm := by
    cases hs : (m.feeds feed)[index]? with
    | none =>
      unfold Feed.emplaceBack
      rw [hs]
      exact hm
    | some state =>
      rw [Feed.log_emplaceBack hs, requestsFor_cons rfl]
      exact hm
  checkRequestQueue feed index count m _ hm := by
    unfold Feed.checkRequestQueue
    split
    · exact hm
    · refine List.foldlRecOn (motive := fun m : Market => requestsFor symbol m.log = l) _ _ ?_
        fun _ hm _ _ => (requestsFor_cons rfl _).trans hm
      rw [Feed.log_setFeeds]
      exact hm
  onDisconnected feed index m hm := by
    rw [Feed.log_onDisconnected, requestsFor_cons rfl, requestsFor_cons rfl]
    exact hm
  create _ m hm := (requestsFor_cons rfl m.log).trans hm

theorem requestsFor_request {m : Market} {index : Nat} (hindex : index < m.mbpFeed.length)
    (symbol t : String) :
    requestsFor t (Feed.request index symbol m).log =
      if t = symbol then index :: requestsFor t m.log else requestsFor t m.log := by
  have hstate : (m.feeds .mbpFeed)[index]? = some m.mbpFeed[index] := List.getElem?_eq_getElem hindex
  rw [Feed.request, Feed.log_emplaceBack hstate]
  split
  · rename_i ht
    exact List.filterMap_cons_some (by simp [requestFor, ht])
  · rename_i ht
    exact requestsFor_cons (by simp [requestFor, Ne.symm ht]) m.log

/-! ## Handlers -/

/-- Two states, of which one handles something for a symbol: its book is changed,
and no other one. -/
def Changes (symbol : String) (f : Book σ → Book σ) (s s' : Books σ) : Prop :=
  ∀ t, bookOf t s' = if t = symbol then f (bookOf t s) else bookOf t s

namespace Changes

variable {s s' s'' : Books σ} {symbol : String} {f g : Book σ → Book σ} {index : Nat}

theorem refl (symbol : String) (s : Books σ) : Changes symbol id s s := fun t => by
  split <;> rfl

theorem trans (h : Changes symbol f s s') (h' : Changes symbol g s' s'') :
    Changes symbol (g ∘ f) s s'' := fun t => by
  rw [h' t, h t]
  split <;> rfl

theorem request (hindex : index < s.market.mbpFeed.length) :
    Changes symbol (Book.request index) s (request index symbol s) := fun t => by
  have hrequests := requestsFor_request hindex symbol t
  unfold bookOf
  rw [show (Books.request index symbol s).market = Feed.request index symbol s.market from rfl,
    hrequests]
  split <;> rfl

theorem publish {update : MarketByPriceUpdate} (hupdate : update.symbol = symbol) :
    Changes symbol (Book.publish index update) s (publish index update s) := fun t => by
  unfold bookOf
  split
  · rename_i ht
    simp [Books.publish, Book.publish, hupdate, ht]
  · rename_i ht
    simp [Books.publish, hupdate, Ne.symm ht]

theorem setSequencer (sequencer : σ) :
    Changes symbol (fun b => { b with sequencer }) s (setSequencer symbol sequencer s) := fun t => by
  show Book.mk (Function.update s.sequencers symbol sequencer t) _ _ = _
  split
  · rename_i ht
    rw [ht, Function.update_self]
    rfl
  · rename_i ht
    rw [Function.update_of_ne ht]
    rfl

variable (env : BooksEnv) {published : Call MBPUpdate → Option MarketByPriceUpdate}

theorem call (hpublished : ∀ call update, published call = some update → update.symbol = symbol)
    (hindex : index < s.market.mbpFeed.length) (call : Call MBPUpdate) :
    Changes symbol (fun b => Book.onCall env index published b call) s
      (onCall env index symbol published s call) := by
  have publishes : ∀ call : Call MBPUpdate,
      Changes symbol (fun b => (published call).elim b fun update => Book.publish index update b) s
        ((published call).elim s fun update => Books.publish index update s) := by
    intro call
    cases hcall : published call with
    | none => exact .refl symbol s
    | some update => exact .publish (hpublished call update hcall)
  cases call with
  | publishUpdate bids asks => exact publishes (.publishUpdate bids asks)
  | publishSnapshot bids asks sequence last => exact publishes (.publishSnapshot bids asks sequence last)
  | requestSnapshot retries =>
    rw [onCall, requestSnapshot]
    by_cases hretries : env.mbpRequestMaxRetries.toNat < retries
    · simp only [Book.onCall, hretries, if_true]
      exact .refl symbol s
    · simp only [Book.onCall, hretries, if_false]
      exact .request hindex

theorem calls (hpublished : ∀ call update, published call = some update → update.symbol = symbol) :
    ∀ (calls : List (Call MBPUpdate)) {s : Books σ}, index < s.market.mbpFeed.length →
      Changes symbol (fun b => calls.foldl (Book.onCall env index published) b) s
        (calls.foldl (onCall env index symbol published) s)
  | [], s, _ => .refl symbol s
  | first :: calls, s, hindex => by
    have requested : Requested index symbol (heard env [first]) s
        (onCall env index symbol published s first) := .call published first hindex
    exact (call env hpublished hindex first).trans
      (Changes.calls hpublished calls (requested.length ▸ hindex))

variable [Sequencer σ MBPUpdate]

theorem reply (hpublished : ∀ call update, published call = some update → update.symbol = symbol)
    (hindex : index < s.market.mbpFeed.length) (reply : Reply σ MBPUpdate) :
    Changes symbol (Book.onReply env index published reply) s
      (onReply env index symbol published reply s) := by
  have first : Changes symbol (fun b => { b with sequencer := reply.state }) s
      (Books.setSequencer symbol reply.state s) := .setSequencer reply.state
  have second := first.trans (Changes.calls env hpublished reply.calls hindex)
  have requested : Requested index symbol (heard env reply.calls)
      (Books.setSequencer symbol reply.state s) (reply.calls.foldl (onCall env index symbol published)
        (Books.setSequencer symbol reply.state s)) := .calls published reply.calls hindex
  unfold Books.onReply Book.onReply onEnding Book.onEnding
  cases reply.ending with
  | returned | threw => exact second
  | badState =>
    refine (second.trans (.setSequencer (Sequencer.clear reply.state))).trans (.request ?_)
    exact requested.length ▸ hindex

end Changes

/-! ## Steps -/

variable [Sequencer σ MBPUpdate] {env : BooksEnv}

omit [Sequencer σ MBPUpdate] in
/-- The market data by itself leaves every book as it is. -/
theorem bookOf_market {s : Books σ} {e : MarketEvent} {m : Market}
    (he : ∀ index symbol, e ≠ .requestSnapshot index symbol)
    (h : Market.step env.market s.market e = some m) (symbol : String) :
    bookOf symbol { s with market := m } = bookOf symbol s := by
  have same := (requestsFor_operations symbol (requestsFor symbol s.market.log)).step
    (fun index t ht => absurd ht (he index t)) h rfl
  unfold bookOf
  rw [same]

theorem step_eventsFor {s s' : Books σ} {e : BooksEvent} (h : step env s e = some s')
    (symbol : String) :
    (book σ env).runAll (bookOf symbol s) (eventsFor symbol e) = some (bookOf symbol s') := by
  unfold step at h
  split at h
  · cases h
  cases e with
  | market e =>
    rw [eventsFor, Machine.runAll_nil]
    cases e with
    | requestSnapshot index t => cases h
    | _ =>
      obtain ⟨m, hm, rfl⟩ := Option.map_eq_some_iff.mp h
      exact congrArg some (bookOf_market (fun _ _ he => by cases he) hm symbol).symm
  | mbp index mbp =>
    rw [handle] at h
    split at h
    · rename_i hindex
      cases h
      have hpublished : ∀ call update, updatePublished env mbp call = some update →
          update.symbol = Parser.extractSymbol mbp.ch := by
        rintro (_ | _ | _) update hupdate <;> cases hupdate <;> rfl
      have changes := Changes.reply env hpublished hindex (updateReply mbp s) symbol
      rw [onMBP, changes, eventsFor]
      split
      · rename_i hsymbol
        subst hsymbol
        rw [if_pos rfl, Machine.runAll_singleton]
        rfl
      · rename_i hsymbol
        rw [if_neg (Ne.symm hsymbol), Machine.runAll_nil]
    · cases h
  | mbpSnapshot index mbpSnapshot =>
    rw [handle] at h
    split at h
    · rename_i hindex
      cases h
      have hpublished : ∀ call update, snapshotPublished env mbpSnapshot call = some update →
          update.symbol = Parser.extractSymbol mbpSnapshot.rep := by
        rintro (_ | _ | _) update hupdate <;> cases hupdate
        rfl
      have changes := Changes.reply env hpublished hindex (snapshotReply mbpSnapshot s) symbol
      rw [onMBPSnapshot, changes, eventsFor]
      split
      · rename_i hsymbol
        subst hsymbol
        rw [if_pos rfl, Machine.runAll_singleton]
        rfl
      · rename_i hsymbol
        rw [if_neg (Ne.symm hsymbol), Machine.runAll_nil]
    · cases h

theorem runAll_eventsFor {es : List BooksEvent} {s s' : Books σ}
    (h : (books σ env).runAll s es = some s') (symbol : String) :
    (book σ env).runAll (bookOf symbol s) (es.flatMap (eventsFor symbol)) = some (bookOf symbol s') :=
  Machine.runAll_part (f := bookOf symbol) (L := fun _ => True) (E := fun _ => True)
    (fun _ _ _ _ => trivial) (fun _ _ _ _ hs _ => step_eventsFor hs symbol) (fun _ _ => trivial) h
    trivial

/-- The book of a symbol is what its own updates and snapshots make of it. -/
theorem separated {es : List BooksEvent} {s : Books σ}
    (h : (books σ env).runAll (init env) es = some s) (symbol : String) :
    (book σ env).runAll Book.init (es.flatMap (eventsFor symbol)) = some (bookOf symbol s) :=
  runAll_eventsFor h symbol

/-- Two symbols on one stream. -/
theorem separated_two : ∃ s : Books Reader.Sequence,
    (book Reader.Sequence Reader.booksEnv).runAll Book.init
        [.update 0 (Reader.mbp 1 0), .snapshot 0 (Reader.mbpSnapshot 1), .update 0 (Reader.mbp 2 1)] =
      some (bookOf "btcusdt" s) ∧
    (bookOf "btcusdt" s).requested = [0] ∧ (bookOf "ethusdt" s).requested = [0, 0] := by
  let ethusdt : Json.MBP := { Reader.mbp 1 0 with ch := "market.ethusdt.mbp.20" }
  let es : List BooksEvent :=
    [.market (.subscribe ["btcusdt", "ethusdt"]), .market (.feedReady .mbpFeed 0),
      .mbp 0 (Reader.mbp 1 0), .mbp 0 ethusdt, .mbpSnapshot 0 (Reader.mbpSnapshot 1),
      .market (.timer .mbpFeed 0 2), .mbp 0 ethusdt, .mbp 0 (Reader.mbp 2 1)]
  have computed : ((books Reader.Sequence Reader.booksEnv).runAll (init Reader.booksEnv) es).any
      (fun s => decide ((bookOf "btcusdt" s).requested = [0] ∧
        (bookOf "ethusdt" s).requested = [0, 0])) = true := by decide
  obtain ⟨s, hs, hrequested⟩ := (Option.any_eq_true ..).mp computed
  have hevents : es.flatMap (eventsFor "btcusdt") =
      [.update 0 (Reader.mbp 1 0), .snapshot 0 (Reader.mbpSnapshot 1), .update 0 (Reader.mbp 2 1)] := by
    have hbtcusdt : Parser.extractSymbol "market.btcusdt.mbp.20" = "btcusdt" := by decide
    have hethusdt : Parser.extractSymbol "market.ethusdt.mbp.20" = "ethusdt" := by decide
    simp [es, ethusdt, eventsFor, Reader.mbp, Reader.mbpSnapshot, hbtcusdt, hethusdt]
  exact ⟨s, hevents ▸ separated hs "btcusdt", of_decide_eq_true hrequested⟩

end RoqHtx.Books
