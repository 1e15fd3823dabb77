import RoqHtx.Framework.Counter
import RoqHtx.Framework.JsonText
import RoqHtx.Proof.Channels
import RoqHtx.Proof.Streams

/-!
# The ids of requests

Every stream counts its requests, from an id of its own that is scaled up: as long as
there are no more than 65535 streams, and none makes more than a million requests, no
two requests have the same id. `Numbered` is what every operation keeps of the two
kinds of counters; what a request says can be read from its text (`Market.requests_numbered`).
-/

namespace RoqHtx

open JsonText (Value Plain)
open Market (asked)

/-! ## Ids -/

/-- A stream that has been created, and its id. -/
def MarketEntry.created? : MarketEntry → Option ((Feed × Nat) × UInt16)
  | .created feed index streamId => some ((feed, index), streamId)
  | _ => none

/-- The ids of all streams, newest first. -/
def streamIds (l : List MarketEntry) : List UInt16 :=
  (l.filterMap MarketEntry.created?).map Prod.snd

def Feed.Message.id : Feed.Message → UInt64
  | .sub _ _ _ id | .req _ _ _ id => id

/-- The ids of all requests, newest first. -/
def requestIds (l : List MarketEntry) : List UInt64 :=
  (l.filterMap asked).map (·.2.2.id)

/-- The ids of the requests of a stream, newest first. -/
def requestIdsOf (feed : Feed) (index : Nat) (l : List MarketEntry) : List UInt64 :=
  ((l.filterMap asked).filter fun x => (x.1, x.2.1) = (feed, index)).map (·.2.2.id)

/-- Where a stream starts to count. -/
def scaled (streamId : UInt16) : UInt64 := streamId.toUInt64 * 1000000

theorem requestIdsOf_cons (feed : Feed) (index : Nat) {x : MarketEntry} (hx : asked x = none)
    (l : List MarketEntry) : requestIdsOf feed index (x :: l) = requestIdsOf feed index l := by
  rw [requestIdsOf, List.filterMap_cons_none hx, requestIdsOf]

theorem requestIdsOf_enqueued (feed f : Feed) (index i : Nat) (message : Feed.Message)
    (l : List MarketEntry) : requestIdsOf f i (.enqueued feed index message :: l) =
      if f = feed ∧ i = index then message.id :: requestIdsOf f i l else requestIdsOf f i l := by
  show (((feed, index, message) :: l.filterMap asked).filter _).map _ = _
  rw [List.filter_cons]
  by_cases hown : f = feed ∧ i = index
  · obtain ⟨rfl, rfl⟩ := hown
    simp [requestIdsOf]
  · have hne : ¬(feed = f ∧ index = i) := fun h => hown ⟨h.1.symm, h.2.symm⟩
    simp [hown, hne, requestIdsOf]

/-! ## Counting -/

/-- The streams have been counted, and each of them counts its requests. -/
structure Numbered (env : MarketEnv) (m : Market) : Prop where
  streams : Counts (· + 1) (UInt16.ofNat (1 + 2 * env.accounts)) m.streamId (streamIds m.log)
  count : (streamIds m.log).length = m.marketData.length + m.mbpFeed.length
  requests : ∀ feed index s, (m.feeds feed)[index]? = some s → ∃ streamId,
    .created feed index streamId ∈ m.log ∧
      Counts (· + 1) (scaled streamId) s.requestId (requestIdsOf feed index m.log)
  exists_of_request : ∀ feed index, requestIdsOf feed index m.log ≠ [] → index < (m.feeds feed).length

namespace Numbered

variable {env : MarketEnv} {m m' : Market}

theorem streamIds_cons {x : MarketEntry} (hx : x.created? = none) (l : List MarketEntry) :
    streamIds (x :: l) = streamIds l := by
  rw [streamIds, List.filterMap_cons_none hx, streamIds]

/-- What neither creates a stream nor asks for anything. -/
theorem mono (h : Numbered env m) (new : List MarketEntry) (hlog : m'.log = new ++ m.log)
    (hnew : ∀ x ∈ new, x.created? = none ∧ asked x = none) (hstreamId : m'.streamId = m.streamId)
    (hfeeds : ∀ feed,
      (m'.feeds feed).map Feed.State.requestId = (m.feeds feed).map Feed.State.requestId) :
    Numbered env m' := by
  have hstreams : streamIds m'.log = streamIds m.log := by
    have none : new.filterMap MarketEntry.created? = [] :=
      List.filterMap_eq_nil_iff.mpr fun x hx => (hnew x hx).1
    rw [hlog, streamIds, List.filterMap_append, none, List.nil_append, streamIds]
  have hrequests : ∀ feed index, requestIdsOf feed index m'.log = requestIdsOf feed index m.log := by
    intro feed index
    have none : new.filterMap asked = [] := List.filterMap_eq_nil_iff.mpr fun x hx => (hnew x hx).2
    rw [hlog, requestIdsOf, List.filterMap_append, none, List.nil_append, requestIdsOf]
  have hlength : ∀ feed, (m'.feeds feed).length = (m.feeds feed).length := fun feed => by
    rw [← List.length_map (f := Feed.State.requestId), hfeeds, List.length_map]
  refine ⟨?_, ?_, fun feed index s hs => ?_, fun feed index hne => ?_⟩
  · rw [hstreams, hstreamId]
    exact h.streams
  · rw [hstreams, h.count]
    exact (congrArg₂ (· + ·) (hlength .marketData) (hlength .mbpFeed)).symm
  · have same : ((m.feeds feed)[index]?).map Feed.State.requestId = some s.requestId := by
      rw [← List.getElem?_map, ← hfeeds, List.getElem?_map, hs]
      rfl
    obtain ⟨t, ht, hid⟩ := Option.map_eq_some_iff.mp same
    obtain ⟨streamId, hcreated, hcounts⟩ := h.requests feed index t ht
    refine ⟨streamId, ?_, ?_⟩
    · rw [hlog]
      exact List.mem_append_right _ hcreated
    · rw [hrequests, ← hid]
      exact hcounts
  · rw [hrequests] at hne
    rw [hlength]
    exact h.exists_of_request feed index hne

theorem push (h : Numbered env m) {x : MarketEntry} (hx : x.created? = none ∧ asked x = none) :
    Numbered env (m.push x) :=
  h.mono [x] rfl (fun _ hy => List.mem_singleton.mp hy ▸ hx) rfl fun _ => rfl

theorem setFeeds (h : Numbered env m) {l : List Feed.State} {feed : Feed}
    (hl : l.map Feed.State.requestId = (m.feeds feed).map Feed.State.requestId) :
    Numbered env (m.setFeeds l feed) := by
  refine h.mono [] (Feed.log_setFeeds ..) (fun _ hx => absurd hx List.not_mem_nil) ?_ fun f => ?_
  · cases feed <;> rfl
  · rw [Feed.feeds_setFeeds]
    split
    · rename_i hf
      exact hf ▸ hl
    · rfl

theorem modify (h : Numbered env m) (feed : Feed) (index : Nat) {g : Feed.State → Feed.State}
    (hg : ∀ s, (g s).requestId = s.requestId) :
    Numbered env (m.setFeeds ((m.feeds feed).modify index g) feed) := by
  refine h.setFeeds (List.ext_getElem? fun i => ?_)
  rw [List.getElem?_map, List.getElem?_modify, List.getElem?_map]
  cases (m.feeds feed)[i]? with
  | none => rfl
  | some s =>
    show some (Feed.State.requestId (if index = i then g s else s)) = some s.requestId
    split
    · rw [hg]
    · rfl

theorem publish (h : Numbered env m) (status : ConnectionStatus) (feed : Feed) (index : Nat) :
    Numbered env (Feed.publish status feed index m) :=
  (h.modify feed index (g := fun s => { s with connectionStatus := status }) fun _ => rfl).push
    (x := .feedStatus feed index status) ⟨rfl, rfl⟩

theorem onDisconnected (h : Numbered env m) (feed : Feed) (index : Nat) :
    Numbered env (Feed.onDisconnected feed index m) :=
  ((h.push (x := .feedDisconnected feed index) ⟨rfl, rfl⟩).publish .disconnected feed index).modify feed
    index (g := fun s => { s with requestQueue := [] }) fun _ => rfl

theorem checkRequestQueue (h : Numbered env m) (feed : Feed) (index count : Nat) :
    Numbered env (Feed.checkRequestQueue feed index count m) := by
  unfold Feed.checkRequestQueue
  split
  · exact h
  · rename_i s hs
    have dropped : Numbered env (m.setFeeds ((m.feeds feed).set index
        { s with requestQueue := s.requestQueue.drop count }) feed) := by
      refine h.setFeeds ?_
      rw [List.map_set]
      refine List.ext_getElem? fun i => ?_
      by_cases hi : index = i
      · subst hi
        obtain ⟨hlt, -⟩ := List.getElem?_eq_some_iff.mp hs
        rw [List.getElem?_set_self (by simpa using hlt), List.getElem?_map, hs]
        rfl
      · rw [List.getElem?_set_ne hi]
    exact List.foldlRecOn _ _ dropped fun _ hm _ _ => hm.push ⟨rfl, rfl⟩

/-- A request has the next id of its stream. -/
theorem emplaceBack (h : Numbered env m) (feed : Feed) (index : Nat) {message : UInt64 → Feed.Message}
    (hid : ∀ id, (message id).id = id) : Numbered env (Feed.emplaceBack feed index message m) := by
  unfold Feed.emplaceBack
  split
  · exact h
  · rename_i s hs
    obtain ⟨hlt, -⟩ := List.getElem?_eq_some_iff.mp hs
    let s' : Feed.State :=
      ⟨s.connectionStatus, s.requestId + 1, s.requestQueue ++ [message (s.requestId + 1)]⟩
    have hlog : ((m.setFeeds ((m.feeds feed).set index s') feed).push
        (.enqueued feed index (message (s.requestId + 1)))).log =
        .enqueued feed index (message (s.requestId + 1)) :: m.log :=
      congrArg _ (Feed.log_setFeeds ..)
    have hlength : ∀ f, ((m.setFeeds ((m.feeds feed).set index s') feed).feeds f).length =
        (m.feeds f).length := fun f => by
      rw [Feed.feeds_setFeeds]
      split
      · rename_i hf
        rw [hf, List.length_set]
      · rfl
    refine ⟨?_, ?_, fun f i t ht => ?_, fun f i hne => ?_⟩
    · rw [hlog, streamIds_cons rfl]
      cases feed <;> exact h.streams
    · rw [hlog, streamIds_cons rfl, h.count]
      exact (congrArg₂ (· + ·) (hlength .marketData) (hlength .mbpFeed)).symm
    · rw [hlog, requestIdsOf_enqueued, hid]
      have ht : ((m.setFeeds ((m.feeds feed).set index s') feed).feeds f)[i]? = some t := ht
      rw [Feed.feeds_setFeeds] at ht
      by_cases hown : f = feed ∧ i = index
      · obtain ⟨rfl, rfl⟩ := hown
        rw [if_pos rfl, List.getElem?_set_self hlt] at ht
        cases ht
        obtain ⟨streamId, hcreated, hcounts⟩ := h.requests f i s hs
        rw [if_pos ⟨rfl, rfl⟩]
        exact ⟨streamId, List.mem_cons_of_mem _ hcreated, hcounts.next⟩
      · rw [if_neg hown]
        have same : (m.feeds f)[i]? = some t := by
          split at ht
          · rename_i hf
            subst hf
            rwa [List.getElem?_set_ne fun hi => hown ⟨rfl, hi.symm⟩] at ht
          · exact ht
        obtain ⟨streamId, hcreated, hcounts⟩ := h.requests f i t same
        exact ⟨streamId, List.mem_cons_of_mem _ hcreated, hcounts⟩
    · have hlt' : i < (m.feeds f).length := by
        rw [hlog, requestIdsOf_enqueued] at hne
        split at hne
        · rename_i hown
          obtain ⟨rfl, rfl⟩ := hown
          exact hlt
        · exact h.exists_of_request f i hne
      exact (hlength f).symm ▸ hlt'

/-- A stream that is created starts to count from its id. -/
theorem create (h : Numbered env m) (feed : Feed) : Numbered env (Controller.create feed m) := by
  have hrequests : ∀ f i, requestIdsOf f i (Controller.create feed m).log = requestIdsOf f i m.log :=
    fun f i => requestIdsOf_cons f i rfl m.log
  refine ⟨h.streams.next, ?_, fun f i s hs => ?_, fun f i hne => ?_⟩
  · show (streamIds m.log).length + 1 = _
    have hdata := Controller.length_create feed .marketData m
    have hmbp := Controller.length_create feed .mbpFeed m
    rw [h.count]
    show _ = ((Controller.create feed m).feeds .marketData).length +
      ((Controller.create feed m).feeds .mbpFeed).length
    rw [hdata, hmbp]
    cases feed
    · exact Nat.add_right_comm ..
    · exact Nat.add_assoc ..
  · rw [hrequests]
    rw [Controller.feeds_create] at hs
    have old : (m.feeds f)[i]? = some s → ∃ streamId,
        .created f i streamId ∈ (Controller.create feed m).log ∧
          Counts (· + 1) (scaled streamId) s.requestId (requestIdsOf f i m.log) := fun hs => by
      obtain ⟨streamId, hcreated, hcounts⟩ := h.requests f i s hs
      exact ⟨streamId, List.mem_cons_of_mem _ hcreated, hcounts⟩
    split at hs
    · rename_i hf
      rcases Nat.lt_trichotomy i (m.feeds f).length with hi | hi | hi
      · rw [List.getElem?_append_left hi] at hs
        exact old hs
      · rw [hi, List.getElem?_concat_length] at hs
        cases hs
        have none : requestIdsOf f i m.log = [] := by_contra fun hne =>
          absurd (h.exists_of_request f i hne) (hi ▸ Nat.lt_irrefl _)
        rw [none]
        subst hi hf
        exact ⟨m.streamId + 1, List.mem_cons_self, .start⟩
      · rw [List.getElem?_eq_none (by simp; omega)] at hs
        cases hs
    · exact old hs
  · rw [hrequests] at hne
    rw [Controller.length_create]
    exact Nat.lt_add_right _ (h.exists_of_request f i hne)

theorem operations : Feed.Operations (Numbered env) where
  push x _ hx h := h.push (by cases x <;> first | exact ⟨rfl, rfl⟩ | exact hx.elim)
  rest _ _ h := ⟨h.streams, h.count, h.requests, h.exists_of_request⟩
  requests _ _ h := ⟨h.streams, h.count, h.requests, h.exists_of_request⟩
  halted _ _ h := ⟨h.streams, h.count, h.requests, h.exists_of_request⟩
  symbols _ _ h := ⟨h.streams, h.count, h.requests, h.exists_of_request⟩
  allSymbols _ _ h := ⟨h.streams, h.count, h.requests, h.exists_of_request⟩
  getReady feed index _ h := (h.push (x := .feedReady feed index) ⟨rfl, rfl⟩).publish .ready feed index
  subscribe feed index _ _ _ _ h := h.emplaceBack feed index fun _ => rfl
  checkRequestQueue feed index count _ _ h := h.checkRequestQueue feed index count
  onDisconnected feed index _ h := h.onDisconnected feed index
  create feed _ h := h.create feed

theorem reachable (h : (market env).Reachable m) : Numbered env m := by
  refine operations.reachable (fun index _ _ h => h.emplaceBack .mbpFeed index fun _ => rfl)
    ⟨.start, rfl, fun feed index s hs => ?_, fun _ _ hne => absurd rfl hne⟩ h
  cases feed <;> cases hs

end Numbered

/-! ## Different ids -/

/-- There are few enough streams, and few enough requests of each. -/
def FewRequests (env : MarketEnv) (m : Market) : Prop :=
  1 + 2 * env.accounts + (m.marketData.length + m.mbpFeed.length) < 2 ^ 16 ∧
    ∀ feed index, (requestIdsOf feed index m.log).length ≤ 1000000

theorem climbs_uint16 : Climbs (· + 1) UInt16.toNat (2 ^ 16) := fun x hx => by
  show (x + 1).toNat = x.toNat + 1
  rw [UInt16.toNat_add]
  exact Nat.mod_eq_of_lt hx

theorem climbs_uint64 : Climbs (· + 1) UInt64.toNat (2 ^ 64) := fun x hx => by
  show (x + 1).toNat = x.toNat + 1
  rw [UInt64.toNat_add]
  exact Nat.mod_eq_of_lt hx

theorem toNat_scaled (streamId : UInt16) : (scaled streamId).toNat = streamId.toNat * 1000000 := by
  have hlt := streamId.toNat_lt
  rw [scaled, UInt64.toNat_mul, UInt16.toNat_toUInt64]
  exact Nat.mod_eq_of_lt (by show streamId.toNat * 1000000 < 2 ^ 64; omega)

namespace Numbered

variable {env : MarketEnv} {m : Market}

theorem streamIds_nodup (h : Numbered env m) (hfew : FewRequests env m) : (streamIds m.log).Nodup := by
  have hstreams := hfew.1
  have hstart : (UInt16.ofNat (1 + 2 * env.accounts)).toNat = 1 + 2 * env.accounts :=
    Nat.mod_eq_of_lt (by omega)
  refine h.streams.nodup climbs_uint16 ?_
  rw [hstart, h.count]
  exact hstreams

/-- A stream has its id to itself. -/
theorem created_eq (h : Numbered env m) (hfew : FewRequests env m) {feed f : Feed} {index i : Nat}
    {streamId : UInt16} (hx : .created feed index streamId ∈ m.log)
    (hy : .created f i streamId ∈ m.log) : (feed, index) = (f, i) := by
  have mem : ∀ {feed index}, .created feed index streamId ∈ m.log →
      ((feed, index), streamId) ∈ m.log.filterMap MarketEntry.created? := fun hx =>
    List.mem_filterMap.mpr ⟨_, hx, rfl⟩
  have same := List.inj_on_of_nodup_map (h.streamIds_nodup hfew) (mem hx) (mem hy) rfl
  exact congrArg Prod.fst same

/-- The id of a request tells which stream it is from. -/
theorem exists_stream (h : Numbered env m) (hfew : FewRequests env m) {feed : Feed} {index : Nat}
    {id : UInt64} (hid : id ∈ requestIdsOf feed index m.log) : ∃ streamId, .created feed index streamId ∈ m.log ∧
      streamId.toNat = (id.toNat - 1) / 1000000 := by
  obtain ⟨s, hs⟩ : ∃ s, (m.feeds feed)[index]? = some s :=
    ⟨_, List.getElem?_eq_getElem (h.exists_of_request feed index (List.ne_nil_of_mem hid))⟩
  obtain ⟨streamId, hcreated, hcounts⟩ := h.requests feed index s hs
  have hlength := hfew.2 feed index
  have hlt := streamId.toNat_lt
  have hrank := hcounts.rank_mem climbs_uint64 (by rw [toNat_scaled]; omega) id hid
  rw [toNat_scaled] at hrank
  exact ⟨streamId, hcreated, by omega⟩

theorem requestIdsOf_nodup (h : Numbered env m) (hfew : FewRequests env m) (feed : Feed) (index : Nat) :
    (requestIdsOf feed index m.log).Nodup := by
  cases hs : (m.feeds feed)[index]? with
  | none =>
    have none : requestIdsOf feed index m.log = [] := by_contra fun hne =>
      absurd (h.exists_of_request feed index hne) (Nat.not_lt.mpr (List.getElem?_eq_none_iff.mp hs))
    rw [none]
    exact List.nodup_nil
  | some s =>
    obtain ⟨streamId, -, hcounts⟩ := h.requests feed index s hs
    have hlength := hfew.2 feed index
    have hlt := streamId.toNat_lt
    exact hcounts.nodup climbs_uint64 (by rw [toNat_scaled]; omega)

theorem requestIds_nodup (h : Numbered env m) (hfew : FewRequests env m) : (requestIds m.log).Nodup := by
  refine nodup_of_owners (fun x : Feed × Nat × Feed.Message => (x.1, x.2.1))
    (fun k => h.requestIdsOf_nodup hfew k.1 k.2) fun x hx y hy hid => ?_
  have mem : ∀ x ∈ m.log.filterMap asked, x.2.2.id ∈ requestIdsOf x.1 x.2.1 m.log := fun x hx =>
    List.mem_map.mpr ⟨x, List.mem_filter.mpr ⟨hx, by simp⟩, rfl⟩
  obtain ⟨streamId, hcreated, hstream⟩ := h.exists_stream hfew (mem x hx)
  obtain ⟨streamId', hcreated', hstream'⟩ := h.exists_stream hfew (mem y hy)
  have same : streamId = streamId' := UInt16.toNat_inj.mp (by rw [hstream, hstream', hid])
  exact h.created_eq hfew hcreated (same ▸ hcreated')

end Numbered

/-! ## Texts -/

/-- What the text of a request says. -/
def Feed.Message.value (message : Feed.Message) : Value :=
  .object [(match message with | .sub .. => "sub" | .req .. => "req", .string message.channel),
    ("id", .string (toString message.id))]

theorem Feed.Message.parse_text {message : Feed.Message} (h : Plain message.channel) :
    JsonText.parse message.text = some message.value := by
  have htext : message.text = String.ofList message.value.text := by
    apply String.toList_injective
    cases message with
    | sub source symbol theme id =>
      rw [(text_channel source symbol theme id).1]
      simp [value, Message.id, Value.text, JsonText.memberText, JsonText.membersText, JsonText.quoted]
    | req source symbol theme id =>
      rw [(text_channel source symbol theme id).2]
      simp [value, Message.id, Value.text, JsonText.memberText, JsonText.membersText, JsonText.quoted]
  have hplain : message.value.Plain := by
    have hid : Plain (toString message.id) := JsonText.plain_toString message.id.toNat
    have hname : ∀ name ∈ ["sub", "req", "id"], Plain name := by decide
    simp only [List.forall_mem_cons, List.not_mem_nil, false_implies, implies_true, and_true] at hname
    cases message with
    | sub => exact ⟨⟨hname.1, h⟩, ⟨hname.2.2, hid⟩, trivial⟩
    | req => exact ⟨⟨hname.2.1, h⟩, ⟨hname.2.2, hid⟩, trivial⟩
  rw [htext, JsonText.parse_text hplain]

namespace Market

open Feed (Asks)

theorem plain_channel {feed : Feed} {message : Feed.Message} (h : Asks feed message)
    (hsymbol : Plain message.symbol) : Plain message.channel := by
  have hname : ∀ name ∈ ["market", ".", "mbp.20"], Plain name := by decide
  simp only [List.forall_mem_cons, List.not_mem_nil, false_implies, implies_true, and_true] at hname
  obtain ⟨hmarket, hdot, hmbp⟩ := hname
  have plain : ∀ {symbol theme : String}, Plain symbol → Plain theme →
      Plain ("market" ++ "." ++ symbol ++ "." ++ theme) := fun hsymbol htheme =>
    JsonText.plain_append (JsonText.plain_append (JsonText.plain_append
      (JsonText.plain_append hmarket hdot) hsymbol) hdot) htheme
  cases h with
  | @sub _ symbol theme id htheme =>
    have hthemes : ∀ theme ∈ Feed.themes feed, Plain theme := by cases feed <;> decide
    exact plain hsymbol (hthemes theme htheme)
  | req => exact plain hsymbol hmbp

/-- While there are few enough streams and requests, no two requests have the same
id, and the id of a request tells which stream it is from: no other stream has the
same number. What is asked for can be read from the text, if the symbol needs no
escapes. -/
theorem requests_numbered {env : MarketEnv} {m : Market} (h : (market env).Reachable m) :
    (FewRequests env m → (requestIds m.log).Nodup ∧
      ∀ feed index message, .enqueued feed index message ∈ m.log → ∃ streamId,
        .created feed index streamId ∈ m.log ∧ streamId.toNat = (message.id.toNat - 1) / 1000000 ∧
          ∀ f i, .created f i streamId ∈ m.log → (f, i) = (feed, index)) ∧
    ∀ feed index message, .enqueued feed index message ∈ m.log → Plain message.symbol →
      JsonText.parse message.text = some message.value := by
  have numbered := Numbered.reachable h
  refine ⟨fun hfew => ⟨numbered.requestIds_nodup hfew, fun feed index message hm => ?_⟩,
    fun feed index message hm hsymbol => ?_⟩
  · have hid : message.id ∈ requestIdsOf feed index m.log :=
      List.mem_map.mpr ⟨(feed, index, message),
        List.mem_filter.mpr ⟨List.mem_filterMap.mpr ⟨_, hm, rfl⟩, by simp⟩, rfl⟩
    obtain ⟨streamId, hcreated, hstream⟩ := numbered.exists_stream hfew hid
    exact ⟨streamId, hcreated, hstream, fun f i hother => numbered.created_eq hfew hother hcreated⟩
  · exact Feed.Message.parse_text (plain_channel (allAsked env h feed index message hm) hsymbol)

/-- A stream that is disconnected counts on. -/
theorem requests_numbered_again : ∃ m : Market,
    requestIds m.log =
        [4000008, 4000007, 4000006, 4000005, 5000001, 4000004, 4000003, 4000002, 4000001] ∧
      (requestIds m.log).Nodup := by
  obtain ⟨m, hm, hids, hstreams, hlength⟩ := Machine.exists_reach (M := market Reader.marketEnv)
    (C := fun _ _ => True)
    (P := fun m => requestIds m.log =
        [4000008, 4000007, 4000006, 4000005, 5000001, 4000004, 4000003, 4000002, 4000001] ∧
      1 + 2 * Reader.marketEnv.accounts + (m.marketData.length + m.mbpFeed.length) < 2 ^ 16 ∧
      (requestIds m.log).length ≤ 1000000)
    [.subscribe ["btcusdt"], .feedReady .marketData 0, .feedReady .mbpFeed 0,
      .feedDisconnected .marketData 0, .feedReady .marketData 0] (by decide +kernel)
  have few : FewRequests Reader.marketEnv m := ⟨hstreams, fun feed index => by
    refine le_trans ?_ hlength
    rw [requestIdsOf, requestIds, List.length_map, List.length_map]
    exact List.length_filter_le ..⟩
  exact ⟨m, hids, ((requests_numbered hm).1 few).1⟩

end Market

end RoqHtx
