import Mathlib.Data.List.TakeWhile
import RoqHtx.Impl.Channel
import RoqHtx.Impl.MarketReader
import RoqHtx.Proof.Dispatch
import RoqHtx.Proof.Market

/-!
# Channels are taken apart as they were put together

A channel is a list of pieces with dots between them (`pieces`). Of at least
three, the second is the symbol and the third the topic (`extractSymbol_eq`,
`extractTopic_eq`), so a theme counts up to its first dot. What a stream asks for
comes back to a handler that the stream has (`channels_round_trip`).
-/

namespace RoqHtx

namespace Parser

/-! ## Pieces -/

/-- What stands between the dots. -/
def pieces (channel : String) : List (List Char) := channel.toList.splitOn '.'

/-- The piece with the symbol. -/
def symbolPiece : List (List Char) → List Char
  | _ :: symbol :: _ => symbol
  | pieces => pieces.headD []

/-- The piece with the topic. -/
def topicPiece : List (List Char) → List Char
  | source :: symbol :: rest =>
    if source = "accounts".toList then source else rest.headD symbol
  | pieces => pieces.headD []

/-- A list without a dot, or what comes before and after its first one. -/
theorem dot_cases (s : List Char) :
    '.' ∉ s ∨ ∃ a b, s = a ++ '.' :: b ∧ '.' ∉ a := by
  by_cases h : '.' ∈ s
  · obtain ⟨a, b, hs, ha⟩ := List.eq_append_cons_of_mem h
    exact .inr ⟨a, b, hs, ha⟩
  · exact .inl h

theorem findFirstOf_none {s : List Char} {pos : Nat} (h : '.' ∉ s.drop pos) :
    findFirstOf '.' s pos = none := by
  rw [findFirstOf, List.findIdx?_eq_none_iff.mpr fun x hx => ?_, Option.map_none]
  exact beq_eq_false_iff_ne.mpr fun hxd => h (hxd ▸ hx)

theorem findFirstOf_some {s a b : List Char} {pos : Nat} (h : s.drop pos = a ++ '.' :: b)
    (ha : '.' ∉ a) : findFirstOf '.' s pos = some (a.length + pos) := by
  have hfind : (a ++ '.' :: b).findIdx? (· == '.') = some a.length := by
    rw [List.findIdx?_append, List.findIdx?_eq_none_iff.mpr fun x hx => ?_]
    · simp [List.findIdx?_cons]
    · exact beq_eq_false_iff_ne.mpr fun hxd => ha (hxd ▸ hx)
  rw [findFirstOf, h, hfind, Option.map_some]

/-- What comes after a dot that has been found. -/
theorem drop_found {s a b : List Char} {pos : Nat} (h : s.drop pos = a ++ '.' :: b) :
    s.drop (a.length + pos + 1) = b := by
  have hdrop := congrArg (List.drop (a.length + 1)) h
  rw [List.drop_drop] at hdrop
  rw [show a.length + pos + 1 = pos + (a.length + 1) by omega, hdrop]
  simp

/-- What comes before it. -/
theorem take_found {s a b : List Char} {pos : Nat} (h : s.drop pos = a ++ '.' :: b) :
    (s.drop pos).take (a.length + pos - pos) = a := by
  rw [h, Nat.add_sub_cancel, List.take_left]

/-! ## Symbol and topic -/

theorem extractSymbol_eq (channel : String) :
    extractSymbol channel = String.ofList (symbolPiece (pieces channel)) := by
  unfold extractSymbol pieces
  dsimp only
  rcases dot_cases channel.toList with hnone | ⟨a, b, hs, ha⟩
  · have hdrop : '.' ∉ channel.toList.drop 0 := hnone
    rw [findFirstOf_none hdrop, List.splitOn_eq_singleton hnone]
    exact String.ofList_toList.symm
  · have hdrop : channel.toList.drop 0 = a ++ '.' :: b := hs
    rw [findFirstOf_some hdrop ha, hs, List.splitOn_append_cons_self_of_not_mem ha, ← hs]
    have hb := drop_found hdrop
    dsimp only
    rcases dot_cases b with hnone | ⟨c, d, rfl, hc⟩
    · rw [findFirstOf_none (hb.symm ▸ hnone), hb, List.splitOn_eq_singleton hnone]
      rfl
    · rw [findFirstOf_some hb hc, List.splitOn_append_cons_self_of_not_mem hc]
      exact congrArg String.ofList (take_found hb)

theorem extractTopic_eq (channel : String) :
    extractTopic channel =
      if channel = "orders#*" then "orders"
      else if channel = "trade.clearing#*" then "clearing"
      else String.ofList (topicPiece (pieces channel)) := by
  unfold extractTopic pieces
  split
  · rfl
  split
  · rfl
  dsimp only
  rcases dot_cases channel.toList with hnone | ⟨a, b, hs, ha⟩
  · have hdrop : '.' ∉ channel.toList.drop 0 := hnone
    rw [findFirstOf_none hdrop, List.splitOn_eq_singleton hnone]
    exact String.ofList_toList.symm
  · have hdrop : channel.toList.drop 0 = a ++ '.' :: b := hs
    have htake : channel.toList.take (a.length + 0) = a := take_found hdrop
    rw [findFirstOf_some hdrop ha]
    dsimp only
    rw [htake, hs, List.splitOn_append_cons_self_of_not_mem ha, ← hs]
    have hb := drop_found hdrop
    have piece : ∀ l : List (List Char), l ≠ [] →
        topicPiece (a :: l) = if a = "accounts".toList then a else l.tail.headD (l.headD []) := by
      intro l hl
      cases l with
      | nil => exact absurd rfl hl
      | cons x l => rfl
    rw [piece _ (List.splitOn_ne_nil _ _), apply_ite String.ofList]
    refine if_congr Iff.rfl rfl ?_
    rcases dot_cases b with hnone | ⟨c, d, rfl, hc⟩
    · rw [findFirstOf_none (hb.symm ▸ hnone), List.splitOn_eq_singleton hnone]
      exact congrArg String.ofList hb
    · have hd := drop_found hb
      rw [findFirstOf_some hb hc, List.splitOn_append_cons_self_of_not_mem hc]
      dsimp only
      rcases dot_cases d with hnone | ⟨e, f, rfl, he⟩
      · rw [findFirstOf_none (hd.symm ▸ hnone), List.splitOn_eq_singleton hnone]
        exact congrArg String.ofList hd
      · rw [findFirstOf_some hd he, List.splitOn_append_cons_self_of_not_mem he]
        exact congrArg String.ofList (take_found hd)

theorem not_mem_of_mem_splitOn {s : List Char} :
    ∀ {n : Nat}, s.length ≤ n → ∀ piece ∈ s.splitOn '.', '.' ∉ piece
  | 0, hn, piece, hp => by
    rw [List.eq_nil_of_length_eq_zero (Nat.le_zero.mp hn)] at hp
    rw [List.mem_singleton.mp hp]
    exact List.not_mem_nil
  | n + 1, hn, piece, hp => by
    rcases dot_cases s with hnone | ⟨a, b, rfl, ha⟩
    · rw [List.splitOn_eq_singleton hnone] at hp
      rwa [List.mem_singleton.mp hp]
    · rw [List.splitOn_append_cons_self_of_not_mem ha] at hp
      rcases List.mem_cons.mp hp with rfl | hp
      · exact ha
      · refine not_mem_of_mem_splitOn (s := b) (n := n) ?_ piece hp
        simp only [List.length_append, List.length_cons] at hn
        omega

/-- A topic has no dot. -/
theorem dot_not_mem_extractTopic (channel : String) : '.' ∉ (extractTopic channel).toList := by
  have piece : ∀ l : List (List Char), (∀ x ∈ l, '.' ∉ x) → '.' ∉ topicPiece l := by
    intro l hl
    match l with
    | [] => exact List.not_mem_nil
    | [a] => exact hl a List.mem_cons_self
    | a :: b :: rest =>
      show '.' ∉ if a = "accounts".toList then a else rest.headD b
      split
      · exact hl a List.mem_cons_self
      · cases rest with
        | nil => exact hl b (List.mem_cons_of_mem _ List.mem_cons_self)
        | cons c rest => exact hl c (by simp)
  rw [extractTopic_eq]
  split
  · decide
  split
  · decide
  rw [String.toList_ofList]
  exact piece _ (not_mem_of_mem_splitOn (Nat.le_refl _))

/-! ## Nothing is out of range -/

theorem findFirstOf_lt {c : Char} {s : List Char} {pos i : Nat} (h : findFirstOf c s pos = some i) :
    pos ≤ i ∧ i + 1 ≤ s.length := by
  obtain ⟨k, hk, rfl⟩ := Option.map_eq_some_iff.mp h
  obtain ⟨hlt, -⟩ := List.findIdx?_eq_some_iff_findIdx_eq.mp hk
  rw [List.length_drop] at hlt
  omega

theorem substr_none {s : List Char} {pos : Nat} (h : pos ≤ s.length) :
    substr s pos none = some (s.drop pos) := by
  rw [substr, if_pos h, Option.getD_none, List.take_of_length_le (by simp)]

theorem substr_some {s : List Char} {pos : Nat} (h : pos ≤ s.length) (count : Nat) :
    substr s pos (some count) = some ((s.drop pos).take count) :=
  if_pos h

theorem trySymbol_eq (channel : String) : trySymbol channel = some (extractSymbol channel) := by
  unfold trySymbol extractSymbol
  dsimp only
  cases h1 : findFirstOf '.' channel.toList 0 with
  | none => rfl
  | some sep1 =>
    have hsep1 := (findFirstOf_lt h1).2
    dsimp only
    cases h2 : findFirstOf '.' channel.toList (sep1 + 1) with
    | none => rw [substr_none hsep1, Option.map_some]
    | some sep2 =>
      dsimp only
      rw [minus, if_pos (findFirstOf_lt h2).1]
      exact congrArg (Option.map String.ofList) (substr_some hsep1 _)

theorem tryTopic_eq (channel : String) : tryTopic channel = some (extractTopic channel) := by
  unfold tryTopic extractTopic
  split
  · rfl
  split
  · rfl
  dsimp only
  cases h1 : findFirstOf '.' channel.toList 0 with
  | none => rfl
  | some sep1 =>
    have hsep1 := (findFirstOf_lt h1).2
    dsimp only
    rw [substr_some (Nat.zero_le _), Option.bind_eq_bind, Option.bind_some, List.drop_zero]
    split
    · rfl
    cases h2 : findFirstOf '.' channel.toList (sep1 + 1) with
    | none => rw [substr_none hsep1, Option.map_some]
    | some sep2 =>
      have hsep2 := (findFirstOf_lt h2).2
      dsimp only
      cases h3 : findFirstOf '.' channel.toList (sep2 + 1) with
      | none => rw [substr_none hsep2, Option.map_some]
      | some sep3 =>
        dsimp only
        rw [minus, if_pos (findFirstOf_lt h3).1]
        exact congrArg (Option.map String.ofList) (substr_some hsep2 _)

/-! ## Round trip -/

theorem pieces_channel {source symbol : String} (hsource : '.' ∉ source.toList)
    (hsymbol : '.' ∉ symbol.toList) (theme : String) :
    pieces (source ++ "." ++ symbol ++ "." ++ theme) =
      source.toList :: symbol.toList :: theme.toList.splitOn '.' := by
  have htoList : (source ++ "." ++ symbol ++ "." ++ theme).toList =
      source.toList ++ '.' :: (symbol.toList ++ '.' :: theme.toList) := by
    simp [String.toList_append]
  rw [pieces, htoList, List.splitOn_append_cons_self_of_not_mem hsource,
    List.splitOn_append_cons_self_of_not_mem hsymbol]

theorem headD_splitOn (s d : List Char) : (s.splitOn '.').headD d = s.takeWhile (· != '.') := by
  have before : ∀ {a : List Char}, '.' ∉ a → ∀ x ∈ a, (x != '.') = true := fun ha x hx =>
    bne_iff_ne.mpr (ne_of_mem_of_not_mem hx ha)
  rcases dot_cases s with hnone | ⟨a, b, rfl, ha⟩
  · rw [List.splitOn_eq_singleton hnone, List.headD_cons]
    exact (List.takeWhile_eq_self_iff.mpr (before hnone)).symm
  · rw [List.splitOn_append_cons_self_of_not_mem ha, List.headD_cons,
      List.takeWhile_append_of_pos (before ha)]
    simp

/-- The symbol and, up to its first dot, the theme come back. -/
theorem extract_channel {source symbol : String} (hsource : '.' ∉ source.toList)
    (hsymbol : '.' ∉ symbol.toList) (haccounts : source ≠ "accounts") (theme : String) :
    extractSymbol (source ++ "." ++ symbol ++ "." ++ theme) = symbol ∧
      extractTopic (source ++ "." ++ symbol ++ "." ++ theme) =
        String.ofList (theme.toList.takeWhile (· != '.')) := by
  have hpieces := pieces_channel hsource hsymbol theme
  have hlength : 2 < (pieces (source ++ "." ++ symbol ++ "." ++ theme)).length := by
    rw [hpieces, List.length_cons, List.length_cons]
    have := List.length_pos_iff.mpr (List.splitOn_ne_nil '.' theme.toList)
    omega
  constructor
  · rw [extractSymbol_eq, hpieces, symbolPiece, String.ofList_toList]
  · have horders : source ++ "." ++ symbol ++ "." ++ theme ≠ "orders#*" := fun h => by
      rw [h] at hlength
      exact absurd hlength (by decide)
    have hclearing : source ++ "." ++ symbol ++ "." ++ theme ≠ "trade.clearing#*" := fun h => by
      rw [h] at hlength
      exact absurd hlength (by decide)
    have hne : source.toList ≠ "accounts".toList := fun h => haccounts (String.toList_inj.mp h)
    rw [extractTopic_eq, if_neg horders, if_neg hclearing, hpieces, topicPiece, if_neg hne,
      headD_splitOn]

/-- The keys of the members that decide are told apart. -/
def Distinct (p : Parser) : Prop :=
  (["action", "ch", "message", "ping", "rep", "status", "subbed"].map p.fnv).Nodup

instance (p : Parser) : Decidable p.Distinct := inferInstanceAs (Decidable (List.Nodup _))

/-- Channels with the same topic lead to the same handler. -/
theorem routeCh_congr (p : Parser) {c c' : String} (h : extractTopic c = extractTopic c') :
    p.routeCh (.string c) = p.routeCh (.string c') := by
  simp only [routeCh, getText, h]

theorem routeRep_congr (p : Parser) {c c' : String} (h : extractTopic c = extractTopic c') :
    p.routeRep (.string c) = p.routeRep (.string c') := by
  simp only [routeRep, getText, h]

theorem Distinct.route_ch {p : Parser} (hp : p.Distinct) (value : Json.Value) :
    p.route "ch" value = p.routeCh value := by
  have hne : p.fnv "ch" ≠ p.fnv "action" := fun h => by simp [Distinct, h] at hp
  simp [route, hne]

theorem Distinct.route_rep {p : Parser} (hp : p.Distinct) (value : Json.Value) :
    p.route "rep" value = p.routeRep value := by
  have haction : p.fnv "rep" ≠ p.fnv "action" := fun h => by simp [Distinct, h] at hp
  have hch : p.fnv "rep" ≠ p.fnv "ch" := fun h => by simp [Distinct, h] at hp
  have hmessage : p.fnv "rep" ≠ p.fnv "message" := fun h => by simp [Distinct, h] at hp
  have hping : p.fnv "rep" ≠ p.fnv "ping" := fun h => by simp [Distinct, h] at hp
  simp [route, haction, hch, hmessage, hping]

end Parser

namespace Feed

open Json (Kind Value)

variable {p : Parser} {feed : Feed}

/-! ## What a stream asks for -/

/-- The text of a message in the queue has the channel. -/
theorem Message.text_channel (source symbol theme : String) (id : UInt64) :
    (Message.sub source symbol theme id).text = "\x7b\"sub\":\"" ++
        (Message.sub source symbol theme id).channel ++ "\",\"id\":\"" ++ toString id ++ "\"\x7d" ∧
      (Message.req source symbol theme id).text = "\x7b\"req\":\"" ++
        (Message.req source symbol theme id).channel ++ "\",\"id\":\"" ++ toString id ++ "\"\x7d" := by
  delta Message.text
  simp only [Message.channel, String.append_assoc, and_self]

/-- The channel leads to a handler of the stream that does not terminate, with the
symbol. -/
theorem Asks.handled (hp : p.Distinct) {message : Message} (h : Asks feed message)
    (hsymbol : '.' ∉ message.symbol.toList) :
    ∃ kind, p.route message.member (.string message.channel) = .handle kind ∧
      ∀ s, onMessage message.channel feed kind s =
        .ok (s ++ [⟨kind, if kind = .ticker then none else some message.symbol⟩]) := by
  cases h with
  | @sub _ symbol theme id htheme =>
    have hdot : '.' ∉ symbol.toList := hsymbol
    obtain ⟨hextract, htopic⟩ := Parser.extract_channel (show '.' ∉ "market".toList by decide) hdot
      (by decide) theme
    have hroute : ∀ topic : String, String.ofList (theme.toList.takeWhile (· != '.')) =
        Parser.extractTopic topic → p.route "ch" (.string (Message.sub "market" symbol theme id).channel) =
          p.routeCh (.string topic) := fun topic h =>
      (hp.route_ch _).trans (p.routeCh_congr (htopic.trans h))
    have hpublished : some (Parser.extractSymbol (Message.sub "market" symbol theme id).channel) =
        some symbol := congrArg some hextract
    cases feed with
    | marketData =>
      simp only [themes, MarketData.themes, List.mem_cons, List.not_mem_nil, or_false] at htheme
      rcases htheme with rfl | rfl | rfl | rfl
      · refine ⟨.bbo, hroute "bbo" (by decide), fun s => ?_⟩
        rw [onMessage, MarketData.onMessage, hpublished]
        rfl
      · exact ⟨.ticker, hroute "ticker" (by decide), fun s => rfl⟩
      · refine ⟨.trade, hroute "trade" (by decide), fun s => ?_⟩
        rw [onMessage, MarketData.onMessage, hpublished]
        rfl
      · refine ⟨.detail, hroute "detail" (by decide), fun s => ?_⟩
        rw [onMessage, MarketData.onMessage, hpublished]
        rfl
    | mbpFeed =>
      rw [themes, MBPFeed.themes, List.mem_singleton] at htheme
      subst htheme
      exact ⟨.mbp, hroute "mbp" (by decide), fun s => by rw [onMessage, MBPFeed.onMessage, hpublished]; rfl⟩
  | @req symbol id =>
    have hdot : '.' ∉ symbol.toList := hsymbol
    obtain ⟨hextract, htopic⟩ := Parser.extract_channel (show '.' ∉ "market".toList by decide) hdot
      (by decide) "mbp.20"
    have hpublished : some (Parser.extractSymbol (Message.req "market" symbol "mbp.20" id).channel) =
        some symbol := congrArg some hextract
    have hroute : p.route "rep" (.string (Message.req "market" symbol "mbp.20" id).channel) =
        p.routeRep (.string "mbp") :=
      (hp.route_rep _).trans (p.routeRep_congr (htopic.trans (by decide)))
    exact ⟨.mbpSnapshot, hroute, fun s => by rw [onMessage, MBPFeed.onMessage, hpublished]; rfl⟩

/-- Every message in the history that was put into a queue is one that its stream
asks for. -/
def AllAsked (l : List MarketEntry) : Prop :=
  ∀ feed index message, .enqueued feed index message ∈ l → Asks feed message

end Feed

namespace Market

open Feed (AllAsked)
open RoqHtx.Parser (extractSymbol extractTopic trySymbol tryTopic)

theorem allAsked_cons {x : MarketEntry} {l : List MarketEntry} (hl : AllAsked l)
    (hx : ∀ feed index message, x = .enqueued feed index message → Feed.Asks feed message) :
    AllAsked (x :: l) := fun feed index message hmem => by
  rcases List.mem_cons.mp hmem with h | hmem
  · exact hx feed index message h.symm
  · exact hl feed index message hmem

theorem allAsked_rest : Rest.Closed fun m => AllAsked m.log :=
  .of_log fun x _ hx hl => allAsked_cons hl fun _ _ _ h => by rw [h] at hx; exact hx.elim

theorem allAsked_streams : Feed.Subscribes fun m => AllAsked m.log where
  push x m hx hm := allAsked_cons hm fun _ _ _ h => by rw [h] at hx; exact hx
  setFeeds _ _ feed hm := by cases feed <;> exact hm
  streamId _ _ hm := hm

theorem onSymbolsUpdate_allAsked {m : Market} (slicing : Slicing) (symbols : List String)
    (hm : AllAsked m.log) : AllAsked (Controller.onSymbolsUpdate slicing symbols m).log :=
  allAsked_streams.onSymbolsUpdate slicing symbols (allAsked_cons hm fun _ _ _ h => by cases h)

theorem emplace_log (s : List String × Market) (symbol : String) :
    (Controller.emplace s symbol).2.log = s.2.log := by
  unfold Controller.emplace
  split <;> rfl

theorem Leaves.allAsked {env : MarketEnv} {m m' : Market} {e : MarketEvent} (h : Leaves env m m' e)
    (hm : AllAsked m.log) : AllAsked m'.log := by
  refine h.rule (P := fun m => AllAsked m.log) allAsked_rest allAsked_streams
    (fun sequence response t _ => ?_) (fun symbols => ?_) hm
  · have published : ∀ (s : List String × Market) x, AllAsked s.2.log →
        (∀ feed index message, x ≠ .enqueued feed index message) → AllAsked (s.2.push x).log :=
      fun s x hs hx => allAsked_cons hs fun feed index message h => absurd h (hx feed index message)
    refine allAsked_rest.ack (fun symbols m hm => ?_) sequence response t hm
    rw [← Outcome.bind_ok (Rest.onSymbols env t symbols m)]
    exact Rest.onSymbols_rule (P := fun s => AllAsked s.2.log) (I := fun m => AllAsked m.log)
      (fun _ s hs => published s _ hs fun _ _ _ h => by cases h)
      (fun symbol s hs => by rw [emplace_log]; exact hs)
      (fun _ _ _ _ s hs => published s _ hs fun _ _ _ h => by cases h) (fun _ hs => hs)
      (fun s hs => onSymbolsUpdate_allAsked env.slicing s.1 hs) (fun _ hm => hm)
      (fun m hm => allAsked_cons hm fun _ _ _ h => by cases h) hm
  · have known : AllAsked (symbols.foldl Controller.emplace ([], m.push (.subscribed symbols))).2.log :=
      List.foldlRecOn (motive := fun s : List String × Market => AllAsked s.2.log) symbols _
        (allAsked_cons hm fun _ _ _ h => by cases h)
        fun _ hs symbol _ => by rw [emplace_log]; exact hs
    exact onSymbolsUpdate_allAsked env.slicing _ known

theorem allAsked (env : MarketEnv) {m : Market} (h : (market env).Reachable m) : AllAsked m.log := by
  have init : AllAsked (market env).init.log := fun _ _ _ hmem => absurd hmem List.not_mem_nil
  exact Machine.Reach.invariant (I := fun m => AllAsked m.log) init
    (fun _ _ _ hm _ hstep => (leaves_of_step hstep).2.allAsked hm) h

/-- What the exchange sends for a channel that a stream has asked for. -/
def sent (message : Feed.Message) (pre post : Json.Members) : Json.Members :=
  pre ++ (message.member, .string message.channel) :: post

/-- A channel is taken apart as it was put together; what is sent for one that a
stream has asked for is delivered to that stream, which handles it for the symbol;
and no channel at all is read out of range. -/
theorem channels_round_trip (env : MarketEnv) (m : Market) (h : (market env).Reachable m)
    (p : Parser) (hp : p.Distinct) :
    (∀ source symbol theme : String, '.' ∉ source.toList → '.' ∉ symbol.toList →
      source ≠ "accounts" →
        extractSymbol (source ++ "." ++ symbol ++ "." ++ theme) = symbol ∧
          extractTopic (source ++ "." ++ symbol ++ "." ++ theme) =
            String.ofList (theme.toList.takeWhile (· != '.'))) ∧
      (∀ feed index message, .enqueued feed index message ∈ m.log → '.' ∉ message.symbol.toList →
        ∀ pre post, (∀ x ∈ pre, p.PassedOver x) → ∃ kind,
          p.decided (sent message pre post) = some (.handle kind) ∧
            ∀ obj, p.decode kind (sent message pre post) = .ok obj → ∀ allow s,
              p.dispatch allow (fun obj => feed.onMessage message.channel obj.kind)
                  (sent message pre post) s =
                .ok (true, s ++ [⟨kind, if kind = .ticker then none else some message.symbol⟩])) ∧
      ∀ channel, trySymbol channel = some (extractSymbol channel) ∧
        tryTopic channel = some (extractTopic channel) ∧ '.' ∉ (extractTopic channel).toList := by
  refine ⟨fun _ _ theme hsource hsymbol haccounts =>
      Parser.extract_channel hsource hsymbol haccounts theme,
    fun feed index message hmem hsymbol pre post hpre => ?_, fun channel =>
      ⟨Parser.trySymbol_eq channel, Parser.tryTopic_eq channel, Parser.dot_not_mem_extractTopic channel⟩⟩
  obtain ⟨kind, hroute, hhandled⟩ := (allAsked env h feed index message hmem).handled hp hsymbol
  have hdecides : ¬p.PassedOver (message.member, .string message.channel) := fun hover => by
    rw [← Parser.route_eq_next_iff, hroute] at hover
    cases hover
  have hdecided : p.decided (sent message pre post) = some (.handle kind) := by
    rw [sent, Parser.decided_append p hpre hdecides, hroute]
  refine ⟨kind, hdecided, fun obj hobj allow s => ?_⟩
  rw [Parser.dispatch_eq, hdecided, Parser.follow, Parser.dispatchHelper, hobj]
  dsimp only
  rw [p.decode_kind hobj, hhandled s]
  rfl

/-- What an entry says was put into a queue. -/
def asked : MarketEntry → Option (Feed × Nat × Feed.Message)
  | .enqueued feed index message => some (feed, index, message)
  | _ => none

theorem mem_of_asked {l : List MarketEntry} {feed : Feed} {index : Nat} {message : Feed.Message}
    (h : (feed, index, message) ∈ l.filterMap asked) : .enqueued feed index message ∈ l := by
  obtain ⟨x, hx, hasked⟩ := List.mem_filterMap.mp h
  cases x with
  | enqueued =>
    cases hasked
    exact hx
  | _ => cases hasked

/-- A symbol is subscribed to, and an update of it arrives. -/
theorem channels_round_trip_btcusdt : ∃ m : Market,
    .enqueued .mbpFeed 0 (.sub "market" "btcusdt" "mbp.20" 5000001) ∈ m.log ∧
      ∃ kind, Reader.parser.dispatch false
          (fun obj => Feed.onMessage "market.btcusdt.mbp.20" .mbpFeed obj.kind)
          [("ts", .int 1), ("ch", .string "market.btcusdt.mbp.20"), ("tick", .object "")] [] =
        .ok (true, [⟨kind, if kind = .ticker then none else some "btcusdt"⟩]) := by
  obtain ⟨m, hm, hasked⟩ := Machine.exists_reach (M := market Reader.marketEnv)
    (C := fun _ _ => True)
    (P := fun m => (.mbpFeed, 0, .sub "market" "btcusdt" "mbp.20" 5000001) ∈ m.log.filterMap asked)
    [.subscribe ["btcusdt"], .feedReady .mbpFeed 0] (by decide +kernel)
  have hmem := mem_of_asked hasked
  obtain ⟨-, delivered, -⟩ := channels_round_trip Reader.marketEnv m hm Reader.parser (by decide +kernel)
  obtain ⟨kind, hkind, hdispatch⟩ := delivered .mbpFeed 0 _ hmem (by decide) [("ts", .int 1)]
    [("tick", .object "")] (by decide +kernel)
  have hmbp : Reader.parser.decided (sent (.sub "market" "btcusdt" "mbp.20" 5000001)
      [("ts", .int 1)] [("tick", .object "")]) = some (.handle .mbp) := by decide +kernel
  cases hmbp.symm.trans hkind
  exact ⟨m, hmem, .mbp, hdispatch .mbp rfl false []⟩

end Market

end RoqHtx
