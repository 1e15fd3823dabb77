import RoqHtx.Impl.MarketReader
import RoqHtx.Proof.Market

/-!
# Symbols that are known have been handed on

A symbol becomes known while the items are published, and is handed on once all
of them have been (`HandedOn`). An exception in between is caught, and the stage
is tried again, but then the symbol is not new any more: it is never subscribed
to (`known_not_handed_on`). In runs in which no call throws after a new symbol
has become known (`throwsBeforeNew`), the symbols that are known are exactly the
ones that have been handed on (`known_handed_on`).
-/

namespace RoqHtx

namespace Rest

open Controller (emplace)

/-! ## Calls that throw -/

/-- A symbol that is traded, and wanted. -/
def eligible (t : Handling) (item : Json.SymbolsItem) : Bool :=
  included item && !t.discards item.symbol

/-- The calls that an item leads to, in order. It becomes known between the two
of them. -/
def callsOf (t : Handling) (item : Json.SymbolsItem) (i : Nat) : List Call :=
  if !included item then []
  else if t.discards item.symbol then [.referenceData i]
  else [.referenceData i, .marketStatus i]

/-- The calls that the items from place `i` on lead to. -/
def callsFrom (t : Handling) : Nat → List Json.SymbolsItem → List Call
  | _, [] => [.symbolsUpdate]
  | i, item :: items => callsOf t item i ++ callsFrom t (i + 1) items

/-- The first call that throws. -/
def raised (t : Handling) (calls : List Call) : Option Call :=
  calls.find? fun c => (t.raises c).isSome

/-- Whether a call comes after the item at place `i` has become known. -/
def Call.follows (i : Nat) : Call → Bool
  | .referenceData j => i < j
  | .marketStatus j => i ≤ j
  | .symbolsUpdate => true

/-- Whether the first call that throws, if there is one, comes before every symbol
that is not known yet. -/
def throwsBeforeNew (t : Handling) (items : List Json.SymbolsItem) (known : List String) : Bool :=
  (raised t (callsFrom t 0 items)).all fun c => items.zipIdx.all fun x =>
    !(eligible t x.1 && decide (x.1.symbol ∉ known)) || !c.follows x.2

theorem follows_of_mem_callsFrom {t : Handling} {c : Call} :
    ∀ {items : List Json.SymbolsItem} {i j : Nat}, j < i → c ∈ callsFrom t i items →
      c.follows j = true
  | [], _, _, _, hc => by
    rw [List.mem_singleton.mp hc]
    rfl
  | item :: items, i, j, hj, hc => by
    rcases List.mem_append.mp hc with hc | hc
    · unfold callsOf at hc
      split at hc
      · cases hc
      · split at hc
        all_goals
          simp only [List.mem_cons, List.not_mem_nil, or_false] at hc
        · subst hc
          simpa [Call.follows] using hj
        · rcases hc with rfl | rfl
          · simpa [Call.follows] using hj
          · simpa [Call.follows] using hj.le
    · exact follows_of_mem_callsFrom (Nat.lt_succ_of_lt hj) hc

end Rest

/-! ## What is known -/

/-- A symbol has been handed on in an update. -/
def HandedOn (l : List MarketEntry) (symbol : String) : Prop :=
  ∃ symbols, .symbolsUpdate symbols ∈ l ∧ symbol ∈ symbols

/-- The symbols that an entry hands on. -/
def handsOn : MarketEntry → List String
  | .symbolsUpdate symbols => symbols
  | _ => []

theorem handedOn_iff {l : List MarketEntry} {symbol : String} :
    symbol ∈ l.flatMap handsOn ↔ HandedOn l symbol := by
  rw [List.mem_flatMap]
  constructor
  · rintro ⟨x, hx, hs⟩
    cases x with
    | symbolsUpdate symbols => exact ⟨symbols, hx, hs⟩
    | _ => exact absurd hs List.not_mem_nil
  · rintro ⟨symbols, hx, hs⟩
    exact ⟨_, hx, hs⟩

instance (l : List MarketEntry) (symbol : String) : Decidable (HandedOn l symbol) :=
  decidable_of_iff (symbol ∈ l.flatMap handsOn) handedOn_iff

/-- The symbols that are known are exactly the ones that have been handed on, and
every symbol is that is to be subscribed to according to symbols that have been
processed. -/
structure Handed (m : Market) : Prop where
  known : ∀ symbol, symbol ∈ m.allSymbols ↔ HandedOn m.log symbol
  processed : ∀ symbols discards, .processed symbols discards ∈ m.log → ∀ item ∈ symbols.data,
    Rest.included item = true → discards item.symbol = false → HandedOn m.log item.symbol

/-- While items are published: a symbol that is known has been handed on, or will
be. -/
structure Publishing (s : List String × Market) : Prop where
  known : ∀ symbol, symbol ∈ s.2.allSymbols ↔ HandedOn s.2.log symbol ∨ symbol ∈ s.1
  processed : ∀ symbols discards, .processed symbols discards ∈ s.2.log → ∀ item ∈ symbols.data,
    Rest.included item = true → discards item.symbol = false → HandedOn s.2.log item.symbol

/-- An entry that hands nothing on, nor says that symbols have been processed. -/
def Silent : MarketEntry → Prop
  | .symbolsUpdate _ | .processed _ _ => False
  | _ => True

theorem handedOn_cons {x : MarketEntry} (hx : ∀ symbols, x ≠ .symbolsUpdate symbols)
    {l : List MarketEntry} {symbol : String} : HandedOn (x :: l) symbol ↔ HandedOn l symbol := by
  constructor
  · rintro ⟨symbols, hmem, hs⟩
    rcases List.mem_cons.mp hmem with h | hmem
    · exact absurd h.symm (hx symbols)
    · exact ⟨symbols, hmem, hs⟩
  · rintro ⟨symbols, hmem, hs⟩
    exact ⟨symbols, List.mem_cons_of_mem _ hmem, hs⟩

theorem Silent.handedOn_cons {x : MarketEntry} (hx : Silent x) {l : List MarketEntry}
    {symbol : String} : HandedOn (x :: l) symbol ↔ HandedOn l symbol :=
  RoqHtx.handedOn_cons fun symbols h => by rw [h] at hx; exact hx

theorem handedOn_symbolsUpdate {symbols : List String} {l : List MarketEntry} {symbol : String} :
    HandedOn (.symbolsUpdate symbols :: l) symbol ↔ HandedOn l symbol ∨ symbol ∈ symbols := by
  constructor
  · rintro ⟨symbols', hmem, hs⟩
    rcases List.mem_cons.mp hmem with h | hmem
    · cases h
      exact .inr hs
    · exact .inl ⟨symbols', hmem, hs⟩
  · rintro (⟨symbols', hmem, hs⟩ | hs)
    · exact ⟨symbols', List.mem_cons_of_mem _ hmem, hs⟩
    · exact ⟨symbols, List.mem_cons_self, hs⟩

namespace Publishing

variable {s : List String × Market}

theorem push (h : Publishing s) {x : MarketEntry} (hx : Silent x) :
    Publishing (s.1, s.2.push x) where
  known symbol := (h.known symbol).trans (or_congr_left hx.handedOn_cons.symm)
  processed symbols discards hmem item hi hincluded hd := by
    rcases List.mem_cons.mp hmem with rfl | hmem
    · exact hx.elim
    · exact hx.handedOn_cons.mpr (h.processed symbols discards hmem item hi hincluded hd)

theorem emplace (h : Publishing s) (symbol : String) : Publishing (Controller.emplace s symbol) := by
  unfold Controller.emplace
  split
  · exact h
  · refine ⟨fun t => ?_, h.processed⟩
    show t ∈ symbol :: s.2.allSymbols ↔ HandedOn s.2.log t ∨ t ∈ s.1 ++ [symbol]
    rw [List.mem_cons, h.known t, List.mem_append, List.mem_singleton]
    tauto

/-- Nothing is left to be handed on. -/
theorem handed (h : Publishing s) (hnew : s.1 = []) : Handed s.2 where
  known symbol := by
    rw [h.known symbol, hnew]
    exact or_iff_left List.not_mem_nil
  processed := h.processed

end Publishing

namespace Handed

variable {m : Market}

theorem publishing (h : Handed m) : Publishing ([], m) where
  known symbol := (h.known symbol).trans (or_iff_left List.not_mem_nil).symm
  processed := h.processed

theorem push (h : Handed m) {x : MarketEntry} (hx : Silent x) : Handed (m.push x) :=
  (h.publishing.push hx).handed rfl

theorem rest : Rest.Closed Handed where
  push x m hx hm := hm.push (by cases x <;> trivial)
  rest _ _ hm := ⟨hm.known, hm.processed⟩
  requests _ _ hm := ⟨hm.known, hm.processed⟩
  halted _ _ hm := ⟨hm.known, hm.processed⟩

theorem setFeeds (h : Handed m) (l : List Feed.State) (feed : Feed) : Handed (m.setFeeds l feed) := by
  cases feed <;> exact ⟨h.known, h.processed⟩

theorem subscribes : Feed.Subscribes Handed where
  push x m hx hm := hm.push (by cases x <;> trivial)
  setFeeds _ l feed hm := hm.setFeeds l feed
  streamId _ _ hm := ⟨hm.known, hm.processed⟩

end Handed

/-- Handing on what is new leaves nothing. -/
theorem Publishing.onSymbolsUpdate {s : List String × Market} (h : Publishing s) (slicing : Slicing) :
    Handed (Controller.onSymbolsUpdate slicing s.1 s.2) := by
  refine Handed.subscribes.onSymbolsUpdate slicing s.1
    ⟨fun symbol => (h.known symbol).trans handedOn_symbolsUpdate.symm,
      fun symbols discards hmem item hi hincluded hd => ?_⟩
  rcases List.mem_cons.mp hmem with hx | hmem
  · cases hx
  · exact handedOn_symbolsUpdate.mpr (.inl (h.processed symbols discards hmem item hi hincluded hd))

/-! ## The loop over the items -/

namespace Rest

variable {env : MarketEnv} {t : Handling} {items : List Json.SymbolsItem}

/-! ### The calls of an item -/

theorem raised_cons {c : Call} {calls : List Call} (hc : t.raises c = none) :
    raised t (c :: calls) = raised t calls := by
  simp [raised, hc]

theorem raised_cons_self {c : Call} {calls : List Call} {e : Exn} (hc : t.raises c = some e) :
    raised t (c :: calls) = some c := by
  simp [raised, hc]

theorem callsFrom_excluded (i : Nat) {item : Json.SymbolsItem} (items : List Json.SymbolsItem)
    (hincluded : included item = false) : callsFrom t i (item :: items) = callsFrom t (i + 1) items := by
  rw [callsFrom, callsOf, hincluded]
  rfl

theorem callsFrom_discarded (i : Nat) {item : Json.SymbolsItem} (items : List Json.SymbolsItem)
    (hincluded : included item = true) (hdiscard : t.discards item.symbol = true) :
    callsFrom t i (item :: items) = .referenceData i :: callsFrom t (i + 1) items := by
  rw [callsFrom, callsOf, hincluded, hdiscard]
  rfl

theorem callsFrom_eligible (i : Nat) {item : Json.SymbolsItem} (items : List Json.SymbolsItem)
    (hincluded : included item = true) (hdiscard : t.discards item.symbol = false) :
    callsFrom t i (item :: items) =
      .referenceData i :: .marketStatus i :: callsFrom t (i + 1) items := by
  rw [callsFrom, callsOf, hincluded, hdiscard]
  rfl

/-! ### What becomes known -/

theorem mem_emplace {s : List String × Market} {symbol : String} (added : String)
    (hs : symbol ∈ s.2.allSymbols) : symbol ∈ (Controller.emplace s added).2.allSymbols := by
  unfold Controller.emplace
  split
  · exact hs
  · exact List.mem_cons_of_mem added hs

theorem mem_emplace_self (s : List String × Market) (symbol : String) :
    symbol ∈ (Controller.emplace s symbol).2.allSymbols := by
  unfold Controller.emplace
  split
  · assumption
  · exact List.mem_cons_self

/-- Nothing is new if the symbol was known. -/
theorem emplace_of_mem {s : List String × Market} {symbol : String}
    (hs : symbol ∈ s.2.allSymbols) : Controller.emplace s symbol = s :=
  if_pos hs

/-- The loop only adds to what is known. -/
theorem publishItems_known (i : Nat) {s : List String × Market} {symbol : String}
    (hs : symbol ∈ s.2.allSymbols) :
    symbol ∈ (publishItems env t i items s).state.2.allSymbols := by
  refine publishItems_rule (P := fun s => symbol ∈ s.2.allSymbols) (fun _ _ hs => hs)
    (fun added s hs => ?_) items (fun _ _ _ _ _ hs => hs) i hs
  exact mem_emplace added hs

/-- A call that throws from place `i` on does so while nothing is new, and before
what is not known yet. -/
def Spares (t : Handling) (known : List String) (i : Nat) (items : List Json.SymbolsItem)
    (new : List String) : Prop :=
  ∀ c, raised t (callsFrom t i items) = some c →
    new = [] ∧ ∀ x ∈ items.zipIdx i, eligible t x.1 = true → x.1.symbol ∉ known →
      c.follows x.2 = false

/-- How the loop ends: with what is new yet to be handed on, or with nothing new. -/
def Ends (t : Handling) (items : List Json.SymbolsItem) : Outcome Exn (List String × Market) → Prop
  | .ok s => Publishing s ∧ (s.1 ≠ [] → t.raises .symbolsUpdate = none) ∧
      ∀ item ∈ items, eligible t item = true → item.symbol ∈ s.2.allSymbols
  | .throws _ s | .fatal s => Handed s.2

theorem Ends.cons {item : Json.SymbolsItem} {o : Outcome Exn (List String × Market)}
    (h : Ends t items o)
    (hitem : eligible t item = true → item.symbol ∈ o.state.2.allSymbols) :
    Ends t (item :: items) o := by
  cases o with
  | ok s =>
    refine ⟨h.1, h.2.1, fun x hx hx' => ?_⟩
    rcases List.mem_cons.mp hx with rfl | hx
    · exact hitem hx'
    · exact h.2.2 x hx hx'
  | throws e s => exact h
  | fatal s => exact h

/-- The calls of the first item have not thrown. -/
theorem Spares.tail {known new : List String} {i : Nat} {item : Json.SymbolsItem}
    (h : Spares t known i (item :: items) new)
    (hcalls : raised t (callsFrom t i (item :: items)) = raised t (callsFrom t (i + 1) items)) :
    Spares t known (i + 1) items new := fun c hc =>
  have ⟨hnew, hfollows⟩ := h c (hcalls.trans hc)
  ⟨hnew, fun x hx => hfollows x (List.zipIdx_cons ▸ List.mem_cons_of_mem _ hx)⟩

/-- Nothing throws any more once something new has become known. -/
theorem Spares.none {known new : List String} {i : Nat} {item : Json.SymbolsItem}
    (h : Spares t known i (item :: items) new)
    (hcalls : raised t (callsFrom t i (item :: items)) = raised t (callsFrom t (i + 1) items))
    (heligible : eligible t item = true) (hknown : item.symbol ∉ known) :
    raised t (callsFrom t (i + 1) items) = none := by
  by_contra hne
  obtain ⟨c, hc⟩ := Option.ne_none_iff_exists'.mp hne
  have before := (h c (hcalls.trans hc)).2 (item, i) (by rw [List.zipIdx_cons]; exact List.mem_cons_self)
    heligible hknown
  have after : c.follows i = true :=
    follows_of_mem_callsFrom (Nat.lt_succ_self i) (List.mem_of_find?_eq_some hc)
  exact absurd (before.symm.trans after) Bool.false_ne_true

/-- What throws right after an item has become known, was known. -/
theorem Spares.known {known new : List String} {i : Nat} {item : Json.SymbolsItem}
    (h : Spares t known i (item :: items) new) (heligible : eligible t item = true)
    (hfirst : raised t (callsFrom t i (item :: items)) = some (.marketStatus i)) :
    new = [] ∧ item.symbol ∈ known := by
  obtain ⟨hnew, hfollows⟩ := h _ hfirst
  refine ⟨hnew, ?_⟩
  by_contra hunknown
  have hstatus := hfollows (item, i) (List.zipIdx_cons ▸ List.mem_cons_self) heligible hunknown
  simp [Call.follows] at hstatus

theorem publishItems_ends {known : List String} :
    ∀ (items : List Json.SymbolsItem) (i : Nat) (s : List String × Market), Publishing s →
      (∀ symbol ∈ known, symbol ∈ s.2.allSymbols) → Spares t known i items s.1 →
      Ends t items (publishItems env t i items s)
  | [], i, s, hs, _, hspares => by
    refine ⟨hs, fun hne => ?_, fun _ hitem => absurd hitem List.not_mem_nil⟩
    cases hr : t.raises .symbolsUpdate with
    | none => rfl
    | some e => exact absurd (hspares .symbolsUpdate (raised_cons_self hr)).1 hne
  | item :: items, i, s, hs, hknown, hspares => by
    rw [publishItems, publishItem]
    cases hincluded : included item with
    | false =>
      have hcalls := congrArg (raised t) (callsFrom_excluded (t := t) i items hincluded)
      exact (publishItems_ends items (i + 1) s hs hknown (hspares.tail hcalls)).cons
        (by simp [eligible, hincluded])
    | true =>
      cases hreference : t.raises (.referenceData i) with
      | some e =>
        have hfirst : raised t (callsFrom t i (item :: items)) = some (.referenceData i) := by
          cases hdiscard : t.discards item.symbol with
          | true => rw [callsFrom_discarded i items hincluded hdiscard, raised_cons_self hreference]
          | false => rw [callsFrom_eligible i items hincluded hdiscard, raised_cons_self hreference]
        exact hs.handed (hspares _ hfirst).1
      | none =>
        have hs := hs.push (x := .referenceData (referenceData env item (t.discards item.symbol))) trivial
        cases hdiscard : t.discards item.symbol with
        | true =>
          have hcalls : raised t (callsFrom t i (item :: items)) =
              raised t (callsFrom t (i + 1) items) := by
            rw [callsFrom_discarded i items hincluded hdiscard, raised_cons hreference]
          rw [hdiscard] at hs
          exact (publishItems_ends items (i + 1) _ hs hknown (hspares.tail hcalls)).cons
            (by simp [eligible, hdiscard])
        | false =>
          have heligible : eligible t item = true := by simp [eligible, hincluded, hdiscard]
          have hsplit := callsFrom_eligible i items hincluded hdiscard
          rw [hdiscard] at hs
          cases hmarket : t.raises (.marketStatus i) with
          | some e =>
            obtain ⟨hnew, hold⟩ := hspares.known heligible
              (by rw [hsplit, raised_cons hreference, raised_cons_self hmarket])
            have hsame := emplace_of_mem (s := (s.1, s.2.push (.referenceData
              (referenceData env item false)))) (hknown item.symbol hold)
            exact (hs.emplace item.symbol).handed (by rw [hsame]; exact hnew)
          | none =>
            have hcalls : raised t (callsFrom t i (item :: items)) =
                raised t (callsFrom t (i + 1) items) := by
              rw [hsplit, raised_cons hreference, raised_cons hmarket]
            have hs' := (hs.emplace item.symbol).push (x := .marketStatus (marketStatus env item)) trivial
            refine (publishItems_ends items (i + 1) _ hs'
              (fun symbol hsymbol => mem_emplace item.symbol (hknown symbol hsymbol)) ?_).cons
              fun _ => publishItems_known (i + 1) (mem_emplace_self _ item.symbol)
            by_cases hold : item.symbol ∈ s.2.allSymbols
            · have hsame := emplace_of_mem (s := (s.1, s.2.push (.referenceData
                (referenceData env item false)))) hold
              rw [hsame]
              exact hspares.tail hcalls
            · intro c hc
              rw [hspares.none hcalls heligible fun hmem => hold (hknown _ hmem)] at hc
              cases hc

end Rest

/-- Symbols have been processed: every one of them that is wanted has been handed on. -/
theorem Handed.push_processed {m : Market} (h : Handed m) {symbols : Json.Symbols}
    {discards : String → Bool}
    (hall : ∀ item ∈ symbols.data, Rest.included item = true → discards item.symbol = false →
      item.symbol ∈ m.allSymbols) : Handed (m.push (.processed symbols discards)) := by
  have same : ∀ symbol, HandedOn (m.push (.processed symbols discards)).log symbol ↔
      HandedOn m.log symbol := fun symbol => handedOn_cons fun _ h => by cases h
  refine ⟨fun symbol => (h.known symbol).trans (same symbol).symm,
    fun symbols' discards' hmem item hi hincluded hd => (same _).mpr ?_⟩
  rcases List.mem_cons.mp hmem with hx | hmem
  · cases hx
    exact (h.known _).mp (hall item hi hincluded hd)
  · exact h.processed symbols' discards' hmem item hi hincluded hd

namespace Rest

variable {env : MarketEnv} {t : Handling} {symbols : Json.Symbols} {m : Market}

theorem spares_of_throwsBeforeNew {items : List Json.SymbolsItem} {known : List String}
    (h : throwsBeforeNew t items known = true) : Spares t known 0 items [] := fun c hc => by
  rw [throwsBeforeNew, hc, Option.all_some, List.all_eq_true] at h
  refine ⟨rfl, fun x hx heligible hunknown => ?_⟩
  simpa [heligible, hunknown] using h x hx

/-- What is new is handed on, and the symbols have been processed. -/
theorem onSymbols_handed (h : Handed m) (ht : throwsBeforeNew t symbols.data m.allSymbols = true) :
    Handed (onSymbols env t symbols m).state := by
  have ends : Ends t symbols.data (publishItems env t 0 symbols.data ([], m)) :=
    publishItems_ends symbols.data 0 ([], m) h.publishing (fun _ hs => hs)
      (spares_of_throwsBeforeNew ht)
  unfold onSymbols
  generalize publishItems env t 0 symbols.data ([], m) = o at ends
  cases o with
  | throws e s => exact ends
  | fatal s => exact ends
  | ok s =>
    obtain ⟨hs, hraises, hall⟩ := ends
    have wanted : ∀ item ∈ symbols.data, included item = true → t.discards item.symbol = false →
        item.symbol ∈ s.2.allSymbols := fun item hi hincluded hd =>
      hall item hi (by simp [eligible, hincluded, hd])
    rw [Outcome.ok_bind, handOn]
    split
    · rename_i hnew
      exact (hs.handed hnew).push_processed wanted
    · rename_i hnew
      rw [hraises hnew]
      have added : ∀ symbol, symbol ∈ s.2.allSymbols →
          symbol ∈ (Controller.onSymbolsUpdate env.slicing s.1 s.2).allSymbols := fun symbol hsymbol =>
        (Feed.Subscribes.mk (P := fun m => symbol ∈ m.allSymbols) (fun _ _ _ hm => hm)
          (fun _ _ feed hm => by cases feed <;> exact hm) fun _ _ hm => hm).onSymbolsUpdate
            env.slicing s.1 hsymbol
      exact (hs.onSymbolsUpdate env.slicing).push_processed fun item hi hincluded hd =>
        added item.symbol (wanted item hi hincluded hd)

end Rest

theorem Handed.onSubscribe {m : Market} (h : Handed m) (slicing : Slicing) (symbols : List String) :
    Handed (Controller.onSubscribe slicing symbols m) := by
  have start : Publishing ([], m.push (.subscribed symbols)) :=
    (h.push (x := .subscribed symbols) trivial).publishing
  have new : Publishing (symbols.foldl Controller.emplace ([], m.push (.subscribed symbols))) :=
    List.foldlRecOn symbols Controller.emplace start fun _ hs symbol _ => hs.emplace symbol
  exact new.onSymbolsUpdate slicing

namespace Market

/-! ## Runs -/

/-- While symbols are processed, the first call that throws comes before every
symbol that is not known yet. -/
def throwsBeforeNew (env : MarketEnv) (m : Market) : MarketEvent → Bool
  | .response .symbols sequence response t =>
    Rest.skip sequence .symbols m || (response.decoded env.symbols).all fun symbols =>
      !(symbols.status == .ok) || Rest.throwsBeforeNew t symbols.data m.allSymbols
  | _ => true

theorem Leaves.handed {env : MarketEnv} {m m' : Market} {e : MarketEvent} (h : Leaves env m m' e)
    (he : throwsBeforeNew env m e = true) (hm : Handed m) : Handed m' := by
  have rest := Handed.rest
  refine h.rule rest Handed.subscribes (fun sequence response t heq => ?_)
    (fun symbols => hm.onSubscribe env.slicing symbols) hm
  subst heq
  refine Rest.ack_rule (fun _ => rest.retry t.retry .symbols) (fun symbols hskip hdecoded hok => ?_) hm
  have ht : Rest.throwsBeforeNew t symbols.data m.allSymbols = true := by
    simpa [throwsBeforeNew, hskip, hdecoded, hok] using he
  exact Outcome.state_bind (Rest.onSymbols_handed hm ht) fun _ hs => rest.check .symbols response hs

/-- In runs in which no call throws once a new symbol has become known, the symbols
that are known are exactly the ones that have been handed on, and all that are
wanted are after a response that has been processed. -/
theorem known_handed_on (env : MarketEnv) (m : Market)
    (h : (market env).Reach (fun m e => throwsBeforeNew env m e = true) m) :
    (∀ symbol, symbol ∈ m.allSymbols ↔ HandedOn m.log symbol) ∧
      ∀ symbols discards, .processed symbols discards ∈ m.log → ∀ item ∈ symbols.data,
        Rest.included item = true → discards item.symbol = false → HandedOn m.log item.symbol := by
  have init : Handed (market env).init :=
    ⟨fun _ => ⟨fun hs => absurd hs List.not_mem_nil, fun ⟨_, hs, _⟩ => absurd hs List.not_mem_nil⟩,
      fun _ _ hs => absurd hs List.not_mem_nil⟩
  have handed : Handed m :=
    h.invariant init fun _ _ _ hm he hstep => (leaves_of_step hstep).2.handed he hm
  exact ⟨handed.known, handed.processed⟩

/-- A call throws at the first symbol, before it is new; the stage is tried again. -/
theorem known_handed_on_retried : ∃ m : Market,
    m.log.any (fun x => match x with | .downloadRetry _ => true | _ => false) = true ∧
      HandedOn m.log "btcusdt" ∧
      ((∀ symbol, symbol ∈ m.allSymbols ↔ HandedOn m.log symbol) ∧
        ∀ symbols discards, .processed symbols discards ∈ m.log → ∀ item ∈ symbols.data,
          Rest.included item = true → discards item.symbol = false → HandedOn m.log item.symbol) := by
  obtain ⟨m, hm, hretry, hs⟩ := Machine.exists_reach (M := market Reader.marketEnv)
    (C := fun m e => throwsBeforeNew Reader.marketEnv m e = true)
    (P := fun m => m.log.any (fun x => match x with | .downloadRetry _ => true | _ => false) = true ∧
      HandedOn m.log "btcusdt")
    [.restConnected,
      .response .marketStatus 1 (Reader.success Reader.marketStatusBody) Reader.handling,
      .response .currencies 1 (Reader.success Reader.currenciesBody) Reader.handling,
      .response .symbols 1 (Reader.success Reader.openBody) (Reader.throwing (.referenceData 0)),
      .subscribe ["xrpusdt"],
      .response .symbols 1 (Reader.success Reader.openBody) Reader.handling]
    (by decide +kernel)
  exact ⟨m, hretry, hs, known_handed_on Reader.marketEnv m hm⟩

/-- A call throws when the first symbol has just become known. The stage is tried
again, and the download completed, but the symbol is never handed on. -/
theorem known_not_handed_on : ∃ m : Market,
    (market Reader.marketEnv).Reachable m ∧ m.rest.ready = true ∧ "btcusdt" ∈ m.allSymbols ∧
      ¬HandedOn m.log "btcusdt" ∧ HandedOn m.log "ethusdt" :=
  Machine.exists_reach
    [.restConnected,
      .response .marketStatus 1 (Reader.success Reader.marketStatusBody) Reader.handling,
      .response .currencies 1 (Reader.success Reader.currenciesBody) Reader.handling,
      .response .symbols 1 (Reader.success Reader.openBody) (Reader.throwing (.marketStatus 0)),
      .response .symbols 1 (Reader.success Reader.openBody) Reader.handling]
    (by decide +kernel)

end Market

end RoqHtx
