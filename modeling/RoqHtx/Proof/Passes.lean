import RoqHtx.Impl.MarketReader
import RoqHtx.Proof.Market

/-!
# Passes through the download of the symbols

A pass is what has happened since the download has begun. `Rest` gets ready once
each of the three requests has been answered successfully, in their order, in
the pass (`passOk`), and it does not get ready twice. An answer that is late is
skipped, but one that arrives while the connection is down is not, and symbols
that are accepted then complete the pass: the next one finds `Rest` ready
(`ready_twice`). In runs without (`staysUp`), every pass is in order
(`passes_in_order`).
-/

namespace RoqHtx

namespace Rest

/-! ## Passes -/

/-- A response by which a stage succeeds. -/
def succeeds (env : MarketEnv) (response : Response) : Stage → Bool
  | .marketStatus => (response.decoded env.marketStatus).any (·.code == 200)
  | .currencies => (response.decoded env.currencies).any (·.status == .ok)
  | .symbols => (response.decoded env.symbols).any (·.status == .ok)
  | .done => false

def isBegin : MarketEntry → Bool
  | .downloadBegin => true
  | _ => false

def isProcessed : MarketEntry → Bool
  | .processed _ _ => true
  | _ => false

/-- The stage that succeeds. -/
def success (env : MarketEnv) : MarketEntry → Option Stage
  | .downloadCheck stage response => if succeeds env response stage then some stage else none
  | _ => none

/-- The stages that have succeeded in the pass, in order. -/
def successes (env : MarketEnv) (l : List MarketEntry) : List Stage :=
  ((since isBegin l).filterMap (success env)).reverse

/-- `READY` is published in a pass in which all stages have succeeded in order,
symbols are processed once in a pass, and no assertion fails. -/
def passOk (env : MarketEnv) (before : List MarketEntry) : MarketEntry → Bool
  | .restStatus .ready _ =>
    before.any isBegin && successes env before == [.marketStatus, .currencies, .symbols]
  | .processed _ _ => !(since isBegin before).any isProcessed
  | .asserted holds => holds
  | _ => true

def PassesInOrder (env : MarketEnv) (l : List MarketEntry) : Prop :=
  Always (fun l x => passOk env l x = true) l

instance (env : MarketEnv) (l : List MarketEntry) : Decidable (PassesInOrder env l) :=
  inferInstanceAs (Decidable (Always (fun l x => passOk env l x = true) l))

/-! ## The invariant -/

/-- Where a pass is, with the stages `l` still to come. -/
structure InPass (env : MarketEnv) (l : List Stage) (m : Market) : Prop where
  passes : PassesInOrder env m.log
  position : l ≠ [] → m.log.any isBegin = true ∧ successes env m.log ++ l = Stage.all
  /-- Nothing remains once `Rest` is ready. -/
  ready : m.rest.ready = true → m.rest.up = true ∧ l = []
  /-- What has been asked for is out of date, or what the pass waits for or has
  been through. -/
  requests : ∀ stage sequence, (stage, sequence) ∈ m.requests →
    sequence ≤ m.rest.sequence ∧ (sequence = m.rest.sequence → stage ∉ l.tail)
  symbols : .symbols ∈ l → (since isBegin m.log).any isProcessed = false
  /-- The connection is up on entering the last stage. -/
  up : l = [.done] → m.rest.up = true

/-- The download waits, which it never does in its last stage. -/
def Waits (env : MarketEnv) (m : Market) : Prop :=
  InPass env m.rest.download.remaining m ∧ m.rest.download.remaining ≠ [.done]

/-- An entry that is of no importance to a pass. -/
def Plain : MarketEntry → Prop
  | .restStatus status _ => status ≠ .ready
  | .downloadBegin | .downloadCheck _ _ | .processed _ _ | .asserted _ => False
  | _ => True

theorem successes_cons {env : MarketEnv} {x : MarketEntry} (hx : isBegin x = false)
    (l : List MarketEntry) :
    successes env (x :: l) = successes env l ++ (success env x).toList :=
  reverse_filterMap_since_cons _ hx

theorem Plain.passOk {env : MarketEnv} {x : MarketEntry} (hx : Plain x) (l : List MarketEntry) :
    passOk env l x = true := by
  cases x with
  | restStatus status => cases status <;> first | rfl | exact absurd rfl hx
  | downloadBegin | downloadCheck | processed | asserted => exact hx.elim
  | _ => rfl

theorem Plain.isBegin {x : MarketEntry} (hx : Plain x) : isBegin x = false := by
  cases x with
  | downloadBegin => exact hx.elim
  | _ => rfl

theorem Plain.success {x : MarketEntry} (hx : Plain x) (env : MarketEnv) : success env x = none := by
  cases x with
  | downloadCheck => exact hx.elim
  | _ => rfl

theorem Plain.isProcessed {x : MarketEntry} (hx : Plain x) : isProcessed x = false := by
  cases x with
  | processed => exact hx.elim
  | _ => rfl

/-- The last stage comes after the symbols. -/
theorem eq_of_done {l rest : List Stage} (h : l ++ .done :: rest = Stage.all) :
    l = [.marketStatus, .currencies, .symbols] ∧ rest = [] := by
  have hall : [Stage.marketStatus, .currencies, .symbols] ++ .done :: [] = l ++ .done :: rest := h.symm
  obtain ⟨hl, -, hrest⟩ := (List.append_cons_inj_of_notMem (by decide) (by decide)).mp hall
  exact ⟨hl.symm, hrest.symm⟩

namespace InPass

variable {env : MarketEnv} {l : List Stage} {m : Market}

/-- The rest of the state is of no importance. -/
theorem congr {m' : Market} (h : InPass env l m) (hrest : m'.rest = m.rest)
    (hrequests : m'.requests = m.requests) (hlog : m'.log = m.log) : InPass env l m' where
  passes := hlog ▸ h.passes
  position := hlog ▸ h.position
  ready := hrest ▸ h.ready
  requests := hrequests ▸ hrest ▸ h.requests
  symbols := hlog ▸ h.symbols
  up := hrest ▸ h.up

theorem push {x : MarketEntry} (h : InPass env l m) (hx : Plain x) : InPass env l (m.push x) where
  passes := ⟨hx.passOk m.log, h.passes⟩
  position hl := by
    refine ⟨List.any_cons.trans (by rw [(h.position hl).1, Bool.or_true]), ?_⟩
    rw [Market.push, successes_cons hx.isBegin, hx.success, Option.toList_none, List.append_nil]
    exact (h.position hl).2
  ready := h.ready
  requests := h.requests
  symbols hl := by
    rw [Market.push, since_cons_neg hx.isBegin, List.any_cons, hx.isProcessed, h.symbols hl]
    rfl
  up := h.up

/-! ## Walks through the stages -/

/-- `DONE` is entered once all stages have succeeded. -/
theorem done {rest : List Stage} (h : InPass env (.done :: rest) m) :
    InPass env rest (download env .done m).2 := by
  obtain ⟨hbegin, hposition⟩ := h.position (List.cons_ne_nil _ _)
  obtain ⟨hsuccesses, rfl⟩ := eq_of_done hposition
  have hready : m.rest.ready = false :=
    Bool.eq_false_iff.mpr fun hr => List.cons_ne_nil _ _ (h.ready hr).2
  refine ⟨?_, fun hl => absurd rfl hl, fun _ => ⟨h.up rfl, rfl⟩, fun stage sequence hr => ?_,
    fun hs => absurd hs List.not_mem_nil, fun hl => absurd hl (List.cons_ne_nil _ _).symm⟩
  · refine ⟨?_, ?_, rfl, h.passes⟩
    · show (!m.rest.ready) = true
      rw [hready]
      rfl
    · show ((MarketEntry.download Stage.done :: m.log).any isBegin &&
        successes env (.download .done :: m.log) == _) = true
      rw [successes_cons rfl, hsuccesses, List.any_cons, hbegin]
      rfl
  · exact ⟨(h.requests stage sequence hr).1, fun _ => List.not_mem_nil⟩

/-- Any other stage makes a request. -/
theorem asked {stage : Stage} {rest : List Stage} (hstage : stage ≠ .done)
    (h : InPass env (stage :: rest) m) : InPass env (stage :: rest) (download env stage m).2 := by
  have hdownload : (download env stage m).2 =
      get stage (publish .downloading stage.reason (m.push (.download stage))) := by
    cases stage with
    | done => exact absurd rfl hstage
    | _ => rfl
  have entered : InPass env (stage :: rest) (m.push (.download stage)) := h.push trivial
  have published := entered.push (x := .restStatus .downloading stage.reason) fun hs => by cases hs
  have requested := published.push (x := .restRequest stage m.rest.sequence) trivial
  rw [hdownload]
  refine ⟨requested.passes, requested.position, requested.ready, fun s sequence hr => ?_,
    requested.symbols, requested.up⟩
  obtain hnew | hr := List.mem_cons.mp hr
  · -- the stage itself does not remain after it
    cases hnew
    have hnodup : (stage :: rest).Nodup := by
      refine (List.nodup_append.mp (?_ : (successes env m.log ++ stage :: rest).Nodup)).2.1
      rw [(h.position (List.cons_ne_nil _ _)).2]
      decide
    exact ⟨Nat.le_refl _, fun _ => (List.nodup_cons.mp hnodup).1⟩
  · exact h.requests s sequence hr

theorem eq_done_iff (env : MarketEnv) (stage : Stage) (m : Market) :
    (download env stage m).1 = 0 ↔ stage = .done := by
  cases stage <;> simp [download]

/-- A walk ends where a request has been made, or where nothing remains. -/
theorem visit (h : InPass env l m) :
    InPass env (Download.visit (download env) l m).1 (Download.visit (download env) l m).2 ∧
      (Download.visit (download env) l m).1 ≠ [.done] := by
  refine Download.visit_rule (I := InPass env) (J := fun l m => InPass env l m ∧ l ≠ [.done])
    (fun stage rest m h h0 => ?_) (fun stage rest m h h0 => ?_) (fun m h => ⟨h, (List.cons_ne_nil _ _).symm⟩) h
  · obtain rfl := (eq_done_iff env stage m).mp h0
    exact h.done
  · have hstage : stage ≠ .done := fun hs => h0 ((eq_done_iff env stage m).mpr hs)
    exact ⟨h.asked hstage, fun hl => hstage (List.cons.inj hl).1⟩

/-- What was asked for under the last sequence number is out of date. -/
theorem nextSequence (h : InPass env l m) : InPass env l (nextSequence m) :=
  ⟨h.passes, h.position, h.ready, fun stage sequence hr => by
    have hle := (h.requests stage sequence hr).1
    exact ⟨Nat.le_succ_of_le hle, fun he => absurd hle (he ▸ Nat.not_succ_le_self _)⟩,
    h.symbols, h.up⟩

/-- A pass begins: nothing that was asked for before counts, and `Rest` is not
ready. -/
theorem begun (h : InPass env l m) (hready : m.rest.ready = false) :
    InPass env Stage.all ((Rest.nextSequence m).push .downloadBegin) where
  passes := ⟨rfl, h.passes⟩
  position _ := ⟨rfl, rfl⟩
  ready hr := absurd hr (Bool.eq_false_iff.mp hready)
  requests stage sequence hr := by
    have hle := (h.requests stage sequence hr).1
    exact ⟨Nat.le_succ_of_le hle, fun he => absurd hle (he ▸ Nat.not_succ_le_self _)⟩
  symbols _ := rfl
  up hl := absurd hl (by decide)

/-- A stage succeeds. -/
theorem check {stage : Stage} {rest : List Stage} {response : Response}
    (h : InPass env (stage :: rest) m) (hs : succeeds env response stage = true)
    (hup : m.rest.up = true ∨ stage ≠ .symbols) :
    InPass env rest (m.push (.downloadCheck stage response)) := by
  have hsuccess : success env (.downloadCheck stage response) = some stage := if_pos hs
  obtain ⟨hbegin, hposition⟩ := h.position (List.cons_ne_nil _ _)
  refine ⟨⟨rfl, h.passes⟩, fun _ => ⟨hbegin, ?_⟩, fun hr => absurd (h.ready hr).2 (List.cons_ne_nil _ _),
    fun s sequence hr => ?_, fun hs => h.symbols (List.mem_cons_of_mem stage hs), fun hl => ?_⟩
  · rw [Market.push, successes_cons rfl, hsuccess, Option.toList_some, List.append_assoc]
    exact hposition
  · obtain ⟨hle, hlater⟩ := h.requests s sequence hr
    exact ⟨hle, fun he hs => hlater he (List.mem_of_mem_tail hs)⟩
  · -- only the symbols come before the last stage
    subst hl
    have hall : successes env m.log ++ [stage, .done] =
        [.marketStatus, .currencies] ++ [.symbols, .done] := hposition
    have hlast := (List.append_inj' hall rfl).2
    exact hup.resolve_right fun hne => hne (List.cons.inj hlast).1

/-- The symbols succeed, once they have been processed. -/
theorem processed {response : Response} {symbols : Json.Symbols} {discards : String → Bool}
    (h : InPass env [.symbols, .done] m) (hs : succeeds env response .symbols = true)
    (hup : m.rest.up = true) :
    InPass env [.done]
      ((m.push (.processed symbols discards)).push (.downloadCheck .symbols response)) := by
  have checked := h.check hs (.inl hup)
  have hsuccess : success env (.downloadCheck .symbols response) = some .symbols := if_pos hs
  have hprocessed := h.symbols List.mem_cons_self
  refine ⟨⟨rfl, ?_, h.passes⟩, fun hl => ?_, checked.ready, checked.requests, fun hs => absurd hs (by decide),
    fun _ => hup⟩
  · exact congrArg not hprocessed
  · have hposition := checked.position hl
    rw [Market.push, successes_cons rfl] at hposition
    refine ⟨hposition.1, ?_⟩
    have hnone : success env (.processed symbols discards) = none := rfl
    rw [Market.push, successes_cons rfl, Market.push, successes_cons rfl, hnone, Option.toList_none,
      List.append_nil]
    exact hposition.2

end InPass

/-! ## The pieces -/

namespace Waits

variable {env : MarketEnv} {m : Market}

theorem setDownload {r : Download Stage.all × Market}
    (h : InPass env r.1.remaining r.2 ∧ r.1.remaining ≠ [.done]) : Waits env (setDownload r) :=
  ⟨⟨h.1.passes, h.1.position, h.1.ready, h.1.requests, h.1.symbols, h.1.up⟩, h.2⟩

theorem push {x : MarketEntry} (h : Waits env m) (hx : Plain x) : Waits env (m.push x) :=
  ⟨h.1.push hx, h.2⟩

theorem reissue (h : InPass env m.rest.download.remaining m) : Waits env (reissue env m) :=
  setDownload h.visit

theorem retry (how : Retry) (stage : Stage) (h : Waits env m) : Waits env (retry env how stage m) := by
  have logged : Waits env (m.push (.downloadRetry stage)) := h.push trivial
  unfold Rest.retry
  dsimp only
  split
  · cases how with
    | later => exact logged
    | reissue => exact reissue logged.1
    | bump => exact reissue logged.1.nextSequence
  · exact logged

theorem onConnected (h : Waits env m) (hup : m.rest.up = false) : Waits env (onConnected env m) := by
  have hready : m.rest.ready = false :=
    Bool.eq_false_iff.mpr fun hr => Bool.false_ne_true (hup.symm.trans (h.1.ready hr).1)
  let connected : Market := { m with rest := { m.rest with up := true } }
  have up : InPass env m.rest.download.remaining connected :=
    ⟨h.1.passes, h.1.position, fun hr => ⟨rfl, (h.1.ready hr).2⟩, h.1.requests, h.1.symbols, fun _ => rfl⟩
  have logged : InPass env m.rest.download.remaining (connected.push .restConnected) := up.push trivial
  unfold Rest.onConnected
  dsimp only
  split
  · exact reissue logged.nextSequence
  · exact setDownload (logged.begun hready).visit

theorem onDisconnected (h : Waits env m) : Waits env (onDisconnected m) := by
  let disconnected : Market := { m with rest := { m.rest with up := false, ready := false } }
  have down : InPass env m.rest.download.remaining disconnected :=
    ⟨h.1.passes, h.1.position, fun hr => absurd hr Bool.false_ne_true, h.1.requests, h.1.symbols,
      fun hl => absurd hl h.2⟩
  have logged := down.push (x := .restDisconnected) trivial
  have published := logged.push (x := .restStatus .disconnected "") fun hs => by cases hs
  have lost : InPass env m.rest.download.remaining
      (publish .disconnected "" (disconnected.push .restDisconnected)) :=
    ⟨published.passes, published.position, published.ready, published.requests, published.symbols,
      published.up⟩
  unfold Rest.onDisconnected
  dsimp only
  split
  · rename_i hidle
    have hnil : m.rest.download.remaining = [] := by
      have hidle : (!m.rest.download.downloading) = true := hidle
      simpa [Download.downloading] using hidle
    rw [hnil] at lost
    exact setDownload (r := (.idle, _)) ⟨lost, (List.cons_ne_nil _ _).symm⟩
  · exact ⟨lost, h.2⟩

/-- An answer that is not skipped is one to the stage that the download waits
in. -/
theorem head_of_not_skip {stage : Stage} {sequence : Nat} (h : Waits env m)
    (hr : (stage, sequence) ∈ m.requests) (hskip : skip sequence stage m = false) :
    m.rest.download.remaining = stage :: m.rest.download.remaining.tail := by
  obtain ⟨hle, hlater⟩ := h.1.requests stage sequence hr
  simp only [skip, Download.passed, Bool.or_eq_false_iff, decide_eq_false_iff_not, not_lt,
    not_not] at hskip
  have hnot := hlater (Nat.le_antisymm hle hskip.1)
  cases hremaining : m.rest.download.remaining with
  | nil => exact absurd hskip.2 (hremaining ▸ List.not_mem_nil)
  | cons s l =>
    rw [hremaining] at hskip hnot
    obtain rfl | hmem := List.mem_cons.mp hskip.2
    · rfl
    · exact absurd hmem hnot

theorem check {stage : Stage} {rest : List Stage} {response : Response}
    (hremaining : m.rest.download.remaining = stage :: rest)
    (h : InPass env rest (m.push (.downloadCheck stage response))) :
    Waits env (check env stage response m) := by
  have hstate : m.rest.download.state = some stage := by rw [Download.state, hremaining]; rfl
  have htail : m.rest.download.remaining.tail = rest := by rw [hremaining]; rfl
  refine setDownload ?_
  unfold Download.check
  rw [if_pos hstate]
  rw [← htail] at h
  exact h.visit

/-- The streams are of no importance. -/
theorem closed (env : MarketEnv) (l : List Stage) (rest : State) :
    Feed.Closed fun m => InPass env l m ∧ m.rest = rest where
  push x m hx h := ⟨h.1.push (by cases x <;> trivial), h.2⟩
  setFeeds m l feed h := by cases feed <;> exact ⟨h.1.congr rfl rfl rfl, h.2⟩
  streamId m streamId h := ⟨h.1.congr rfl rfl rfl, h.2⟩
  symbols m symbols h := ⟨h.1.congr rfl rfl rfl, h.2⟩
  allSymbols m allSymbols h := ⟨h.1.congr rfl rfl rfl, h.2⟩

theorem of_closed {m' : Market} (h : Waits env m)
    (h' : InPass env m.rest.download.remaining m' ∧ m'.rest = m.rest) : Waits env m' :=
  ⟨h'.2.symm ▸ h'.1, h'.2.symm ▸ h.2⟩

/-! ## Answers -/

/-- The answer to a stage that does nothing but succeed. -/
theorem ack {α : Type} {stage : Stage} {decode : String → Except Exn α} {accepted : α → Bool}
    {text : α → String} {sequence : Nat} {response : Response} (t : Handling)
    (hstage : stage ≠ .symbols)
    (hsucceeds : succeeds env response stage = (response.decoded decode).any accepted)
    (hr : (stage, sequence) ∈ m.requests) (h : Waits env m) :
    Waits env (ack env stage decode accepted text (fun _ m => .ok m) sequence response t m).state := by
  refine ack_rule (fun _ hm => hm.retry t.retry stage) (fun a hskip hdecoded haccepted => ?_) h
  have hremaining := h.head_of_not_skip hr hskip
  have waiting : InPass env (stage :: m.rest.download.remaining.tail) m := hremaining ▸ h.1
  have hs : succeeds env response stage = true := by
    rw [hsucceeds, hdecoded]
    exact haccepted
  exact check hremaining (waiting.check hs (.inr hstage))

/-- The answer with the symbols, while the connection is up. -/
theorem getSymbolsAck {sequence : Nat} {response : Response} (t : Handling)
    (hup : m.rest.up = true ∨ skip sequence .symbols m = true ∨
      succeeds env response .symbols = false)
    (hr : (.symbols, sequence) ∈ m.requests) (h : Waits env m) :
    Waits env (getSymbolsAck env sequence response t m).state := by
  refine ack_rule (fun _ hm => hm.retry t.retry .symbols) (fun symbols hskip hdecoded hstatus => ?_) h
  have hs : succeeds env response .symbols = true := by
    rw [succeeds, hdecoded]
    exact hstatus
  have hup : m.rest.up = true := by simpa [hskip, hs] using hup
  have hremaining : m.rest.download.remaining = [.symbols, .done] := by
    have hhead := h.head_of_not_skip hr hskip
    have hstate : m.rest.download.state = some .symbols := by
      rw [Download.state, hhead]
      rfl
    rw [Download.remaining_of_state (by decide) hstate]
    rfl
  have own := closed env [.symbols, .done] m.rest
  have waiting : InPass env [.symbols, .done] m ∧ m.rest = m.rest := ⟨hremaining ▸ h.1, rfl⟩
  refine onSymbols_rule (P := fun s => InPass env [.symbols, .done] s.2 ∧ s.2.rest = m.rest)
    (I := fun m' => InPass env [.symbols, .done] m' ∧ m'.rest = m.rest)
    (fun _ _ hs => ⟨hs.1.push trivial, hs.2⟩) (fun symbol _ hs => own.emplace symbol hs)
    (fun _ _ _ _ _ hs => ⟨hs.1.push trivial, hs.2⟩) (fun _ hs => hs)
    (fun s hs => own.onSymbolsUpdate env.slicing s.1 hs) (fun m' hm => ?_) (fun m' hm => ?_) waiting
  · exact h.of_closed (hremaining ▸ hm)
  · have hrest : m'.rest = m.rest := hm.2
    have waiting : m'.rest.download.remaining = [.symbols, .done] := by rw [hrest, hremaining]
    exact check waiting (hm.1.processed hs (hrest ▸ hup))

end Waits

end Rest

namespace Market

open Rest (Waits PassesInOrder)

/-! ## Runs -/

/-- Symbols are not accepted while the connection is down. -/
def staysUp (env : MarketEnv) (m : Market) : MarketEvent → Bool
  | .response .symbols sequence response _ =>
    m.rest.up || Rest.skip sequence .symbols m || !Rest.succeeds env response .symbols
  | _ => true

theorem Leaves.waits {env : MarketEnv} {m m' : Market} {e : MarketEvent} (h : Leaves env m m' e)
    (he : staysUp env m e = true) (hm : Waits env m) : Waits env m' := by
  have streams := Waits.closed env m.rest.download.remaining m.rest
  have own : Rest.InPass env m.rest.download.remaining m ∧ m.rest = m.rest := ⟨hm.1, rfl⟩
  cases e with
  | restConnected => exact h.2 ▸ hm.onConnected h.1
  | restDisconnected => exact h.2 ▸ hm.onDisconnected
  | response stage sequence response t =>
    obtain ⟨hr, rfl⟩ := h
    cases stage with
    | marketStatus => exact hm.ack t (by decide) rfl hr
    | currencies => exact hm.ack t (by decide) rfl hr
    | symbols =>
      refine hm.getSymbolsAck t ?_ hr
      simpa [staysUp, or_assoc] using he
    | done => exact hm
  | subscribe symbols => exact h ▸ hm.of_closed (streams.onSubscribe env.slicing symbols own)
  | feedReady feed index => exact h.2 ▸ hm.of_closed (streams.subscribes.onReady env.slicing feed index own)
  | feedDisconnected feed index => exact h.2 ▸ hm.of_closed (streams.subscribes.onDisconnected feed index own)
  | timer feed index count => exact h ▸ hm.of_closed (streams.subscribes.onTimer feed index count own)
  | requestSnapshot index symbol =>
    exact h ▸ hm.of_closed (streams.subscribes.request index symbol own)

/-- In runs in which no symbols are accepted while the connection is down, `Rest`
gets ready at the end of a pass through its stages in order, and once. -/
theorem passes_in_order (env : MarketEnv) (m : Market)
    (h : (market env).Reach (fun m e => staysUp env m e = true) m) : PassesInOrder env m.log := by
  have init : Waits env (market env).init :=
    ⟨⟨trivial, fun hl => absurd rfl hl, fun hr => absurd hr Bool.false_ne_true,
      fun _ _ hr => absurd hr List.not_mem_nil, fun hs => absurd hs List.not_mem_nil,
      fun hl => absurd hl (List.cons_ne_nil _ _).symm⟩, (List.cons_ne_nil _ _).symm⟩
  have waits : Waits env m :=
    h.invariant init fun _ _ _ hm he hstep => (leaves_of_step hstep).2.waits he hm
  exact waits.1.passes

/-- A pass that is interrupted, and another one. -/
theorem passes_in_order_twice : ∃ m : Market,
    (m.log.filter Rest.isBegin).length = 2 ∧ m.rest.ready = true ∧
      PassesInOrder Reader.marketEnv m.log := by
  obtain ⟨m, hm, hbegin, hready⟩ := Machine.exists_reach (M := market Reader.marketEnv)
    (C := fun m e => staysUp Reader.marketEnv m e = true)
    (P := fun m => (m.log.filter Rest.isBegin).length = 2 ∧ m.rest.ready = true)
    ([.restConnected,
        .response .marketStatus 1 (Reader.success Reader.marketStatusBody) Reader.handling,
        .restDisconnected, .restConnected,
        .response .currencies 1 (Reader.success Reader.currenciesBody) Reader.handling,
        .response .currencies 2 (Reader.success Reader.currenciesBody) Reader.handling,
        .response .symbols 2 (Reader.success Reader.openBody) Reader.handling,
        .restDisconnected, .restConnected] ++
      Reader.symbolsDownload 3 Reader.openBody)
    (by decide +kernel)
  exact ⟨m, hbegin, hready, passes_in_order Reader.marketEnv m hm⟩

/-- The symbols arrive after the connection has been lost: `Rest` gets ready, and
is so still at the end of the next pass. -/
theorem ready_twice : ∃ m : Market,
    (market Reader.marketEnv).Reachable m ∧ ¬PassesInOrder Reader.marketEnv m.log ∧
      m.halted = true :=
  Machine.exists_reach
    ([.restConnected,
        .response .marketStatus 1 (Reader.success Reader.marketStatusBody) Reader.handling,
        .response .currencies 1 (Reader.success Reader.currenciesBody) Reader.handling,
        .restDisconnected,
        .response .symbols 1 (Reader.success Reader.openBody) Reader.handling,
        .restConnected] ++
      Reader.symbolsDownload 2 Reader.openBody)
    (by decide +kernel)

end Market

end RoqHtx
