import RoqHtx.Framework.Simulation
import RoqHtx.Impl.MarketReader
import RoqHtx.Proof.Market

/-!
# The symbols can always be downloaded

Whatever has been lost or refused, a new connection gets ready if the exchange
answers what it is asked then (`Market.download_recovers`): a download that was under way
goes on in its stage, any other one starts from the first stage, and each stage
waits for the request that it has made last (`Rest.Awaits`).
-/

namespace RoqHtx

/-- A response with a success status. -/
def Response.success (body : String) : Response := ⟨.ok (⟨200, "OK"⟩, .success, body), none⟩

namespace Rest

/-- What the exchange may answer. -/
structure Answers (env : MarketEnv) where
  marketStatus : String
  currencies : String
  symbols : String
  marketStatus_ok : ∃ a, env.marketStatus marketStatus = .ok a ∧ a.code = 200
  currencies_ok : ∃ a, env.currencies currencies = .ok a ∧ a.status = .ok
  symbols_ok : ∃ a, env.symbols symbols = .ok a ∧ a.status = .ok

/-- Nothing is discarded, and nothing throws. -/
def smooth : Handling := ⟨fun _ => false, fun _ => none, .later⟩

/-- A connection that has not got ready. -/
structure Connected (m : Market) : Prop where
  running : m.halted = false
  up : m.rest.up = true
  ready : m.rest.ready = false

/-- A stage waits for the answer to its latest request. -/
structure Awaits (stage : Stage) (m : Market) : Prop extends Connected m where
  state : m.rest.download.state = some stage
  asked : (stage, m.rest.sequence) ∈ m.requests

structure IsReady (m : Market) : Prop where
  running : m.halted = false
  up : m.rest.up = true
  ready : m.rest.ready = true
  status : m.rest.connectionStatus = .ready

variable {env : MarketEnv} {m : Market}

/-! ## Stages -/

/-- A stage has been entered and waits: nothing else that counts here has changed. -/
structure Entered (stage : Stage) (m m' : Market) : Prop where
  halted : m'.halted = m.halted
  up : m'.rest.up = m.rest.up
  ready : m'.rest.ready = m.rest.ready
  state : m'.rest.download.state = some stage
  asked : (stage, m'.rest.sequence) ∈ m'.requests

theorem Entered.awaits {stage : Stage} {m' : Market} (h : Entered stage m m') (hm : Connected m) :
    Awaits stage m' :=
  ⟨⟨h.halted.trans hm.running, h.up.trans hm.up, h.ready.trans hm.ready⟩, h.state, h.asked⟩

variable (env) in
theorem visit_entered {stage : Stage} (hstage : stage ≠ .done) (rest : List Stage) (m : Market)
    (hvisit : (Download.visit (download env) (stage :: rest) m).1 <:+ Stage.all) :
    Entered stage m
      (setDownload (⟨_, hvisit⟩, (Download.visit (download env) (stage :: rest) m).2)) := by
  cases stage with
  | marketStatus | currencies | symbols => exact ⟨rfl, rfl, rfl, rfl, List.mem_cons_self⟩
  | done => exact absurd rfl hstage

theorem begin_entered (m : Market) : Entered .marketStatus m (begin env m) :=
  ⟨rfl, rfl, rfl, rfl, List.mem_cons_self⟩

/-- A download goes on in its stage. -/
theorem bump_entered (h : m.rest.download.downloading = true)
    (hdone : m.rest.download.remaining ≠ [.done]) :
    ∃ stage, stage ≠ .done ∧ Entered stage m (bump env m) := by
  obtain ⟨⟨up, ready, status, ⟨remaining, hsuffix⟩, sequence⟩⟩ := m
  cases remaining with
  | nil => exact absurd h Bool.false_ne_true
  | cons stage rest =>
    have hstage : stage ≠ .done := by
      rintro rfl
      exact hdone (congrArg _ (Download.rest_of_last (by decide) rfl hsuffix))
    obtain ⟨halted, up, ready, state, asked⟩ := visit_entered env hstage rest
      (nextSequence
        ⟨⟨up, ready, status, ⟨stage :: rest, hsuffix⟩, sequence⟩, _, _, _, _, _, _, _, _⟩)
      ((Download.visit_suffix _ _ _).trans hsuffix)
    exact ⟨stage, hstage, halted, up, ready, state, asked⟩

/-- The last stage waits for nothing. -/
def Arrives (stage : Stage) (m : Market) : Prop :=
  if stage = .done then IsReady m else Awaits stage m

variable (env) in
/-- A stage that is entered on a connection that has not got ready. -/
theorem enters (h : Connected m) (stage : Stage) (rest : List Stage)
    (hsuffix : stage :: rest <:+ Stage.all)
    (hvisit : (Download.visit (download env) (stage :: rest) m).1 <:+ Stage.all) :
    Arrives stage (setDownload
      (⟨_, hvisit⟩, (Download.visit (download env) (stage :: rest) m).2)) := by
  by_cases hstage : stage = .done
  · subst hstage
    obtain rfl := Download.rest_of_last (by decide) rfl hsuffix
    refine (if_pos rfl).symm.mp ⟨?_, h.up, rfl, rfl⟩
    show (m.halted || !(!m.rest.ready) && env.assertions) = false
    rw [h.running, h.ready]
    rfl
  · exact (if_neg hstage).symm.mp ((visit_entered env hstage rest m hvisit).awaits h)

variable (env) in
/-- The stage after one that has succeeded. -/
theorem check_arrives {stage next : Stage} {rest : List Stage} (response : Response)
    (h : Connected m) (hstate : m.rest.download.state = some stage)
    (hrest : Stage.all.dropWhile (fun t => t != stage) = stage :: next :: rest) :
    Arrives next (check env stage response m) := by
  have hremaining : m.rest.download.remaining = stage :: next :: rest :=
    (Download.remaining_of_state (by decide) hstate).trans hrest
  have hsuffix : next :: rest <:+ Stage.all :=
    (List.suffix_cons stage _).trans (hremaining ▸ m.rest.download.suffix)
  have connected : Connected (m.push (.downloadCheck stage response)) :=
    ⟨h.running, h.up, h.ready⟩
  have entered := enters env connected next rest hsuffix ((Download.visit_suffix _ _ _).trans hsuffix)
  unfold check Download.check
  rw [if_pos hstate]
  simp only [hremaining, List.tail_cons]
  exact entered

/-! ## Answers -/

/-- An answer that is in time and accepted. -/
theorem ack_answered {α : Type} {stage : Stage} {decode : String → Except Exn α}
    {accepted : α → Bool} {text : α → String} {onAck : α → Market → Outcome Exn Market}
    (h : Awaits stage m) {body : String} {a : α} {m' : Market} (t : Handling)
    (hdecode : decode body = .ok a) (haccepted : accepted a = true) (honAck : onAck a m = .ok m') :
    ack env stage decode accepted text onAck m.rest.sequence (.success body) t m =
      .ok (check env stage (.success body) m') := by
  have hskip : skip m.rest.sequence stage m = false := by
    have hmem : stage ∈ m.rest.download.remaining := List.mem_of_mem_head? h.state
    simp [skip, Download.passed, hmem]
  simp [ack, processResponse, processResult, Response.success, hskip, hdecode, haccepted, honAck,
    catchException]

variable (env) in
theorem publishItems_smooth :
    ∀ (items : List Json.SymbolsItem) (i : Nat) (s : List String × Market),
      ∃ s', publishItems env smooth i items s = .ok s'
  | [], _, s => ⟨s, rfl⟩
  | item :: items, i, s => by
    obtain ⟨s₁, hs₁⟩ : ∃ s₁, publishItem env smooth i item s = .ok s₁ := by
      unfold publishItem
      split
      · exact ⟨s, rfl⟩
      · exact ⟨_, rfl⟩
    obtain ⟨s', hs'⟩ := publishItems_smooth items (i + 1) s₁
    exact ⟨s', by rw [publishItems, hs₁]; exact hs'⟩

variable (env) in
/-- Symbols are no business of the download's. -/
theorem onSymbols_rest (t : Handling) (symbols : Json.Symbols) (m : Market) :
    (onSymbols env t symbols m).state.rest = m.rest ∧
      (onSymbols env t symbols m).state.halted = m.halted := by
  have streams : Feed.Subscribes fun s => s.rest = m.rest ∧ s.halted = m.halted :=
    ⟨fun _ _ _ hs => hs, fun _ _ feed hs => by cases feed <;> exact hs, fun _ _ hs => hs⟩
  rw [← Outcome.bind_ok (onSymbols env t symbols m)]
  exact onSymbols_rule
    (P := fun s : List String × Market => s.2.rest = m.rest ∧ s.2.halted = m.halted)
    (I := fun s => s.rest = m.rest ∧ s.halted = m.halted)
    (J := fun s => s.rest = m.rest ∧ s.halted = m.halted) (fun _ _ hs => hs)
    (fun symbol s hs => by unfold Controller.emplace; split <;> exact hs) (fun _ _ _ _ _ hs => hs)
    (fun _ hs => hs) (fun s hs => streams.onSymbolsUpdate env.slicing s.1 hs) (fun _ hs => hs)
    (fun _ hs => hs) ⟨rfl, rfl⟩

variable (env) in
theorem onSymbols_smooth (symbols : Json.Symbols) (m : Market) :
    ∃ m', onSymbols env smooth symbols m = .ok m' ∧ m'.rest = m.rest ∧
      m'.halted = m.halted := by
  obtain ⟨m', hm'⟩ : ∃ m', onSymbols env smooth symbols m = .ok m' := by
    obtain ⟨s, hs⟩ := publishItems_smooth env symbols.data 0 ([], m)
    unfold onSymbols
    rw [hs, Outcome.ok_bind]
    unfold handOn
    split <;> exact ⟨_, rfl⟩
  have same := onSymbols_rest env smooth symbols m
  rw [hm'] at same
  exact ⟨m', hm', same⟩

/-! ## No download waits in its last stage -/

def NotDone (m : Market) : Prop := m.rest.download.remaining ≠ [.done]

theorem visit_ne_done (l : List Stage) (m : Market) :
    (Download.visit (download env) l m).1 ≠ [.done] := by
  refine Download.visit_rule (I := fun _ _ => True) (J := fun l _ => l ≠ [Stage.done])
    (fun _ _ _ _ _ => trivial) (fun stage rest s _ hwait => ?_) (fun _ _ => nofun) trivial
  rintro ⟨⟩
  exact hwait rfl

theorem check_notDone (stage : Stage) (response : Response) (h : NotDone m) :
    NotDone (check env stage response m) := by
  unfold NotDone check setDownload Download.check
  dsimp only
  split
  · exact visit_ne_done _ _
  · exact h

theorem retry_notDone (how : Retry) (stage : Stage) (h : NotDone m) :
    NotDone (retry env how stage m) := by
  unfold retry
  dsimp only
  split
  · cases how with
    | later => exact h
    | reissue | bump => exact visit_ne_done _ _
  · exact h

theorem onResponse_notDone (stage : Stage) (sequence : Nat) (response : Response) (t : Handling)
    (h : NotDone m) : NotDone (onResponse env stage sequence response t m).state := by
  cases stage with
  | marketStatus | currencies =>
    exact ack_rule (fun _ => retry_notDone t.retry _) (fun _ _ _ _ => check_notDone _ response h) h
  | symbols =>
    refine ack_rule (fun _ => retry_notDone t.retry _) (fun symbols _ _ _ => ?_) h
    have same : NotDone (onSymbols env t symbols m).state := by
      rw [NotDone, (onSymbols_rest env t symbols m).1]
      exact h
    exact Outcome.state_bind same fun _ hs => check_notDone .symbols response hs
  | done => exact h

end Rest

namespace Market

open Rest (Answers Connected Awaits Arrives IsReady NotDone smooth)

variable {env : MarketEnv} {m : Market}

theorem notDone (h : (market env).Reachable m) : NotDone m := by
  have hinit : NotDone (Market.init env) := (List.cons_ne_nil Rest.Stage.done []).symm
  refine h.invariant (I := NotDone) hinit fun s e s' hs _ hstep => ?_
  have leaves := (leaves_of_step hstep).2
  have streams : Feed.Subscribes NotDone :=
    ⟨fun _ _ _ hs => hs, fun _ _ feed hs => by cases feed <;> exact hs, fun _ _ hs => hs⟩
  cases e with
  | restConnected =>
    rw [leaves.2]
    unfold Rest.onConnected
    dsimp only
    split <;> exact Rest.visit_ne_done _ _
  | restDisconnected =>
    rw [leaves.2]
    unfold Rest.onDisconnected
    dsimp only
    split
    · exact nofun
    · exact hs
  | response stage sequence response t =>
    exact leaves.2 ▸ Rest.onResponse_notDone stage sequence response t hs
  | subscribe symbols =>
    have known : NotDone (symbols.foldl Controller.emplace ([], s.push (.subscribed symbols))).2 :=
      List.foldlRecOn (motive := fun s : List String × Market => NotDone s.2) symbols _ hs
        fun _ hs symbol _ => by unfold Controller.emplace; split <;> exact hs
    exact leaves ▸ streams.onSymbolsUpdate env.slicing _ known
  | feedReady feed index => exact leaves.2 ▸ streams.onReady env.slicing feed index hs
  | feedDisconnected feed index => exact leaves.2 ▸ streams.onDisconnected feed index hs
  | timer feed index count => exact leaves ▸ streams.onTimer feed index count hs
  | requestSnapshot index symbol => exact leaves ▸ streams.request index symbol hs

/-! ## Connections -/

/-- The connection comes and goes, and the exchange answers. -/
def Exchange (answers : Answers env) : MarketEvent → Prop
  | .restConnected | .restDisconnected => True
  | .response _ _ response t =>
    t = smooth ∧
      response ∈ [answers.marketStatus, answers.currencies, answers.symbols].map .success
  | _ => False

variable (env) in
/-- A connection that is made waits in some stage. -/
theorem connects (hrunning : m.halted = false) (hup : m.rest.up = false) (hdone : NotDone m) :
    ∃ m', (market env).step m .restConnected = some m' ∧ m'.halted = false ∧
      m'.rest.up = true ∧ (m.rest.ready = false → ∃ stage, stage ≠ .done ∧ Awaits stage m') := by
  have hstep : (market env).step m .restConnected = some (Rest.onConnected env m) := by
    show (if m.halted then none else if m.rest.up then none else some (Rest.onConnected env m)) = _
    rw [hrunning, hup]
    rfl
  obtain ⟨stage, hstage, hentered⟩ : ∃ stage, stage ≠ .done ∧ Rest.Entered stage
      ({ m with rest := { m.rest with up := true } }.push .restConnected)
      (Rest.onConnected env m) := by
    unfold Rest.onConnected
    dsimp only
    split
    · rename_i hdownloading
      exact Rest.bump_entered hdownloading hdone
    · exact ⟨.marketStatus, nofun, Rest.begin_entered _⟩
  exact ⟨_, hstep, hentered.halted.trans hrunning, hentered.up, fun hready =>
    ⟨stage, hstage, hentered.awaits ⟨hrunning, rfl, hready⟩⟩⟩

variable (env) in
/-- A connection that is lost has not got ready. -/
theorem disconnects (hrunning : m.halted = false) (hup : m.rest.up = true) (hdone : NotDone m) :
    ∃ m', (market env).step m .restDisconnected = some m' ∧ m'.halted = false ∧
      m'.rest.up = false ∧ m'.rest.ready = false ∧ NotDone m' := by
  refine ⟨Rest.onDisconnected m, ?_, ?_⟩
  · show (if m.halted then none else if m.rest.up then some (Rest.onDisconnected m) else none) = _
    rw [hrunning, hup]
    rfl
  · unfold Rest.onDisconnected
    dsimp only
    split
    · exact ⟨hrunning, rfl, rfl, (List.cons_ne_nil Rest.Stage.done []).symm⟩
    · exact ⟨hrunning, rfl, rfl, hdone⟩

/-! ## Answers -/

variable (answers : Answers env)

/-- The answer to the latest request of a stage. -/
theorem answers_leads {stage : Rest.Stage} (next : Rest.Stage) (h : Awaits stage m) (body : String)
    (hbody : body ∈ [answers.marketStatus, answers.currencies, answers.symbols])
    (harrives : Arrives next
      (Rest.onResponse env stage m.rest.sequence (.success body) smooth m).state) :
    ∃ m', (market env).Leads (Exchange answers) 1 m m' ∧ Arrives next m' := by
  have hstep : (market env).step m (.response stage m.rest.sequence (.success body) smooth) =
      some (Rest.onResponse env stage m.rest.sequence (.success body) smooth m).state := by
    show Market.step env m _ = _
    rw [Market.step, h.running, Market.handle, if_pos h.asked]
    rfl
  have hevent : Exchange answers (.response stage m.rest.sequence (.success body) smooth) :=
    ⟨rfl, List.mem_map_of_mem hbody⟩
  exact ⟨_, .step hevent hstep, harrives⟩

theorem symbols_leads (h : Awaits .symbols m) :
    ∃ m', (market env).Leads (Exchange answers) 1 m m' ∧ IsReady m' := by
  obtain ⟨a, hdecode, hok⟩ := answers.symbols_ok
  obtain ⟨m', hm', hrest, hhalted⟩ := Rest.onSymbols_smooth env a m
  have arrives := Rest.check_arrives env (m := m') (.success answers.symbols)
    ⟨hhalted.trans h.running, hrest ▸ h.up, hrest ▸ h.ready⟩ (hrest ▸ h.state) rfl
  refine answers_leads answers .done h answers.symbols (by simp) <| by
    rw [Rest.onResponse, Rest.getSymbolsAck, Rest.ack_answered h smooth hdecode (by simp [hok]) hm']
    exact arrives

theorem currencies_leads (h : Awaits .currencies m) :
    ∃ m', (market env).Leads (Exchange answers) 2 m m' ∧ IsReady m' := by
  obtain ⟨a, hdecode, hok⟩ := answers.currencies_ok
  obtain ⟨m₁, hleads, hsymbols⟩ := answers_leads answers .symbols h
    answers.currencies (by simp) <| by
      rw [Rest.onResponse, Rest.getCurrenciesAck,
        Rest.ack_answered h smooth hdecode (by simp [hok]) rfl]
      exact Rest.check_arrives env _ h.toConnected h.state rfl
  obtain ⟨m', hleads', hready⟩ := symbols_leads answers hsymbols
  exact ⟨m', hleads.trans hleads', hready⟩

theorem marketStatus_leads (h : Awaits .marketStatus m) :
    ∃ m', (market env).Leads (Exchange answers) 3 m m' ∧ IsReady m' := by
  obtain ⟨a, hdecode, hok⟩ := answers.marketStatus_ok
  obtain ⟨m₁, hleads, hcurrencies⟩ := answers_leads answers .currencies h
    answers.marketStatus (by simp) <| by
      rw [Rest.onResponse, Rest.getMarketStatusAck,
        Rest.ack_answered h smooth hdecode (by simp [hok]) rfl]
      exact Rest.check_arrives env _ h.toConnected h.state rfl
  obtain ⟨m', hleads', hready⟩ := currencies_leads answers hcurrencies
  exact ⟨m', hleads.trans hleads', hready⟩

/-- Whatever stage waits, the exchange can answer what is asked from there on. -/
theorem awaits_leads {stage : Rest.Stage} (hstage : stage ≠ .done) (h : Awaits stage m) :
    ∃ m', (market env).Leads (Exchange answers) 3 m m' ∧ IsReady m' := by
  cases stage with
  | marketStatus => exact marketStatus_leads answers h
  | currencies =>
    obtain ⟨m', hleads, hready⟩ := currencies_leads answers h
    exact ⟨m', hleads.mono (by decide), hready⟩
  | symbols =>
    obtain ⟨m', hleads, hready⟩ := symbols_leads answers h
    exact ⟨m', hleads.mono (by decide), hready⟩
  | done => exact absurd rfl hstage

/-- From a connection that is down and has not got ready. -/
theorem down_leads (hrunning : m.halted = false) (hup : m.rest.up = false)
    (hready : m.rest.ready = false) (hdone : NotDone m) :
    ∃ m', (market env).Leads (Exchange answers) 4 m m' ∧ IsReady m' := by
  obtain ⟨m₁, hstep, -, -, hawaits⟩ := connects env hrunning hup hdone
  obtain ⟨stage, hstage, hawaits⟩ := hawaits hready
  obtain ⟨m', hleads, hready'⟩ := awaits_leads answers hstage hawaits
  exact ⟨m', .cons (e := .restConnected) trivial hstep hleads, hready'⟩

theorem up_leads (hrunning : m.halted = false) (hup : m.rest.up = true) (hdone : NotDone m) :
    ∃ m', (market env).Leads (Exchange answers) 5 m m' ∧ IsReady m' := by
  obtain ⟨m₁, hstep, hrunning', hup', hready', hdone'⟩ :=
    disconnects env hrunning hup hdone
  obtain ⟨m', hleads, hready⟩ := down_leads answers hrunning' hup' hready' hdone'
  exact ⟨m', .cons (e := .restDisconnected) trivial hstep hleads, hready⟩

/-- Wherever a run has got to, a connection that comes and goes and no more than
three answers make the download ready, whatever has been lost or refused before:
the download waits for nothing that cannot be had again. -/
theorem download_recovers (h : (market env).Reachable m) (hrunning : m.halted = false) :
    ∃ m', (market env).Leads (Exchange answers) 6 m m' ∧ IsReady m' := by
  have hdone := notDone h
  cases hup : m.rest.up with
  | true =>
    obtain ⟨m', hleads, hready⟩ := up_leads answers hrunning hup hdone
    exact ⟨m', hleads.mono (by decide), hready⟩
  | false =>
    -- an answer may have made it ready after the connection was lost
    obtain ⟨m₁, hstep, hrunning', hup', -⟩ := connects env hrunning hup hdone
    have hdone' : NotDone m₁ := notDone (.step h trivial hstep)
    obtain ⟨m', hleads, hready⟩ := up_leads answers hrunning' hup' hdone'
    exact ⟨m', .cons (e := .restConnected) trivial hstep hleads, hready⟩

/-- The answers of the environment that runs are checked in. -/
def bodies : Answers Reader.marketEnv where
  marketStatus := Reader.marketStatusBody
  currencies := Reader.currenciesBody
  symbols := Reader.openBody
  marketStatus_ok := by simp [Reader.marketEnv, Reader.read]
  currencies_ok := by simp [Reader.marketEnv, Reader.read, Reader.okAck]
  symbols_ok := by simp [Reader.marketEnv, Reader.read, Reader.okAck]

/-- A connection that is lost while the currencies are awaited. -/
theorem recovers_currencies : ∃ m m' : Market, m.rest.download.state = some .currencies ∧
    (market Reader.marketEnv).Leads (Exchange bodies) 6 m m' ∧ IsReady m' := by
  obtain ⟨m, hm, hstate, hrunning⟩ := Machine.exists_reach (M := market Reader.marketEnv)
    (C := fun _ _ => True)
    (P := fun m => m.rest.download.state = some .currencies ∧ m.halted = false)
    [.restConnected, .response .marketStatus 1 (Reader.success Reader.marketStatusBody)
      Reader.handling, .restDisconnected] (by decide +kernel)
  obtain ⟨m', hleads, hready⟩ := download_recovers bodies hm hrunning
  exact ⟨m, m', hstate, hleads, hready⟩

end Market

end RoqHtx
