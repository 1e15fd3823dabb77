import RoqHtx.Proof.Composition
import RoqHtx.Proof.Identifiers
import RoqHtx.Proof.Signatures

/-!
# How the gateway is constructed

The configuration keeps one account of each name, the one that it reads first. So
there is a key and a secret for every account that is created, and what the account
signs verifies under these (`Controller.accounts_sign`). The streams are numbered one
after the other, from the REST client of the market data to the last stream that a
run has created (`Process.streams_numbered`).
-/

namespace RoqHtx

/-! ## Accounts -/

namespace Config

theorem read_concat (l : List Account) (a : Account) : read (l ++ [a]) = (read l).onAccount a :=
  List.foldl_concat ..

theorem names_read (l : List Account) (name : String) :
    name ∈ (read l).accounts.map Account.name ↔ name ∈ l.map Account.name := by
  induction l using List.reverseRecOn with
  | nil => rfl
  | append_singleton l a ih =>
    rw [read_concat, onAccount, List.map_append, List.mem_append, ← ih]
    by_cases hknown : a.name ∈ (read l).accounts.map Account.name
    · rw [if_pos hknown]
      refine ⟨.inl, fun h => h.elim id fun hname => ?_⟩
      rwa [List.mem_singleton.mp hname]
    · rw [if_neg hknown, List.map_append, List.mem_append]

/-- No name twice. -/
theorem nodup_read (l : List Account) : ((read l).accounts.map Account.name).Nodup := by
  induction l using List.reverseRecOn with
  | nil => exact List.nodup_nil
  | append_singleton l a ih =>
    rw [read_concat, onAccount]
    by_cases hknown : a.name ∈ (read l).accounts.map Account.name
    · rwa [if_pos hknown]
    · rw [if_neg hknown, List.map_append]
      exact List.Nodup.append ih (List.nodup_singleton _) (List.disjoint_singleton.mpr hknown)

/-- The accounts that are kept are the first ones of their names. -/
theorem first_of_mem_read {l : List Account} {a : Account} (h : a ∈ (read l).accounts) :
    l.find? (·.name == a.name) = some a := by
  induction l using List.reverseRecOn with
  | nil => cases h
  | append_singleton l b ih =>
    have kept : a ∈ (read l).accounts → (l ++ [b]).find? (·.name == a.name) = some a := fun ha => by
      rw [List.find?_append, ih ha, Option.some_or]
    rw [read_concat, onAccount] at h
    by_cases hknown : b.name ∈ (read l).accounts.map Account.name
    · rw [if_pos hknown] at h
      exact kept h
    · rw [if_neg hknown] at h
      rcases List.mem_append.mp h with h | h
      · exact kept h
      obtain rfl := List.mem_singleton.mp h
      have new : l.find? (·.name == a.name) = none := List.find?_eq_none.mpr fun b hb hname =>
        hknown ((names_read l a.name).mpr (List.mem_map.mpr ⟨b, hb, by simpa using hname⟩))
      rw [List.find?_append, new, Option.none_or]
      simp

theorem find_of_mem {c : Config} (hc : (c.accounts.map Account.name).Nodup) {a : Account}
    (ha : a ∈ c.accounts) : c.find a.name = some a := by
  obtain ⟨b, hb⟩ : ∃ b, c.find a.name = some b :=
    Option.isSome_iff_exists.mp (List.find?_isSome.mpr ⟨a, ha, by simp⟩)
  have hname : b.name = a.name := by simpa using List.find?_some hb
  rw [hb, List.inj_on_of_nodup_map hc (List.mem_of_find?_eq_some hb) ha hname]

end Config

namespace Controller

open Crypto (VerifiesAuth VerifiesQuery)

/-- What is kept of an account of the configuration. -/
def keep (a : Config.Account) : Account := ⟨a.name, a.login, a.secret⟩

/-- Every account of the configuration is found there. -/
theorem createAccounts_eq {c : Config} (hc : (c.accounts.map Config.Account.name).Nodup) :
    ∀ {order : List Config.Account}, (∀ a ∈ order, a ∈ c.accounts) →
      createAccounts c order = some (order.map keep)
  | [], _ => rfl
  | a :: order, horder => by
    have hfind := Config.find_of_mem hc (horder a List.mem_cons_self)
    have hrest : createAccounts c order = some (order.map keep) :=
      createAccounts_eq hc fun b hb => horder b (List.mem_cons_of_mem a hb)
    unfold createAccounts at hrest ⊢
    rw [List.mapM_cons, hrest, Config.getApiKey, Config.getSecret, hfind]
    rfl

variable {μ δ : Type} [Mac μ δ]

variable (μ) in
/-- Whatever an account has signed before, what it signs next verifies under a key and
its secret. -/
def SignsFor (codecs : Codecs δ) (assertions : Bool) (hostname : String) (x : Account)
    (key secret : String) : Prop :=
  ∀ s : Crypto μ δ, (crypto codecs assertions x.apiKey x.secret hostname).Reachable s →
    ∀ trace : TraceInfo, 0 ≤ trace.originCreateTimeUtc →
      trace.originCreateTimeUtc < 253402300800000000000 → ∀ (method : Http.Method) (path : String),
        path ≠ "" →
        (∃ query s', s.accountQuery codecs assertions trace method path = some (query, s') ∧
          VerifiesQuery μ codecs key secret hostname method.name path
            (trace.originCreateTimeUtc.toNat / 1000000000) query) ∧
        ∃ text s' parameters signed, s.accountWsAuth codecs assertions trace path = some (text, s') ∧
          VerifiesAuth μ codecs key secret hostname path
            (trace.originCreateTimeUtc.toNat / 1000000000) text parameters signed

theorem counts_createStreams : ∀ (names : List String) (streamId : UInt16),
    Counts (· + 1) streamId (createStreams names streamId).2
      ((createStreams names streamId).1.map Prod.snd).reverse
  | [], _ => .start
  | name :: names, streamId => by
    have first : Counts (· + 1) streamId (streamId + 1) [streamId + 1] := .next .start
    have counted := first.append (counts_createStreams names (streamId + 1))
    rwa [← List.reverse_cons] at counted

theorem names_createStreams : ∀ (names : List String) (streamId : UInt16),
    (createStreams names streamId).1.map Prod.fst = names
  | [], _ => rfl
  | name :: names, streamId => congrArg (name :: ·) (names_createStreams names (streamId + 1))

theorem length_createStreams (names : List String) (streamId : UInt16) :
    (createStreams names streamId).1.length = names.length := by
  rw [← List.length_map Prod.fst, names_createStreams]

theorem latest_createStreams : ∀ (names : List String) (streamId : UInt16),
    (createStreams names streamId).2 = streamId + UInt16.ofNat names.length
  | [], _ => (UInt16.add_zero _).symm
  | name :: names, streamId => by
    have latest := latest_createStreams names (streamId + 1)
    show (createStreams names (streamId + 1)).2 = _
    rw [latest, List.length_cons, Nat.add_comm names.length, UInt16.ofNat_add, ← UInt16.add_assoc]
    rfl

/-- The ids that the constructor hands out, in this order. -/
def Streams.ids (s : Streams) : List UInt16 :=
  s.rest :: s.orderEntry.map Prod.snd ++ s.dropCopy.map Prod.snd

theorem counts_streams (accounts : List String) :
    Counts (· + 1) 0 (streams accounts).streamId (streams accounts).ids.reverse := by
  have rest : Counts (· + 1) (0 : UInt16) 1 [1] := .next .start
  have orderEntry := rest.append (counts_createStreams accounts 1)
  have dropCopy := orderEntry.append (counts_createStreams accounts (createStreams accounts 1).2)
  rwa [← List.reverse_cons, ← List.reverse_append] at dropCopy

/-- Where the market data starts to count. -/
theorem latest_streams (accounts : List String) :
    (streams accounts).streamId = UInt16.ofNat (1 + 2 * accounts.length) := by
  show (createStreams accounts (createStreams accounts 1).2).2 = _
  rw [latest_createStreams, latest_createStreams, Nat.two_mul, UInt16.ofNat_add, UInt16.ofNat_add,
    UInt16.add_assoc]
  rfl

end Controller

namespace Process

variable {ρ σ : Type} [LimitRequest ρ] [Sequencer σ MBPUpdate] {env : ProcessEnv} {p : Process ρ σ}

/-- The ids of all streams, in the order in which they were created. -/
def streamIds (env : ProcessEnv) (p : Process ρ σ) : List UInt16 :=
  (Controller.streams env.accounts).ids ++ (RoqHtx.streamIds p.books.market.log).reverse

/-- How many streams there are. -/
def size (env : ProcessEnv) (p : Process ρ σ) : Nat :=
  1 + 2 * env.accounts.length + (p.books.market.marketData.length + p.books.market.mbpFeed.length)

/-- Every account has an order entry and an order stream; and in every run, as long as
there are fewer than 65536 streams, these and the streams of the market data are
numbered one after the other, so that no two have the same id. -/
theorem streams_numbered (h : (process ρ σ env).Reachable p) :
    (Controller.streams env.accounts).orderEntry.map Prod.fst = env.accounts ∧
      (Controller.streams env.accounts).dropCopy.map Prod.fst = env.accounts ∧
      (p.size env < 2 ^ 16 → (p.streamIds env).map UInt16.toNat = List.range' 1 (p.size env) ∧
        (p.streamIds env).Nodup) := by
  refine ⟨Controller.names_createStreams .., Controller.names_createStreams .., fun hfew => ?_⟩
  have numbered := Numbered.reachable (Books.market_reachable (books_reachable h))
  have counts : Counts (· + 1) 0 p.books.market.streamId (p.streamIds env).reverse := by
    have later := numbered.streams
    rw [env.accounts_eq, ← Controller.latest_streams] at later
    have all := (Controller.counts_streams env.accounts).append later
    rwa [← List.reverse_reverse (RoqHtx.streamIds _), ← List.reverse_append] at all
  have length : (p.streamIds env).reverse.length = p.size env := by
    rw [List.length_reverse, streamIds, List.length_append, List.length_reverse, numbered.count, size]
    simp [Controller.Streams.ids, Controller.streams, Controller.length_createStreams]
    omega
  have hbound : UInt16.toNat 0 + (p.streamIds env).reverse.length < 2 ^ 16 := by
    rw [length]
    exact (Nat.zero_add _).trans_lt hfew
  have ranks := counts.map_rank climbs_uint16 hbound
  rw [List.reverse_reverse, length] at ranks
  exact ⟨ranks, List.nodup_reverse.mp (counts.nodup climbs_uint16 hbound)⟩

/-- Two accounts, and the streams of one slice. -/
theorem streams_numbered_two : ∃ p : Process Reader.Flags Reader.Sequence,
    p.size Reader.processEnv = 7 ∧
      (p.streamIds Reader.processEnv).map UInt16.toNat = [1, 2, 3, 4, 5, 6, 7] := by
  obtain ⟨p, hp, hsize⟩ := Machine.exists_reach (M := Reader.twoAccounts) (C := fun _ _ => True)
    (P := fun p => p.size Reader.processEnv = 7) Reader.together (by decide)
  have numbered := ((streams_numbered hp).2.2 (hsize.trans_lt (by decide))).1
  rw [hsize] at numbered
  exact ⟨p, hsize, numbered⟩

end Process

end RoqHtx
