import RoqHtx.Framework.Simulation
import RoqHtx.Proof.Encoding
import RoqHtx.Proof.Requests

/-!
# What the requests of an account say

Every request that an account sends was made at some step of the run, and its body is
what the encoder wrote for the event of that step: an object with the members of the
order that is created or canceled, as a reader of JSON gets them back, or nothing at
all (`Gateway.bodies_decode`).
-/

namespace RoqHtx

open Encoder (Decodes PlainFormats)
open JsonText (Plain Value)

/-! ## Bodies -/

/-- The request posts an object with these members, and this is what the encoder
leaves in its buffer, whatever the buffer held. -/
structure Posts (f : InFlight) (path : String) (encode : String → Option String)
    (members : List (String × Value)) : Prop where
  method : f.request.method = .post
  path : f.request.path = path
  encoded : ∀ buffer, encode buffer = some f.request.body.text
  decodes : Decodes f.request.body.text members

/-- What a request says that an event has sent in `g`. -/
def Carries {ρ : Type} (env : Env) (g : Gateway ρ) : Event → InFlight → Prop
  | .createOrder _ _ create refData requestId, f =>
    ∃ type, Encoder.typeText env.formats create = .ok type ∧
      Posts f OrderEntry.Path.placeOrder
        (fun buffer => (Encoder.placeOrderText env.formats buffer create refData requestId
          g.orderEntry.accountId).toOption)
        (Encoder.placeOrderMembers env.formats create refData requestId g.orderEntry.accountId type)
  | .cancelOrder _ _ _ order _, f =>
    if order.externalOrderId = "" then
      Posts f (cancelPath order) (fun buffer => some (Encoder.cancelClientOrderText buffer order))
        (Encoder.cancelClientOrderMembers order)
    else
      Posts f (cancelPath order) (fun buffer => Encoder.cancelOrderText env.assertions buffer order)
        (Encoder.cancelOrderMembers order)
  | .timer _, f | .cancelAllOrders _ _ _ _, f => f.request.method = .get ∧ f.request.body.text = ""
  | _, _ => False

/-- The texts of an order action need no escapes. -/
def Event.Plain : Event → Prop
  | .createOrder _ _ create _ requestId => JsonText.Plain create.symbol ∧ JsonText.Plain requestId
  | .cancelOrder _ _ _ order _ => JsonText.Plain order.symbol ∧ JsonText.Plain order.externalOrderId ∧
      JsonText.Plain order.clientOrderId
  | _ => True

variable {ρ : Type} {env : Env} {g g' : Gateway ρ} {e : Event} {f : InFlight}

theorem Made.carries (hformats : PlainFormats env.formats) (he : e.Plain) (h : Made env g e f) :
    Carries env g e f := by
  cases e with
  | timer t =>
    obtain ⟨-, path, -, hrequest⟩ := h
    exact ⟨by rw [hrequest]; rfl, by rw [hrequest]; rfl⟩
  | createOrder refuses info create refData requestId =>
    obtain ⟨-, -, body, hbody, hrequest⟩ := h
    have htext : f.request.body.text = body.text := by
      rw [hrequest]
      rfl
    refine ⟨body.typeText, (Encoder.placeOrder_eq_ok hbody).1, ?_, ?_, fun buffer => ?_, ?_⟩
    · rw [hrequest]
      rfl
    · rw [hrequest]
      rfl
    · rw [htext, Encoder.placeOrderText_body hbody]
      rfl
    · rw [htext]
      exact Encoder.decodes_body hformats he.1 he.2 hbody
  | cancelOrder refuses info cancel order requestId =>
    obtain ⟨-, hrequest⟩ := h
    obtain ⟨hsymbol, hexternal, hclient⟩ := he
    have hmethod : f.request.method = .post := by
      rw [hrequest]
      rfl
    have hpath : f.request.path = cancelPath order := by
      rw [hrequest]
      rfl
    have hbody : f.request.body = cancelBody order := by
      rw [hrequest]
      rfl
    show if order.externalOrderId = "" then _ else _
    split
    · rename_i hnone
      have htext : ∀ buffer, Encoder.cancelClientOrderText buffer order = f.request.body.text :=
        fun buffer => by rw [hbody, cancelBody, if_pos hnone, Encoder.cancelClientOrderText_body]
      refine ⟨hmethod, hpath, fun buffer => congrArg some (htext buffer), ?_⟩
      exact htext "" ▸ Encoder.decodes_cancelClientOrderText hclient
    · rename_i hsome
      have htext : ∀ buffer, Encoder.cancelOrderText env.assertions buffer order =
          some f.request.body.text := fun buffer => by
        rw [hbody, cancelBody, if_neg hsome, Encoder.cancelOrderText_body env.assertions hsome]
      exact ⟨hmethod, hpath, htext, Encoder.decodes_cancelOrderText hexternal hsymbol (htext "")⟩
  | cancelAllOrders refuses info cancel requestId =>
    obtain ⟨-, hmethod, -, -, hbody⟩ := h
    exact ⟨hmethod, by rw [hbody]; rfl⟩
  | _ => exact h.elim

/-! ## Runs -/

namespace Gateway

variable [LimitRequest ρ]

/-- A request that was not there before the step has been made by it. -/
theorem made_of_step (h : step env g e = some g') (hbefore : .restRequest f ∉ g.log)
    (hafter : .restRequest f ∈ g'.log) : Made env g e f := by
  have all : ∀ x ∈ g'.log, x ∈ g.log ∨ Requests (Made env g e) x := by
    refine invariant_step (P := fun s => ∀ x ∈ s.log, x ∈ g.log ∨ Requests (Made env g e) x)
      (fun _ hs => hs) (fun s hl => ?_) h
    obtain ⟨new, hlog, hnew⟩ := hl.made
    intro x hx
    rw [hlog] at hx
    exact (List.mem_append.mp hx).elim (fun hx => .inr (hnew x hx)) .inl
  exact (all _ hafter).elim (fun hf => absurd hf hbefore) fun hmade => hmade f rfl

def bodyText? : Entry → Option String
  | .restRequest f => some f.request.body.text
  | _ => none

/-- An order, and two requests to cancel it, the first before its id is known. -/
def canceled : List Event :=
  [.restConnected, Reader.create, Reader.cancel,
    .cancelOrder (fun _ => none) Reader.info ⟨1001, 3⟩ { Reader.order with externalOrderId := "7" } "A3"]

/-- Newest first. -/
def canceledTexts : List String :=
  ["\x7b\"order-id\":\"7\",\"symbol\":\"btcusdt\"\x7d",
    "\x7b\"client-order-id\":\"bAACeMp9pEMAAQAAAAAA\"\x7d",
    "\x7b\"account-id\":\"0\",\"symbol\":\"btcusdt\",\"client-order-id\":\"A1\"," ++
      "\"type\":\"buy-limit\",\"amount\":\"1\",\"price\":\"32000.00\",\"source\":\"spot-api\"," ++
      "\"self-match-prevent\":0\x7d"]

theorem plain_canceled : ∀ e ∈ canceled, e.Plain := by
  have hsymbol : Plain "btcusdt" := by decide
  have hclient : Plain "bAACeMp9pEMAAQAAAAAA" := by decide +kernel
  have hcreate : Reader.create.Plain := ⟨hsymbol, (by decide : Plain "A1")⟩
  have hcancel : Reader.cancel.Plain := ⟨hsymbol, (by decide : Plain ""), hclient⟩
  simp only [canceled, List.forall_mem_cons, List.not_mem_nil, false_implies, implies_true, and_true]
  exact ⟨trivial, hcreate, hcancel, hsymbol, (by decide : Plain "7"), hclient⟩

end Gateway

end RoqHtx
