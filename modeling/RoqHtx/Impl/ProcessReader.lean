import RoqHtx.Impl.MarketReader
import RoqHtx.Impl.Process

/-!
# A concrete environment of the gateway

Two accounts, whose containers are gone over in different orders, beside one
choice of the market data.
-/

namespace RoqHtx.Reader

def processEnv : ProcessEnv where
  accounts := ["A1", "A2"]
  orderEntry := ["A2", "A1"]
  dropCopy := ["A1", "A2"]
  account := fun _ => env
  books := ⟨{ marketEnv with accounts := 2 }, 3⟩
  nodup := by decide
  orderEntry_perm := .swap ..
  dropCopy_perm := .refl _
  accounts_eq := rfl

abbrev twoAccounts : Machine (Process Flags Sequence) ProcessEvent := process Flags Sequence processEnv

/-- A timer that finds all connections up, and nothing refused. -/
def ticks : Ticks := ⟨fun _ => tick, fun _ _ => 1⟩

/-- Both accounts connect, and the second one logs in; the first one creates an
order, and a client subscribes to a symbol. -/
def together : List ProcessEvent :=
  [.connection "A1" .restConnected, .connection "A2" .restConnected,
    .connection "A2" (.socketReady ⟨0, 0⟩), .connection "A2" (.text (authReply 200)),
    .createOrder "A1" (fun _ => none) info limitGtc ⟨0, 2⟩ "A1",
    .books (.market (.subscribe ["btcusdt"])), .timer ticks]

end RoqHtx.Reader
