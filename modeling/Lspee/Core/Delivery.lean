import Lspee.Core.Sharing

/-!
# What a Dedicated Stream Owes Its Client

A client that asks for a dedicated stream gets the stream's socket in the
`AttachOk`, and connects to it when it likes. From the `AttachOk` on it has a
stream, as far as it can know. The daemon subscribes to the runtime only when
the client has connected.

Beside the session stands what the server has written since each of these
answers. Nothing in the daemon keeps that.

## Main definitions

* `Delivery`: The session, and what its streams owe.
* `DeliveryAction`, `Delivery.step`: One step.
-/

namespace Lspee

/-- The session with what the server has written since each lease was answered,
    oldest first. -/
structure Delivery where
  sharing : Sharing
  owed : Table Nat (List Json)

inductive DeliveryAction where
  /-- The client of stream `n` is answered: the stream's socket is there. -/
  | attachOk (n : Nat)
  | sharing (a : SharingAction)

namespace Delivery

def init : Delivery where
  sharing := Sharing.init
  owed := Table.empty

/-- A client learns of its socket by the answer. -/
def mayMove (d : Delivery) : SharingAction → Bool
  | .connect n _ => (d.owed.get? n).isSome
  | _ => true

/-- What the server writes, it writes for every lease that has been answered. -/
def note (d : Delivery) : SharingAction → Table Nat (List Json)
  | .transport (.emit _ payload) => d.owed.mapValues fun payloads => payloads ++ [payload]
  | _ => d.owed

def step (d : Delivery) : DeliveryAction → Option Delivery
  | .attachOk n =>
    -- The endpoint's task holds a handle before the answer is sent.
    if .task n ∈ d.sharing.transport.handles ∧ d.owed.get? n = none then
      some { d with owed := d.owed.set n [] }
    else none
  | .sharing a =>
    if d.mayMove a then
      (d.sharing.step a).map fun h => { sharing := h, owed := d.note a }
    else none

end Delivery

end Lspee
