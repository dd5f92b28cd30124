import Simulith.Lts.Basic
import Simulith.Zmq.Basic

/-!
# The rules of the ZeroMQ calls

`Usage.step` allows a call that is in order: a socket is created in a context
that is alive, bound, connected, subscribed and closed while it is open, and
`zmq_ctx_term` is called once the sockets of the context are closed, for it waits
until they are. `Usage` keeps what is alive.
-/

namespace Simulith

structure OpenSocket where
  handle : Handle
  context : Handle
  type : SocketType
  deriving DecidableEq

structure Usage where
  /-- the handles returned so far -/
  issued : List Handle
  /-- the contexts that are alive -/
  contexts : List Handle
  sockets : List OpenSocket

namespace Usage

def empty : Usage := ⟨[], [], []⟩

def Open (u : Usage) (h : Handle) : Prop := ∃ s ∈ u.sockets, s.handle = h

instance (u : Usage) (h : Handle) : Decidable (u.Open h) :=
  inferInstanceAs (Decidable (∃ s ∈ u.sockets, s.handle = h))

/-- A context is alive that no open socket belongs to. -/
def Vacant (u : Usage) (x : Handle) : Prop := x ∈ u.contexts ∧ ∀ s ∈ u.sockets, s.context ≠ x

instance (u : Usage) (x : Handle) : Decidable (u.Vacant x) :=
  inferInstanceAs (Decidable (_ ∧ ∀ s ∈ u.sockets, _))

def step (u : Usage) : ZmqEvent → Option Usage
  | .ctxNew x =>
    if x ∈ u.issued then none
    else some { u with issued := x :: u.issued, contexts := x :: u.contexts }
  | .socket h x type =>
    if h ∈ u.issued ∨ x ∉ u.contexts then none
    else some { u with issued := h :: u.issued, sockets := ⟨h, x, type⟩ :: u.sockets }
  | .bind h _ => if u.Open h then some u else none
  | .connect h _ => if u.Open h then some u else none
  | .subscribe h => if ∃ s ∈ u.sockets, s.handle = h ∧ s.type = .sub then some u else none
  | .close h =>
    if u.Open h then some { u with sockets := u.sockets.filter fun s => s.handle ≠ h } else none
  | .ctxTerm x =>
    if u.Vacant x then some { u with contexts := u.contexts.filter fun y => y ≠ x } else none

end Usage

/-- The calls logged are all in order. -/
def Zmq.InOrder (z : Zmq) : Prop := (Lts.exec Usage.step .empty z.log).isSome

instance (z : Zmq) : Decidable z.InOrder := inferInstanceAs (Decidable (_ = true))

end Simulith
