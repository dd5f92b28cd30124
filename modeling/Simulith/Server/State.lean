import Simulith.Zmq.Basic

/-!
# The server's static variables

`client_states` is a table of `maxClients` slots; a slot is free when its id
starts with a NUL. The barrier functions (`allClientsResponded`,
`resetResponses`, `handleAck`) look only at the first `expected_clients`
slots, `isClientIdTaken` and the search for a free slot at all of them.
-/

namespace Simulith

open CStr

def maxClients : Nat := 32

structure ClientState where
  id : CharBuf 64
  responded : Bool
  deriving DecidableEq

namespace ClientState

/-- `id[0] == '\0'`. -/
def isFree (c : ClientState) : Bool := c.id.bytes.headD 0 == 0

/-- The id as a string. -/
def name (c : ClientState) : List UInt8 := str c.id.bytes

/-- `id[0] != '\0' && strcmp(id, other) == 0`. -/
def holds (c : ClientState) (other : List UInt8) : Bool :=
  !c.isFree && strcmp c.id.bytes other == 0

theorem isFree_iff {c : ClientState} : c.isFree = true ↔ c.name = [] := by
  rw [isFree, name, beq_iff_eq, headD_eq_zero_iff]

theorem isFree_eq_false_iff {c : ClientState} : c.isFree = false ↔ c.name ≠ [] := by
  rw [ne_eq, ← isFree_iff, Bool.not_eq_true]

theorem holds_iff {c : ClientState} {other : List UInt8} :
    c.holds other = true ↔ c.name ≠ [] ∧ c.name = str other := by
  simp [holds, isFree_eq_false_iff, strcmp_eq_zero, name]

end ClientState

/-- The array `client_states`. -/
structure ClientTable where
  slots : List ClientState
  size : slots.length = maxClients
  deriving DecidableEq

namespace ClientTable

/-- `f` applied to slot `i`. -/
def modify (t : ClientTable) (i : Nat) (f : ClientState → ClientState) : ClientTable :=
  ⟨t.slots.modify i f, by rw [List.length_modify, t.size]⟩

/-- `f` applied to the first `n` slots. -/
def mapFirst (t : ClientTable) (n : Nat) (f : ClientState → ClientState) : ClientTable :=
  ⟨(t.slots.take n).map f ++ t.slots.drop n, by
    rw [List.length_append, List.length_map, ← List.length_append, List.take_append_drop, t.size]⟩

/-- `client_states[MAX_CLIENTS] = {0}`. -/
def zero : ClientTable :=
  ⟨List.replicate maxClients ⟨CharBuf.zero 64, false⟩, List.length_replicate⟩

/-- The ids in the table, in slot order. -/
def ids (t : ClientTable) : List (List UInt8) :=
  (t.slots.filter fun c => !c.isFree).map ClientState.name

end ClientTable

structure Server where
  serverContext : Option Handle
  publisher : Option Handle
  responder : Option Handle
  currentTimeNs : UInt64
  tickIntervalNs : UInt64
  expectedClients : Nat
  clientStates : ClientTable
  deriving DecidableEq

namespace Server

/-- The static variables at program start. -/
def zero : Server := ⟨none, none, none, 0, 0, 0, .zero⟩

def isClientIdTaken (s : Server) (id : List UInt8) : Bool :=
  s.clientStates.slots.any fun c => c.holds id

end Server

/-- How the ZeroMQ calls of `simulith_server_init` turn out. -/
structure ServerOutcome where
  ctxNew : Bool
  publisher : Bool
  pubBind : Bool
  responder : Bool
  repBind : Bool
  deriving DecidableEq

/-- `zmq_bind` on a socket that may not have been created; `false` when either failed. -/
def bindIfCreated (ok : Bool) (h : Option Handle) (addr : List UInt8) (z : Zmq) : Bool × Zmq :=
  match h with
  | some h => z.bind ok h addr
  | none => (false, z)

def simulithServerInit (o : ServerOutcome) (pubBind repBind : List UInt8) (clientCount : Int)
    (intervalNs : UInt64) (s : Server) (z : Zmq) : Int × Server × Zmq :=
  if clientCount ≤ 0 ∨ clientCount > maxClients then (-1, s, z)
  else if intervalNs = 0 then (-1, s, z)
  else
    let s := { s with expectedClients := clientCount.toNat, tickIntervalNs := intervalNs }
    let (context, z) := z.ctxNew o.ctxNew
    let s := { s with serverContext := context }
    match context with
    | none => (-1, s, z)
    | some ctx =>
      let (publisher, z) := z.socket o.publisher ctx .pub
      let s := { s with publisher := publisher }
      let (pubBound, z) := bindIfCreated o.pubBind publisher pubBind z
      if !pubBound then (-1, s, z)
      else
        let (responder, z) := z.socket o.responder ctx .rep
        let s := { s with responder := responder }
        let (repBound, z) := bindIfCreated o.repBind responder repBind z
        if !repBound then (-1, s, z)
        else
          let t := s.clientStates.mapFirst maxClients fun c =>
            { c with id := c.id.set 0 0, responded := false }
          (0, { s with clientStates := t }, z)

namespace Server

def allClientsResponded (s : Server) : Bool :=
  (s.clientStates.slots.take s.expectedClients).countP (·.responded) == s.expectedClients

def resetResponses (s : Server) : Server :=
  { s with clientStates := s.clientStates.mapFirst s.expectedClients fun c =>
      { c with responded := false } }

def handleAck (s : Server) (clientId : List UInt8) : Server :=
  match (s.clientStates.slots.take s.expectedClients).findIdx? (·.holds clientId) with
  | some i => { s with clientStates := s.clientStates.modify i fun c => { c with responded := true } }
  | none => s

/-- The first free slot of the table. -/
def freeSlot (s : Server) : Option Nat := s.clientStates.slots.findIdx? (·.isFree)

/-- `strncpy` of the id into the slot, terminated, with its flag cleared. -/
def registerClient (s : Server) (slot : Nat) (clientId : List UInt8) : Server :=
  { s with clientStates := s.clientStates.modify slot fun c =>
      { c with id := (c.id.strncpy clientId 63).set (Fin.last 63) 0, responded := false } }

end Server

def simulithServerShutdown (s : Server) (z : Zmq) : Server × Zmq :=
  ({ s with publisher := none, responder := none, serverContext := none },
    ((z.close s.publisher).close s.responder).ctxTerm s.serverContext)

/-- The state a successful initialisation for `n` clients leaves, from any earlier one. -/
def ServerReady (n : Int) (intervalNs : UInt64) (s : Server) : Prop :=
  ∃ o pubBind repBind s₀ z₀ z, simulithServerInit o pubBind repBind n intervalNs s₀ z₀ = (0, s, z)

/-- The server initialised for `n` clients at program start, every ZeroMQ call succeeding. -/
def Server.fresh (n : Int) (intervalNs : UInt64) : Server :=
  (simulithServerInit ⟨true, true, true, true, true⟩ [] [] n intervalNs .zero .empty).2.1

theorem serverReady_fresh {n : Int} {intervalNs : UInt64} (h0 : 0 < n) (hn : n ≤ maxClients)
    (hi : intervalNs ≠ 0) : ServerReady n intervalNs (.fresh n intervalNs) := by
  refine ⟨⟨true, true, true, true, true⟩, [], [], .zero, .empty, ?_⟩
  have hrange : ¬ (n ≤ 0 ∨ n > maxClients) := by omega
  simp only [Server.fresh, simulithServerInit, if_neg hi, if_neg hrange]
  exact ⟨_, rfl⟩

end Simulith
