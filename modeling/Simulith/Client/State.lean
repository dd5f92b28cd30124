import Simulith.Server.Run

/-!
# The client's static variables

`simulith_client_init` and `simulith_client_shutdown`, and the two messages a
client sends: READY with its id, and the id alone as a tick acknowledgement.
`clientInit_ok` is what a successful initialisation leaves.
-/

namespace Simulith

open CStr

structure Client where
  clientContext : Option Handle
  subscriber : Option Handle
  requester : Option Handle
  clientId : CharBuf 64
  updateRateNs : UInt64
  deriving DecidableEq

/-- The static variables at program start. -/
def Client.zero : Client := ⟨none, none, none, CharBuf.zero 64, 0⟩

/-- How the ZeroMQ calls of `simulith_client_init` turn out. -/
structure ClientOutcome where
  ctxNew : Bool
  subscriber : Bool
  subConnect : Bool
  requester : Bool
  reqConnect : Bool
  deriving DecidableEq

def ClientOutcome.ok : ClientOutcome := ⟨true, true, true, true, true⟩

/-- `zmq_connect` on a socket that may not have been created; `false` when either failed. -/
def connectIfCreated (ok : Bool) (h : Option Handle) (addr : List UInt8) (z : Zmq) : Bool × Zmq :=
  match h with
  | some h => z.connect ok h addr
  | none => (false, z)

/-- A pointer argument is `none` when NULL, else the string it points to. -/
def simulithClientInit (o : ClientOutcome) (pubAddr repAddr id : Option (List UInt8))
    (rateNs : UInt64) (c : Client) (z : Zmq) : Int × Client × Zmq :=
  match pubAddr, repAddr, id with
  | some pubAddr, some repAddr, some id =>
    if strlen id = 0 then (-1, c, z)
    else if rateNs = 0 then (-1, c, z)
    else
      let c := { c with
        clientId := (c.clientId.strncpy id 63).set (Fin.last 63) 0
        updateRateNs := rateNs }
      let (context, z) := z.ctxNew o.ctxNew
      let c := { c with clientContext := context }
      match context with
      | none => (-1, c, z)
      | some ctx =>
        let (subscriber, z) := z.socket o.subscriber ctx .sub
        let c := { c with subscriber := subscriber }
        let (subConnected, z) := connectIfCreated o.subConnect subscriber pubAddr z
        if !subConnected then (-1, c, z)
        else
          let z := match subscriber with
            | some h => z.subscribe h
            | none => z
          let (requester, z) := z.socket o.requester ctx .req
          let c := { c with requester := requester }
          let (reqConnected, z) := connectIfCreated o.reqConnect requester repAddr z
          if !reqConnected then (-1, c, z) else (0, c, z)
  | _, _, _ => (-1, c, z)

def simulithClientShutdown (c : Client) (z : Zmq) : Client × Zmq :=
  ({ c with subscriber := none, requester := none, clientContext := none },
    ((z.close c.subscriber).close c.requester).ctxTerm c.clientContext)

/-- The id as a string. -/
def Client.name (c : Client) : List UInt8 := str c.clientId.bytes

/-- The READY message: `snprintf` into `ready_msg[80]`, sent up to its NUL. -/
def Client.readyMsg (c : Client) : Msg :=
  let readyMsg := snprintf 80 (readyWord ++ space :: c.name)
  readyMsg.take (strlen readyMsg)

/-- The acknowledgement of a tick. -/
def Client.ackMsg (c : Client) : Msg := c.clientId.bytes.take (strlen c.clientId.bytes)

theorem Client.zero_notMem_name (c : Client) : 0 ∉ c.name := zero_notMem_str _

theorem Client.ackMsg_eq (c : Client) : c.ackMsg = c.name := take_strlen _

/-- READY fits its buffer, whatever the id. -/
theorem Client.readyMsg_eq (c : Client) : c.readyMsg = readyWord ++ space :: c.name := by
  have hlen : c.name.length ≤ 64 := by
    have := length_str_le c.clientId.bytes
    rwa [c.clientId.size] at this
  have hz : 0 ∉ readyWord ++ space :: c.name := by
    simp only [List.mem_append, List.mem_cons, not_or]
    exact ⟨by decide, by decide, c.zero_notMem_name⟩
  rw [readyMsg, take_strlen, str_snprintf _ hz]
  have : (readyWord ++ space :: c.name).length = 6 + c.name.length := by
    simp [readyWord, ascii]; omega
  omega

/-- A client that has stored an id keeps its first 63 bytes. -/
theorem clientInit_name {o : ClientOutcome} {pubAddr repAddr id : List UInt8} {rateNs : UInt64}
    {c : Client} {z : Zmq} (hid : str id ≠ []) (hr : rateNs ≠ 0) :
    (simulithClientInit o (some pubAddr) (some repAddr) (some id) rateNs c z).2.1.name =
      (str id).take 63 := by
  have h0 : ¬ strlen id = 0 := fun h => hid (List.eq_nil_of_length_eq_zero h)
  simp only [simulithClientInit, if_neg h0, if_neg hr]
  have key : ∀ c' : Client, c'.clientId = (c.clientId.strncpy id 63).set (Fin.last 63) 0 →
      c'.name = (str id).take 63 := by
    rintro c' e
    rw [Client.name, e]
    exact CharBuf.str_strncpy_set _ _
  repeat' split
  all_goals exact key _ rfl

theorem clientInit_ok {o : ClientOutcome} {pubAddr repAddr id : List UInt8} {rateNs : UInt64}
    {c₀ c : Client} {z₀ z : Zmq}
    (h : simulithClientInit o (some pubAddr) (some repAddr) (some id) rateNs c₀ z₀ = (0, c, z)) :
    str id ≠ [] ∧ rateNs ≠ 0 ∧ c.name = (str id).take 63 := by
  have hid : str id ≠ [] := by
    intro e
    simp [simulithClientInit, strlen, e] at h
  have hr : rateNs ≠ 0 := by
    rintro rfl
    simp only [simulithClientInit, if_true] at h
    split at h <;> simp at h
  refine ⟨hid, hr, ?_⟩
  rw [show c = (simulithClientInit o (some pubAddr) (some repAddr) (some id) rateNs c₀ z₀).2.1 by
    rw [h]]
  exact clientInit_name hid hr

/-- The state a successful initialisation with the id `id` leaves, from any earlier one. -/
def ClientReady (id : List UInt8) (c : Client) : Prop :=
  ∃ o pubAddr repAddr rateNs c₀ z₀ z,
    simulithClientInit o (some pubAddr) (some repAddr) (some id) rateNs c₀ z₀ = (0, c, z)

/-- A client initialised with this id from program start, every ZeroMQ call succeeding. -/
def Client.named (id : List UInt8) : Client :=
  (simulithClientInit .ok (some []) (some []) (some id) 1 .zero .empty).2.1

theorem clientInit_named (id : List UInt8) (h : strlen id ≠ 0) :
    ∃ z, simulithClientInit .ok (some []) (some []) (some id) 1 .zero .empty =
      (0, .named id, z) := by
  simp only [Client.named, simulithClientInit, if_neg h, if_neg (show ¬ (1 : UInt64) = 0 by decide)]
  exact ⟨_, rfl⟩

theorem clientReady_named {id : List UInt8} (h : strlen id ≠ 0) : ClientReady id (.named id) := by
  obtain ⟨z, hz⟩ := clientInit_named id h
  exact ⟨_, _, _, _, _, _, z, hz⟩

end Simulith
