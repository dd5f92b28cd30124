import Simulith.Net.Wire
import Simulith.Server.Registry

/-!
# Client and server agree on an id

An id reaches the server twice: behind `READY ` in the handshake, alone in an
acknowledgement. Both messages pass through 64-byte buffers, the first with
six bytes less to spare. `buffers_in_range_iff` says when a receive buffer is
overrun, `identity_agrees_iff` when the two paths lead to one slot.
-/

namespace Simulith

open CStr

/-! ## Receive buffers -/

theorem defined_exec {σ₀ σ : ServerRun} {cs : List ServerCall} (h0 : σ₀.pc ≠ .undefined)
    (hm : ∀ m ∈ requests cs, m.length ≤ 63) (he : Lts.exec ServerRun.step σ₀ cs = some σ) :
    σ.pc ≠ .undefined := by
  have hP : Lts.Along ServerRun.step (fun _ c => ∀ m, c = .recv m → m.length ≤ 63) σ₀ cs :=
    Lts.along_of_forall fun c hc _ m (e : c = .recv m) => hm m (mem_requests.mpr (e ▸ hc))
  exact Lts.exec_invariant (I := fun σ => σ.pc ≠ .undefined)
    (fun σ c σ' hd hc hs => defined_step hd hc hs) h0 hP he

theorem sends_reply {σ₀ σ : ServerRun} {cs : List ServerCall}
    (he : Lts.exec ServerRun.step σ₀ cs = some σ) {m : Msg} (hm : .send m ∈ cs) :
    ∃ r : Reply, m = r.bytes := by
  obtain ⟨pre, post, τ, τ', -, -, hs, -⟩ := Lts.exec_mem he hm
  rw [step_eq_some] at hs
  cases hs with
  | handshakeSend r _ => exact ⟨r, rfl⟩
  | tickSend _ => exact ⟨.ack, rfl⟩

/-- **Receive buffers.** A run stays inside the server's buffers exactly when it
receives no message of more than 63 bytes, which a READY message can be; what
the server sends always stays inside the client's. -/
theorem buffers_in_range_iff {s : Server} {cs : List ServerCall} {σ : ServerRun}
    (he : Lts.exec ServerRun.step (simulithServerRun s) cs = some σ) :
    (σ.pc ≠ .undefined ↔ ∀ m ∈ requests cs, m.length ≤ 63) ∧
    (∀ c : Client, c.readyMsg.length ≤ 63 ↔ c.name.length ≤ 57) ∧
    ∀ m, .send m ∈ cs → m.length < 16 ∧ ∀ r : ClientRun, (r.handshakeReceived m).pc ≠ .undefined := by
  refine ⟨⟨fun hd m hm => ?_, fun hm => defined_exec (well_init s).defined hm he⟩, fun c => ?_,
    fun m hm => ?_⟩
  · -- after a longer one the run is over
    by_contra hlen
    obtain ⟨pre, post, τ, τ', -, -, hs, hpost⟩ := Lts.exec_mem he (mem_requests.mp hm)
    have hf : ¬ Fits m := fun hf => hlen hf.2
    rcases misfit_step hs hf with ⟨h0, -⟩ | ⟨-, hp⟩
    · omega
    · exact hd (by rw [exec_after_misfit hs hf hpost, hp])
  · have := c.length_readyMsg
    omega
  · obtain ⟨r, rfl⟩ := sends_reply he hm
    refine ⟨by cases r <;> decide, fun c => ?_⟩
    rw [handshakeReceived_reply]
    cases r <;> exact nofun

theorem buffers_in_range_iff_one_client :
    let cs : List ServerCall := [.recv (ascii ['R', 'E', 'A', 'D']), .send Reply.err.bytes,
      .recv (readyWord ++ [space, 97]), .send Reply.ack.bytes]
    ∃ σ, Lts.exec ServerRun.step (simulithServerRun (.fresh 1 10)) cs = some σ ∧
      σ.pc ≠ .undefined :=
  have ⟨σ, h⟩ := Option.isSome_iff_exists.mp (by decide)
  ⟨σ, h, (buffers_in_range_iff h).1.mpr (by decide)⟩

/-- The READY message of an id of 58 bytes, which `simulith_client_init`
accepts, makes the server store past its buffer. -/
theorem ready_out_of_range :
    let id := List.replicate 58 97
    (∃ z, simulithClientInit .ok (some []) (some []) (some id) 1 .zero .empty =
      (0, .named id, z)) ∧
    ∃ σ, Lts.exec ServerRun.step (simulithServerRun (.fresh 1 10))
      [.recv (Client.named id).readyMsg] = some σ ∧ σ.pc = .undefined :=
  ⟨clientInit_named _ (by decide), Lts.exists_exec_of_any (by decide)⟩

/-! ## The two paths of an id -/

/-- In `σ` the server registers the client's READY in the next slot, under the
client's own id, and ever after books the client's acknowledgements on that slot. -/
def Agrees (σ : ServerRun) (c : Client) : Prop :=
  ∃ σ', σ.step (.recv c.readyMsg) = some σ' ∧ σ'.pc = .handshakeSend .ack ∧
    σ'.ids = σ.ids ++ [c.name] ∧
    ∀ cs τ, Lts.exec ServerRun.step σ' cs = some τ → (∀ m ∈ requests cs, Fits m) →
      τ.pc = .tickRecv → ∃ τ', τ.step (.recv c.ackMsg) = some τ' ∧ τ'.server =
        { τ.server with clientStates :=
            τ.server.clientStates.modify σ.readyClients fun slot => { slot with responded := true } }

theorem agrees_of_short {n : Nat} {σ : ServerRun} {c : Client} (hi : ServerInv n σ) (hw : Well σ)
    (hpc : σ.pc = .handshakeRecv) (hnew : c.name ∉ σ.ids) (hne : c.name ≠ [])
    (hlen : c.name.length ≤ 57) : Agrees σ c := by
  have hfit := Client.fits_readyMsg hlen
  have ho : σ.owes = false := hw.not_owes (.inl hpc)
  have hs := step_eq_some.mpr (ServerStep.handshakeRecv c.readyMsg hpc ho)
  have hreg : ∃ σ', σ.step (.recv c.readyMsg) = some σ' ∧ σ'.pc = .handshakeSend .ack ∧
      σ'.ids = σ.ids ++ [c.name] := by
    have h0 : c.readyMsg.length ≠ 0 := by have := hfit.1; omega
    rcases handshakeReceived_cases hi.registered (hi.room hpc) h0 (Nat.lt_succ_of_le hfit.2) with
      ⟨hx, -⟩ | ⟨x, hx, hxn, -⟩ | ⟨x, cid, hxn, -, -, -, e, hreg⟩
    · rw [c.handshakeId_readyMsg] at hx
      rcases hx with hx | hx
      · cases hx
      · exact absurd (Option.some.inj hx) hne
    · rw [c.handshakeId_readyMsg] at hxn
      exact absurd hx (Option.some.inj hxn ▸ hnew)
    · rw [c.handshakeId_readyMsg] at hxn
      obtain rfl := Option.some.inj hxn
      exact ⟨_, hs, by rw [e], by rw [e]; exact hreg.ids_eq⟩
  obtain ⟨σ', hσ', hpc', hids⟩ := hreg
  refine ⟨σ', hσ', hpc', hids, fun cs τ hτ hm hpt => ?_⟩
  have hi' := serverInv_step hi hσ'
  have hiτ := serverInv_exec hi' hτ
  have hw' := (well_step hw (fun m e => by cases e; exact hfit) hσ').1
  have hwτ := (well_exec hw' hm hτ).1
  have hoτ : τ.owes = false := hwτ.not_owes (.inr (.inl hpt))
  have hack : Fits c.ackMsg := by
    rw [Client.ackMsg_eq]
    exact ⟨List.length_pos_iff.mpr hne, by omega⟩
  -- the slot is still the id's: ids are never moved
  have hslot : τ.ids[σ.readyClients]? = some c.name := by
    obtain ⟨l, hl⟩ := ids_exec hi' hτ
    rw [← hl, hids, ← hi.ready, List.append_assoc, List.singleton_append,
      List.getElem?_append_right (Nat.le_refl _), Nat.sub_self]
    rfl
  obtain ⟨b, hb, e⟩ := tickReceived_fits τ hack
  have hstr : str b.bytes = c.name := by rw [hb, Client.ackMsg_eq, Client.name, str_str]
  refine ⟨_, step_eq_some.mpr (.tickRecv c.ackMsg hpt hoτ), ?_⟩
  rw [e]
  exact Server.handleAck_eq hiτ.registered (by rw [hiτ.ready, hiτ.full (by rw [hpt]; trivial),
    hiτ.expected]) (by rw [hstr]; exact hslot)

/-- **Client and server agree on an id exactly when it has at most 57 bytes.** -/
theorem identity_agrees_iff {n : Int} {iv : UInt64} {s : Server} (hs : ServerReady n iv s)
    {cs : List ServerCall} {σ : ServerRun}
    (he : Lts.exec ServerRun.step (simulithServerRun s) cs = some σ)
    (hm : ∀ m ∈ requests cs, Fits m) (hpc : σ.pc = .handshakeRecv)
    {o : ClientOutcome} {pubAddr repAddr id : List UInt8} {rateNs : UInt64} {c₀ c : Client}
    {z₀ z : Zmq} (hid : 0 ∉ id)
    (hinit : simulithClientInit o (some pubAddr) (some repAddr) (some id) rateNs c₀ z₀ = (0, c, z))
    (hnew : c.name ∉ σ.ids) : Agrees σ c ↔ id.length ≤ 57 := by
  have hi := serverInv_exec (serverInv_init hs) he
  have hw := (well_exec (well_init s) hm he).1
  obtain ⟨hne, -, hname⟩ := clientInit_ok hinit
  rw [str_eq_self hid] at hne hname
  have hlen : c.name.length = min 63 id.length := by rw [hname, List.length_take]
  constructor
  · rintro ⟨σ', hσ', hpc', -⟩
    by_contra hlong
    have hf : ¬ Fits c.readyMsg := by
      have := c.length_readyMsg
      rintro ⟨-, h⟩
      omega
    rcases misfit_step hσ' hf with ⟨-, -, hp | hp⟩ | ⟨-, hp⟩ <;> rw [hpc'] at hp <;> cases hp
  · intro hshort
    refine agrees_of_short hi hw hpc hnew ?_ (by omega)
    rw [hname, List.take_of_length_le (by omega)]
    exact hne

theorem identity_agrees_longest :
    Agrees (simulithServerRun (.fresh 1 10)) (.named (List.replicate 57 97)) :=
  have ⟨_, h⟩ := clientInit_named (List.replicate 57 97) (by decide)
  (identity_agrees_iff (serverReady_fresh (by decide) (by decide) (by decide))
    (Lts.exec_nil _) (by decide) (by decide) (by decide) h (by decide)).mpr (by decide)

/-- With 58 bytes the paths part: even of the bytes that `zmq_recv` copies the
server would cut another id. -/
theorem identity_parts :
    let c := Client.named (List.replicate 58 97)
    ¬ Agrees (simulithServerRun (.fresh 1 10)) c ∧
      handshakeId (c.readyMsg.take 63) = some (List.replicate 57 97) ∧
      c.ackMsg = List.replicate 58 97 := by
  refine ⟨fun ⟨σ', hs, hpc, _⟩ => ?_, by decide, by decide⟩
  rcases misfit_step hs (by decide) with ⟨-, -, hp | hp⟩ | ⟨-, hp⟩ <;> rw [hpc] at hp <;> cases hp

end Simulith
