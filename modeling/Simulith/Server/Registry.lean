import Simulith.Server.Alternation

/-!
# The registry during the handshake phase

`RegistryLaw` is what holds of a server that has made no broadcast yet and
has received messages of 1 to 63 bytes: which slots are taken, where the ids
come from, what the next message does and when the phase ends. The ids in the
table are traced to the calls that registered them by induction over the run
(`ids_parsed`); the rest follows from the invariants of `Server.Invariant`
and `Server.Alternation`.
-/

namespace Simulith

open CStr

/-- In `τ`, the message `m` is received and the id `x` goes into the table. -/
structure Registers (τ : ServerRun) (m : Msg) (x : List UInt8) : Prop where
  new : x ∉ τ.ids
  parsed : handshakeId m = some x
  added : ∃ τ', τ.step (.recv m) = some τ' ∧ τ'.pc = .handshakeSend .ack ∧ τ'.ids = τ.ids ++ [x]

theorem received_registry {n : Nat} {σ σ' : ServerRun} {m : Msg} (hi : ServerInv n σ)
    (hm : Fits m) (hpc : σ.pc = .handshakeRecv) (hs : σ.step (.recv m) = some σ') :
    (∃ r, r ≠ .ack ∧ σ'.pc = .handshakeSend r ∧ σ'.server = σ.server ∧
      σ'.readyClients = σ.readyClients) ∨
    ∃ x, Registers σ m x ∧ σ'.pc = .handshakeSend .ack ∧ σ'.readyClients = σ.readyClients + 1 ∧
      σ'.ids = σ.ids ++ [x] ∧
      ∀ j, j ≠ σ.readyClients →
        σ'.server.clientStates.slots[j]? = σ.server.clientStates.slots[j]? := by
  have h0 : m.length ≠ 0 := by have := hm.1; omega
  have hs' := step_eq_some.mp hs
  cases hs' with
  | tickRecv _ hp _ => rw [hpc] at hp; cases hp
  | handshakeRecv _ _ _ =>
    rcases handshakeReceived_cases hi.registered (hi.room hpc) h0 (Nat.lt_succ_of_le hm.2) with
      ⟨-, e⟩ | ⟨x, -, -, e⟩ | ⟨x, cid, hx, -, hnew, -, e, hreg⟩
    · rw [e]; exact .inl ⟨.err, nofun, rfl, rfl, rfl⟩
    · rw [e]; exact .inl ⟨.dupId, nofun, rfl, rfl, rfl⟩
    · have hids : (σ.handshakeReceived m).ids = σ.ids ++ [x] := by
        rw [ServerRun.ids, e]; exact hreg.ids_eq
      refine .inr ⟨x, ⟨hnew, hx, _, hs, by rw [e], hids⟩, by rw [e], by rw [e], hids, ?_⟩
      intro j hj
      rw [e]
      simp only [Server.registerClient, ClientTable.modify, List.getElem?_modify]
      have hne : ¬ σ.ids.length = j := by rw [hi.ready]; exact Ne.symm hj
      simp [hne]

theorem noSlot_not_taken {n : Nat} {σ : ServerRun} (hi : ServerInv n σ)
    (hpc : σ.pc = .handshakeRecv) (b : List UInt8) : handshakeVerdict σ.server b ≠ .noSlot := by
  rcases handshakeVerdict_cases hi.registered (hi.room hpc) b with ⟨-, e⟩ | ⟨-, e⟩ | ⟨x, -, -, e⟩ |
    ⟨x, cid, -, -, -, -, e⟩ <;> rw [e] <;> exact nofun

theorem ids_parsed {n : Nat} {σ₀ σ : ServerRun} {cs : List ServerCall} (h0 : ServerInv n σ₀)
    (hids : σ₀.ids = []) (hm : ∀ m ∈ requests cs, Fits m)
    (he : Lts.exec ServerRun.step σ₀ cs = some σ) :
    ∀ x ∈ σ.ids, ∃ pre m post τ, cs = pre ++ .recv m :: post ∧
      Lts.exec ServerRun.step σ₀ pre = some τ ∧ Registers τ m x := by
  induction cs using List.reverseRecOn generalizing σ with
  | nil => cases he; rw [hids]; exact fun x hx => by cases hx
  | append_singleton cs c ih =>
    obtain ⟨τ, hτ, hc⟩ := Lts.exec_snoc_eq_some.mp he
    have hm' : ∀ m ∈ requests cs, Fits m := fun m h =>
      hm m (mem_requests.mpr (List.mem_append_left _ (mem_requests.mp h)))
    have hi := serverInv_exec h0 hτ
    -- an id that was there before the last call keeps its origin
    have hold : ∀ x ∈ τ.ids, ∃ pre m post υ, cs ++ [c] = pre ++ .recv m :: post ∧
        Lts.exec ServerRun.step σ₀ pre = some υ ∧ Registers υ m x := by
      intro x hx
      obtain ⟨pre, m, post, υ, rfl, hυ, hr⟩ := ih hm' hτ x hx
      exact ⟨pre, m, post ++ [c], υ, by simp, hυ, hr⟩
    rcases ids_step_cases hi hc with ⟨e, -⟩ | ⟨m, x, rfl, -, -, hx, hnew, hpc, hadd⟩
    · rw [e]; exact hold
    · intro y hy
      rw [hadd, List.mem_append, List.mem_singleton] at hy
      rcases hy with hy | rfl
      · exact hold y hy
      · exact ⟨cs, m, [], τ, rfl, hτ, ⟨hnew, hx, σ, hc, hpc, hadd⟩⟩

/-- Before the first broadcast: the handshake loop, or just past it, with the
clock as `simulith_server_init` left it. -/
structure Early (timeNs intervalNs : UInt64) (σ : ServerRun) : Prop where
  pc : σ.pc.InHandshake ∨ σ.pc = .broadcast
  quiet : σ.server.Quiet
  time : σ.server.currentTimeNs = timeNs
  interval : σ.server.tickIntervalNs = intervalNs

theorem early_handshakeHead {t iv : UInt64} {σ : ServerRun} (h : σ.server.Quiet)
    (ht : σ.server.currentTimeNs = t) (hi : σ.server.tickIntervalNs = iv) :
    Early t iv σ.handshakeHead := by
  unfold ServerRun.handshakeHead
  split
  · exact ⟨.inl trivial, h, ht, hi⟩
  · exact ⟨.inr rfl, Server.quiet_resetResponses h, ht, hi⟩

theorem handshakeReceived_clock (σ : ServerRun) (m : Msg) :
    (σ.handshakeReceived m).server.currentTimeNs = σ.server.currentTimeNs ∧
    (σ.handshakeReceived m).server.tickIntervalNs = σ.server.tickIntervalNs := by
  unfold ServerRun.handshakeReceived
  split
  · exact ⟨rfl, rfl⟩
  · split
    · exact ⟨rfl, rfl⟩
    · split <;> exact ⟨rfl, rfl⟩

theorem early_step {n : Nat} {t iv : UInt64} {σ σ' : ServerRun} {c : ServerCall}
    (hi : ServerInv n σ) (h : Early t iv σ) (hm : ∀ m, c = .recv m → Fits m)
    (hp : c.time = none) (hs : σ.step c = some σ') : Early t iv σ' := by
  have hs' := step_eq_some.mp hs
  cases hs' with
  | handshakeRecv m hpc _ =>
    obtain ⟨r, hr, -⟩ := handshakeReceived_sending σ (hm m rfl)
    obtain ⟨ht, hiv⟩ := handshakeReceived_clock σ m
    exact ⟨.inl (by rw [hr]; trivial), (serverInv_step hi hs).quiet (by rw [hr]; trivial),
      ht.trans h.time, hiv.trans h.interval⟩
  | tickRecv _ hpc _ => rcases h.pc with h | h <;> rw [hpc] at h <;> cases h
  | fail _ => exact h
  | handshakeSend _ _ => exact early_handshakeHead h.quiet h.time h.interval
  | tickSend hpc => rcases h.pc with h | h <;> rw [hpc] at h <;> cases h
  | publish _ => cases hp

theorem early_exec {n : Nat} {t iv : UInt64} {σ₀ σ : ServerRun} {cs : List ServerCall}
    (hi : ServerInv n σ₀) (h : Early t iv σ₀) (hm : ∀ m ∈ requests cs, Fits m)
    (hp : publishes cs = []) (he : Lts.exec ServerRun.step σ₀ cs = some σ) : Early t iv σ := by
  have hlab : Lts.Along ServerRun.step (fun _ c => (∀ m, c = .recv m → Fits m) ∧ c.time = none)
      σ₀ cs :=
    Lts.along_of_forall fun c hc _ => ⟨fun m (e : c = .recv m) => hm m (mem_requests.mpr (e ▸ hc)),
      List.filterMap_eq_nil_iff.mp hp c hc⟩
  exact (Lts.exec_invariant (I := fun σ => ServerInv n σ ∧ Early t iv σ)
    (fun _ _ _ hI hc hs => ⟨serverInv_step hI.1 hs, early_step hI.1 hI.2 hc.1 hc.2 hs⟩)
    ⟨hi, h⟩ hlab he).2

theorem early_run {n : Int} {iv : UInt64} {s : Server} (hs : ServerReady n iv s)
    {cs : List ServerCall} {σ : ServerRun} (hm : ∀ m ∈ requests cs, Fits m)
    (hp : publishes cs = []) (he : Lts.exec ServerRun.step (simulithServerRun s) cs = some σ) :
    Early s.currentTimeNs iv σ := by
  obtain ⟨-, hiv, -, -, hq⟩ := hs.spec
  exact early_exec (serverInv_init hs) (early_handshakeHead hq rfl hiv) hm hp he

/-- The registry of a server that has not broadcast yet. -/
structure RegistryLaw (n : Int) (σ₀ : ServerRun) (cs : List ServerCall) (σ : ServerRun) : Prop where
  /-- the taken slots are slots `0 .. ready_clients - 1` -/
  taken : ∀ i (h : i < σ.server.clientStates.slots.length),
    (σ.server.clientStates.slots[i]).isFree = false ↔ i < σ.readyClients
  ready_le : (σ.readyClients : Int) ≤ n
  distinct : σ.ids.Nodup
  nonempty : [] ∉ σ.ids
  /-- each id is the one parsed from the message that registered it -/
  parsed : ∀ x ∈ σ.ids, ∃ pre m post τ, cs = pre ++ .recv m :: post ∧
    Lts.exec ServerRun.step σ₀ pre = some τ ∧ Registers τ m x
  flags : ∀ c ∈ σ.server.clientStates.slots, c.responded = false
  /-- ERR and DUP_ID change nothing, ACK adds one id -/
  next : ∀ m σ', Fits m → σ.pc = .handshakeRecv → σ.step (.recv m) = some σ' →
    (∃ r, r ≠ .ack ∧ σ'.pc = .handshakeSend r ∧ σ'.server = σ.server ∧
      σ'.readyClients = σ.readyClients) ∨
    ∃ x, Registers σ m x ∧ σ'.pc = .handshakeSend .ack ∧ σ'.readyClients = σ.readyClients + 1 ∧
      σ'.ids = σ.ids ++ [x] ∧
      ∀ j, j ≠ σ.readyClients →
        σ'.server.clientStates.slots[j]? = σ.server.clientStates.slots[j]?
  slot_found : σ.pc = .handshakeRecv → ∀ b, handshakeVerdict σ.server b ≠ .noSlot
  /-- between two messages the phase has ended exactly when the first `n` slots are taken -/
  ends : σ.owes = false → (σ.pc = .broadcast ↔
    ∀ c ∈ σ.server.clientStates.slots.take σ.server.expectedClients, c.isFree = false)
  /-- no id lies behind the slots the barrier functions scan -/
  scanned : ∀ c ∈ σ.server.clientStates.slots, c.isFree = false →
    c ∈ σ.server.clientStates.slots.take σ.server.expectedClients
  expected : (σ.server.expectedClients : Int) = n

/-- **The registry invariant**: it holds after every message of the handshake
phase, whatever an earlier session left in the table. -/
theorem registry_law {n : Int} {iv : UInt64} {s : Server} (hs : ServerReady n iv s)
    {cs : List ServerCall} {σ : ServerRun} (hm : ∀ m ∈ requests cs, Fits m)
    (hp : publishes cs = []) (he : Lts.exec ServerRun.step (simulithServerRun s) cs = some σ) :
    RegistryLaw n (simulithServerRun s) cs σ := by
  obtain ⟨⟨-, -, hn⟩, -⟩ := hs.spec
  have hi0 := serverInv_init hs
  have hi := serverInv_exec hi0 he
  have hw := (well_exec (well_init s) hm he).1
  have hearly := early_run hs hm hp he
  have hready := hi.ready
  have hfree : ∀ i (h : i < σ.server.clientStates.slots.length),
      (σ.server.clientStates.slots[i]).isFree = false ↔ i < σ.readyClients := by
    intro i h
    rw [ClientState.isFree_eq_false_iff, hi.registered.name_getElem h, hready]
  refine ⟨hfree, by have := hi.readyLe; omega, hi.registered.nodup, hi.registered.ne,
    ids_parsed hi0 (ids_simulithServerRun hs) hm he, hearly.quiet,
    fun m σ' hf hpc h => received_registry hi hf hpc h, noSlot_not_taken hi, ?_, ?_,
    by rw [hi.expected, hn]⟩
  · intro ho
    have hsz := σ.server.clientStates.size
    have hle := hi.le
    rw [hi.expected]
    constructor
    · intro hpc c hc
      obtain ⟨i, hi', rfl⟩ := List.mem_take_iff_getElem.mp hc
      rw [hfree, hi.full (by rw [hpc]; trivial)]
      omega
    · intro hall
      rcases hearly.pc with hpc | hpc
      · -- the loop still waits for a message, so slot `ready_clients` is free
        have hrecv : σ.pc = .handshakeRecv := by
          cases h : σ.pc with
          | handshakeRecv => rfl
          | handshakeSend r =>
            have := hw.owes.mpr (by rw [h]; trivial)
            rw [ho] at this
            cases this
          | _ => rw [h] at hpc; exact hpc.elim
        have hlt := hi.waiting hrecv
        have hin : σ.readyClients < σ.server.clientStates.slots.length := by omega
        have := (hfree _ hin).mp (hall _ (List.mem_take_iff_getElem.mpr ⟨_, by omega, rfl⟩))
        exact absurd this (Nat.lt_irrefl _)
      · exact hpc
  · intro c hc hf
    obtain ⟨i, hi', rfl⟩ := List.mem_iff_getElem.mp hc
    have := (hfree i hi').mp hf
    have := hi.readyLe
    rw [hi.expected]
    exact List.mem_take_iff_getElem.mpr ⟨i, by omega, rfl⟩

theorem registry_law_two_clients :
    ∃ σ, Lts.exec ServerRun.step (simulithServerRun (.fresh 2 10))
        [.recv (readyWord ++ [space, 97]), .send Reply.ack.bytes,
          .recv (readyWord ++ [space, 97]), .send Reply.dupId.bytes,
          .recv (readyWord ++ [space, 98]), .send Reply.ack.bytes] = some σ ∧
      σ.ids.Nodup :=
  have ⟨σ, h⟩ := Option.isSome_iff_exists.mp (by decide)
  ⟨σ, h, (registry_law (serverReady_fresh (by decide) (by decide) (by decide)) (by decide)
    rfl h).distinct⟩

end Simulith
