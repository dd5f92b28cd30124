import Simulith.Server.Handshake

/-!
# The invariant of a server run

`ServerInv n σ` holds in every state of a run of a server initialised for `n`
clients, whatever it receives: the table is registered with
`ready_clients` ids, no flag is set before the tick phase, and the tick phase
has all `n` ids. `serverInv_init` establishes it after a successful
`simulith_server_init`, `serverInv_step` keeps it over one call,
`serverInv_exec` over a run.
-/

namespace Simulith

open CStr

/-- In the handshake loop. -/
def ServerPc.InHandshake : ServerPc → Prop
  | .handshakeRecv => True
  | .handshakeSend _ => True
  | _ => False

/-- Past the handshake loop. -/
def ServerPc.InTick : ServerPc → Prop
  | .broadcast => True
  | .tickRecv => True
  | .tickSend => True
  | _ => False

/-- The registered ids. -/
def ServerRun.ids (σ : ServerRun) : List (List UInt8) := σ.server.clientStates.ids

structure ServerInv (n : Nat) (σ : ServerRun) : Prop where
  expected : σ.server.expectedClients = n
  pos : 0 < n
  le : n ≤ maxClients
  registered : Registered σ.server.clientStates σ.ids
  ready : σ.ids.length = σ.readyClients
  readyLe : σ.readyClients ≤ n
  waiting : σ.pc = .handshakeRecv → σ.readyClients < n
  full : σ.pc.InTick → σ.readyClients = n
  quiet : σ.pc.InHandshake → σ.server.Quiet

/-! ## Initialisation -/

theorem ServerReady.spec {n : Int} {iv : UInt64} {s : Server} (h : ServerReady n iv s) :
    (0 < s.expectedClients ∧ s.expectedClients ≤ maxClients ∧ n = s.expectedClients) ∧
    s.tickIntervalNs = iv ∧ iv ≠ 0 ∧ Registered s.clientStates [] ∧ s.Quiet := by
  obtain ⟨o, pb, rb, s₀, z₀, z, h⟩ := h
  unfold simulithServerInit at h
  split at h
  · simp at h
  next hn =>
  split at h
  · simp at h
  next hiv =>
  simp only at h
  split at h
  · simp at h
  split at h
  · simp at h
  split at h
  · simp at h
  simp only [Prod.mk.injEq, true_and] at h
  obtain ⟨rfl, -⟩ := h
  have hmax : maxClients = 32 := rfl
  have htk : ∀ t : ClientTable, t.slots.take maxClients = t.slots := fun t =>
    List.take_of_length_le (by rw [t.size])
  have hdr : ∀ t : ClientTable, t.slots.drop maxClients = [] := fun t =>
    List.drop_eq_nil_iff.mpr (by rw [t.size])
  refine ⟨⟨?_, ?_, ?_⟩, rfl, hiv, ⟨?_, List.not_mem_nil, List.nodup_nil⟩, ?_⟩
  · simp only; omega
  · simp only; omega
  · simp only; omega
  · simp only [ClientTable.names, ClientTable.mapFirst, htk, hdr, List.append_nil, List.map_map,
      List.nil_append, List.length_nil, Nat.sub_zero]
    rw [List.eq_replicate_iff]
    refine ⟨by rw [List.length_map, ClientTable.size], fun x hx => ?_⟩
    obtain ⟨c, -, rfl⟩ := List.mem_map.mp hx
    simp only [Function.comp, ClientState.name, CharBuf.set]
    rcases hb : c.id.bytes with _ | ⟨y, b⟩
    · rfl
    · exact str_zero_cons b
  · intro c hc
    simp only [ClientTable.mapFirst, htk, hdr, List.append_nil, List.mem_map] at hc
    obtain ⟨d, -, rfl⟩ := hc
    rfl

theorem ServerInv.room {n : Nat} {σ : ServerRun} (h : ServerInv n σ)
    (hpc : σ.pc = .handshakeRecv) : σ.ids.length < maxClients := by
  have := h.waiting hpc
  have := h.ready
  have := h.le
  omega

theorem simulithServerRun_eq {s : Server} (h : 0 < s.expectedClients) :
    simulithServerRun s = ⟨s, 0, .handshakeRecv, false⟩ := by
  rw [simulithServerRun, ServerRun.handshakeHead, if_pos h]

theorem serverInv_init {n : Int} {iv : UInt64} {s : Server} (h : ServerReady n iv s) :
    ServerInv s.expectedClients (simulithServerRun s) := by
  obtain ⟨⟨hpos, hle, -⟩, -, -, hreg, hq⟩ := h.spec
  rw [simulithServerRun_eq hpos]
  exact
    { expected := rfl, pos := hpos, le := hle
      registered := by rw [ServerRun.ids, hreg.ids_eq]; exact hreg
      ready := by rw [ServerRun.ids, hreg.ids_eq]; rfl
      readyLe := Nat.zero_le _
      waiting := fun _ => hpos
      full := fun h => h.elim
      quiet := fun _ => hq }

theorem ids_simulithServerRun {n : Int} {iv : UInt64} {s : Server} (h : ServerReady n iv s) :
    (simulithServerRun s).ids = [] := by
  obtain ⟨⟨hpos, -, -⟩, -, -, hreg, -⟩ := h.spec
  rw [simulithServerRun_eq hpos, ServerRun.ids, hreg.ids_eq]

/-! ## The loop heads -/

theorem serverInv_of_pc {n : Nat} {σ : ServerRun} (h : ServerInv n σ) {pc : ServerPc} {owes : Bool}
    (hw : pc = .handshakeRecv → σ.readyClients < n) (hf : pc.InTick → σ.readyClients = n)
    (hq : pc.InHandshake → σ.server.Quiet) : ServerInv n { σ with pc := pc, owes := owes } :=
  ⟨h.expected, h.pos, h.le, h.registered, h.ready, h.readyLe, hw, hf, hq⟩

theorem serverInv_handshakeHead {n : Nat} {σ : ServerRun} (h : ServerInv n σ)
    (hq : σ.server.Quiet) : ServerInv n σ.handshakeHead := by
  unfold ServerRun.handshakeHead
  rw [h.expected]
  split
  · next hlt => exact serverInv_of_pc h (fun _ => hlt) (fun hp => hp.elim) fun _ => hq
  · next hge =>
    have hids : (σ.server.resetResponses.clientStates).ids = σ.ids := by
      rw [ClientTable.ids_eq, Server.names_resetResponses, ← ClientTable.ids_eq]; rfl
    exact
      { expected := h.expected, pos := h.pos, le := h.le
        registered := by
          rw [ServerRun.ids, hids]
          exact h.registered.congr Server.names_resetResponses
        ready := by rw [ServerRun.ids, hids]; exact h.ready
        readyLe := h.readyLe
        waiting := fun hp => by cases hp
        full := fun _ => Nat.le_antisymm h.readyLe (Nat.le_of_not_lt hge)
        quiet := fun hp => hp.elim }

theorem serverInv_tick {n : Nat} {σ : ServerRun} (h : ServerInv n σ) (hfull : σ.readyClients = n)
    {s : Server} {pc : ServerPc} {owes : Bool} (he : s.expectedClients = σ.server.expectedClients)
    (hn : s.clientStates.names = σ.server.clientStates.names) (hpc : ¬ pc.InHandshake) :
    ServerInv n { σ with server := s, pc := pc, owes := owes } := by
  have hids : s.clientStates.ids = σ.ids := by
    rw [ClientTable.ids_eq, hn, ← ClientTable.ids_eq]; rfl
  exact
    { expected := he.trans h.expected, pos := h.pos, le := h.le
      registered := by
        rw [ServerRun.ids, hids]
        exact h.registered.congr hn
      ready := by rw [ServerRun.ids, hids]; exact h.ready
      readyLe := h.readyLe
      waiting := fun hp => absurd (show pc.InHandshake by
        rw [show pc = .handshakeRecv from hp]; trivial) hpc
      full := fun _ => hfull
      quiet := fun hp => absurd hp hpc }

theorem serverInv_tickHead {n : Nat} {σ : ServerRun} (h : ServerInv n σ)
    (hfull : σ.readyClients = n) : ServerInv n σ.tickHead := by
  unfold ServerRun.tickHead
  split
  · exact serverInv_tick h hfull rfl rfl fun hp => hp
  · exact serverInv_tick h hfull rfl rfl fun hp => hp

/-! ## One call -/

theorem serverInv_handshakeReceived {n : Nat} {σ : ServerRun} (h : ServerInv n σ)
    (hpc : σ.pc = .handshakeRecv) (m : Msg) : ServerInv n (σ.handshakeReceived m) := by
  have hlt := h.waiting hpc
  have hq := h.quiet (by rw [hpc]; trivial)
  by_cases h0 : m.length = 0
  · rw [ServerRun.handshakeReceived, if_pos h0]
    exact serverInv_of_pc h (fun _ => hlt) (fun hp => by rw [hpc] at hp; exact hp.elim) fun _ => hq
  by_cases h63 : m.length < 64
  · have hmax : σ.ids.length < maxClients := by have := h.ready; have := h.le; omega
    rcases handshakeReceived_cases h.registered hmax h0 h63 with
      ⟨-, e⟩ | ⟨x, -, -, e⟩ | ⟨x, cid, -, -, -, -, e, hreg⟩ <;> rw [e]
    · exact serverInv_of_pc h (fun hp => by cases hp) (fun hp => hp.elim) fun _ => hq
    · exact serverInv_of_pc h (fun hp => by cases hp) (fun hp => hp.elim) fun _ => hq
    · have hids := hreg.ids_eq
      exact
        { expected := h.expected, pos := h.pos, le := h.le
          registered := (congrArg (Registered _) hids).mpr hreg
          ready := by
            refine (congrArg List.length hids).trans ?_
            rw [List.length_append, List.length_singleton, h.ready]
          readyLe := hlt
          waiting := fun hp => by cases hp
          full := fun hp => hp.elim
          quiet := fun _ => Server.quiet_registerClient hq _ _ }
  · have hnone : recvTerminated 64 m = none := recvTerminated_eq_none.mpr (by omega)
    simp only [ServerRun.handshakeReceived, if_neg h0, hnone]
    exact serverInv_of_pc h (fun hp => by cases hp) (fun hp => hp.elim) fun hp => hp.elim

theorem serverInv_tickReceived {n : Nat} {σ : ServerRun} (h : ServerInv n σ)
    (hpc : σ.pc = .tickRecv) (m : Msg) : ServerInv n (σ.tickReceived m) := by
  have hfull := h.full (by rw [hpc]; trivial)
  unfold ServerRun.tickReceived
  split
  · exact serverInv_tick h hfull rfl rfl fun hp => by rw [hpc] at hp; exact hp
  · split
    · exact serverInv_tick h hfull rfl rfl fun hp => hp
    · exact serverInv_tick h hfull (Server.expectedClients_handleAck _)
        (Server.names_handleAck _) fun hp => hp

theorem serverInv_step {n : Nat} {σ σ' : ServerRun} {c : ServerCall} (h : ServerInv n σ)
    (hs : σ.step c = some σ') : ServerInv n σ' := by
  rw [step_eq_some] at hs
  cases hs with
  | handshakeRecv m hpc _ => exact serverInv_handshakeReceived h hpc m
  | tickRecv m hpc _ => exact serverInv_tickReceived h hpc m
  | fail _ => exact h
  | handshakeSend r hpc =>
    have hq := h.quiet (by rw [hpc]; trivial)
    refine serverInv_handshakeHead (serverInv_of_pc h h.waiting h.full h.quiet) hq
  | tickSend hpc =>
    refine serverInv_tickHead (serverInv_of_pc h h.waiting h.full h.quiet) ?_
    exact h.full (by rw [hpc]; trivial)
  | publish hpc =>
    have hfull := h.full (by rw [hpc]; trivial)
    refine serverInv_tickHead ?_ hfull
    exact serverInv_tick h hfull rfl Server.names_resetResponses fun hp => by
      rw [hpc] at hp; exact hp

theorem ids_congr {σ σ' : ServerRun}
    (h : σ'.server.clientStates.names = σ.server.clientStates.names) : σ'.ids = σ.ids := by
  rw [ServerRun.ids, ClientTable.ids_eq, h, ← ClientTable.ids_eq]; rfl

theorem handshakeHead_ids (σ : ServerRun) : σ.handshakeHead.ids = σ.ids := by
  unfold ServerRun.handshakeHead
  split
  · rfl
  · exact ids_congr Server.names_resetResponses

theorem tickHead_ids (σ : ServerRun) : σ.tickHead.ids = σ.ids := by
  unfold ServerRun.tickHead; split <;> rfl

/-- **What a call does to the registered ids.** They stay as they are and a
request is not answered ACK as a READY, or a READY of at most 63 bytes adds its
id and is. -/
theorem ids_step_cases {n : Nat} {σ σ' : ServerRun} {c : ServerCall} (h : ServerInv n σ)
    (hs : σ.step c = some σ') :
    (σ'.ids = σ.ids ∧ ∀ m, c = .recv m → σ'.pc ≠ .handshakeSend .ack) ∨
    ∃ m x, c = .recv m ∧ σ.pc = .handshakeRecv ∧ m.length < 64 ∧ handshakeId m = some x ∧
      x ∉ σ.ids ∧ σ'.pc = .handshakeSend .ack ∧ σ'.ids = σ.ids ++ [x] := by
  rw [step_eq_some] at hs
  cases hs with
  | handshakeRecv m hpc _ =>
    by_cases h0 : m.length = 0
    · left
      rw [ServerRun.handshakeReceived, if_pos h0]
      exact ⟨rfl, fun _ _ hp => by rw [hpc] at hp; cases hp⟩
    by_cases h63 : m.length < 64
    · rcases handshakeReceived_cases h.registered (h.room hpc) h0 h63 with
        ⟨-, e⟩ | ⟨x, -, -, e⟩ | ⟨x, cid, hx, -, hnew, -, e, hreg⟩ <;> rw [e]
      · exact .inl ⟨rfl, fun _ _ hp => by cases hp⟩
      · exact .inl ⟨rfl, fun _ _ hp => by cases hp⟩
      · exact .inr ⟨m, x, rfl, hpc, h63, hx, hnew, rfl, hreg.ids_eq⟩
    · left
      have hnone : recvTerminated 64 m = none := recvTerminated_eq_none.mpr (by omega)
      simp only [ServerRun.handshakeReceived, if_neg h0, hnone]
      exact ⟨rfl, fun _ _ hp => by cases hp⟩
  | tickRecv m hpc _ =>
    left
    unfold ServerRun.tickReceived
    split
    · exact ⟨rfl, fun _ _ hp => by rw [hpc] at hp; cases hp⟩
    · split
      · exact ⟨rfl, fun _ _ hp => by cases hp⟩
      · exact ⟨ids_congr (Server.names_handleAck _), fun _ _ hp => by cases hp⟩
  | fail _ => exact .inl ⟨rfl, fun _ e => by cases e⟩
  | handshakeSend _ _ => exact .inl ⟨handshakeHead_ids _, fun _ e => by cases e⟩
  | tickSend _ => exact .inl ⟨tickHead_ids _, fun _ e => by cases e⟩
  | publish _ =>
    exact .inl ⟨(tickHead_ids _).trans (ids_congr Server.names_resetResponses),
      fun _ e => by cases e⟩

theorem ack_of_new {n : Nat} {σ σ' : ServerRun} {m : Msg} {x : List UInt8} (h : ServerInv n σ)
    (hpc : σ.pc = .handshakeRecv) (h0 : m.length ≠ 0) (h63 : m.length < 64)
    (hid : handshakeId m = some x) (hne : x ≠ []) (hnew : x ∉ σ.ids)
    (hs : σ.step (.recv m) = some σ') : σ'.pc = .handshakeSend .ack := by
  rw [step_eq_some] at hs
  cases hs with
  | tickRecv _ hp _ => rw [hpc] at hp; cases hp
  | handshakeRecv _ _ _ =>
    rcases handshakeReceived_cases h.registered (h.room hpc) h0 h63 with
      ⟨hx | hx, -⟩ | ⟨y, hy, hx, -⟩ | ⟨y, cid, -, -, -, -, e, -⟩
    · rw [hid] at hx; cases hx
    · rw [hid] at hx; exact absurd (Option.some.inj hx) hne
    · rw [hid] at hx; exact absurd hy (Option.some.inj hx ▸ hnew)
    · rw [e]

theorem ids_step {n : Nat} {σ σ' : ServerRun} {c : ServerCall} (h : ServerInv n σ)
    (hs : σ.step c = some σ') : σ.ids <+: σ'.ids := by
  rcases ids_step_cases h hs with ⟨e, -⟩ | ⟨_, x, -, -, -, -, -, -, e⟩
  · exact e ▸ List.prefix_rfl
  · exact e ▸ List.prefix_append _ _

theorem serverInv_exec {n : Nat} {σ σ' : ServerRun} {cs : List ServerCall} (h : ServerInv n σ)
    (he : Lts.exec ServerRun.step σ cs = some σ') : ServerInv n σ' :=
  Lts.exec_preserves (fun _ _ _ hi hs => serverInv_step hi hs) h he

theorem ids_exec {n : Nat} {σ σ' : ServerRun} {cs : List ServerCall} (h : ServerInv n σ)
    (he : Lts.exec ServerRun.step σ cs = some σ') : σ.ids <+: σ'.ids :=
  (Lts.exec_preserves (I := fun υ => ServerInv n υ ∧ σ.ids <+: υ.ids)
    (fun _ _ _ hi hs => ⟨serverInv_step hi.1 hs, hi.2.trans (ids_step hi.1 hs)⟩)
    ⟨h, List.prefix_rfl⟩ he).2

/-- The barrier waits for the id: it is in one of the first `expected_clients` slots. -/
def ServerRun.Awaits (σ : ServerRun) (x : List UInt8) : Prop :=
  ∃ slot ∈ σ.server.clientStates.slots.take σ.server.expectedClients, slot.name = x

instance (σ : ServerRun) (x : List UInt8) : Decidable (σ.Awaits x) :=
  inferInstanceAs (Decidable (∃ _ ∈ _, _))

theorem ServerInv.awaits {n : Nat} {σ : ServerRun} (h : ServerInv n σ) {x : List UInt8}
    (hx : x ∈ σ.ids) : σ.Awaits x := by
  rw [← h.registered.taken, List.mem_map] at hx
  obtain ⟨slot, hslot, rfl⟩ := hx
  have hle : σ.ids.length ≤ σ.server.expectedClients := by
    rw [h.ready, h.expected]; exact h.readyLe
  exact ⟨slot, List.take_subset_take_left _ hle hslot, rfl⟩

end Simulith
