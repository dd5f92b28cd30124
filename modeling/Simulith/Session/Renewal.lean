import Simulith.Server.Tick

/-!
# A session is as good as new, but for the clock

`simulith_server_init` clears the first byte of each id and leaves the other 63
as they are, and it does not touch the time. `ServerRun.Like δ` relates two runs
whose tables have the same names and flags and whose clocks are `δ` apart: no
call can tell them apart but by the time it broadcasts (`Like.step`). So what
was registered, acknowledged or broadcast in earlier sessions shows in the time
only (`session_renewed`).
-/

namespace Simulith

open CStr

/-! ## What a run reads of the table -/

/-- The name and the flag of every slot. -/
def ClientTable.view (t : ClientTable) : List (List UInt8 × Bool) :=
  t.slots.map fun c => (c.name, c.responded)

namespace ClientTable

theorem view_mapFirst {t : ClientTable} {n : Nat} {f : ClientState → ClientState}
    {g : List UInt8 × Bool → List UInt8 × Bool}
    (h : ∀ c, ((f c).name, (f c).responded) = g (c.name, c.responded)) :
    (t.mapFirst n f).view = (t.view.take n).map g ++ t.view.drop n := by
  simp only [view, mapFirst, List.map_append, List.map_map, List.map_take, List.map_drop]
  congr 2
  exact List.map_congr_left fun c _ => h c

theorem view_modify {t : ClientTable} {i : Nat} {f : ClientState → ClientState}
    {g : List UInt8 × Bool → List UInt8 × Bool}
    (h : ∀ c, ((f c).name, (f c).responded) = g (c.name, c.responded)) :
    (t.modify i f).view = t.view.modify i g := by
  apply List.ext_getElem?
  intro j
  simp only [view, modify, List.getElem?_map, List.getElem?_modify]
  cases t.slots[j]? with
  | none => rfl
  | some c => by_cases hij : i = j <;> simp [hij, ← h]

end ClientTable

/-- Two servers whose clocks are `δ` apart and that are the same in all else that is read. -/
structure Server.Like (δ : UInt64) (s t : Server) : Prop where
  time : s.currentTimeNs = t.currentTimeNs + δ
  interval : s.tickIntervalNs = t.tickIntervalNs
  expected : s.expectedClients = t.expectedClients
  view : s.clientStates.view = t.clientStates.view

namespace Server

variable {δ : UInt64} {s t : Server}

theorem isClientIdTaken_view (s : Server) (id : List UInt8) : s.isClientIdTaken id =
    s.clientStates.view.any fun p => decide (p.1 ≠ [] ∧ p.1 = str id) := by
  rw [isClientIdTaken, ClientTable.view, List.any_map]
  refine congrArg s.clientStates.slots.any (funext fun c => Bool.eq_iff_iff.mpr ?_)
  rw [ClientState.holds_iff, Function.comp, decide_eq_true_iff]

theorem freeSlot_view (s : Server) :
    s.freeSlot = s.clientStates.view.findIdx? fun p => decide (p.1 = []) := by
  rw [freeSlot, ClientTable.view, List.findIdx?_map]
  refine congrArg (List.findIdx? · s.clientStates.slots) (funext fun c => Bool.eq_iff_iff.mpr ?_)
  rw [ClientState.isFree_iff, Function.comp, decide_eq_true_iff]

theorem allClientsResponded_view (s : Server) : s.allClientsResponded =
    ((s.clientStates.view.take s.expectedClients).countP (·.2) == s.expectedClients) := by
  rw [allClientsResponded, ClientTable.view, ← List.map_take, List.countP_map]
  rfl

theorem Like.resetResponses (h : s.Like δ t) : s.resetResponses.Like δ t.resetResponses where
  time := h.time
  interval := h.interval
  expected := h.expected
  view := by
    simp only [Server.resetResponses]
    rw [ClientTable.view_mapFirst (g := fun p => (p.1, false)) fun _ => rfl,
      ClientTable.view_mapFirst (g := fun p => (p.1, false)) fun _ => rfl, h.view, h.expected]

theorem Like.registerClient (h : s.Like δ t) (slot : Nat) (id : List UInt8) :
    (s.registerClient slot id).Like δ (t.registerClient slot id) where
  time := h.time
  interval := h.interval
  expected := h.expected
  view := by
    have hview : ∀ u : Server, (u.registerClient slot id).clientStates.view =
        u.clientStates.view.modify slot fun _ => ((str id).take 63, false) := fun u =>
      ClientTable.view_modify fun c => Prod.ext (CharBuf.str_strncpy_set _ _) rfl
    rw [hview, hview, h.view]

theorem findIdx_holds_view (s : Server) (id : List UInt8) :
    ((s.clientStates.slots.take s.expectedClients).findIdx? (·.holds id)) =
      (s.clientStates.view.take s.expectedClients).findIdx?
        fun p => decide (p.1 ≠ [] ∧ p.1 = str id) := by
  rw [ClientTable.view, ← List.map_take, List.findIdx?_map]
  refine congrArg (List.findIdx? · _) (funext fun c => Bool.eq_iff_iff.mpr ?_)
  rw [ClientState.holds_iff, Function.comp, decide_eq_true_iff]

theorem Like.handleAck (h : s.Like δ t) (id : List UInt8) :
    (s.handleAck id).Like δ (t.handleAck id) := by
  have hfind : ((s.clientStates.slots.take s.expectedClients).findIdx? (·.holds id)) =
      (t.clientStates.slots.take t.expectedClients).findIdx? (·.holds id) := by
    rw [findIdx_holds_view, findIdx_holds_view, h.view, h.expected]
  unfold Server.handleAck
  rw [hfind]
  split
  · refine ⟨h.time, h.interval, h.expected, ?_⟩
    simp only
    rw [ClientTable.view_modify (g := fun p => (p.1, true)) fun _ => rfl,
      ClientTable.view_modify (g := fun p => (p.1, true)) fun _ => rfl, h.view]
  · exact h

theorem Like.allClientsResponded (h : s.Like δ t) :
    s.allClientsResponded = t.allClientsResponded := by
  rw [allClientsResponded_view, allClientsResponded_view, h.view, h.expected]

end Server

theorem Server.Like.handshakeVerdict {δ : UInt64} {s t : Server} (h : s.Like δ t)
    (buffer : List UInt8) : handshakeVerdict s buffer = handshakeVerdict t buffer := by
  unfold Simulith.handshakeVerdict
  simp only [isClientIdTaken_view, freeSlot_view, h.view]

/-! ## The two runs -/

structure ServerRun.Like (δ : UInt64) (σ τ : ServerRun) : Prop where
  server : σ.server.Like δ τ.server
  readyClients : σ.readyClients = τ.readyClients
  pc : σ.pc = τ.pc
  owes : σ.owes = τ.owes

/-- The call of the run whose clock is `δ` ahead. -/
def ServerCall.ahead (δ : UInt64) : ServerCall → ServerCall
  | .publish t => .publish (t + δ)
  | c => c

namespace ServerRun.Like

variable {δ : UInt64} {σ τ : ServerRun}

theorem handshakeHead (h : σ.Like δ τ) : σ.handshakeHead.Like δ τ.handshakeHead := by
  unfold ServerRun.handshakeHead
  rw [h.readyClients, h.server.expected]
  split
  · exact ⟨h.server, rfl, rfl, h.owes⟩
  · exact ⟨h.server.resetResponses, rfl, rfl, h.owes⟩

theorem tickHead (h : σ.Like δ τ) : σ.tickHead.Like δ τ.tickHead := by
  unfold ServerRun.tickHead
  rw [h.server.allClientsResponded]
  split
  · refine ⟨⟨?_, h.server.interval, h.server.expected, h.server.view⟩, h.readyClients, rfl, h.owes⟩
    simp only [h.server.time, h.server.interval]
    rw [UInt64.add_assoc, UInt64.add_comm δ, ← UInt64.add_assoc]
  · exact ⟨h.server, h.readyClients, rfl, h.owes⟩

theorem handshakeReceived (h : σ.Like δ τ) (m : Msg) :
    (σ.handshakeReceived m).Like δ (τ.handshakeReceived m) := by
  unfold ServerRun.handshakeReceived
  split
  · exact ⟨h.server, h.readyClients, h.pc, rfl⟩
  · split
    · exact ⟨h.server, h.readyClients, rfl, rfl⟩
    · next buffer _ =>
      rw [h.server.handshakeVerdict]
      split
      · exact ⟨h.server.registerClient _ _, congrArg (· + 1) h.readyClients, rfl, rfl⟩
      · exact ⟨h.server, h.readyClients, rfl, rfl⟩

theorem tickReceived (h : σ.Like δ τ) (m : Msg) :
    (σ.tickReceived m).Like δ (τ.tickReceived m) := by
  unfold ServerRun.tickReceived
  split
  · exact ⟨h.server, h.readyClients, h.pc, rfl⟩
  · split
    · exact ⟨h.server, h.readyClients, rfl, rfl⟩
    · exact ⟨h.server.handleAck _, h.readyClients, rfl, rfl⟩

theorem replied (h : σ.Like δ τ) :
    ({ σ with owes := false } : ServerRun).Like δ { τ with owes := false } :=
  ⟨h.server, h.readyClients, h.pc, rfl⟩

/-- **One call**: the two runs allow the same calls, the times of broadcasts being `δ` apart. -/
theorem step (h : σ.Like δ τ) (c : ServerCall) :
    (σ.step (c.ahead δ) = none ∧ τ.step c = none) ∨
    ∃ σ' τ', σ.step (c.ahead δ) = some σ' ∧ τ.step c = some τ' ∧ σ'.Like δ τ' := by
  cases c with
  | recv m =>
    simp only [ServerCall.ahead, ServerRun.step, h.owes, h.pc]
    split
    · exact .inl ⟨rfl, rfl⟩
    · split
      · exact .inr ⟨_, _, rfl, rfl, h.handshakeReceived m⟩
      · exact .inr ⟨_, _, rfl, rfl, h.tickReceived m⟩
      · exact .inl ⟨rfl, rfl⟩
  | recvFail =>
    simp only [ServerCall.ahead, ServerRun.step, h.pc]
    split
    · exact .inr ⟨σ, τ, rfl, rfl, h⟩
    · exact .inr ⟨σ, τ, rfl, rfl, h⟩
    · exact .inl ⟨rfl, rfl⟩
  | send m =>
    simp only [ServerCall.ahead, ServerRun.step, h.pc]
    split
    · split
      · exact .inr ⟨_, _, rfl, rfl, h.replied.handshakeHead⟩
      · exact .inl ⟨rfl, rfl⟩
    · split
      · exact .inr ⟨_, _, rfl, rfl, h.replied.tickHead⟩
      · exact .inl ⟨rfl, rfl⟩
    · exact .inl ⟨rfl, rfl⟩
  | publish t =>
    have htime : t + δ = σ.server.currentTimeNs ↔ t = τ.server.currentTimeNs := by
      rw [h.server.time]
      exact UInt64.add_left_inj δ
    simp only [ServerCall.ahead, ServerRun.step, h.pc, htime]
    split
    · split
      · exact .inr ⟨_, _, rfl, rfl,
          tickHead ⟨h.server.resetResponses, h.readyClients, rfl, h.owes⟩⟩
      · exact .inl ⟨rfl, rfl⟩
    · exact .inl ⟨rfl, rfl⟩

end ServerRun.Like

theorem ServerReady.view {n : Int} {iv : UInt64} {s : Server} (hs : ServerReady n iv s) :
    s.clientStates.view = List.replicate maxClients ([], false) := by
  obtain ⟨-, -, -, hreg, hquiet⟩ := hs.spec
  have hnames : s.clientStates.names = List.replicate maxClients [] := hreg.names
  refine List.eq_replicate_iff.mpr ⟨by rw [ClientTable.view, List.length_map, ClientTable.size],
    fun p hp => ?_⟩
  obtain ⟨c, hc, rfl⟩ := List.mem_map.mp hp
  have hname : c.name ∈ s.clientStates.names := List.mem_map_of_mem hc
  rw [hnames] at hname
  rw [List.eq_of_mem_replicate hname, hquiet c hc]

/-- **A session is as good as new.** Whatever has happened in the process before,
a server initialised for `n` clients makes the calls any other server so
initialised makes, its broadcasts later by the difference of their clocks, and no
others. -/
theorem session_renewed {n : Int} {iv : UInt64} {s t : Server} (hs : ServerReady n iv s)
    (ht : ServerReady n iv t) (cs : List ServerCall) :
    (Lts.exec ServerRun.step (simulithServerRun s)
      (cs.map (ServerCall.ahead (s.currentTimeNs - t.currentTimeNs)))).isSome ↔
    (Lts.exec ServerRun.step (simulithServerRun t) cs).isSome := by
  have hserver : s.Like (s.currentTimeNs - t.currentTimeNs) t :=
    { time := by rw [UInt64.add_comm, UInt64.sub_add_cancel]
      interval := hs.spec.2.1.trans ht.spec.2.1.symm
      expected := by have := hs.spec.1.2.2; have := ht.spec.1.2.2; omega
      view := hs.view.trans ht.view.symm }
  have hlike : (simulithServerRun s).Like (s.currentTimeNs - t.currentTimeNs)
      (simulithServerRun t) := ServerRun.Like.handshakeHead ⟨hserver, rfl, rfl, rfl⟩
  rw [← Lts.exec_map]
  rcases Lts.exec_related (Q := fun _ => True) (fun _ _ c h _ => h.step c) hlike
    (fun c (_ : c ∈ cs) => trivial) with ⟨h1, h2⟩ | ⟨σ', τ', h1, h2, -⟩
  · rw [h1, h2]
  · rw [h1, h2]
    exact Iff.rfl

/-- After a session with another id, stopped at time 30. -/
theorem session_renewed_second :
    let old : Server := { (Server.fresh 1 10).registerClient 0 [98, 97] with currentTimeNs := 30 }
    let s := (simulithServerInit ⟨true, true, true, true, true⟩ [] [] 1 10 old .empty).2.1
    (Lts.exec ServerRun.step (simulithServerRun s)
      [.recv (readyWord ++ [space, 97]), .send Reply.ack.bytes, .publish 30]).isSome := by
  intro old s
  have hs : ServerReady 1 10 s := ⟨⟨true, true, true, true, true⟩, [], [], old, .empty, _, rfl⟩
  have h := (session_renewed hs (t := .fresh 1 10)
    (serverReady_fresh (by decide) (by decide) (by decide))
    [.recv (readyWord ++ [space, 97]), .send Reply.ack.bytes, .publish 0]).mpr (by decide)
  rwa [show s.currentTimeNs - (Server.fresh 1 10).currentTimeNs = 30 by decide] at h

end Simulith
