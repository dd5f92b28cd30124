import Simulith.Client.State
import Simulith.Server.Tick

/-!
# The two messages a server reads

The handshake loop is to take `READY`, a space and an id. `handshakeId_eq_some`
says what it does take: any bytes without a space may stand between `READY` and
the space, because it skips to the first space and not past the prefix it has
compared. `ready_grammar_iff` draws the line. The tick loop takes an id alone,
and nothing else tells the two kinds of message apart (`ready_ack_apart`).
-/

namespace Simulith

open CStr

/-! ## What the handshake loop takes -/

theorem findIdx?_no_space {p : List UInt8} (hp : space ∉ p) :
    p.findIdx? (· == space) = none := by
  rw [List.findIdx?_eq_none_iff]
  intro b hb
  rw [beq_eq_false_iff_ne]
  rintro rfl
  exact hp hb

theorem findIdx?_first_space {p x : List UInt8} (hp : space ∉ p) :
    (p ++ space :: x).findIdx? (· == space) = some p.length := by
  rw [List.findIdx?_append, findIdx?_no_space hp, List.findIdx?_cons]
  simp

/-- The id of a message is what follows its first space, whatever stands before it. -/
theorem handshakeId_eq_some {m x : List UInt8} (h0 : 0 ∉ m) :
    handshakeId m = some x ↔ ∃ w, space ∉ w ∧ m = readyWord ++ (w ++ space :: x) := by
  rw [handshakeId_eq, str_eq_self h0]
  constructor
  · intro h
    by_cases hsp : space ∈ m
    · obtain ⟨p, y, rfl, hp⟩ := List.eq_append_cons_of_mem hsp
      simp only [findIdx?_first_space hp] at h
      split at h
      · next hw =>
        -- `READY` has no space, so it ends before the first one
        have h5 : 5 ≤ p.length := by
          by_contra hlt
          have hmem : space ∈ (p ++ space :: y).take 5 := by
            rw [List.take_append, List.mem_append]
            refine .inr ?_
            rw [show 5 - p.length = (4 - p.length) + 1 by omega, List.take_succ_cons]
            exact List.mem_cons_self
          rw [hw] at hmem
          exact space_notMem_readyWord hmem
        rw [List.take_append_of_le_length h5] at hw
        refine ⟨p.drop 5, fun hmem => hp (List.mem_of_mem_drop hmem), ?_⟩
        rw [List.drop_length_add_append, List.drop_one, List.tail_cons, Option.some.injEq] at h
        rw [← h, ← hw, ← List.append_assoc, List.take_append_drop]
      · cases h
    · rw [findIdx?_no_space hsp] at h
      cases h
  · rintro ⟨w, hw, rfl⟩
    have hp : space ∉ readyWord ++ w := by
      rw [List.mem_append]
      rintro (hmem | hmem)
      · exact space_notMem_readyWord hmem
      · exact hw hmem
    rw [← List.append_assoc, findIdx?_first_space hp]
    simp only
    rw [if_pos ?_, List.drop_length_add_append, List.drop_one, List.tail_cons]
    rw [List.append_assoc]
    exact List.take_left' rfl

/-- A message received in the handshake loop is refused, a duplicate, or registers its id. -/
theorem handshakeRecv_outcome {n : Nat} {σ : ServerRun} (hi : ServerInv n σ) {m : Msg}
    (hm : Fits m) (hpc : σ.pc = .handshakeRecv) (ho : σ.owes = false) :
    ∃ τ, σ.step (.recv m) = some τ ∧
      ((handshakeId m = none ∨ handshakeId m = some []) ∧ τ.pc = .handshakeSend .err ∧
          τ.ids = σ.ids ∨
        (∃ x ∈ σ.ids, handshakeId m = some x ∧ τ.pc = .handshakeSend .dupId ∧ τ.ids = σ.ids) ∨
        ∃ x, handshakeId m = some x ∧ x ≠ [] ∧ x ∉ σ.ids ∧ τ.pc = .handshakeSend .ack ∧
          τ.ids = σ.ids ++ [x]) := by
  have h0 : m.length ≠ 0 := by
    have := hm.1
    omega
  refine ⟨_, step_eq_some.mpr (.handshakeRecv m hpc ho), ?_⟩
  rcases handshakeReceived_cases hi.registered (hi.room hpc) h0 (Nat.lt_succ_of_le hm.2) with
    ⟨hid, e⟩ | ⟨x, hx, hid, e⟩ | ⟨x, cid, hid, hne, hnew, -, e, hreg⟩ <;> rw [e]
  · exact .inl ⟨hid, rfl, rfl⟩
  · exact .inr (.inl ⟨x, hx, hid, rfl, rfl⟩)
  · exact .inr (.inr ⟨x, hid, hne, hnew, rfl, hreg.ids_eq⟩)

/-! ## The READY grammar -/

/-- In `σ` the server reads `m` as `READY`, a space and an id, or not at all. -/
structure ReadyGrammar (σ τ : ServerRun) (m : Msg) : Prop where
  registered : ∀ x, τ.pc = .handshakeSend .ack ∧ τ.ids = σ.ids ++ [x] ↔
    m = readyWord ++ space :: x ∧ x ≠ [] ∧ x ∉ σ.ids
  duplicate : τ.pc = .handshakeSend .dupId ↔ ∃ x ∈ σ.ids, m = readyWord ++ space :: x
  refused : τ.pc = .handshakeSend .err ↔ ∀ x, m = readyWord ++ space :: x → x = []
  kept : τ.pc ≠ .handshakeSend .ack → τ.ids = σ.ids

/-- A message that starts with a longer word than `READY` and carries an id all the same. -/
def NearReady (m : Msg) : Prop :=
  ∃ w x, w ≠ [] ∧ space ∉ w ∧ x ≠ [] ∧ m = readyWord ++ (w ++ space :: x)

theorem handshakeId_of_not_near {m x : List UInt8} (h0 : 0 ∉ m) (hm : ¬ NearReady m)
    (hx : x ≠ []) : handshakeId m = some x ↔ m = readyWord ++ space :: x := by
  rw [handshakeId_eq_some h0]
  constructor
  · rintro ⟨w, hw, rfl⟩
    by_cases hnil : w = []
    · rw [hnil]
      rfl
    · exact absurd ⟨w, x, hnil, hw, hx, rfl⟩ hm
  · rintro rfl
    exact ⟨[], List.not_mem_nil, rfl⟩

theorem NearReady.ne_ready {m : Msg} (hm : NearReady m) (y : List UInt8) :
    m ≠ readyWord ++ space :: y := by
  obtain ⟨w, x, hne, hw, -, rfl⟩ := hm
  intro h
  obtain ⟨b, w, rfl⟩ := List.exists_cons_of_ne_nil hne
  have hb : b = space := (List.cons.inj (List.append_cancel_left h)).1
  exact hw (hb ▸ List.mem_cons_self)

theorem ReadyGrammar.of_outcome {σ τ : ServerRun} {m : Msg} (hnil : [] ∉ σ.ids)
    (hform : ∀ x, x ≠ [] → (handshakeId m = some x ↔ m = readyWord ++ space :: x))
    (hout : (handshakeId m = none ∨ handshakeId m = some []) ∧ τ.pc = .handshakeSend .err ∧
        τ.ids = σ.ids ∨
      (∃ x ∈ σ.ids, handshakeId m = some x ∧ τ.pc = .handshakeSend .dupId ∧ τ.ids = σ.ids) ∨
      ∃ x, handshakeId m = some x ∧ x ≠ [] ∧ x ∉ σ.ids ∧ τ.pc = .handshakeSend .ack ∧
        τ.ids = σ.ids ++ [x]) : ReadyGrammar σ τ m := by
  have hne : ∀ x ∈ σ.ids, x ≠ [] := fun x hx he => hnil (he ▸ hx)
  rcases hout with ⟨hid, hpc, hids⟩ | ⟨y, hy, hid, hpc, hids⟩ | ⟨y, hid, hyne, hynew, hpc, hids⟩
  · -- no id of the grammar
    have hnone : ∀ x, m = readyWord ++ space :: x → x = [] := by
      intro x hx
      by_contra hxne
      rw [(hform x hxne).mpr hx] at hid
      rcases hid with hid | hid
      · cases hid
      · exact hxne (Option.some.inj hid)
    refine ⟨fun x => ?_, ?_, ?_, fun _ => hids⟩
    · refine iff_of_false (fun hack => ?_) fun hx => hx.2.1 (hnone x hx.1)
      cases hpc.symm.trans hack.1
    · refine iff_of_false (fun hdup => ?_) ?_
      · cases hpc.symm.trans hdup
      · rintro ⟨x, hx, hmx⟩
        exact hne x hx (hnone x hmx)
    · exact iff_of_true hpc hnone
  · -- the id of a registered client
    have hmy := (hform y (hne y hy)).mp hid
    refine ⟨fun x => ?_, ?_, ?_, fun _ => hids⟩
    · refine iff_of_false (fun hack => ?_) ?_
      · cases hpc.symm.trans hack.1
      · rintro ⟨hmx, hx, hnew⟩
        cases hid.symm.trans ((hform x hx).mpr hmx)
        exact hnew hy
    · exact iff_of_true hpc ⟨y, hy, hmy⟩
    · refine iff_of_false (fun herr => ?_) fun hall => hne y hy (hall y hmy)
      cases hpc.symm.trans herr
  · -- a new id
    have hmy := (hform y hyne).mp hid
    refine ⟨fun x => ?_, ?_, ?_, fun hack => absurd hpc hack⟩
    · constructor
      · rintro ⟨-, hadd⟩
        have hxy : [y] = [x] := List.append_cancel_left (hids.symm.trans hadd)
        cases hxy
        exact ⟨hmy, hyne, hynew⟩
      · rintro ⟨hmx, hx, -⟩
        cases hid.symm.trans ((hform x hx).mpr hmx)
        exact ⟨hpc, hids⟩
    · refine iff_of_false (fun hdup => ?_) ?_
      · cases hpc.symm.trans hdup
      · rintro ⟨x, hx, hmx⟩
        cases hid.symm.trans ((hform x (hne x hx)).mpr hmx)
        exact hynew hx
    · refine iff_of_false (fun herr => ?_) fun hall => hyne (hall y hmy)
      cases hpc.symm.trans herr

/-- In every handshake-phase registry with room, the server reads a message by the READY grammar
exactly when the message is no near miss of it. -/
theorem ready_grammar_iff {n : Int} {iv : UInt64} {s : Server} {cs : List ServerCall}
    {σ : ServerRun} (hs : ServerReady n iv s)
    (h : Lts.exec ServerRun.step (simulithServerRun s) cs = some σ)
    (hpc : σ.pc = .handshakeRecv) (ho : σ.owes = false) {m : Msg} (hm : Fits m) (h0 : 0 ∉ m) :
    ∃ τ, σ.step (.recv m) = some τ ∧ (ReadyGrammar σ τ m ↔ ¬ NearReady m) := by
  have hi := serverInv_exec (serverInv_init hs) h
  obtain ⟨τ, hst, hout⟩ := handshakeRecv_outcome hi hm hpc ho
  refine ⟨τ, hst, ?_⟩
  constructor
  · rintro hg hnear
    have herr := hg.refused.mpr fun x hx => absurd hx (hnear.ne_ready x)
    obtain ⟨w, x, -, hw, hne, hmx⟩ := hnear
    have hid := (handshakeId_eq_some h0).mpr ⟨w, hw, hmx⟩
    rcases hout with ⟨hbad | hbad, -⟩ | ⟨y, -, -, hdup, -⟩ | ⟨y, -, -, -, hack, -⟩
    · cases hid.symm.trans hbad
    · cases hid.symm.trans hbad
      exact hne rfl
    · cases herr.symm.trans hdup
    · cases herr.symm.trans hack
  · intro hfar
    exact .of_outcome hi.registered.ne (fun x hx => handshakeId_of_not_near h0 hfar hx) hout

theorem serverReady_one : ServerReady 1 10 (.fresh 1 10) :=
  serverReady_fresh (by decide) (by decide) (by decide)

theorem ready_grammar_iff_fresh :
    ∃ τ, (simulithServerRun (.fresh 1 10)).step (.recv (readyWord ++ [space, 97])) = some τ ∧
      (ReadyGrammar (simulithServerRun (.fresh 1 10)) τ (readyWord ++ [space, 97]) ↔
        ¬ NearReady (readyWord ++ [space, 97])) := by
  have hrun : Lts.exec ServerRun.step (simulithServerRun (.fresh 1 10)) [] =
      some (simulithServerRun (.fresh 1 10)) := rfl
  exact ready_grammar_iff serverReady_one hrun rfl rfl (by decide) (by decide)

/-- `READYX a` registers the id `a`. -/
theorem ready_near_miss_registered : ∃ τ,
    Lts.exec ServerRun.step (simulithServerRun (.fresh 1 10))
      [.recv (readyWord ++ [88, space, 97])] = some τ ∧
    τ.pc = .handshakeSend .ack ∧ τ.ids = [[97]] ∧
    ¬ ReadyGrammar (simulithServerRun (.fresh 1 10)) τ (readyWord ++ [88, space, 97]) := by
  have hrun : (Lts.exec ServerRun.step (simulithServerRun (.fresh 1 10))
      [.recv (readyWord ++ [88, space, 97])]).any (fun τ => decide
      (τ.pc = .handshakeSend .ack ∧ τ.ids = [[97]])) = true := by
    decide
  obtain ⟨τ, hst, hpc, hids⟩ := Lts.exists_exec_of_any hrun
  refine ⟨τ, hst, hpc, hids, fun hg => ?_⟩
  have hm := ((hg.registered [97]).mp ⟨hpc, hids⟩).1
  exact absurd hm (by decide)

/-! ## READY and acknowledgement -/

theorem ClientReady.name_eq {id : List UInt8} {c : Client} (h : ClientReady id c)
    (hlen : (str id).length ≤ 57) : str id ≠ [] ∧ c.name = str id := by
  obtain ⟨o, pubAddr, repAddr, rateNs, c₀, z₀, z, h⟩ := h
  obtain ⟨hne, -, hname⟩ := clientInit_ok h
  exact ⟨hne, hname.trans (List.take_of_length_le (by omega))⟩

theorem ClientReady.readyMsg_fits {id : List UInt8} {c : Client} (h : ClientReady id c)
    (hlen : (str id).length ≤ 57) :
    Fits c.readyMsg ∧ str c.readyMsg = readyWord ++ space :: str id := by
  obtain ⟨-, hname⟩ := h.name_eq hlen
  have hz : 0 ∉ readyWord ++ space :: str id := by
    simp only [List.mem_append, List.mem_cons, not_or]
    exact ⟨by decide, by decide, zero_notMem_str id⟩
  have hw : readyWord.length = 5 := by decide
  rw [c.readyMsg_eq, hname, str_eq_self hz]
  refine ⟨⟨?_, ?_⟩, rfl⟩ <;> simp only [List.length_append, List.length_cons, hw] <;> omega

theorem ClientReady.ackMsg_fits {id : List UInt8} {c : Client} (h : ClientReady id c)
    (hlen : (str id).length ≤ 57) : Fits c.ackMsg ∧ 0 ∉ c.ackMsg ∧ c.ackMsg = str id := by
  obtain ⟨hne, hname⟩ := h.name_eq hlen
  have hpos := List.length_pos_of_ne_nil hne
  rw [c.ackMsg_eq, hname]
  exact ⟨⟨by omega, by omega⟩, zero_notMem_str id, rfl⟩

/-- READY messages and acknowledgements of clients with ids of at most 57 bytes. READY of `y`, read
in the tick phase, sets the flag of `x` only when `x` is `READY`, a space and `y`; and the
acknowledgement of `x`, read in the handshake phase, registers an id only when `x` starts with
`READY` and goes on after a space. -/
theorem ready_ack_apart {n : Int} {iv : UInt64} {s : Server} {cs : List ServerCall}
    {σ : ServerRun} (hs : ServerReady n iv s)
    (h : Lts.exec ServerRun.step (simulithServerRun s) cs = some σ) {x y : List UInt8}
    {cx cy : Client} (hx : ClientReady x cx) (hy : ClientReady y cy) (hxl : (str x).length ≤ 57)
    (hyl : (str y).length ≤ 57) :
    (σ.pc.InTick → str x ∈ σ.ids → ∀ τ, σ.step (.recv cy.readyMsg) = some τ →
      (τ.server.HasResponded (str x) ↔ σ.server.HasResponded (str x) ∨
        str x = readyWord ++ space :: str y)) ∧
    (σ.pc = .handshakeRecv → ∀ τ, σ.step (.recv cx.ackMsg) = some τ → τ.ids ≠ σ.ids →
      ∃ w z, str x = readyWord ++ (w ++ space :: z) ∧ z ≠ []) := by
  have hi := serverInv_exec (serverInv_init hs) h
  refine ⟨fun hp hreg τ hst => ?_, fun hp τ hst hids => ?_⟩
  · obtain ⟨hfits, hstr⟩ := hy.readyMsg_fits hyl
    rw [← hstr]
    exact (tickRecv_spec hi hp hfits hst).2.2.2 _ hreg
  · obtain ⟨hfits, h0, hack⟩ := hx.ackMsg_fits hxl
    have ho : σ.owes = false := by
      cases step_eq_some.mp hst with
      | handshakeRecv _ _ ho => exact ho
      | tickRecv _ _ ho => exact ho
    obtain ⟨τ', hst', hout⟩ := handshakeRecv_outcome hi hfits hp ho
    cases hst.symm.trans hst'
    rcases hout with ⟨-, -, hkept⟩ | ⟨z, -, -, -, hkept⟩ | ⟨z, hid, hz, -⟩
    · exact absurd hkept hids
    · exact absurd hkept hids
    · obtain ⟨w, -, hm⟩ := (handshakeId_eq_some h0).mp hid
      exact ⟨w, z, hack.symm.trans hm, hz⟩

/-- READY of `b` after the first broadcast to the client `a`, and the acknowledgement of the client
called `READY c` when `a` is registered and another is awaited. -/
theorem ready_ack_apart_registered :
    (∃ σ τ : ServerRun, Lts.exec ServerRun.step (simulithServerRun (.fresh 1 10))
        [.recv (Client.named [97]).readyMsg, .send Reply.ack.bytes, .publish 0] = some σ ∧
      σ.step (.recv (Client.named [98]).readyMsg) = some τ ∧
      (τ.server.HasResponded (str [97]) ↔ σ.server.HasResponded (str [97]) ∨
        str [97] = readyWord ++ space :: str [98])) ∧
    ∃ σ τ : ServerRun, Lts.exec ServerRun.step (simulithServerRun (.fresh 2 10))
        [.recv (Client.named [97]).readyMsg, .send Reply.ack.bytes] = some σ ∧
      σ.step (.recv (Client.named (readyWord ++ [space, 99])).ackMsg) = some τ ∧
      τ.ids = [[97], [99]] ∧
      ∃ w z, str (readyWord ++ [space, 99]) = readyWord ++ (w ++ space :: z) ∧ z ≠ [] := by
  constructor
  · have hrun : (Lts.exec ServerRun.step (simulithServerRun (.fresh 1 10))
        [.recv (Client.named [97]).readyMsg, .send Reply.ack.bytes, .publish 0]).any
        (fun σ => decide (σ.pc = .tickRecv ∧ str [97] ∈ σ.ids ∧
          (σ.step (.recv (Client.named [98]).readyMsg)).isSome = true)) = true := by
      decide
    obtain ⟨σ, h, hp, hreg, hst⟩ := Lts.exists_exec_of_any hrun
    have hp : σ.pc.InTick := by
      rw [hp]
      trivial
    obtain ⟨τ, hst⟩ := Option.isSome_iff_exists.mp hst
    exact ⟨σ, τ, h, hst, (ready_ack_apart serverReady_one h (clientReady_named (by decide))
      (clientReady_named (by decide)) (by decide) (by decide)).1 hp hreg τ hst⟩
  · have hrun : (Lts.exec ServerRun.step (simulithServerRun (.fresh 2 10))
        [.recv (Client.named [97]).readyMsg, .send Reply.ack.bytes]).any
        (fun σ => decide (σ.pc = .handshakeRecv ∧ σ.ids = [[97]] ∧
          (σ.step (.recv (Client.named (readyWord ++ [space, 99])).ackMsg)).any
            (fun τ => decide (τ.ids = [[97], [99]])) = true)) = true := by
      decide
    obtain ⟨σ, h, hp, hids, hst⟩ := Lts.exists_exec_of_any hrun
    obtain ⟨τ, hst, hids'⟩ := (Option.any_eq_true _ _).mp hst
    have hids' : τ.ids = [[97], [99]] := of_decide_eq_true hids'
    have hne : τ.ids ≠ σ.ids := by
      rw [hids, hids']
      decide
    have hready : ServerReady 2 10 (.fresh 2 10) :=
      serverReady_fresh (by decide) (by decide) (by decide)
    exact ⟨σ, τ, h, hst, hids', (ready_ack_apart (y := [98]) hready h
      (clientReady_named (by decide)) (clientReady_named (by decide)) (by decide)
      (by decide)).2 hp τ hst hne⟩

/-- READY of `a` sets the flag of the client called `READY a`, and the acknowledgement of that
client registers `a`. -/
theorem ready_ack_confused :
    ClientReady (readyWord ++ [space, 97]) (.named (readyWord ++ [space, 97])) ∧
    ClientReady [97] (.named [97]) ∧
    (∃ σ τ : ServerRun, Lts.exec ServerRun.step (simulithServerRun (.fresh 1 10))
        [.recv (Client.named (readyWord ++ [space, 97])).readyMsg, .send Reply.ack.bytes,
          .publish 0] = some σ ∧
      σ.pc = .tickRecv ∧ readyWord ++ [space, 97] ∈ σ.ids ∧
      ¬ σ.server.HasResponded (readyWord ++ [space, 97]) ∧
      σ.step (.recv (Client.named [97]).readyMsg) = some τ ∧
      τ.server.HasResponded (readyWord ++ [space, 97])) ∧
    ∃ τ, (simulithServerRun (.fresh 1 10)).step
        (.recv (Client.named (readyWord ++ [space, 97])).ackMsg) = some τ ∧
      τ.pc = .handshakeSend .ack ∧ τ.ids = [[97]] := by
  refine ⟨clientReady_named (by decide), clientReady_named (by decide), ?_, ?_⟩
  · have hrun : (Lts.exec ServerRun.step (simulithServerRun (.fresh 1 10))
        [.recv (Client.named (readyWord ++ [space, 97])).readyMsg, .send Reply.ack.bytes,
          .publish 0]).any (fun σ => decide
        (σ.pc = .tickRecv ∧ readyWord ++ [space, 97] ∈ σ.ids ∧
          ¬ σ.server.HasResponded (readyWord ++ [space, 97]) ∧
          (σ.step (.recv (Client.named [97]).readyMsg)).any (fun τ => decide
            (τ.server.HasResponded (readyWord ++ [space, 97]))) = true)) = true := by
      decide
    obtain ⟨σ, hσ, hpc, hreg, hno, hst⟩ := Lts.exists_exec_of_any hrun
    obtain ⟨τ, hτ, hyes⟩ := (Option.any_eq_true _ _).mp hst
    exact ⟨σ, τ, hσ, hpc, hreg, hno, hτ, of_decide_eq_true hyes⟩
  · have hrun : ((simulithServerRun (.fresh 1 10)).step
        (.recv (Client.named (readyWord ++ [space, 97])).ackMsg)).any (fun τ => decide
        (τ.pc = .handshakeSend .ack ∧ τ.ids = [[97]])) = true := by
      decide
    obtain ⟨τ, hτ, hreg⟩ := (Option.any_eq_true _ _).mp hrun
    exact ⟨τ, hτ, of_decide_eq_true hreg⟩

end Simulith
