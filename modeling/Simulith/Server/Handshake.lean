import Simulith.Server.Table
import Simulith.Server.Run

/-!
# What the server does with a message

`handshakeId m` is the id a handshake message carries: what follows its first
space, provided its first five bytes are `READY`. `handshakeReceived_cases`
says what each message does to a registry, `ServerStep` what each call of
`simulith_server_run` can do.
-/

namespace Simulith

open CStr

/-- The id field of a handshake message. -/
def handshakeId (m : Msg) : Option (List UInt8) :=
  match strchr m space with
  | none => none
  | some i => if strncmp 5 m readyWord ≠ 0 then none else some (str (m.drop (i + 1)))

theorem str_readyWord : str readyWord = readyWord := by decide

theorem space_notMem_readyWord : space ∉ readyWord := by decide

theorem handshakeId_eq (m : Msg) : handshakeId m =
    match (str m).findIdx? (· == space) with
    | none => none
    | some i => if (str m).take 5 = readyWord then some ((str m).drop (i + 1)) else none := by
  unfold handshakeId
  simp only [strchr, ne_eq, strncmp_eq_zero, str_readyWord]
  rw [show readyWord.take 5 = readyWord from rfl]
  cases hi : (str m).findIdx? (· == space) with
  | none => rfl
  | some i =>
    obtain ⟨hlt, -⟩ := List.findIdx?_eq_some_iff_getElem.mp hi
    by_cases h : (str m).take 5 = readyWord
    · simp only [h, not_true_eq_false, ↓reduceIte]
      rw [str_drop (by omega)]
    · simp [h]

theorem handshakeId_congr {m m' : Msg} (h : str m = str m') : handshakeId m = handshakeId m' := by
  rw [handshakeId_eq, handshakeId_eq, h]

theorem length_handshakeId {m : Msg} {x : List UInt8} (h : handshakeId m = some x) :
    x.length + 6 ≤ m.length ∧ 0 ∉ x := by
  rw [handshakeId_eq] at h
  have hle := length_str_le m
  split at h
  · cases h
  · next i hi =>
    split at h
    · next hw =>
      cases h
      obtain ⟨hlt, hsp, -⟩ := List.findIdx?_eq_some_iff_getElem.mp hi
      have h5 : 5 ≤ i := by
        -- the first five bytes are `READY`, none of them a space
        by_contra hi5
        have hmem : (str m)[i] ∈ (str m).take 5 :=
          List.mem_take_iff_getElem.mpr ⟨i, by omega, rfl⟩
        rw [hw, beq_iff_eq.mp hsp] at hmem
        exact space_notMem_readyWord hmem
      refine ⟨by simp only [List.length_drop]; omega, fun h0 => ?_⟩
      exact zero_notMem_str m (List.mem_of_mem_drop h0)
    · cases h

theorem handshakeId_ready {id : List UInt8} (h : 0 ∉ id) :
    handshakeId (readyWord ++ space :: id) = some id := by
  have hz : 0 ∉ readyWord ++ space :: id := by
    simp only [List.mem_append, List.mem_cons, not_or]
    exact ⟨by decide, by decide, h⟩
  rw [handshakeId_eq, str_eq_self hz, List.findIdx?_append]
  rw [show List.findIdx? (· == space) readyWord = none by decide]
  simp only [List.findIdx?_cons, BEq.rfl, ↓reduceIte, Option.map_some, Option.none_or, Nat.zero_add]
  rw [if_pos (List.take_left' (by decide)), show readyWord.length + 1 = 6 by decide]
  rfl

theorem handshakeVerdict_cases {s : Server} {ids : List (List UInt8)}
    (h : Registered s.clientStates ids) (hlt : ids.length < maxClients) (b : List UInt8) :
    (handshakeId b = none ∧ handshakeVerdict s b = .invalid) ∨
    (handshakeId b = some [] ∧ handshakeVerdict s b = .emptyId) ∨
    (∃ x, handshakeId b = some x ∧ x ∈ ids ∧ handshakeVerdict s b = .taken) ∨
    ∃ x clientId, handshakeId b = some x ∧ x ≠ [] ∧ x ∉ ids ∧ str clientId = x ∧
      handshakeVerdict s b = .register ids.length clientId := by
  unfold handshakeId handshakeVerdict
  cases strchr b space with
  | none => exact .inl ⟨rfl, rfl⟩
  | some i =>
    by_cases hw : strncmp 5 b readyWord ≠ 0
    · exact .inl ⟨if_pos hw, if_pos hw⟩
    simp only [if_neg hw, strlen, List.length_eq_zero_iff, Server.freeSlot_eq h hlt,
      Server.isClientIdTaken_iff, h.ids_eq]
    by_cases hx : str (b.drop (i + 1)) = []
    · exact .inr (.inl ⟨by rw [hx], if_pos hx⟩)
    · right; right
      rw [if_neg hx]
      by_cases hm : str (b.drop (i + 1)) ∈ ids
      · exact .inl ⟨_, rfl, hm, if_pos hm⟩
      · exact .inr ⟨_, _, rfl, hx, hm, rfl, if_neg hm⟩

/-! ## The handshake phase -/

/-- All flags are 0. -/
def Server.Quiet (s : Server) : Prop := ∀ c ∈ s.clientStates.slots, c.responded = false

theorem Server.quiet_registerClient {s : Server} (h : s.Quiet) (slot : Nat) (id : List UInt8) :
    (s.registerClient slot id).Quiet := by
  intro c hc
  simp only [registerClient, ClientTable.modify] at hc
  obtain ⟨i, hi, rfl⟩ := List.mem_iff_getElem.mp hc
  rw [List.getElem_modify]
  split
  · rfl
  · exact h _ (List.getElem_mem _)

theorem Server.quiet_resetResponses {s : Server} (h : s.Quiet) : s.resetResponses.Quiet := by
  intro c hc
  simp only [resetResponses, ClientTable.mapFirst, List.mem_append, List.mem_map] at hc
  rcases hc with ⟨d, -, rfl⟩ | hc
  · rfl
  · exact h c (List.mem_of_mem_drop hc)

/-- **What a handshake message does.** It is refused and nothing changes, or its
id is new and goes into the next slot. -/
theorem handshakeReceived_cases {σ : ServerRun} {ids : List (List UInt8)}
    (h : Registered σ.server.clientStates ids) (hlt : ids.length < maxClients) {m : Msg}
    (h0 : m.length ≠ 0) (h63 : m.length < 64) :
    ((handshakeId m = none ∨ handshakeId m = some []) ∧
      σ.handshakeReceived m = { σ with pc := .handshakeSend .err, owes := true }) ∨
    (∃ x ∈ ids, handshakeId m = some x ∧
      σ.handshakeReceived m = { σ with pc := .handshakeSend .dupId, owes := true }) ∨
    ∃ x clientId, handshakeId m = some x ∧ x ≠ [] ∧ x ∉ ids ∧ str clientId = x ∧
      σ.handshakeReceived m =
        { server := σ.server.registerClient ids.length clientId
          readyClients := σ.readyClients + 1
          pc := .handshakeSend .ack
          owes := true } ∧
      Registered (σ.server.registerClient ids.length clientId).clientStates (ids ++ [x]) := by
  obtain ⟨b, hb, hstr⟩ := recvTerminated_isSome h63
  rw [← handshakeId_congr hstr]
  simp only [ServerRun.handshakeReceived, if_neg h0, hb]
  rcases handshakeVerdict_cases h hlt b.bytes with ⟨hi, hv⟩ | ⟨hi, hv⟩ | ⟨x, hi, hx, hv⟩ |
    ⟨x, cid, hi, hne, hx, hs, hv⟩ <;> rw [hv]
  · exact .inl ⟨.inl hi, rfl⟩
  · exact .inl ⟨.inr hi, rfl⟩
  · exact .inr (.inl ⟨x, hx, hi, rfl⟩)
  · refine .inr (.inr ⟨x, cid, hi, hne, hx, hs, rfl, ?_⟩)
    have hlen := (length_handshakeId ((handshakeId_congr hstr).symm.trans hi)).1
    have htk : (str cid).take 63 = x := by rw [hs]; exact List.take_of_length_le (by omega)
    rw [← htk] at hx hne ⊢
    exact Server.registered_registerClient h hlt (fun e => hne (by rw [e]; rfl)) hx

/-! ## Calls -/

/-- The steps of `simulith_server_run`, one constructor for each. -/
inductive ServerStep : ServerRun → ServerCall → ServerRun → Prop where
  | handshakeRecv {σ : ServerRun} (m : Msg) : σ.pc = .handshakeRecv → σ.owes = false →
      ServerStep σ (.recv m) (σ.handshakeReceived m)
  | tickRecv {σ : ServerRun} (m : Msg) : σ.pc = .tickRecv → σ.owes = false →
      ServerStep σ (.recv m) (σ.tickReceived m)
  | fail {σ : ServerRun} : σ.pc = .handshakeRecv ∨ σ.pc = .tickRecv → ServerStep σ .recvFail σ
  | handshakeSend {σ : ServerRun} (r : Reply) : σ.pc = .handshakeSend r →
      ServerStep σ (.send r.bytes) { σ with owes := false }.handshakeHead
  | tickSend {σ : ServerRun} : σ.pc = .tickSend →
      ServerStep σ (.send Reply.ack.bytes) { σ with owes := false }.tickHead
  | publish {σ : ServerRun} : σ.pc = .broadcast →
      ServerStep σ (.publish σ.server.currentTimeNs)
        { σ with server := σ.server.resetResponses }.tickHead

theorem step_eq_some {σ σ' : ServerRun} {c : ServerCall} :
    σ.step c = some σ' ↔ ServerStep σ c σ' := by
  constructor
  · intro h
    cases c with
    | recv m =>
      simp only [ServerRun.step] at h
      split at h
      · cases h
      · next ho =>
        split at h
        · next hp => cases h; exact .handshakeRecv m hp (by simpa using ho)
        · next hp => cases h; exact .tickRecv m hp (by simpa using ho)
        · cases h
    | recvFail =>
      simp only [ServerRun.step] at h
      split at h
      · next hp => cases h; exact .fail (.inl hp)
      · next hp => cases h; exact .fail (.inr hp)
      · cases h
    | send m =>
      simp only [ServerRun.step] at h
      split at h
      · next r hp =>
        split at h
        · next hm => cases h; exact hm ▸ .handshakeSend r hp
        · cases h
      · next hp =>
        split at h
        · next hm => cases h; exact hm ▸ .tickSend hp
        · cases h
      · cases h
    | publish t =>
      simp only [ServerRun.step] at h
      split at h
      · next hp =>
        split at h
        · next ht => cases h; exact ht ▸ .publish hp
        · cases h
      · cases h
  · rintro (⟨m, hp, ho⟩ | ⟨m, hp, ho⟩ | ⟨hp | hp⟩ | ⟨r, hp⟩ | ⟨hp⟩ | ⟨hp⟩) <;>
      simp [ServerRun.step, *]

end Simulith
