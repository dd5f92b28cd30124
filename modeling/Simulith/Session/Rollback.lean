import Simulith.Session.Handles

/-!
# What a failed initialisation leaves behind

Both initialisations write their configuration before the first step that can
fail, and the handles one by one in between, and undo nothing. `RolledBack`
says of a call that it undoes everything if it fails, and
`init_rolled_back_iff` when this is so: a call that fails its parameter checks
writes nothing, and one whose first ZeroMQ call fails may happen to write what
was there.
-/

namespace Simulith

open Lts CStr

/-- A socket is left that was bound or connected between `z` and `z'`, and not closed. -/
def Zmq.LeavesAttached (z z' : Zmq) : Prop :=
  ∃ h addr, (.bind h addr ∈ z'.log.drop z.log.length ∨
    .connect h addr ∈ z'.log.drop z.log.length) ∧ .close h ∉ z'.log.drop z.log.length

/-- If the call failed, all is as it was. -/
def RolledBack {σ : Type} (s : σ) (z : Zmq) (r : Int × σ × Zmq) : Prop :=
  r.1 = -1 → r.2.1 = s ∧ ¬ z.LeavesAttached r.2.2

variable {σ : Type} {s s' : σ} {z z' : Zmq}

theorem not_leavesAttached_self (z : Zmq) : ¬ z.LeavesAttached z := by
  rintro ⟨h, addr, hmem, -⟩
  rw [List.drop_length] at hmem
  rcases hmem with hmem | hmem <;> cases hmem

theorem rolledBack_same : RolledBack s z (-1, s', z) ↔ s' = s :=
  ⟨fun h => (h rfl).1, fun h _ => ⟨h, not_leavesAttached_self z⟩⟩

/-- A handle held before a call is not the one the call is given. -/
def Older (h : Option Handle) (z : Zmq) : Prop := ∀ x, h = some x → x < z.fresh

theorem Older.ne_fresh {h : Option Handle} (ho : Older h z) : h ≠ some z.fresh :=
  fun he => Nat.lt_irrefl _ (ho _ he)

theorem Handles.Fit.older {c : Handles} (hf : c.Fit z) : Older c.context z := fun x hx =>
  hf.numbered x (hf.holds.live .context x hx).1

/-- In every state that initialisations and shutdowns lead to, a held context is an older one. -/
theorem ServerLifecycle.context_older {es : List ServerLifecycle} {s : Server × Zmq}
    (h : exec step (.zero, .empty) es = some s) : Older s.1.serverContext s.2 :=
  (HandleUser.fit_exec (U := user) rfl h).older

theorem ClientLifecycle.context_older {es : List ClientLifecycle} {c : Client × Zmq}
    (h : exec step (.zero, .empty) es = some c) : Older c.1.clientContext c.2 :=
  (HandleUser.fit_exec (U := user) rfl h).older

/-! ## The server -/

def ServerOutcome.ok : ServerOutcome := ⟨true, true, true, true, true⟩

section Server

variable {o : ServerOutcome} {pubBind repBind : List UInt8} {clientCount : Int}
  {intervalNs : UInt64} {s : Server}

theorem serverInit_rejected (h : clientCount ≤ 0 ∨ clientCount > maxClients ∨ intervalNs = 0) :
    simulithServerInit o pubBind repBind clientCount intervalNs s z = (-1, s, z) := by
  by_cases hc : clientCount ≤ 0 ∨ clientCount > maxClients
  · rw [simulithServerInit, if_pos hc]
  · rw [simulithServerInit, if_neg hc, if_pos (by tauto)]

theorem serverInit_noContext (hc : ¬ (clientCount ≤ 0 ∨ clientCount > maxClients))
    (hi : intervalNs ≠ 0) (ho : o.ctxNew = false) :
    simulithServerInit o pubBind repBind clientCount intervalNs s z =
      (-1, { s with
        expectedClients := clientCount.toNat
        tickIntervalNs := intervalNs
        serverContext := none }, z) := by
  simp only [simulithServerInit, if_neg hc, if_neg hi, ho]
  rfl

theorem serverInit_context (hc : ¬ (clientCount ≤ 0 ∨ clientCount > maxClients))
    (hi : intervalNs ≠ 0) (ho : o.ctxNew = true) :
    (simulithServerInit o pubBind repBind clientCount intervalNs s z).2.1.serverContext =
        some z.fresh ∧
      ((simulithServerInit o pubBind repBind clientCount intervalNs s z).1 = -1 ↔ o ≠ .ok) := by
  obtain ⟨ctxNew, publisher, pubBound, responder, repBound⟩ := o
  obtain rfl : ctxNew = true := ho
  simp only [simulithServerInit, if_neg hc, if_neg hi]
  cases publisher with
  | false => exact ⟨rfl, iff_of_true rfl fun h => by cases h⟩
  | true =>
    cases pubBound with
    | false => exact ⟨rfl, iff_of_true rfl fun h => by cases h⟩
    | true =>
      cases responder with
      | false => exact ⟨rfl, iff_of_true rfl fun h => by cases h⟩
      | true =>
        cases repBound with
        | false => exact ⟨rfl, iff_of_true rfl fun h => by cases h⟩
        | true => exact ⟨rfl, iff_of_false (fun h => by cases h) fun h => h rfl⟩

/-- Past the checks a failed call is undone only when it stops at its first step and has written
what was there. -/
theorem serverInit_failed_rolledBack_iff (hc : ¬ (clientCount ≤ 0 ∨ clientCount > maxClients))
    (hi : intervalNs ≠ 0) (ho : o ≠ .ok) (hold : Older s.serverContext z) :
    RolledBack s z (simulithServerInit o pubBind repBind clientCount intervalNs s z) ↔
      o.ctxNew = false ∧ s.serverContext = none ∧ (s.expectedClients : Int) = clientCount ∧
        s.tickIntervalNs = intervalNs := by
  cases hctx : o.ctxNew with
  | false =>
    rw [serverInit_noContext hc hi hctx, rolledBack_same]
    constructor
    · intro he
      refine ⟨rfl, ?_, ?_, ?_⟩ <;> rw [← he]
      exact Int.toNat_of_nonneg (by omega)
    · rintro ⟨-, hnone, hn, ht⟩
      rw [← hn, Int.toNat_natCast, ← ht, ← hnone]
  | true =>
    refine iff_of_false (fun h => hold.ne_fresh ?_) nofun
    have hkept := (h ((serverInit_context hc hi hctx).2.mpr ho)).1
    rw [← hkept]
    exact (serverInit_context hc hi hctx).1

theorem serverInit_rolledBack_iff (hold : Older s.serverContext z) :
    RolledBack s z (simulithServerInit o pubBind repBind clientCount intervalNs s z) ↔
      clientCount ≤ 0 ∨ clientCount > maxClients ∨ intervalNs = 0 ∨ o = .ok ∨
        (o.ctxNew = false ∧ s.serverContext = none ∧ (s.expectedClients : Int) = clientCount ∧
          s.tickIntervalNs = intervalNs) := by
  by_cases hrej : clientCount ≤ 0 ∨ clientCount > maxClients ∨ intervalNs = 0
  · rw [serverInit_rejected hrej, rolledBack_same]
    exact iff_of_true rfl (by tauto)
  · have hc : ¬ (clientCount ≤ 0 ∨ clientCount > maxClients) := fun h => hrej (by tauto)
    have hi : intervalNs ≠ 0 := fun h => hrej (by tauto)
    by_cases ho : o = .ok
    · refine iff_of_true (fun hr => ?_) (by tauto)
      have hctx : o.ctxNew = true := by rw [ho]; rfl
      exact absurd ho ((serverInit_context hc hi hctx).2.mp hr)
    · rw [serverInit_failed_rolledBack_iff hc hi ho hold]
      tauto

end Server

/-! ## The client -/

/-- The id buffer after the copy: at most 63 bytes of the id, and zeros. -/
def padded (id : List UInt8) : List UInt8 :=
  (str id).take 63 ++ List.replicate (63 - (str id).length + 1) 0

section Client

variable {o : ClientOutcome} {pubAddr repAddr id : List UInt8} {rateNs : UInt64} {c : Client}

theorem clientInit_noContext (hid : strlen id ≠ 0) (hr : rateNs ≠ 0) (ho : o.ctxNew = false) :
    simulithClientInit o (some pubAddr) (some repAddr) (some id) rateNs c z =
      (-1, { c with
        clientId := (c.clientId.strncpy id 63).set (Fin.last 63) 0
        updateRateNs := rateNs
        clientContext := none }, z) := by
  simp only [simulithClientInit, if_neg hid, if_neg hr, ho]
  rfl

theorem clientInit_context (hid : strlen id ≠ 0) (hr : rateNs ≠ 0) (ho : o.ctxNew = true) :
    (simulithClientInit o (some pubAddr) (some repAddr) (some id) rateNs c z).2.1.clientContext =
        some z.fresh ∧
      ((simulithClientInit o (some pubAddr) (some repAddr) (some id) rateNs c z).1 = -1 ↔
        o ≠ .ok) := by
  obtain ⟨ctxNew, subscriber, subConnect, requester, reqConnect⟩ := o
  obtain rfl : ctxNew = true := ho
  simp only [simulithClientInit, if_neg hid, if_neg hr]
  cases subscriber with
  | false => exact ⟨rfl, iff_of_true rfl fun h => by cases h⟩
  | true =>
    cases subConnect with
    | false => exact ⟨rfl, iff_of_true rfl fun h => by cases h⟩
    | true =>
      cases requester with
      | false => exact ⟨rfl, iff_of_true rfl fun h => by cases h⟩
      | true =>
        cases reqConnect with
        | false => exact ⟨rfl, iff_of_true rfl fun h => by cases h⟩
        | true => exact ⟨rfl, iff_of_false (fun h => by cases h) fun h => h rfl⟩

theorem clientInit_failed_rolledBack_iff (hid : strlen id ≠ 0) (hr : rateNs ≠ 0) (ho : o ≠ .ok)
    (hold : Older c.clientContext z) :
    RolledBack c z (simulithClientInit o (some pubAddr) (some repAddr) (some id) rateNs c z) ↔
      o.ctxNew = false ∧ c.clientContext = none ∧ c.clientId.bytes = padded id ∧
        c.updateRateNs = rateNs := by
  cases hctx : o.ctxNew with
  | false =>
    rw [clientInit_noContext hid hr hctx, rolledBack_same]
    constructor
    · intro he
      refine ⟨rfl, ?_, ?_, ?_⟩ <;> rw [← he]
      exact CharBuf.strncpy_set_bytes _ _
    · rintro ⟨-, hnone, hn, ht⟩
      have hbuf : (c.clientId.strncpy id 63).set (Fin.last 63) 0 = c.clientId :=
        CharBuf.eq_of_bytes ((CharBuf.strncpy_set_bytes _ _).trans hn.symm)
      rw [hbuf, ← ht, ← hnone]
  | true =>
    refine iff_of_false (fun h => hold.ne_fresh ?_) nofun
    have hkept := (h ((clientInit_context hid hr hctx).2.mpr ho)).1
    rw [← hkept]
    exact (clientInit_context hid hr hctx).1

end Client

theorem clientInit_rolledBack_iff {o : ClientOutcome} {pubAddr repAddr id : Option (List UInt8)}
    {rateNs : UInt64} {c : Client} (hold : Older c.clientContext z) :
    RolledBack c z (simulithClientInit o pubAddr repAddr id rateNs c z) ↔
      (ClientLifecycle.init o pubAddr repAddr id rateNs).accepted = false ∨ o = .ok ∨
        (o.ctxNew = false ∧ c.clientContext = none ∧
          c.clientId.bytes = padded (id.getD []) ∧ c.updateRateNs = rateNs) := by
  cases hacc : (ClientLifecycle.init o pubAddr repAddr id rateNs).accepted with
  | false =>
    have hsame : (simulithClientInit o pubAddr repAddr id rateNs c z).2 = (c, z) :=
      ClientLifecycle.run_rejected hacc (by simp) (c, z)
    refine iff_of_true (fun _ => ?_) (.inl rfl)
    rw [hsame]
    exact ⟨rfl, not_leavesAttached_self z⟩
  | true =>
    unfold ClientLifecycle.accepted at hacc
    split at hacc
    · next heq =>
      cases heq
      simp only [Bool.and_eq_true, bne_iff_ne] at hacc
      obtain ⟨hid, hr⟩ := hacc
      by_cases ho : o = .ok
      · refine iff_of_true (fun hfail => ?_) (.inr (.inl ho))
        have hctx : o.ctxNew = true := by rw [ho]; rfl
        exact absurd ho ((clientInit_context hid hr hctx).2.mp hfail)
      · rw [clientInit_failed_rolledBack_iff hid hr ho hold]
        simp [ho]
    · cases hacc

/-- A failed initialisation leaves server or client as it was exactly when it fails its parameter
checks, or when it is `zmq_ctx_new` that fails, no context was held and the configuration was
already the one asked for. The contexts held are older than any the call could make, as
`context_older` says they are. -/
theorem init_rolled_back_iff (o : ServerOutcome) (pubBind repBind : List UInt8)
    (clientCount : Int) (intervalNs : UInt64) (s : Server) (z : Zmq) (o' : ClientOutcome)
    (pubAddr repAddr id : Option (List UInt8)) (rateNs : UInt64) (c : Client) (z' : Zmq)
    (hs : Older s.serverContext z) (hc : Older c.clientContext z') :
    (RolledBack s z (simulithServerInit o pubBind repBind clientCount intervalNs s z) ↔
      clientCount ≤ 0 ∨ clientCount > maxClients ∨ intervalNs = 0 ∨ o = .ok ∨
        (o.ctxNew = false ∧ s.serverContext = none ∧ (s.expectedClients : Int) = clientCount ∧
          s.tickIntervalNs = intervalNs)) ∧
    (RolledBack c z' (simulithClientInit o' pubAddr repAddr id rateNs c z') ↔
      (ClientLifecycle.init o' pubAddr repAddr id rateNs).accepted = false ∨ o' = .ok ∨
        (o'.ctxNew = false ∧ c.clientContext = none ∧
          c.clientId.bytes = padded (id.getD []) ∧ c.updateRateNs = rateNs)) :=
  ⟨serverInit_rolledBack_iff hs, clientInit_rolledBack_iff hc⟩

/-- A server waiting for two clients. -/
def liveServer : Server × Zmq := (simulithServerInit .ok [] [] 2 1 .zero .empty).2

/-- A client initialised as `a`. -/
def liveClient : Client × Zmq :=
  (simulithClientInit .ok (some []) (some []) (some [97]) 1 .zero .empty).2

/-- Initialising the server again, with no context to be had, is not undone; a client is turned
down for its rate before anything is written. -/
theorem init_rolled_back_iff_live :
    ¬ RolledBack liveServer.1 liveServer.2
        (simulithServerInit ⟨false, true, true, true, true⟩ [] [] 1 1 liveServer.1 liveServer.2) ∧
      RolledBack liveClient.1 liveClient.2
        (simulithClientInit .ok (some []) (some []) (some [98]) 0 liveClient.1 liveClient.2) := by
  have hserver : exec ServerLifecycle.step (.zero, .empty) [.init .ok [] [] 2 1] =
      some liveServer := rfl
  have hclient : exec ClientLifecycle.step (.zero, .empty)
      [.init .ok (some []) (some []) (some [97]) 1] = some liveClient := rfl
  have hs := ServerLifecycle.context_older hserver
  have hc := ClientLifecycle.context_older hclient
  obtain ⟨hserver', hclient'⟩ := init_rolled_back_iff ⟨false, true, true, true, true⟩ [] [] 1 1
    liveServer.1 liveServer.2 .ok (some []) (some []) (some [98]) 0 liveClient.1 liveClient.2 hs hc
  exact ⟨fun h => absurd (hserver'.mp h) (by decide), hclient'.mpr (.inl (by decide))⟩

/-- A server waiting for two clients is initialised for one, and its publisher cannot be bound: the
call fails, and one client is what the server waits for. At program start, a responder that cannot
be bound leaves the publisher bound. -/
theorem failed_init_kept :
    (∃ r, simulithServerInit ⟨true, true, false, true, true⟩ [] [] 1 1 liveServer.1 liveServer.2 =
        (-1, r) ∧ liveServer.1.expectedClients = 2 ∧ r.1.expectedClients = 1 ∧
        r.1.publisher ≠ liveServer.1.publisher) ∧
    (∃ r, simulithServerInit ⟨true, true, true, true, false⟩ [] [] 1 1 .zero .empty = (-1, r) ∧
        Zmq.empty.LeavesAttached r.2) ∧
    (∃ r, simulithClientInit ⟨true, true, false, true, true⟩ (some []) (some []) (some [98]) 1
        liveClient.1 liveClient.2 = (-1, r) ∧ liveClient.1.name = [97] ∧ r.1.name = [98]) := by
  refine ⟨⟨_, rfl, by decide, by decide, by decide⟩, ⟨_, rfl, 1, [], ?_, ?_⟩,
    ⟨_, rfl, by decide, by decide⟩⟩
  · exact .inl (by decide)
  · decide

end Simulith
