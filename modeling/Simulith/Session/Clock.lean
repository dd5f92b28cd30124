import Simulith.Server.Registry
import Simulith.Server.Tick
import Simulith.Server.TickSpec

/-!
# Simulation time over the sessions of a process

A session is a successful `simulith_server_init`, a run of
`simulith_server_run` whose thread is cancelled at some point, and
`simulith_server_shutdown`. `clock_run` says what one run broadcasts: the time
it finds plus the number of broadcasts by the interval. The initialisation
empties the table and writes count and interval, not the time, so a session
begins where the one before it stopped (`session_times_iff`).
-/

namespace Simulith

open Lts

/-! ## One run -/

namespace ServerRun

/-- The time of the next broadcast. -/
def nextTime (σ : ServerRun) : UInt64 :=
  match σ.pc with
  | .tickRecv => σ.server.currentTimeNs + σ.server.tickIntervalNs
  | .tickSend => σ.server.currentTimeNs + σ.server.tickIntervalNs
  | _ => σ.server.currentTimeNs

theorem nextTime_handshakeHead (σ : ServerRun) :
    σ.handshakeHead.nextTime = σ.server.currentTimeNs := by
  unfold handshakeHead
  split <;> rfl

theorem tickIntervalNs_handshakeHead (σ : ServerRun) :
    σ.handshakeHead.server.tickIntervalNs = σ.server.tickIntervalNs := by
  unfold handshakeHead
  split <;> rfl

theorem nextTime_tickHead (σ : ServerRun) :
    σ.tickHead.nextTime = σ.server.currentTimeNs + σ.server.tickIntervalNs := by
  unfold tickHead
  split <;> rfl

theorem tickIntervalNs_tickHead (σ : ServerRun) :
    σ.tickHead.server.tickIntervalNs = σ.server.tickIntervalNs := by
  unfold tickHead
  split <;> rfl

theorem handshakeReceived_next {σ : ServerRun} (hpc : σ.pc = .handshakeRecv) (m : Msg) :
    (σ.handshakeReceived m).nextTime = σ.nextTime := by
  have hn : σ.nextTime = σ.server.currentTimeNs := by rw [nextTime, hpc]
  rw [hn]
  unfold handshakeReceived
  split
  · rw [nextTime, hpc]
  · split
    · rfl
    · split <;> rfl

theorem tickReceived_interval (σ : ServerRun) (m : Msg) :
    (σ.tickReceived m).server.tickIntervalNs = σ.server.tickIntervalNs := by
  unfold tickReceived
  split
  · rfl
  · split
    · rfl
    · exact Server.tickIntervalNs_handleAck _

theorem tickReceived_next {σ : ServerRun} (hpc : σ.pc = .tickRecv) (m : Msg)
    (hu : (σ.tickReceived m).pc ≠ .undefined) : (σ.tickReceived m).nextTime = σ.nextTime := by
  have hn : σ.nextTime = σ.server.currentTimeNs + σ.server.tickIntervalNs := by rw [nextTime, hpc]
  rw [hn]
  unfold tickReceived at hu ⊢
  split at hu
  · next h0 =>
    rw [if_pos h0, nextTime, hpc]
  · next h0 =>
    rw [if_neg h0]
    split at hu
    · exact absurd rfl hu
    · exact congrArg₂ (· + ·) (Server.currentTimeNs_handleAck _) (Server.tickIntervalNs_handleAck _)

end ServerRun

/-- The clock of a run that began at `timeNs`, after the calls `cs`. -/
structure Clock (timeNs intervalNs : UInt64) (cs : List ServerCall) (σ : ServerRun) : Prop where
  interval : σ.server.tickIntervalNs = intervalNs
  times : ∀ j t, (publishes cs)[j]? = some t → t = timeNs + UInt64.ofNat j * intervalNs
  next : σ.pc ≠ .undefined →
    σ.nextTime = timeNs + UInt64.ofNat (publishes cs).length * intervalNs

variable {timeNs intervalNs : UInt64} {cs : List ServerCall} {c : ServerCall} {σ σ' : ServerRun}

theorem clock_start {s : Server} (hi : s.tickIntervalNs = intervalNs) :
    Clock s.currentTimeNs intervalNs [] (simulithServerRun s) where
  interval := by
    rw [simulithServerRun, ServerRun.tickIntervalNs_handshakeHead]
    exact hi
  times _ _ h := nomatch h
  next _ := by
    rw [simulithServerRun, ServerRun.nextTime_handshakeHead]
    simp [publishes]

theorem Clock.quiet (h : Clock timeNs intervalNs cs σ) (hc : c.time = none)
    (hpc : σ.pc ≠ .undefined) (hi : σ'.server.tickIntervalNs = σ.server.tickIntervalNs)
    (hn : σ'.pc ≠ .undefined → σ'.nextTime = σ.nextTime) :
    Clock timeNs intervalNs (cs ++ [c]) σ' := by
  have hpub : publishes (cs ++ [c]) = publishes cs := by
    rw [publishes_snoc, hc, Option.toList_none, List.append_nil]
  refine ⟨hi.trans h.interval, ?_, fun hu => ?_⟩
  · rw [hpub]
    exact h.times
  · rw [hpub, hn hu]
    exact h.next hpc

theorem Clock.publish (h : Clock timeNs intervalNs cs σ) (hpc : σ.pc = .broadcast) :
    Clock timeNs intervalNs (cs ++ [.publish σ.server.currentTimeNs])
      { σ with server := σ.server.resetResponses }.tickHead := by
  have hnow : σ.server.currentTimeNs =
      timeNs + UInt64.ofNat (publishes cs).length * intervalNs := by
    rw [← h.next (by rw [hpc]; exact nofun), ServerRun.nextTime, hpc]
  have hpub : publishes (cs ++ [.publish σ.server.currentTimeNs]) =
      publishes cs ++ [σ.server.currentTimeNs] := publishes_snoc _ _
  refine ⟨?_, ?_, fun _ => ?_⟩
  · rw [ServerRun.tickIntervalNs_tickHead]
    exact h.interval
  · rw [hpub]
    exact times_snoc h.times hnow
  · rw [hpub, ServerRun.nextTime_tickHead, List.length_append, List.length_singleton,
      ← add_interval, ← hnow, ← h.interval]
    rfl

theorem Clock.step (h : Clock timeNs intervalNs cs σ) (hs : σ.step c = some σ') :
    Clock timeNs intervalNs (cs ++ [c]) σ' := by
  cases step_eq_some.mp hs with
  | handshakeRecv m hpc _ =>
    refine h.quiet rfl (by rw [hpc]; exact nofun) (handshakeReceived_clock σ m).2 fun _ => ?_
    exact ServerRun.handshakeReceived_next hpc m
  | tickRecv m hpc _ =>
    refine h.quiet rfl (by rw [hpc]; exact nofun) (ServerRun.tickReceived_interval σ m) fun hu => ?_
    exact ServerRun.tickReceived_next hpc m hu
  | fail hpc =>
    refine h.quiet rfl ?_ rfl fun _ => rfl
    rcases hpc with hpc | hpc <;> rw [hpc] <;> exact nofun
  | handshakeSend r hpc =>
    refine h.quiet rfl (by rw [hpc]; exact nofun) (ServerRun.tickIntervalNs_handshakeHead _)
      fun _ => ?_
    rw [ServerRun.nextTime_handshakeHead, ServerRun.nextTime, hpc]
  | tickSend hpc =>
    refine h.quiet rfl (by rw [hpc]; exact nofun) (ServerRun.tickIntervalNs_tickHead _)
      fun _ => ?_
    rw [ServerRun.nextTime_tickHead, ServerRun.nextTime, hpc]
  | publish hpc => exact h.publish hpc

/-- **The clock of a run**: the `j`-th broadcast carries the time the run finds plus `j`
intervals, whatever the messages. -/
theorem clock_run {s : Server} (hi : s.tickIntervalNs = intervalNs)
    (h : exec ServerRun.step (simulithServerRun s) cs = some σ) :
    Clock s.currentTimeNs intervalNs cs σ :=
  exec_trace (H := Clock s.currentTimeNs intervalNs) (clock_start hi)
    (fun _ _ _ _ ih hs => ih.step hs) h

/-! ## Sessions -/

theorem currentTimeNs_init (o : ServerOutcome) (pubBind repBind : List UInt8) (clientCount : Int)
    (iv : UInt64) (s : Server) (z : Zmq) :
    (simulithServerInit o pubBind repBind clientCount iv s z).2.1.currentTimeNs =
      s.currentTimeNs := by
  unfold simulithServerInit
  split
  · rfl
  split
  · rfl
  simp only
  split
  · rfl
  split
  · rfl
  split <;> rfl

/-- One simulation of a process. -/
structure Session where
  outcome : ServerOutcome
  pubBind : List UInt8
  repBind : List UInt8
  clientCount : Int
  intervalNs : UInt64
  /-- the calls of `simulith_server_run` -/
  calls : List ServerCall
  /-- the call its thread is cancelled in, after which it does nothing more -/
  last : Option ServerCall
  deriving DecidableEq

namespace Session

/-- Every call the thread makes. -/
def made (x : Session) : List ServerCall := x.calls ++ x.last.toList

/-- The times a session broadcasts. -/
def broadcasts (x : Session) : List UInt64 := publishes x.made

/-- A session that begins with a successful initialisation. One that stores outside the receive
buffer has no result. -/
def run (s : Server × Zmq) (x : Session) : Option (Server × Zmq) :=
  let (ret, server, z) :=
    simulithServerInit x.outcome x.pubBind x.repBind x.clientCount x.intervalNs s.1 s.2
  if ret = 0 ∧ (exec ServerRun.step (simulithServerRun server) x.made).isSome then
    match exec ServerRun.step (simulithServerRun server) x.calls with
    | some σ => if σ.pc = .undefined then none else some (simulithServerShutdown σ.server z)
    | none => none
  else none

variable {s t : Server × Zmq} {x : Session}

theorem run_server (h : run s x = some t) : ∃ server σ, server.currentTimeNs = s.1.currentTimeNs ∧
    server.tickIntervalNs = x.intervalNs ∧
    exec ServerRun.step (simulithServerRun server) x.made = some σ := by
  unfold run at h
  cases hi : simulithServerInit x.outcome x.pubBind x.repBind x.clientCount x.intervalNs s.1 s.2 with
  | mk ret r =>
    obtain ⟨server, z⟩ := r
    rw [hi] at h
    simp only at h
    split at h
    · next hc =>
      obtain ⟨rfl, hsome⟩ := hc
      obtain ⟨σ, hσ⟩ := Option.isSome_iff_exists.mp hsome
      have hready : ServerReady x.clientCount x.intervalNs server := ⟨_, _, _, _, _, _, hi⟩
      refine ⟨server, σ, ?_, hready.spec.2.1, hσ⟩
      rw [← currentTimeNs_init x.outcome x.pubBind x.repBind x.clientCount x.intervalNs s.1 s.2, hi]
    · cases h

/-- **The times of a session**: the `j`-th carries the time the process had plus `j` intervals. -/
theorem broadcasts_run (h : run s x = some t) (j : Nat) (u : UInt64)
    (hu : x.broadcasts[j]? = some u) : u = s.1.currentTimeNs + UInt64.ofNat j * x.intervalNs := by
  obtain ⟨server, σ, htime, hiv, hσ⟩ := run_server h
  rw [← htime]
  exact (clock_run hiv hσ).times j u hu

/-- The session broadcasts nothing, or the process's time is 0 when it begins. -/
def Fresh (s : Server × Zmq) (x : Session) : Prop := x.broadcasts ≠ [] → s.1.currentTimeNs = 0

instance (s : Server × Zmq) (x : Session) : Decidable (x.Fresh s) :=
  inferInstanceAs (Decidable (x.broadcasts ≠ [] → s.1.currentTimeNs = 0))

end Session

/-- In a process's sessions the `j`-th broadcast of each carries `j` intervals exactly when each
session that broadcasts begins with the time at 0. -/
theorem session_times_iff {xs : List Session} {s : Server × Zmq}
    (h : exec Session.run (.zero, .empty) xs = some s) :
    (∀ x ∈ xs, ∀ j t, x.broadcasts[j]? = some t → t = UInt64.ofNat j * x.intervalNs) ↔
      Along Session.run Session.Fresh (.zero, .empty) xs := by
  constructor
  · intro hall
    refine along_iff.mpr fun pre x post u hxs hu hne => ?_
    obtain ⟨t, ts, ht⟩ := List.exists_cons_of_ne_nil hne
    have h0 : x.broadcasts[0]? = some t := by rw [ht]; rfl
    rw [hxs, exec_append_eq_some] at h
    obtain ⟨u', hu', h⟩ := h
    obtain rfl : u = u' := Option.some.inj (hu.symm.trans hu')
    obtain ⟨v, hv, -⟩ := exec_cons_eq_some.mp h
    have hfound := Session.broadcasts_run hv 0 t h0
    rw [hall x (by simp [hxs]) 0 t h0] at hfound
    simpa using hfound.symm
  · intro hA x hx j t ht
    obtain ⟨pre, post, u, v, hxs, hu, hv, -⟩ := exec_mem h hx
    have hne : x.broadcasts ≠ [] := by
      intro hnil
      rw [hnil] at ht
      cases ht
    have h0 : u.1.currentTimeNs = 0 := along_iff.mp hA pre x post u hxs hu hne
    rw [Session.broadcasts_run hv j t ht, h0, UInt64.zero_add]

/-- A session of one client, `a`, cut off in its second broadcast. -/
def oneClientSession (timeNs : UInt64) : Session where
  outcome := ⟨true, true, true, true, true⟩
  pubBind := []
  repBind := []
  clientCount := 1
  intervalNs := 10
  calls := [.recv (readyWord ++ [space, 97]), .send Reply.ack.bytes, .publish timeNs, .recv [97],
    .send Reply.ack.bytes]
  last := some (.publish (timeNs + 10))

/-- The same, cut off in its first broadcast. -/
def cutSession : Session :=
  { oneClientSession 0 with
    calls := (oneClientSession 0).calls.take 2
    last := some (.publish 0) }

/-- Both sessions of a process broadcast, and the first leaves the time at 0. -/
theorem session_times_iff_two : ∃ s,
    exec Session.run (.zero, .empty) [cutSession, oneClientSession 0] = some s ∧
    cutSession.broadcasts = [0] ∧ (oneClientSession 0).broadcasts = [0, 10] ∧
    ∀ x ∈ [cutSession, oneClientSession 0], ∀ j t, x.broadcasts[j]? = some t →
      t = UInt64.ofNat j * x.intervalNs := by
  have hrun : (exec Session.run (.zero, .empty)
      [cutSession, oneClientSession 0]).isSome = true := by decide
  have hfresh : Along Session.run Session.Fresh (.zero, .empty)
      [cutSession, oneClientSession 0] := by decide
  obtain ⟨s, h⟩ := Option.isSome_iff_exists.mp hrun
  exact ⟨s, h, rfl, rfl, (session_times_iff h).mpr hfresh⟩

/-- The second session of a process begins one interval late. -/
theorem session_time_kept : ∃ s,
    exec Session.run (.zero, .empty) [oneClientSession 0, oneClientSession 10] = some s ∧
    (oneClientSession 10).broadcasts[0]? = some 10 ∧
    ¬ ∀ x ∈ [oneClientSession 0, oneClientSession 10], ∀ j t, x.broadcasts[j]? = some t →
      t = UInt64.ofNat j * x.intervalNs := by
  have hrun : (exec Session.run (.zero, .empty)
      [oneClientSession 0, oneClientSession 10]).isSome = true := by decide
  obtain ⟨s, h⟩ := Option.isSome_iff_exists.mp hrun
  refine ⟨s, h, rfl, fun hall => ?_⟩
  have h0 := hall (oneClientSession 10) (by simp) 0 10 rfl
  exact absurd h0 (by decide)

end Simulith
