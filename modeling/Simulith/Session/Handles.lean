import Simulith.Client.State
import Simulith.Ledger.Basic

/-!
# Who holds the ZeroMQ handles

Server and client keep their handles in three static variables each: a
context and two sockets. Their initialisations go through the same stages
(`Stages`), and differ only in what they do with a socket once they have it.
Each overwrites the three variables as it goes, so a handle that one of them
still holds is lost; `HandleUser.owned_iff` says that this is the only way to
lose one, and `handles_owned_iff` what it means for the two.
-/

namespace Simulith

open Lts CStr

/-! ## The log as a ledger -/

def ZmqEvent.creates : ZmqEvent → Option Handle
  | ctxNew h => some h
  | socket h _ _ => some h
  | _ => none

def ZmqEvent.releases : ZmqEvent → Option Handle
  | close h => some h
  | ctxTerm h => some h
  | _ => none

namespace Zmq

def ledger (z : Zmq) : Ledger Handle :=
  ⟨z.log.filterMap ZmqEvent.creates, z.log.filterMap ZmqEvent.releases⟩

variable {z : Zmq} {e : ZmqEvent} {h : Handle}

theorem ledger_push_creates (hc : e.creates = some h) (hr : e.releases = none) :
    (z.push e).ledger = z.ledger.create h := by
  simp [ledger, push, Ledger.create, hc, hr]

theorem ledger_push_releases (hc : e.creates = none) (hr : e.releases = some h) :
    (z.push e).ledger = z.ledger.release h := by
  simp [ledger, push, Ledger.release, hc, hr]

theorem ledger_push_inert (hc : e.creates = none) (hr : e.releases = none) :
    (z.push e).ledger = z.ledger := by
  simp [ledger, push, hc, hr]

/-- Handles are numbered by the log. -/
def Numbered (z : Zmq) : Prop := ∀ h ∈ z.ledger.created, h < z.fresh

theorem Numbered.fresh_notMem (hz : z.Numbered) : z.fresh ∉ z.ledger.created :=
  fun h => Nat.lt_irrefl _ (hz _ h)

theorem Numbered.push (hz : z.Numbered) (he : ∀ h, e.creates = some h → h = z.fresh) :
    (z.push e).Numbered := by
  intro h hm
  have hlen : (z.push e).fresh = z.fresh + 1 := by simp [fresh, Zmq.push]
  have hmem : h ∈ z.ledger.created ∨ e.creates = some h := by
    simpa [ledger, Zmq.push, List.filterMap_append, List.mem_append] using hm
  rw [hlen]
  rcases hmem with hm | hc
  · exact Nat.lt_succ_of_lt (hz h hm)
  · rw [he h hc]
    exact Nat.lt_succ_self _

end Zmq

/-! ## Three handles -/

structure Handles where
  context : Option Handle
  first : Option Handle
  second : Option Handle

inductive Slot where
  | context | first | second
  deriving DecidableEq

namespace Handles

def none : Handles := ⟨.none, .none, .none⟩

def get (c : Handles) : Slot → Option Handle
  | .context => c.context
  | .first => c.first
  | .second => c.second

theorem get_context (c : Handles) (x : Option Handle) :
    ({ c with context := x } : Handles).get = Function.update c.get .context x := by
  funext i
  cases i <;> rfl

theorem get_first (c : Handles) (x : Option Handle) :
    ({ c with first := x } : Handles).get = Function.update c.get .first x := by
  funext i
  cases i <;> rfl

theorem get_second (c : Handles) (x : Option Handle) :
    ({ c with second := x } : Handles).get = Function.update c.get .second x := by
  funext i
  cases i <;> rfl

/-- The ledger fits the handles. -/
structure Fit (c : Handles) (z : Zmq) : Prop where
  numbered : z.Numbered
  holds : z.ledger.Holds c.get

/-- Every handle created and not yet closed is held. -/
def Owned (c : Handles) (z : Zmq) : Prop := z.ledger.Covers c.get

def Lost (h : Handle) (c : Handles) (z : Zmq) : Prop := z.Numbered ∧ z.ledger.Lost c.get h

/-- Everything live is held, and no socket is held without a context. -/
structure Whole (c : Handles) (z : Zmq) : Prop where
  fit : c.Fit z
  owned : c.Owned z
  sockets : c.context = .none → c.first = .none ∧ c.second = .none

variable {c : Handles} {z : Zmq}

theorem Fit.inert (hf : c.Fit z) {e : ZmqEvent} (hc : e.creates = .none)
    (hr : e.releases = .none) : c.Fit (z.push e) := by
  refine ⟨hf.numbered.push fun h he => ?_, ?_⟩
  · rw [hc] at he
    cases he
  · rw [Zmq.ledger_push_inert hc hr]
    exact hf.holds

theorem Owned.inert (ho : c.Owned z) {e : ZmqEvent} (hc : e.creates = .none)
    (hr : e.releases = .none) : c.Owned (z.push e) := by
  rw [Owned, Zmq.ledger_push_inert hc hr]
  exact ho

theorem Lost.inert {h : Handle} (hl : c.Lost h z) {e : ZmqEvent} (hc : e.creates = .none)
    (hr : e.releases = .none) : c.Lost h (z.push e) := by
  refine ⟨hl.1.push fun h he => ?_, ?_⟩
  · rw [hc] at he
    cases he
  · rw [Zmq.ledger_push_inert hc hr]
    exact hl.2

end Handles

namespace Zmq

variable {z : Zmq}

theorem ledger_ctxNew : (z.push (.ctxNew z.fresh)).ledger = z.ledger.create z.fresh :=
  ledger_push_creates rfl rfl

theorem ledger_socket {ctx : Handle} {type : SocketType} :
    (z.push (.socket z.fresh ctx type)).ledger = z.ledger.create z.fresh :=
  ledger_push_creates rfl rfl

theorem Numbered.ctxNew (hz : z.Numbered) : (z.push (.ctxNew z.fresh)).Numbered :=
  hz.push fun _ he => (Option.some.inj he).symm

theorem Numbered.socket (hz : z.Numbered) {ctx : Handle} {type : SocketType} :
    (z.push (.socket z.fresh ctx type)).Numbered :=
  hz.push fun _ he => (Option.some.inj he).symm

end Zmq

/-! ## The stages of an initialisation -/

/-- `P₀` holds before, `P₁` when the context is made, `P₂` when the first socket is made, and `Q`
wherever the function may end. A creation that fails stores NULL. -/
structure Stages (P₀ P₁ P₂ Q : Handles → Zmq → Prop) : Prop where
  noContext : ∀ c z, P₀ c z → Q { c with context := none } z
  context : ∀ c z, P₀ c z → P₁ { c with context := some z.fresh } (z.push (.ctxNew z.fresh))
  noFirst : ∀ c z, P₁ c z → Q { c with first := none } z
  first : ∀ c z ctx type, P₁ c z →
    P₂ { c with first := some z.fresh } (z.push (.socket z.fresh ctx type))
  inert : ∀ c z e, e.creates = none → e.releases = none → P₂ c z → P₂ c (z.push e)
  stop : ∀ c z, P₂ c z → Q c z
  noSecond : ∀ c z, P₂ c z → Q { c with second := none } z
  second : ∀ c z ctx type, P₂ c z →
    Q { c with second := some z.fresh } (z.push (.socket z.fresh ctx type))
  inertEnd : ∀ c z e, e.creates = none → e.releases = none → Q c z → Q c (z.push e)

def Server.handles (s : Server) : Handles := ⟨s.serverContext, s.publisher, s.responder⟩

def Client.handles (c : Client) : Handles := ⟨c.clientContext, c.subscriber, c.requester⟩

variable {P₀ P₁ P₂ Q : Handles → Zmq → Prop}

theorem Stages.server (hst : Stages P₀ P₁ P₂ Q) {o : ServerOutcome} {pubBind repBind : List UInt8}
    {clientCount : Int} {intervalNs : UInt64} {s : Server} {z : Zmq}
    (hc : ¬ (clientCount ≤ 0 ∨ clientCount > maxClients)) (hi : intervalNs ≠ 0)
    (h0 : P₀ s.handles z) :
    Q (simulithServerInit o pubBind repBind clientCount intervalNs s z).2.1.handles
      (simulithServerInit o pubBind repBind clientCount intervalNs s z).2.2 := by
  obtain ⟨ctxNew, publisher, pubBound, responder, repBound⟩ := o
  simp only [simulithServerInit, if_neg hc, if_neg hi]
  cases ctxNew with
  | false => exact hst.noContext _ _ h0
  | true =>
    have h1 := hst.context _ _ h0
    cases publisher with
    | false => exact hst.noFirst _ _ h1
    | true =>
      have h2 := hst.first _ _ z.fresh .pub h1
      cases pubBound with
      | false => exact hst.stop _ _ h2
      | true =>
        have h2' := hst.inert _ _ (.bind (z.push (.ctxNew z.fresh)).fresh pubBind) rfl rfl h2
        cases responder with
        | false => exact hst.noSecond _ _ h2'
        | true =>
          have h3 := hst.second _ _ z.fresh .rep h2'
          cases repBound with
          | false => exact h3
          | true => exact hst.inertEnd _ _ (.bind _ repBind) rfl rfl h3

theorem Stages.client (hst : Stages P₀ P₁ P₂ Q) {o : ClientOutcome} {pubAddr repAddr id : List UInt8}
    {rateNs : UInt64} {c : Client} {z : Zmq} (hid : strlen id ≠ 0) (hr : rateNs ≠ 0)
    (h0 : P₀ c.handles z) :
    Q (simulithClientInit o (some pubAddr) (some repAddr) (some id) rateNs c z).2.1.handles
      (simulithClientInit o (some pubAddr) (some repAddr) (some id) rateNs c z).2.2 := by
  obtain ⟨ctxNew, subscriber, subConnected, requester, reqConnected⟩ := o
  simp only [simulithClientInit, if_neg hid, if_neg hr]
  cases ctxNew with
  | false => exact hst.noContext _ _ h0
  | true =>
    have h1 := hst.context _ _ h0
    cases subscriber with
    | false => exact hst.noFirst _ _ h1
    | true =>
      have h2 := hst.first _ _ z.fresh .sub h1
      cases subConnected with
      | false => exact hst.stop _ _ h2
      | true =>
        have h2' := hst.inert _ _ (.connect (z.push (.ctxNew z.fresh)).fresh pubAddr) rfl rfl h2
        have h2'' := hst.inert _ _ (.subscribe (z.push (.ctxNew z.fresh)).fresh) rfl rfl h2'
        cases requester with
        | false => exact hst.noSecond _ _ h2''
        | true =>
          have h3 := hst.second _ _ z.fresh .req h2''
          cases reqConnected with
          | false => exact h3
          | true => exact hst.inertEnd _ _ (.connect _ repAddr) rfl rfl h3

/-! ## What the stages keep -/

namespace Handles

variable {c : Handles} {z : Zmq}

theorem fit_stages : Stages Fit Fit Fit Fit where
  noContext c z hf := ⟨hf.numbered, by rw [get_context]; exact hf.holds.clear _⟩
  context c z hf := ⟨hf.numbered.ctxNew, by
    rw [get_context, Zmq.ledger_ctxNew]
    exact hf.holds.acquire hf.numbered.fresh_notMem _⟩
  noFirst c z hf := ⟨hf.numbered, by rw [get_first]; exact hf.holds.clear _⟩
  first c z _ _ hf := ⟨hf.numbered.socket, by
    rw [get_first, Zmq.ledger_socket]
    exact hf.holds.acquire hf.numbered.fresh_notMem _⟩
  inert _ _ _ hc hr hf := hf.inert hc hr
  stop _ _ hf := hf
  noSecond c z hf := ⟨hf.numbered, by rw [get_second]; exact hf.holds.clear _⟩
  second c z _ _ hf := ⟨hf.numbered.socket, by
    rw [get_second, Zmq.ledger_socket]
    exact hf.holds.acquire hf.numbered.fresh_notMem _⟩
  inertEnd _ _ _ hc hr hf := hf.inert hc hr

/-- From no handle at all, each variable is empty when it is written. -/
theorem owned_stages : Stages
    (fun c z => c.Owned z ∧ c.context = .none ∧ c.first = .none ∧ c.second = .none)
    (fun c z => c.Owned z ∧ c.context ≠ .none ∧ c.first = .none ∧ c.second = .none)
    (fun c z => c.Owned z ∧ c.context ≠ .none ∧ c.second = .none)
    (fun c z => c.Owned z ∧ (c.context = .none → c.first = .none ∧ c.second = .none)) where
  noContext c z h := ⟨by rw [Owned, get_context]; exact h.1.clear h.2.1, fun _ => h.2.2⟩
  context c z h := ⟨by
    rw [Owned, get_context, Zmq.ledger_ctxNew]
    exact Ledger.Covers.acquire (i := Slot.context) h.1 h.2.1 _, by simp, h.2.2⟩
  noFirst c z h := ⟨by rw [Owned, get_first]; exact h.1.clear h.2.2.1,
    fun hn => absurd hn h.2.1⟩
  first c z _ _ h := ⟨by
    rw [Owned, get_first, Zmq.ledger_socket]
    exact Ledger.Covers.acquire (i := Slot.first) h.1 h.2.2.1 _, h.2.1, h.2.2.2⟩
  inert _ _ _ hc hr h := ⟨h.1.inert hc hr, h.2⟩
  stop _ _ h := ⟨h.1, fun hn => absurd hn h.2.1⟩
  noSecond c z h := ⟨by rw [Owned, get_second]; exact h.1.clear h.2.2,
    fun hn => absurd hn h.2.1⟩
  second c z _ _ h := ⟨by
    rw [Owned, get_second, Zmq.ledger_socket]
    exact Ledger.Covers.acquire (i := Slot.second) h.1 h.2.2 _, fun hn => absurd hn h.2.1⟩
  inertEnd _ _ _ hc hr h := ⟨h.1.inert hc hr, h.2⟩

/-- The first write loses a context that is still held, and nothing brings it back. -/
theorem lost_stages (h : Handle) :
    Stages (fun c z => c.Fit z ∧ c.context = some h) (Lost h) (Lost h) (Lost h) where
  noContext c z hc := ⟨hc.1.numbered, by rw [get_context]; exact hc.1.holds.lost_clear hc.2⟩
  context c z hc := ⟨hc.1.numbered.ctxNew, by
    rw [get_context, Zmq.ledger_ctxNew]
    exact hc.1.holds.lost_acquire hc.1.numbered.fresh_notMem hc.2⟩
  noFirst c z hl := ⟨hl.1, by rw [get_first]; exact hl.2.clear _⟩
  first c z _ _ hl := ⟨hl.1.socket, by
    rw [get_first, Zmq.ledger_socket]
    exact hl.2.acquire hl.1.fresh_notMem _⟩
  inert _ _ _ hc hr hl := hl.inert hc hr
  stop _ _ hl := hl
  noSecond c z hl := ⟨hl.1, by rw [get_second]; exact hl.2.clear _⟩
  second c z _ _ hl := ⟨hl.1.socket, by
    rw [get_second, Zmq.ledger_socket]
    exact hl.2.acquire hl.1.fresh_notMem _⟩
  inertEnd _ _ _ hc hr hl := hl.inert hc hr

/-! ## Shutdown -/

/-- Close the sockets, then terminate the context. -/
def closeAll (c : Handles) (z : Zmq) : Zmq := ((z.close c.first).close c.second).ctxTerm c.context

theorem release_slot {held : Slot → Option Handle} {i : Slot} {z z' : Zmq}
    (hz : z.Numbered ∧ z.ledger.Holds held)
    (h : held i = .none ∧ z' = z ∨
      ∃ x e, held i = some x ∧ e.creates = .none ∧ e.releases = some x ∧ z' = z.push e) :
    (z'.Numbered ∧ z'.ledger.Holds (Function.update held i .none)) ∧
      (z.ledger.Covers held → z'.ledger.Covers (Function.update held i .none)) := by
  rcases h with ⟨hi, rfl⟩ | ⟨x, e, hi, hc, hr, rfl⟩
  · exact ⟨⟨hz.1, hz.2.clear i⟩, fun hcov => hcov.clear hi⟩
  · rw [Zmq.ledger_push_releases hc hr]
    refine ⟨⟨hz.1.push fun h he => ?_, hz.2.release hi⟩, fun hcov => hcov.release hi⟩
    rw [hc] at he
    cases he

theorem close_cases (x : Option Handle) (z : Zmq) : x = .none ∧ z.close x = z ∨
    ∃ h e, x = some h ∧ e.creates = .none ∧ e.releases = some h ∧ z.close x = z.push e := by
  cases x with
  | none => exact .inl ⟨rfl, rfl⟩
  | some h => exact .inr ⟨h, .close h, rfl, rfl, rfl, rfl⟩

theorem ctxTerm_cases (x : Option Handle) (z : Zmq) : x = .none ∧ z.ctxTerm x = z ∨
    ∃ h e, x = some h ∧ e.creates = .none ∧ e.releases = some h ∧ z.ctxTerm x = z.push e := by
  cases x with
  | none => exact .inl ⟨rfl, rfl⟩
  | some h => exact .inr ⟨h, .ctxTerm h, rfl, rfl, rfl, rfl⟩

theorem none_get : none.get = Function.update (Function.update (Function.update c.get .first .none)
    .second .none) .context .none := by
  funext i
  cases i <;> rfl

theorem Fit.closeAll (hf : c.Fit z) : none.Fit (c.closeAll z) ∧
    (c.Owned z → none.Owned (c.closeAll z)) := by
  obtain ⟨h1, c1⟩ := release_slot (i := .first) ⟨hf.numbered, hf.holds⟩ (close_cases _ _)
  obtain ⟨h2, c2⟩ := release_slot (i := .second) h1 (close_cases _ _)
  obtain ⟨h3, c3⟩ := release_slot (i := .context) h2 (ctxTerm_cases _ _)
  refine ⟨⟨h3.1, ?_⟩, fun ho => ?_⟩
  · rw [none_get (c := c)]
    exact h3.2
  · rw [Owned, none_get (c := c)]
    exact c3 (c2 (c1 ho))

theorem Fit.settled (hf : none.Fit z) (ho : none.Owned z) : z.ledger.Settled :=
  Ledger.Covers.settled ho hf.holds fun i => by cases i <;> rfl

end Handles

/-! ## Runs -/

/-- A component with three handles: some calls go through the stages, one closes everything, and
the rest do nothing. -/
structure HandleUser (σ ε : Type) where
  run : ε → σ × Zmq → σ × Zmq
  handles : σ → Handles
  opens : ε → Bool
  shutdown : ε
  opened : ∀ {P₀ P₁ P₂ Q}, Stages P₀ P₁ P₂ Q → ∀ e s, opens e = true → P₀ (handles s.1) s.2 →
    Q (handles (run e s).1) (run e s).2
  closed : ∀ s, handles (run shutdown s).1 = .none ∧
    (run shutdown s).2 = (handles s.1).closeAll s.2
  idle : ∀ e s, opens e = false → e ≠ shutdown → run e s = s

namespace HandleUser

variable {σ ε : Type} (U : HandleUser σ ε) {s t : σ × Zmq} {e : ε} {es : List ε}

def step (s : σ × Zmq) (e : ε) : Option (σ × Zmq) := some (U.run e s)

/-- The call does not initialise over a context that is still held. -/
def Clean (s : σ × Zmq) (e : ε) : Prop := U.opens e = true → (U.handles s.1).context = none

variable {U}

theorem fit_run (hf : (U.handles s.1).Fit s.2) (e : ε) :
    (U.handles (U.run e s).1).Fit (U.run e s).2 := by
  cases ho : U.opens e with
  | true => exact U.opened Handles.fit_stages e s ho hf
  | false =>
    by_cases hc : e = U.shutdown
    · subst hc
      rw [(U.closed s).1, (U.closed s).2]
      exact hf.closeAll.1
    · rwa [U.idle e s ho hc]

theorem whole_run (hw : (U.handles s.1).Whole s.2) (hclean : U.Clean s e) :
    (U.handles (U.run e s).1).Whole (U.run e s).2 := by
  cases ho : U.opens e with
  | true =>
    obtain ⟨hfst, hsnd⟩ := hw.sockets (hclean ho)
    obtain ⟨howned, hsock⟩ := U.opened Handles.owned_stages e s ho
      ⟨hw.owned, hclean ho, hfst, hsnd⟩
    exact ⟨fit_run hw.fit e, howned, hsock⟩
  | false =>
    by_cases hc : e = U.shutdown
    · have hf := fit_run hw.fit e
      subst hc
      refine ⟨hf, ?_, fun _ => ?_⟩
      · rw [(U.closed s).1, (U.closed s).2]
        exact hw.fit.closeAll.2 hw.owned
      · rw [(U.closed s).1]
        exact ⟨rfl, rfl⟩
    · rwa [U.idle e s ho hc]

theorem settled_run (hw : (U.handles s.1).Whole s.2) :
    (U.run U.shutdown s).2.ledger.Settled := by
  rw [(U.closed s).2]
  obtain ⟨hf, ho⟩ := hw.fit.closeAll
  exact hf.settled (ho hw.owned)

theorem not_owned_run (hf : (U.handles s.1).Fit s.2) (hn : ¬ U.Clean s e) :
    ¬ (U.handles (U.run e s).1).Owned (U.run e s).2 := by
  simp only [Clean, Classical.not_imp] at hn
  obtain ⟨h, hh⟩ := Option.ne_none_iff_exists'.mp hn.2
  exact (U.opened (Handles.lost_stages h) e s hn.1 ⟨hf, hh⟩).2.not_covers

theorem fit_initial {s₀ : σ} (h₀ : U.handles s₀ = .none) : (U.handles s₀).Fit .empty := by
  rw [h₀]
  refine ⟨nofun, List.nodup_nil, nofun, fun i h hi => ?_, fun i j h hi => ?_⟩ <;>
    cases i <;> cases hi

theorem fit_exec {s₀ : σ} (h₀ : U.handles s₀ = .none) (h : exec U.step (s₀, .empty) es = some s) :
    (U.handles s.1).Fit s.2 := by
  refine exec_preserves (I := fun s => (U.handles s.1).Fit s.2) (fun s e t hf ht => ?_)
    (fit_initial h₀) h
  cases ht
  exact fit_run hf e

/-- In every state of a run all live handles are held, and after each shutdown everything created
has been released once, exactly when no call initialises over a held context. -/
theorem owned_iff {s₀ : σ} (h₀ : U.handles s₀ = .none) :
    (∀ pre post s, es = pre ++ post → exec U.step (s₀, .empty) pre = some s →
      (U.handles s.1).Owned s.2 ∧
        ∀ init, pre = init ++ [U.shutdown] → s.2.ledger.Settled) ↔
      Along U.step U.Clean (s₀, .empty) es := by
  have hwhole₀ : (U.handles s₀).Whole .empty :=
    ⟨fit_initial h₀, nofun, fun _ => by rw [h₀]; exact ⟨rfl, rfl⟩⟩
  constructor
  · intro hall
    refine along_iff.mpr fun pre e post s he hs => ?_
    by_contra hn
    refine not_owned_run (fit_exec h₀ hs) hn (hall (pre ++ [e]) post _ (by simp [he]) ?_).1
    exact exec_snoc_eq_some.mpr ⟨s, hs, rfl⟩
  · intro hA
    have hwhole : ∀ pre post s, es = pre ++ post → exec U.step (s₀, .empty) pre = some s →
        (U.handles s.1).Whole s.2 := by
      rintro pre post s rfl hs
      refine exec_invariant (I := fun s => (U.handles s.1).Whole s.2) (fun s e t hw hc ht => ?_)
        hwhole₀ hA.left hs
      cases ht
      exact whole_run hw hc
    intro pre post s he hs
    refine ⟨(hwhole pre post s he hs).owned, ?_⟩
    rintro init rfl
    obtain ⟨t, ht, hst⟩ := exec_snoc_eq_some.mp hs
    cases hst
    exact settled_run (hwhole init ([U.shutdown] ++ post) t (by rw [he, List.append_assoc]) ht)

end HandleUser

/-! ## Server and client -/

inductive ServerLifecycle where
  | init (o : ServerOutcome) (pubBind repBind : List UInt8) (clientCount : Int) (intervalNs : UInt64)
  | shutdown
  deriving DecidableEq

namespace ServerLifecycle

def run : ServerLifecycle → Server × Zmq → Server × Zmq
  | init o pubBind repBind clientCount intervalNs, s =>
    (simulithServerInit o pubBind repBind clientCount intervalNs s.1 s.2).2
  | shutdown, s => simulithServerShutdown s.1 s.2

def step (s : Server × Zmq) (e : ServerLifecycle) : Option (Server × Zmq) := some (e.run s)

/-- The parameters pass the checks of `simulith_server_init`. -/
def accepted : ServerLifecycle → Bool
  | init _ _ _ clientCount intervalNs =>
    !decide (clientCount ≤ 0 ∨ clientCount > maxClients) && intervalNs != 0
  | shutdown => false

/-- Not an initialisation over a context that is still held. -/
def Clean (s : Server × Zmq) (e : ServerLifecycle) : Prop :=
  e.accepted = true → s.1.serverContext = none

def user : HandleUser Server ServerLifecycle where
  run := run
  handles := Server.handles
  opens := accepted
  shutdown := shutdown
  opened := by
    intro P₀ P₁ P₂ Q hst e s he h0
    cases e with
    | shutdown => cases he
    | init o pubBind repBind clientCount intervalNs =>
      simp only [accepted, Bool.and_eq_true, Bool.not_eq_true', decide_eq_false_iff_not,
        bne_iff_ne] at he
      exact hst.server he.1 he.2 h0
  closed _ := ⟨rfl, rfl⟩
  idle := by
    intro e s he hne
    cases e with
    | shutdown => exact absurd rfl hne
    | init o pubBind repBind clientCount intervalNs =>
      by_cases hc : clientCount ≤ 0 ∨ clientCount > maxClients
      · simp [run, simulithServerInit, if_pos hc]
      · have hi : intervalNs = 0 := by simpa [accepted, hc] using he
        simp [run, simulithServerInit, hi]

end ServerLifecycle

inductive ClientLifecycle where
  | init (o : ClientOutcome) (pubAddr repAddr id : Option (List UInt8)) (rateNs : UInt64)
  | shutdown
  deriving DecidableEq

namespace ClientLifecycle

def run : ClientLifecycle → Client × Zmq → Client × Zmq
  | init o pubAddr repAddr id rateNs, c =>
    (simulithClientInit o pubAddr repAddr id rateNs c.1 c.2).2
  | shutdown, c => simulithClientShutdown c.1 c.2

def step (c : Client × Zmq) (e : ClientLifecycle) : Option (Client × Zmq) := some (e.run c)

/-- The parameters pass the checks of `simulith_client_init`. -/
def accepted : ClientLifecycle → Bool
  | init _ (some _) (some _) (some id) rateNs => strlen id != 0 && rateNs != 0
  | _ => false

def Clean (c : Client × Zmq) (e : ClientLifecycle) : Prop :=
  e.accepted = true → c.1.clientContext = none

theorem run_rejected {e : ClientLifecycle} (he : e.accepted = false) (hne : e ≠ shutdown)
    (c : Client × Zmq) : e.run c = c := by
  cases e with
  | shutdown => exact absurd rfl hne
  | init o pubAddr repAddr id rateNs =>
    cases pubAddr with
    | none => rfl
    | some pubAddr =>
      cases repAddr with
      | none => rfl
      | some repAddr =>
        cases id with
        | none => rfl
        | some id =>
          by_cases hid : strlen id = 0
          · simp [run, simulithClientInit, if_pos hid]
          · have hr : rateNs = 0 := by simpa [accepted, hid] using he
            simp [run, simulithClientInit, hr]

def user : HandleUser Client ClientLifecycle where
  run := run
  handles := Client.handles
  opens := accepted
  shutdown := shutdown
  opened := by
    intro P₀ P₁ P₂ Q hst e c he h0
    unfold accepted at he
    split at he
    · simp only [Bool.and_eq_true, bne_iff_ne] at he
      exact hst.client he.1 he.2 h0
    · cases he
  closed _ := ⟨rfl, rfl⟩
  idle e c he hne := run_rejected he hne c

end ClientLifecycle

/-- In every state of a run of initialisations and shutdowns, of the server and of the client,
every handle created and not yet closed is held by a static variable, and after each shutdown all
have been closed once, exactly when none of its initialisations past the parameter checks finds a
context still held. -/
theorem handles_owned_iff (es : List ServerLifecycle) (es' : List ClientLifecycle) :
    ((∀ pre post s, es = pre ++ post →
        exec ServerLifecycle.step (.zero, .empty) pre = some s → s.1.handles.Owned s.2 ∧
          ∀ init, pre = init ++ [.shutdown] → s.2.ledger.Settled) ↔
      Along ServerLifecycle.step ServerLifecycle.Clean (.zero, .empty) es) ∧
    ((∀ pre post c, es' = pre ++ post →
        exec ClientLifecycle.step (.zero, .empty) pre = some c → c.1.handles.Owned c.2 ∧
          ∀ init, pre = init ++ [.shutdown] → c.2.ledger.Settled) ↔
      Along ClientLifecycle.step ClientLifecycle.Clean (.zero, .empty) es') :=
  ⟨HandleUser.owned_iff (U := ServerLifecycle.user) rfl,
    HandleUser.owned_iff (U := ClientLifecycle.user) rfl⟩

/-- The publisher's address cannot be bound. -/
def serverBindFailed : ServerLifecycle := .init ⟨true, true, false, true, true⟩ [] [] 1 1

/-- A second attempt succeeds, and the context and the socket of the first stay open for good. -/
theorem handles_leaked : ∃ s,
    exec ServerLifecycle.step (.zero, .empty)
      [serverBindFailed, .init ⟨true, true, true, true, true⟩ [] [] 1 1, .shutdown] = some s ∧
    s.2.ledger.created = [0, 1, 2, 3, 5] ∧ s.2.ledger.released = [3, 5, 2] ∧
    ¬ s.1.handles.Owned s.2 ∧ ¬ s.2.ledger.Settled := by
  have hrun : (exec ServerLifecycle.step (.zero, .empty)
      [serverBindFailed, .init ⟨true, true, true, true, true⟩ [] [] 1 1, .shutdown]).any
      (fun s => decide (s.2.ledger.created = [0, 1, 2, 3, 5] ∧
        s.2.ledger.released = [3, 5, 2] ∧ s.1.serverContext = none ∧ s.1.publisher = none ∧
        s.1.responder = none)) = true := by
    decide
  obtain ⟨s, hs, hc, hr, h1, h2, h3⟩ := exists_exec_of_any hrun
  refine ⟨s, hs, hc, hr, fun ho => ?_, fun hset => ?_⟩
  · obtain ⟨i, hi⟩ := ho 0 (by rw [hc]; decide) (by rw [hr]; decide)
    cases i
    · cases h1.symm.trans hi
    · cases h2.symm.trans hi
    · cases h3.symm.trans hi
  · have h0 := hset 0 (by rw [hc]; decide)
    rw [hr] at h0
    exact absurd h0 (by decide)

end Simulith
