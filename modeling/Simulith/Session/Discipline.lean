import Simulith.Session.Handles
import Simulith.Zmq.Usage

/-!
# The ZeroMQ calls are in order

Whatever fails and however often they are called, initialisation and shutdown
break no rule of ZeroMQ (`zmq_in_order`): they lose handles, but the context they
terminate is the last one created, and of its sockets they have lost none.
`Governed` says so of the three variables.
-/

namespace Simulith

open Lts CStr

/-- What the variables hold is alive, and the open sockets of the context they hold are in
`slots`. -/
structure Governed (held : Slot → Option Handle) (slots : List Slot) (z : Zmq) (u : Usage) :
    Prop where
  fit : z.Numbered ∧ z.ledger.Holds held
  log : exec Usage.step .empty z.log = some u
  issued : ∀ h ∈ u.issued, h ∈ z.ledger.created
  sockets : ∀ s ∈ u.sockets, s.handle ∈ u.issued ∧ s.context ∈ u.issued
  contexts : ∀ x ∈ u.contexts, x ∈ u.issued
  context : ∀ x, held .context = some x → x ∈ u.contexts
  isOpen : ∀ i h, i ≠ .context → held i = some h → u.Open h
  own : ∀ s ∈ u.sockets, held .context = some s.context → ∃ i ∈ slots, held i = some s.handle

namespace Governed

variable {held : Slot → Option Handle} {slots slots' : List Slot} {z : Zmq} {u u' : Usage}
  {e : ZmqEvent} {i : Slot} {x : Handle}

theorem fresh_notMem (h : Governed held slots z u) : z.fresh ∉ u.issued :=
  fun hm => h.fit.1.fresh_notMem (h.issued _ hm)

theorem log_push (h : Governed held slots z u) (hs : u.step e = some u') :
    exec Usage.step .empty (z.push e).log = some u' := exec_snoc_eq_some.mpr ⟨u, h.log, hs⟩

theorem inert (h : Governed held slots z u) (hc : e.creates = none) (hr : e.releases = none)
    (hs : u.step e = some u) : Governed held slots (z.push e) u where
  fit := by
    rw [Zmq.ledger_push_inert hc hr]
    refine ⟨h.fit.1.push fun x hx => ?_, h.fit.2⟩
    rw [hc] at hx
    cases hx
  log := h.log_push hs
  issued := by
    rw [Zmq.ledger_push_inert hc hr]
    exact h.issued
  sockets := h.sockets
  contexts := h.contexts
  context := h.context
  isOpen := h.isOpen
  own := h.own

theorem mono (h : Governed held slots z u) (hs : slots ⊆ slots') : Governed held slots' z u :=
  { h with own := fun s hm hx => (h.own s hm hx).imp fun _ hi => hi.imp_left (hs ·) }

/-! ## Creating -/

theorem noContext (h : Governed held slots z u) :
    Governed (Function.update held .context none) slots' z u where
  fit := ⟨h.fit.1, h.fit.2.clear _⟩
  log := h.log
  issued := h.issued
  sockets := h.sockets
  contexts := h.contexts
  context x hx := by
    rw [Function.update_self] at hx
    cases hx
  isOpen i x hi hx := h.isOpen i x hi (by rwa [Function.update_of_ne hi] at hx)
  own s _ hx := by
    rw [Function.update_self] at hx
    cases hx

theorem ctxNew (h : Governed held slots z u) : ∃ u',
    Governed (Function.update held .context (some z.fresh)) [] (z.push (.ctxNew z.fresh)) u' := by
  refine ⟨{ u with issued := z.fresh :: u.issued, contexts := z.fresh :: u.contexts },
    { fit := ?_, log := h.log_push (if_neg h.fresh_notMem), issued := fun x hx => ?_,
      sockets := fun s hs => ?_, contexts := fun x hx => ?_, context := fun x hx => ?_,
      isOpen := fun i x hi hx => ?_, own := fun s hs hx => ?_ }⟩
  · rw [Zmq.ledger_ctxNew]
    exact ⟨h.fit.1.ctxNew, h.fit.2.acquire h.fit.1.fresh_notMem _⟩
  · rw [Zmq.ledger_ctxNew]
    rcases List.mem_cons.mp hx with rfl | hx
    · exact List.mem_append_right _ (List.mem_singleton_self _)
    · exact List.mem_append_left _ (h.issued x hx)
  · exact (h.sockets s hs).imp (List.mem_cons_of_mem _) (List.mem_cons_of_mem _)
  · rcases List.mem_cons.mp hx with rfl | hx
    · exact List.mem_cons_self
    · exact List.mem_cons_of_mem _ (h.contexts x hx)
  · rw [Function.update_self] at hx
    cases hx
    exact List.mem_cons_self
  · rw [Function.update_of_ne hi] at hx
    exact h.isOpen i x hi hx
  · rw [Function.update_self] at hx
    exact absurd (Option.some.inj hx ▸ (h.sockets s hs).2) h.fresh_notMem

theorem noSocket (h : Governed held slots z u) (hi : i ∉ slots) (hc : i ≠ .context) :
    Governed (Function.update held i none) (slots ++ [i]) z u where
  fit := ⟨h.fit.1, h.fit.2.clear _⟩
  log := h.log
  issued := h.issued
  sockets := h.sockets
  contexts := h.contexts
  context x hx := h.context x (by rwa [Function.update_of_ne hc.symm] at hx)
  isOpen j x hj hx := by
    by_cases he : j = i
    · rw [he, Function.update_self] at hx
      cases hx
    · exact h.isOpen j x hj (by rwa [Function.update_of_ne he] at hx)
  own s hs hx := by
    rw [Function.update_of_ne hc.symm] at hx
    obtain ⟨j, hj, hheld⟩ := h.own s hs hx
    refine ⟨j, List.mem_append_left _ hj, ?_⟩
    rwa [Function.update_of_ne (ne_of_mem_of_not_mem hj hi)]

theorem socket (h : Governed held slots z u) (hi : i ∉ slots) (hc : i ≠ .context)
    (hx : held .context = some x) (type : SocketType) :
    ∃ u', Governed (Function.update held i (some z.fresh)) (slots ++ [i])
      (z.push (.socket z.fresh x type)) u' ∧ ⟨z.fresh, x, type⟩ ∈ u'.sockets := by
  have hxc := h.context x hx
  have hlegal : ¬ (z.fresh ∈ u.issued ∨ x ∉ u.contexts) := by
    rintro (hm | hm)
    · exact h.fresh_notMem hm
    · exact hm hxc
  refine ⟨{ u with issued := z.fresh :: u.issued, sockets := ⟨z.fresh, x, type⟩ :: u.sockets },
    { fit := ?_, log := h.log_push (if_neg hlegal), issued := fun y hy => ?_,
      sockets := fun s hs => ?_, contexts := fun y hy => ?_, context := fun y hy => ?_,
      isOpen := fun j y hj hy => ?_, own := fun s hs hy => ?_ }, List.mem_cons_self⟩
  · rw [Zmq.ledger_socket]
    exact ⟨h.fit.1.socket, h.fit.2.acquire h.fit.1.fresh_notMem _⟩
  · rw [Zmq.ledger_socket]
    rcases List.mem_cons.mp hy with rfl | hy
    · exact List.mem_append_right _ (List.mem_singleton_self _)
    · exact List.mem_append_left _ (h.issued y hy)
  · rcases List.mem_cons.mp hs with rfl | hs
    · exact ⟨List.mem_cons_self, List.mem_cons_of_mem _ (h.contexts x hxc)⟩
    · exact (h.sockets s hs).imp (List.mem_cons_of_mem _) (List.mem_cons_of_mem _)
  · exact List.mem_cons_of_mem _ (h.contexts y hy)
  · exact h.context y (by rwa [Function.update_of_ne hc.symm] at hy)
  · by_cases he : j = i
    · rw [he, Function.update_self] at hy
      exact ⟨_, List.mem_cons_self, Option.some.inj hy⟩
    · rw [Function.update_of_ne he] at hy
      obtain ⟨s, hs, hsy⟩ := h.isOpen j y hj hy
      exact ⟨s, List.mem_cons_of_mem _ hs, hsy⟩
  · rw [Function.update_of_ne hc.symm] at hy
    rcases List.mem_cons.mp hs with rfl | hs
    · exact ⟨i, by simp, Function.update_self ..⟩
    · obtain ⟨j, hj, hheld⟩ := h.own s hs hy
      refine ⟨j, List.mem_append_left _ hj, ?_⟩
      rwa [Function.update_of_ne (ne_of_mem_of_not_mem hj hi)]

/-! ## Closing -/

theorem close (h : Governed held slots z u) (hc : i ≠ .context) :
    ∃ u', Governed (Function.update held i none) slots (z.close (held i)) u' := by
  have hown : ∀ s ∈ u.sockets, held i ≠ some s.handle → held .context = some s.context →
      ∃ j ∈ slots, Function.update held i none j = some s.handle := by
    intro s hs hne hx
    obtain ⟨j, hj, hheld⟩ := h.own s hs hx
    refine ⟨j, hj, ?_⟩
    rwa [Function.update_of_ne]
    rintro rfl
    exact hne hheld
  have hfit := (Handles.release_slot (i := i) h.fit (Handles.close_cases _ _)).1
  cases hi : held i with
  | none =>
    rw [hi] at hfit
    refine ⟨u,
      { h with
        fit := hfit
        context := fun x hx => ?_
        isOpen := fun j x hj hx => ?_
        own := fun s hs hx => ?_ }⟩
    · exact h.context x (by rwa [Function.update_of_ne hc.symm] at hx)
    · rw [← hi, Function.update_eq_self] at hx
      exact h.isOpen j x hj hx
    · rw [Function.update_of_ne hc.symm] at hx
      exact hown s hs (by rw [hi]; simp) hx
  | some y =>
    rw [hi] at hfit
    have hstep : u.step (.close y) =
        some { u with sockets := u.sockets.filter fun s => s.handle ≠ y } :=
      if_pos (h.isOpen i y hc hi)
    refine ⟨_,
      { fit := hfit, log := h.log_push hstep, issued := fun x hx => ?_,
        sockets := fun s hs => h.sockets s (List.mem_of_mem_filter hs), contexts := h.contexts,
        context := fun x hx => ?_, isOpen := fun j x hj hx => ?_, own := fun s hs hx => ?_ }⟩
    · rw [Zmq.close, Zmq.ledger_push_releases (e := .close y) rfl rfl]
      exact h.issued x hx
    · exact h.context x (by rwa [Function.update_of_ne hc.symm] at hx)
    · by_cases he : j = i
      · rw [he, Function.update_self] at hx
        cases hx
      · rw [Function.update_of_ne he] at hx
        obtain ⟨s, hs, rfl⟩ := h.isOpen j x hj hx
        refine ⟨s, List.mem_filter.mpr ⟨hs, decide_eq_true fun hy => he ?_⟩, rfl⟩
        exact h.fit.2.unique j i _ hx (hy ▸ hi)
    · rw [Function.update_of_ne hc.symm] at hx
      obtain ⟨hs, hne⟩ := List.mem_filter.mp hs
      refine hown s hs (fun hy => of_decide_eq_true hne ?_) hx
      exact (Option.some.inj (hi.symm.trans hy)).symm

theorem ctxTerm (h : Governed held slots z u) (hnone : ∀ i ∈ slots, held i = none) :
    ∃ u', Governed (Function.update held .context none) slots' (z.ctxTerm (held .context)) u' := by
  have hfit := (Handles.release_slot (i := .context) h.fit (Handles.ctxTerm_cases _ _)).1
  cases hi : held .context with
  | none => exact ⟨u, h.noContext⟩
  | some x =>
    rw [hi] at hfit
    have hvacant : u.Vacant x := by
      refine ⟨h.context x hi, ?_⟩
      rintro s hs rfl
      obtain ⟨i, hmem, hheld⟩ := h.own s hs hi
      rw [hnone i hmem] at hheld
      cases hheld
    have hstep : u.step (.ctxTerm x) =
        some { u with contexts := u.contexts.filter fun y => y ≠ x } := if_pos hvacant
    refine ⟨_,
      { fit := hfit, log := h.log_push hstep, issued := fun y hy => ?_, sockets := h.sockets,
        contexts := fun y hy => h.contexts y (List.mem_of_mem_filter hy),
        context := fun y hy => ?_, isOpen := fun j y hj hy => ?_, own := fun s _ hy => ?_ }⟩
    · rw [Zmq.ctxTerm, Zmq.ledger_push_releases (e := .ctxTerm x) rfl rfl]
      exact h.issued y hy
    · rw [Function.update_self] at hy
      cases hy
    · rw [Function.update_of_ne hj] at hy
      exact h.isOpen j y hj hy
    · rw [Function.update_self] at hy
      cases hy

end Governed

/-! ## Initialisation and shutdown -/

namespace Handles

variable {c : Handles} {slots : List Slot} {z : Zmq} {u : Usage} {x : Handle}

/-- No rule has been broken, and the variables hold all of the context's sockets. -/
def Disciplined (c : Handles) (z : Zmq) : Prop := ∃ u, Governed c.get [.first, .second] z u

theorem governed_noContext (h : Governed c.get slots z u) :
    ({ c with context := .none } : Handles).Disciplined z :=
  ⟨u, by rw [get_context]; exact h.noContext⟩

theorem governed_context (h : Governed c.get slots z u) : ∃ u', Governed
    ({ c with context := some z.fresh } : Handles).get [] (z.push (.ctxNew z.fresh)) u' := by
  rw [get_context]
  exact h.ctxNew

theorem governed_noFirst (h : Governed c.get [] z u) :
    ({ c with first := .none } : Handles).Disciplined z :=
  ⟨u, by rw [get_first]; exact (h.noSocket (i := .first) (by simp) (by simp)).mono (by simp)⟩

theorem governed_first (h : Governed c.get [] z u) (hx : c.context = some x) (type : SocketType) :
    ∃ u', Governed ({ c with first := some z.fresh } : Handles).get [.first]
      (z.push (.socket z.fresh x type)) u' ∧ ⟨z.fresh, x, type⟩ ∈ u'.sockets := by
  rw [get_first]
  exact h.socket (i := .first) (by simp) (by simp) hx type

theorem governed_stop (h : Governed c.get [.first] z u) : c.Disciplined z := ⟨u, h.mono (by simp)⟩

theorem governed_noSecond (h : Governed c.get [.first] z u) :
    ({ c with second := .none } : Handles).Disciplined z :=
  ⟨u, by rw [get_second]; exact h.noSocket (i := .second) (by simp) (by simp)⟩

theorem governed_second (h : Governed c.get [.first] z u) (hx : c.context = some x)
    (type : SocketType) : ∃ u', Governed ({ c with second := some z.fresh } : Handles).get
      [.first, .second] (z.push (.socket z.fresh x type)) u' ∧
        ⟨z.fresh, x, type⟩ ∈ u'.sockets := by
  rw [get_second]
  exact h.socket (i := .second) (by simp) (by simp) hx type

/-- The sockets are closed before the context is terminated. -/
theorem Disciplined.closeAll (h : c.Disciplined z) : none.Disciplined (c.closeAll z) := by
  obtain ⟨u, h⟩ := h
  obtain ⟨u1, h1⟩ := h.close (i := .first) (by simp)
  obtain ⟨u2, h2⟩ := h1.close (i := .second) (by simp)
  obtain ⟨u3, h3⟩ := h2.ctxTerm (fun i hi => by cases i <;> simp_all)
  refine ⟨u3, ?_⟩
  rw [none_get (c := c)]
  exact h3

end Handles

open Handles

theorem server_disciplined {o : ServerOutcome} {pubBind repBind : List UInt8} {clientCount : Int}
    {intervalNs : UInt64} {s : Server} {z : Zmq}
    (hc : ¬ (clientCount ≤ 0 ∨ clientCount > maxClients)) (hi : intervalNs ≠ 0)
    (h : s.handles.Disciplined z) :
    (simulithServerInit o pubBind repBind clientCount intervalNs s z).2.1.handles.Disciplined
      (simulithServerInit o pubBind repBind clientCount intervalNs s z).2.2 := by
  obtain ⟨u, h⟩ := h
  obtain ⟨ctxNew, publisher, pubBound, responder, repBound⟩ := o
  simp only [simulithServerInit, if_neg hc, if_neg hi]
  cases ctxNew with
  | false => exact governed_noContext h
  | true =>
    obtain ⟨u₁, h₁⟩ := governed_context h
    cases publisher with
    | false => exact governed_noFirst h₁
    | true =>
      obtain ⟨u₂, h₂, hm₂⟩ := governed_first h₁ (x := z.fresh) rfl .pub
      cases pubBound with
      | false => exact governed_stop h₂
      | true =>
        have h₂' := h₂.inert (e := .bind _ pubBind) rfl rfl (if_pos ⟨_, hm₂, rfl⟩)
        cases responder with
        | false => exact governed_noSecond h₂'
        | true =>
          obtain ⟨u₃, h₃, hm₃⟩ := governed_second h₂' (x := z.fresh) rfl .rep
          cases repBound with
          | false => exact ⟨u₃, h₃⟩
          | true => exact ⟨u₃, h₃.inert (e := .bind _ repBind) rfl rfl (if_pos ⟨_, hm₃, rfl⟩)⟩

theorem client_disciplined {o : ClientOutcome} {pubAddr repAddr id : List UInt8} {rateNs : UInt64}
    {c : Client} {z : Zmq} (hid : strlen id ≠ 0) (hr : rateNs ≠ 0) (h : c.handles.Disciplined z) :
    (simulithClientInit o (some pubAddr) (some repAddr) (some id) rateNs c
      z).2.1.handles.Disciplined
      (simulithClientInit o (some pubAddr) (some repAddr) (some id) rateNs c z).2.2 := by
  obtain ⟨u, h⟩ := h
  obtain ⟨ctxNew, subscriber, subConnected, requester, reqConnected⟩ := o
  simp only [simulithClientInit, if_neg hid, if_neg hr]
  cases ctxNew with
  | false => exact governed_noContext h
  | true =>
    obtain ⟨u₁, h₁⟩ := governed_context h
    cases subscriber with
    | false => exact governed_noFirst h₁
    | true =>
      obtain ⟨u₂, h₂, hm₂⟩ := governed_first h₁ (x := z.fresh) rfl .sub
      cases subConnected with
      | false => exact governed_stop h₂
      | true =>
        have h₂' := h₂.inert (e := .connect _ pubAddr) rfl rfl (if_pos ⟨_, hm₂, rfl⟩)
        have h₂'' := h₂'.inert (e := .subscribe _) rfl rfl (if_pos ⟨_, hm₂, rfl, rfl⟩)
        cases requester with
        | false => exact governed_noSecond h₂''
        | true =>
          obtain ⟨u₃, h₃, hm₃⟩ := governed_second h₂'' (x := z.fresh) rfl .req
          cases reqConnected with
          | false => exact ⟨u₃, h₃⟩
          | true =>
            exact ⟨u₃, h₃.inert (e := .connect _ repAddr) rfl rfl (if_pos ⟨_, hm₃, rfl⟩)⟩

/-! ## Runs -/

theorem disciplined_initial : Handles.none.Disciplined .empty := by
  have hf : Handles.none.Fit .empty :=
    HandleUser.fit_initial (U := ServerLifecycle.user) (show Server.zero.handles = .none from rfl)
  refine ⟨.empty,
    { fit := ⟨hf.numbered, hf.holds⟩, log := rfl, issued := fun _ hm => ?_,
      sockets := fun _ hm => ?_, contexts := fun _ hm => ?_, context := fun _ hx => ?_,
      isOpen := fun i _ _ hi => ?_, own := fun _ hm => ?_ }⟩
  · cases hm
  · cases hm
  · cases hm
  · cases hx
  · cases i <;> cases hi
  · cases hm

theorem Handles.Disciplined.inOrder {c : Handles} {z : Zmq} (h : c.Disciplined z) : z.InOrder := by
  obtain ⟨u, h⟩ := h
  rw [Zmq.InOrder, h.log]
  rfl

theorem ServerLifecycle.disciplined_run {s : Server × Zmq} (h : s.1.handles.Disciplined s.2)
    (e : ServerLifecycle) : (e.run s).1.handles.Disciplined (e.run s).2 := by
  cases e with
  | shutdown => exact h.closeAll
  | init o pubBind repBind clientCount intervalNs =>
    by_cases hc : clientCount ≤ 0 ∨ clientCount > maxClients
    · simpa only [run, simulithServerInit, if_pos hc] using h
    · by_cases hi : intervalNs = 0
      · simpa only [run, simulithServerInit, if_neg hc, if_pos hi] using h
      · exact server_disciplined hc hi h

theorem ClientLifecycle.disciplined_run {c : Client × Zmq} (h : c.1.handles.Disciplined c.2)
    (e : ClientLifecycle) : (e.run c).1.handles.Disciplined (e.run c).2 := by
  cases he : e.accepted with
  | false =>
    by_cases hs : e = shutdown
    · subst hs
      exact h.closeAll
    · rwa [run_rejected he hs]
  | true =>
    unfold accepted at he
    split at he
    · simp only [Bool.and_eq_true, bne_iff_ne] at he
      exact client_disciplined he.1 he.2 h
    · cases he

/-- **No call breaks a rule of ZeroMQ.** In every run of initialisations and
shutdowns, of the server and of the client, whatever fails and whatever is lost:
sockets are created in contexts that are alive, bound, connected, subscribed and
closed while they are open and closed once, and a context is terminated when all
its sockets are closed, so that a shutdown does not wait for one. -/
theorem zmq_in_order {es : List ServerLifecycle} {es' : List ClientLifecycle} {s : Server × Zmq}
    {c : Client × Zmq} (hs : exec ServerLifecycle.step (.zero, .empty) es = some s)
    (hc : exec ClientLifecycle.step (.zero, .empty) es' = some c) : s.2.InOrder ∧ c.2.InOrder := by
  have hserver : s.1.handles.Disciplined s.2 := by
    refine exec_preserves (I := fun s => s.1.handles.Disciplined s.2) (fun s e t h ht => ?_)
      disciplined_initial hs
    cases ht
    exact ServerLifecycle.disciplined_run h e
  have hclient : c.1.handles.Disciplined c.2 := by
    refine exec_preserves (I := fun c => c.1.handles.Disciplined c.2) (fun c e d h hd => ?_)
      disciplined_initial hc
    cases hd
    exact ClientLifecycle.disciplined_run h e
  exact ⟨hserver.inOrder, hclient.inOrder⟩

/-- Handles are lost by a server whose first attempt fails and by a client initialised over itself,
but each shutdown is in order. -/
theorem zmq_in_order_leaked :
    let es := [serverBindFailed, .init ⟨true, true, true, true, true⟩ [] [] 1 1, .shutdown]
    let es' : List ClientLifecycle := [.init .ok (some []) (some []) (some [97]) 1,
      .init ⟨true, true, true, false, true⟩ (some []) (some []) (some [97]) 1, .shutdown]
    ∃ s c, exec ServerLifecycle.step (.zero, .empty) es = some s ∧
      exec ClientLifecycle.step (.zero, .empty) es' = some c ∧ s.2.InOrder ∧ c.2.InOrder := by
  intro es es'
  obtain ⟨s, hs⟩ : ∃ s, exec ServerLifecycle.step (.zero, .empty) es = some s := ⟨_, rfl⟩
  obtain ⟨c, hc⟩ : ∃ c, exec ClientLifecycle.step (.zero, .empty) es' = some c := ⟨_, rfl⟩
  exact ⟨s, c, hs, hc, zmq_in_order hs hc⟩

end Simulith
