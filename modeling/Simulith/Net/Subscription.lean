import Simulith.Lts.Latest
import Simulith.Net.Capacity

/-!
# Subscriptions

The handshake says nothing about a client's subscription, which the publisher
processes in its own time. `registered_hear_iff`: no registered client misses a
broadcast exactly when all subscriptions are processed before the first one, and
that of a client which starts over, with a new socket, again before the next.
`first_tick_lost` is the run of a client that is too late.
-/

namespace Simulith

open Lts

/-- In a broadcast, every client the server has registered is subscribed. -/
def Reaches {ι : Type*} (args : ι → ClientArgs) (σ : Net ι) : Act ι → Prop
  | .broadcast _ => ∀ c, (args c).id ∈ σ.server.ids → (σ.ends c).subscribed = true
  | _ => True

instance {ι : Type*} [Fintype ι] (args : ι → ClientArgs) (σ : Net ι) (a : Act ι) :
    Decidable (Reaches args σ a) :=
  match a with
  | .broadcast _ => inferInstanceAs (Decidable (∀ _, _ → _ = true))
  | .client _ _ => isTrue trivial
  | .request _ => isTrue trivial
  | .requestStale _ => isTrue trivial
  | .answer => isTrue trivial

theorem ClientEnd.subscribed_step {args : ClientArgs} {e e' : ClientEnd} {a : ClientAct}
    (hs : EndStep args e a e') :
    e'.subscribed = true ↔ (e.subscribed = true ∧ a ≠ .restart) ∨ a = .subscribe := by
  cases hs with
  | subscribe _ => simp
  | restart => simp
  | _ => simp

variable {ι : Type*} [DecidableEq ι] {args : ι → ClientArgs} {σ σ' : Net ι} {a : Act ι} {n : Nat}
  {acts : List (Act ι)}

theorem NetStep.subscribed (hs : NetStep args σ a σ') (c : ι) :
    (σ'.ends c).subscribed = true ↔
      ((σ.ends c).subscribed = true ∧ a ≠ .client c .restart) ∨ a = .client c .subscribe := by
  cases hs with
  | client c₀ b e he =>
    refine Net.forall_setEnd (σ := σ) (c := c₀) (e := e) (p := fun c e =>
      e.subscribed = true ↔ ((σ.ends c).subscribed = true ∧ Act.client c₀ b ≠ .client c .restart) ∨
        Act.client c₀ b = .client c .subscribe) ?_ (fun c' hc' => ?_) c
    · rw [ClientEnd.subscribed_step he]
      simp
    · simp [Ne.symm hc']
  | request c₀ m τ _ _ =>
    refine Net.forall_setEnd (σ := σ) (c := c₀) (e := { σ.ends c₀ with requester := .held })
      (p := fun c e => e.subscribed = true ↔
        ((σ.ends c).subscribed = true ∧ Act.request c₀ ≠ .client c .restart) ∨
          Act.request c₀ = .client c .subscribe) ?_ (fun c' _ => ?_) c
    · simp
    · simp
  | requestStale => simp
  | answer => simp [ClientEnd.answer]
  | broadcast => simp

/-! ## What has become of a subscription -/

/-- The acts by which client `c` gives up its sockets. -/
def Act.givesUp (c : ι) : Act ι → Option Unit
  | .client c' .restart => if c' = c then some () else none
  | _ => none

theorem Act.givesUp_eq_some {c : ι} {u : Unit} : a.givesUp c = some u ↔ a = .client c .restart := by
  cases a with
  | client c' b => cases b <;> simp [givesUp]
  | _ => simp [givesUp]

theorem Act.givesUp_eq_none {c : ι} : a.givesUp c = none ↔ a ≠ .client c .restart := by
  rw [← Option.not_isSome_iff_eq_none, Option.isSome_iff_exists]
  exact not_congr ⟨fun ⟨_, h⟩ => givesUp_eq_some.mp h, fun h => ⟨(), givesUp_eq_some.mpr h⟩⟩

/-- A subscription is in effect once it has been processed, until its socket is given up. -/
theorem subscribed_iff {s : Server}
    (he : exec (Net.step args) (Net.init ι s) acts = some σ) (c : ι) :
    (σ.ends c).subscribed = true ↔ .client c .subscribe ∈ since (Act.givesUp c) acts := by
  refine exec_trace (H := fun acts (σ : Net ι) => (σ.ends c).subscribed = true ↔
    .client c .subscribe ∈ since (Act.givesUp c) acts) ?_ (fun acts σ a σ' ih hs => ?_) he
  · exact iff_of_false nofun List.not_mem_nil
  · rw [NetStep.subscribed (.of_step hs) c, ih]
    by_cases ha : a = .client c .restart
    · rw [since_snoc_some (b := ()) (Act.givesUp_eq_some.mpr ha), ha]
      simp
    · rw [since_snoc_none (Act.givesUp_eq_none.mpr ha), List.mem_append, List.mem_singleton,
        and_iff_left ha]
      exact or_congr_right eq_comm

/-- Every client's subscription is processed before the first broadcast. -/
def SubscribedFirst (acts : List (Act ι)) : Prop :=
  ∀ pre heard post, acts = pre ++ .broadcast heard :: post → (∀ h, .broadcast h ∉ pre) →
    ∀ c, .client c .subscribe ∈ pre

/-- Between a client's new start and a broadcast its new subscription is processed. -/
def SubscribedAnew (acts : List (Act ι)) : Prop :=
  ∀ pre c mid heard post, acts = pre ++ .client c .restart :: (mid ++ .broadcast heard :: post) →
    .client c .restart ∉ mid → .client c .subscribe ∈ mid

omit [DecidableEq ι] in
theorem exists_first_broadcast (pre post : List (Act ι)) (heard : ι → Bool) :
    ∃ pre' heard' post', pre ++ .broadcast heard :: post = pre' ++ .broadcast heard' :: post' ∧
      pre' <+: pre ∧ ∀ h, .broadcast h ∉ pre' := by
  induction pre with
  | nil => exact ⟨[], heard, post, rfl, List.nil_prefix, fun _ => List.not_mem_nil⟩
  | cons a pre ih =>
    obtain ⟨pre', heard', post', e, hpre, hn⟩ := ih
    by_cases ha : ∃ h, a = .broadcast h
    · obtain ⟨h, rfl⟩ := ha
      exact ⟨[], h, _, rfl, List.nil_prefix, fun _ => List.not_mem_nil⟩
    · refine ⟨a :: pre', heard', post', congrArg (a :: ·) e, List.cons_prefix_cons.mpr ⟨rfl, hpre⟩,
        fun h hm => ?_⟩
      rcases List.mem_cons.mp hm with rfl | hm
      · exact ha ⟨h, rfl⟩
      · exact hn h hm

theorem subscribed_in_time_iff :
    (∀ pre heard post, acts = pre ++ .broadcast heard :: post →
      ∀ c, .client c .subscribe ∈ since (Act.givesUp c) pre) ↔
    SubscribedFirst acts ∧ SubscribedAnew acts := by
  constructor
  · intro h
    refine ⟨fun pre heard post e _ c => ?_, fun pre c mid heard post e hmid => ?_⟩
    · exact (List.rtakeWhile_suffix _ _).subset (h pre heard post e c)
    · have hsince : since (Act.givesUp c) (pre ++ .client c .restart :: mid) = mid :=
        since_append_cons (b := ()) (Act.givesUp_eq_some.mpr rfl) fun x hx =>
          Act.givesUp_eq_none.mpr (ne_of_mem_of_not_mem hx hmid)
      have hmem := h (pre ++ .client c .restart :: mid) heard post (by rw [e]; simp) c
      rwa [hsince] at hmem
  · rintro ⟨hfirst, hanew⟩ pre heard post e c
    rcases forall_none_or_exists_last (Act.givesUp c) pre with hall | ⟨pre', a, u, mid, rfl, ha, hmid⟩
    · obtain ⟨pre', heard', post', e', hpre, hn⟩ := exists_first_broadcast pre post heard
      rw [since_of_forall hall]
      exact hpre.subset (hfirst pre' heard' post' (e.trans e') hn c)
    · rw [since_append_cons ha hmid]
      obtain rfl := Act.givesUp_eq_some.mp ha
      refine hanew pre' c mid heard post (by rw [e]; simp) fun hm => ?_
      exact Act.givesUp_eq_none.mp (hmid _ hm) rfl

/-! ## Who is registered -/

/-- Before the first broadcast, or all clients are registered. -/
structure Recruited (args : ι → ClientArgs) (n : Nat) (σ : Net ι) : Prop where
  inv : ServerInv n σ.server
  phase : Recruiting args n σ ∨ ∀ c, (args c).id ∈ σ.server.ids

omit [DecidableEq ι] in
theorem Recruiting.registered [Fintype ι] (h : Recruiting args (Fintype.card ι) σ)
    (hpc : σ.server.pc = .broadcast) (c : ι) : (args c).id ∈ σ.server.ids := by
  have hcard : σ.server.ids.length = Fintype.card ι := by
    rw [h.inv.ready]
    exact h.inv.full (by rw [hpc]; trivial)
  refine (injective_of_nodup_card (f := fun c => (args c).id) h.inv.registered.nodup hcard
    fun x hx => ?_).2 c
  obtain ⟨c, hc, -⟩ := h.owner x hx
  exact ⟨c, hc⟩

theorem Recruited.step [Fintype ι] (h : Recruited args (Fintype.card ι) σ)
    (hs : NetStep args σ a σ') : Recruited args (Fintype.card ι) σ' := by
  refine ⟨hs.serverInv h.inv, ?_⟩
  have hall : (∀ c, (args c).id ∈ σ.server.ids) → ∀ c, (args c).id ∈ σ'.server.ids :=
    fun hall c => hs.ids_subset h.inv (hall c)
  rcases h.phase with hrec | hreg
  · by_cases hb : ∃ heard, a = .broadcast heard
    · obtain ⟨heard, rfl⟩ := hb
      cases hs with
      | broadcast _ τ hτ => exact .inr (hall (hrec.registered (pc_publish hτ).1))
    · exact .inl (hrec.step (fun heard e => hb ⟨heard, e⟩) hs)
  · exact .inr (hall hreg)

/-- When the server broadcasts, every client is registered, whoever has started over. -/
theorem registered_of_broadcast [Fintype ι] {iv : UInt64} {s : Server}
    (hs : ServerReady (Fintype.card ι) iv s)
    (he : exec (Net.step args) (Net.init ι s) acts = some σ) {heard : ι → Bool}
    (hb : NetStep args σ (.broadcast heard) σ') (c : ι) : (args c).id ∈ σ.server.ids := by
  have hcard : s.expectedClients = Fintype.card ι := Int.ofNat.inj hs.spec.1.2.2.symm
  have hrec : Recruited args (Fintype.card ι) σ :=
    exec_preserves (fun _ _ _ h hs => h.step (.of_step hs))
      ⟨hcard ▸ serverInv_init hs, .inl (hcard ▸ recruiting_init hs)⟩ he
  rcases hrec.phase with h | h
  · cases hb with
    | broadcast _ τ hτ => exact h.registered (pc_publish hτ).1 c
  · exact h c

/-- **A registered client misses no broadcast** exactly when every client's
subscription has been processed before the first one, and that of a client
which starts over once more before the next. -/
theorem registered_hear_iff [Fintype ι] {iv : UInt64} {s : Server}
    (hs : ServerReady (Fintype.card ι) iv s)
    (he : exec (Net.step args) (Net.init ι s) acts = some σ) :
    Along (Net.step args) (Reaches args) (Net.init ι s) acts ↔
      SubscribedFirst acts ∧ SubscribedAnew acts := by
  rw [← subscribed_in_time_iff, along_iff]
  constructor
  · rintro h pre heard post rfl c
    obtain ⟨τ, hτ, hpost⟩ := exec_append_eq_some.mp he
    obtain ⟨τ', hτ', -⟩ := exec_cons_eq_some.mp hpost
    -- whoever the server is about to broadcast to is registered
    have hmem := registered_of_broadcast hs hτ (.of_step hτ') c
    exact (subscribed_iff hτ c).mp (h pre _ post τ rfl hτ c hmem)
  · rintro h pre a post τ rfl hτ
    cases a with
    | broadcast heard => exact fun c _ => (subscribed_iff hτ c).mpr (h pre heard post rfl c)
    | _ => trivial

/-- Two clients, one subscribed before its handshake; the other, which has been subscribed but
has given up its sockets, is subscribed again after it. -/
theorem registered_hear_iff_two_clients :
    let args := ![ClientArgs.named [97] (by decide) (by decide),
      ClientArgs.named [98] (by decide) (by decide)]
    let acts : List (Act (Fin 2)) :=
      [.client 0 (.init .ok), .client 0 .subscribe, .client 0 .sendFail, .client 0 .restart] ++
      .client 1 (.init .ok) :: .client 1 .subscribe :: join 0 ++
      [.client 1 .send, .request 1, .answer, .client 0 .subscribe, .broadcast fun _ => true]
    ∃ σ, exec (Net.step args) (Net.init (Fin 2) (.fresh 2 10)) acts = some σ ∧
      SubscribedFirst acts ∧ SubscribedAnew acts :=
  have ⟨σ, h⟩ := Option.isSome_iff_exists.mp (by decide)
  ⟨σ, h, (registered_hear_iff (serverReady_fresh (by decide) (by decide) (by decide)) h).mp
    (by decide)⟩

/-- A client completes its handshake and the server broadcasts before the
publisher has processed the subscription: the broadcast, though the network
drops nothing, does not reach the client, and the server waits for its ack. -/
theorem first_tick_lost :
    let args : Fin 1 → ClientArgs := fun _ => .named [97] (by decide) (by decide)
    let acts := join 0 ++ [.broadcast fun _ => true, .client 0 .subscribe]
    ¬ Along (Net.step args) (Reaches args) (Net.init (Fin 1) (.fresh 1 10)) acts ∧
    ∃ σ, exec (Net.step args) (Net.init (Fin 1) (.fresh 1 10)) acts = some σ ∧
      σ.broadcasts = [0] ∧ (σ.ends 0).run.pc = .tick ∧ (σ.ends 0).feed = [] ∧
      σ.server.pc = .tickRecv :=
  ⟨by decide, exists_exec_of_any (by decide)⟩

end Simulith
