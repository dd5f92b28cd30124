import Mathlib.Logic.Function.Basic
import Simulith.Client.End

/-!
# One server and its clients

`Net ι` is a server and the clients `ι` with the messages under way between
them, `Net.step` what any one of them or the network does next, in any order.
Of ZeroMQ it assumes that the server's reply goes to the client whose request
it holds, and that a subscriber is sent the broadcasts made after the publisher
has processed its subscription, those of them that are not dropped, in order.
A request on a requester closed since (`stale`) may still be received; the
reply to it reaches nobody.
-/

namespace Simulith

structure Net (ι : Type*) where
  server : ServerRun
  ends : ι → ClientEnd
  /-- requests under way on requesters closed since -/
  stale : List Msg
  /-- the times broadcast so far, oldest first -/
  broadcasts : List UInt64

inductive Act (ι : Type*) where
  | client (c : ι) (a : ClientAct)
  /-- the server receives the client's request -/
  | request (c : ι)
  | requestStale (k : Nat)
  | answer
  /-- the server broadcasts; the network drops it for the clients outside `heard` -/
  | broadcast (heard : ι → Bool)

/-- A client's initialisation and its whole handshake. -/
def join {ι : Type*} (c : ι) : List (Act ι) :=
  [.client c (.init .ok), .client c .send, .request c, .answer, .client c .reply]

/-- The reply the server is about to send. -/
def ServerRun.toSend (σ : ServerRun) : Option Msg :=
  match σ.pc with
  | .handshakeSend r => some r.bytes
  | .tickSend => some Reply.ack.bytes
  | _ => none

namespace Net

variable {ι : Type*}

/-- The server called in state `s`, no client begun. -/
def init (ι : Type*) (s : Server) : Net ι := ⟨simulithServerRun s, fun _ => .zero, [], []⟩

variable [DecidableEq ι]

/-- Client `c` replaced. -/
def setEnd (σ : Net ι) (c : ι) (e : ClientEnd) : Net ι :=
  { σ with ends := Function.update σ.ends c e }

def step (args : ι → ClientArgs) (σ : Net ι) : Act ι → Option (Net ι)
  | .client c a =>
    ((σ.ends c).step (args c) a).map fun e =>
      { σ.setEnd c e with stale := σ.stale ++ (σ.ends c).leaves a }
  | .request c =>
    match (σ.ends c).requester with
    | .sent m =>
      (σ.server.step (.recv m)).map fun τ =>
        { σ.setEnd c { σ.ends c with requester := .held } with server := τ }
    | _ => none
  | .requestStale k =>
    match σ.stale[k]? with
    | some m =>
      (σ.server.step (.recv m)).map fun τ =>
        { σ with server := τ, stale := σ.stale.eraseIdx k }
    | none => none
  | .answer =>
    match σ.server.toSend with
    | some m =>
      (σ.server.step (.send m)).map fun τ =>
        { σ with server := τ, ends := fun c => (σ.ends c).answer m }
    | none => none
  | .broadcast heard =>
    let t := σ.server.server.currentTimeNs
    (σ.server.step (.publish t)).map fun τ =>
      { σ with
        server := τ
        ends := fun c => (σ.ends c).deliver (heard c) t
        broadcasts := σ.broadcasts ++ [t] }

end Net

variable {ι : Type*} [DecidableEq ι] {args : ι → ClientArgs} {σ σ' : Net ι} {a : Act ι}

/-- The steps of `Net.step`, one constructor for each. -/
inductive NetStep (args : ι → ClientArgs) (σ : Net ι) : Act ι → Net ι → Prop where
  | client (c : ι) (a : ClientAct) (e : ClientEnd) : EndStep (args c) (σ.ends c) a e →
      NetStep args σ (.client c a)
        { σ.setEnd c e with stale := σ.stale ++ (σ.ends c).leaves a }
  | request (c : ι) (m : Msg) (τ : ServerRun) : (σ.ends c).requester = .sent m →
      σ.server.step (.recv m) = some τ →
      NetStep args σ (.request c)
        { σ.setEnd c { σ.ends c with requester := .held } with server := τ }
  | requestStale (k : Nat) (m : Msg) (τ : ServerRun) : σ.stale[k]? = some m →
      σ.server.step (.recv m) = some τ →
      NetStep args σ (.requestStale k) { σ with server := τ, stale := σ.stale.eraseIdx k }
  | answer (m : Msg) (τ : ServerRun) : σ.server.toSend = some m →
      σ.server.step (.send m) = some τ →
      NetStep args σ .answer { σ with server := τ, ends := fun c => (σ.ends c).answer m }
  | broadcast (heard : ι → Bool) (τ : ServerRun) :
      σ.server.step (.publish σ.server.server.currentTimeNs) = some τ →
      NetStep args σ (.broadcast heard) { σ with
        server := τ
        ends := fun c => (σ.ends c).deliver (heard c) σ.server.server.currentTimeNs
        broadcasts := σ.broadcasts ++ [σ.server.server.currentTimeNs] }

theorem NetStep.of_step (h : σ.step args a = some σ') : NetStep args σ a σ' := by
  cases a with
  | client c a =>
    obtain ⟨e, he, rfl⟩ := Option.map_eq_some_iff.mp h
    exact .client c a e (.of_step he)
  | request c =>
    simp only [Net.step] at h
    split at h
    · next m hm =>
      obtain ⟨τ, hτ, rfl⟩ := Option.map_eq_some_iff.mp h
      exact .request c m τ hm hτ
    · cases h
  | requestStale k =>
    simp only [Net.step] at h
    split at h
    · next m hm =>
      obtain ⟨τ, hτ, rfl⟩ := Option.map_eq_some_iff.mp h
      exact .requestStale k m τ hm hτ
    · cases h
  | answer =>
    simp only [Net.step] at h
    split at h
    · next m hm =>
      obtain ⟨τ, hτ, rfl⟩ := Option.map_eq_some_iff.mp h
      exact .answer m τ hm hτ
    · cases h
  | broadcast heard =>
    obtain ⟨τ, hτ, rfl⟩ := Option.map_eq_some_iff.mp h
    exact .broadcast heard τ hτ

end Simulith
