import Mathlib.Data.List.Basic
import Mathlib.Data.Set.Basic

/-!
# Cyclic barriers

A barrier waits for its `members`. Each arrival has a name; the barrier is
complete when every member's name is among the arrivals since it was last
reset. Names that are not members, repetitions and the order of arrival do
not matter (`complete_congr`).
-/

/-- A cyclic barrier over names `κ`. -/
structure Barrier (κ : Type*) where
  members : List κ
  /-- the arrivals since the last reset -/
  since : List κ

namespace Barrier

variable {κ : Type*}

/-- Every member has arrived. -/
def Complete (b : Barrier κ) : Prop := ∀ k ∈ b.members, k ∈ b.since

instance [DecidableEq κ] (b : Barrier κ) : Decidable b.Complete :=
  inferInstanceAs (Decidable (∀ k ∈ b.members, k ∈ b.since))

def arrive (b : Barrier κ) (k : κ) : Barrier κ := { b with since := b.since ++ [k] }

def reset (b : Barrier κ) : Barrier κ := { b with since := [] }

@[simp] theorem mem_since_arrive {b : Barrier κ} {k x : κ} :
    x ∈ (b.arrive k).since ↔ x ∈ b.since ∨ x = k := by
  simp [arrive]

theorem complete_congr {P : κ → Prop} {b : Barrier κ} (h : ∀ k ∈ b.members, P k ↔ k ∈ b.since) :
    b.Complete ↔ ∀ k ∈ b.members, P k :=
  forall₂_congr fun k hk => (h k hk).symm

theorem not_complete_reset {b : Barrier κ} (h : b.members ≠ []) : ¬ b.reset.Complete := by
  obtain ⟨k, hk⟩ := List.exists_mem_of_ne_nil _ h
  exact fun hc => List.not_mem_nil (hc k hk)

end Barrier
