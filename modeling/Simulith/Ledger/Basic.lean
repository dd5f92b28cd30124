import Mathlib.Data.List.Nodup
import Mathlib.Logic.Function.Basic

/-!
# Resources and their holders

A ledger lists the resources created and those released; `held` is what a
family of variables holds of them. In `Holds` no variable dangles and no two
share a resource; in `Covers` every live resource is held. Acquiring into a
variable keeps `Covers` when the variable was empty, and loses a resource for
good when it was not (`Lost`). Once nothing is held, a covered ledger is
`Settled`: everything created has been released once.
-/

structure Ledger (H : Type*) where
  created : List H
  released : List H

namespace Ledger

variable {H ι : Type*}

def create (l : Ledger H) (h : H) : Ledger H := { l with created := l.created ++ [h] }

def release (l : Ledger H) (h : H) : Ledger H := { l with released := l.released ++ [h] }

structure Holds (l : Ledger H) (held : ι → Option H) : Prop where
  released_nodup : l.released.Nodup
  released_created : ∀ h ∈ l.released, h ∈ l.created
  live : ∀ i h, held i = some h → h ∈ l.created ∧ h ∉ l.released
  unique : ∀ i j h, held i = some h → held j = some h → i = j

/-- Every resource created and not released is held. -/
def Covers (l : Ledger H) (held : ι → Option H) : Prop :=
  ∀ h ∈ l.created, h ∉ l.released → ∃ i, held i = some h

/-- `h` is live, but nothing holds it. -/
def Lost (l : Ledger H) (held : ι → Option H) (h : H) : Prop :=
  h ∈ l.created ∧ h ∉ l.released ∧ ∀ i, held i ≠ some h

/-- Everything created has been released exactly once. -/
def Settled [BEq H] (l : Ledger H) : Prop := ∀ h ∈ l.created, l.released.count h = 1

theorem Lost.not_covers {l : Ledger H} {held : ι → Option H} {h : H} (hl : l.Lost held h) :
    ¬ l.Covers held := fun hc =>
  have ⟨i, hi⟩ := hc h hl.1 hl.2.1
  hl.2.2 i hi

theorem Covers.settled [DecidableEq H] {l : Ledger H} {held : ι → Option H} (hc : l.Covers held)
    (hh : l.Holds held) (hnone : ∀ i, held i = none) : l.Settled := by
  intro h hm
  by_contra hne
  have hfree : h ∉ l.released := fun hr => hne (List.count_eq_one_of_mem hh.released_nodup hr)
  obtain ⟨i, hi⟩ := hc h hm hfree
  rw [hnone i] at hi
  cases hi

variable [DecidableEq ι] {l : Ledger H} {held : ι → Option H} {h : H} {i : ι}

/-! ## Emptying a variable -/

theorem Holds.clear (hh : l.Holds held) (i : ι) : l.Holds (Function.update held i none) where
  released_nodup := hh.released_nodup
  released_created := hh.released_created
  live j x hx := by
    by_cases hj : j = i
    · rw [hj, Function.update_self] at hx
      cases hx
    · rw [Function.update_of_ne hj] at hx
      exact hh.live j x hx
  unique j k x hx hy := by
    by_cases hj : j = i
    · rw [hj, Function.update_self] at hx
      cases hx
    · by_cases hk : k = i
      · rw [hk, Function.update_self] at hy
        cases hy
      · rw [Function.update_of_ne hj] at hx
        rw [Function.update_of_ne hk] at hy
        exact hh.unique j k x hx hy

theorem Covers.clear (hc : l.Covers held) (hi : held i = none) :
    l.Covers (Function.update held i none) := by
  rwa [← hi, Function.update_eq_self]

theorem Lost.clear (hl : l.Lost held h) (i : ι) : l.Lost (Function.update held i none) h := by
  refine ⟨hl.1, hl.2.1, fun j hj => ?_⟩
  by_cases he : j = i
  · rw [he, Function.update_self] at hj
    cases hj
  · rw [Function.update_of_ne he] at hj
    exact hl.2.2 j hj

theorem Holds.lost_clear (hh : l.Holds held) (hi : held i = some h) :
    l.Lost (Function.update held i none) h := by
  refine ⟨(hh.live i h hi).1, (hh.live i h hi).2, fun j hj => ?_⟩
  by_cases he : j = i
  · rw [he, Function.update_self] at hj
    cases hj
  · rw [Function.update_of_ne he] at hj
    exact he (hh.unique j i h hj hi)

/-! ## Acquiring into a variable -/

theorem Holds.acquire (hh : l.Holds held) (hn : h ∉ l.created) (i : ι) :
    (l.create h).Holds (Function.update held i (some h)) where
  released_nodup := hh.released_nodup
  released_created x hx := List.mem_append_left _ (hh.released_created x hx)
  live j x hx := by
    by_cases hj : j = i
    · rw [hj, Function.update_self] at hx
      cases hx
      exact ⟨by simp [create], fun hr => hn (hh.released_created h hr)⟩
    · rw [Function.update_of_ne hj] at hx
      exact ⟨List.mem_append_left _ (hh.live j x hx).1, (hh.live j x hx).2⟩
  unique j k x hx hy := by
    by_cases hj : j = i <;> by_cases hk : k = i
    · rw [hj, hk]
    · rw [hj, Function.update_self] at hx
      rw [Function.update_of_ne hk] at hy
      cases hx
      exact absurd (hh.live k h hy).1 hn
    · rw [Function.update_of_ne hj] at hx
      rw [hk, Function.update_self] at hy
      cases hy
      exact absurd (hh.live j h hx).1 hn
    · rw [Function.update_of_ne hj] at hx
      rw [Function.update_of_ne hk] at hy
      exact hh.unique j k x hx hy

theorem Covers.acquire (hc : l.Covers held) (hi : held i = none) (h : H) :
    (l.create h).Covers (Function.update held i (some h)) := by
  intro x hx hr
  rcases List.mem_append.mp hx with hx | hx
  · obtain ⟨j, hj⟩ := hc x hx hr
    have hne : j ≠ i := by
      rintro rfl
      rw [hi] at hj
      cases hj
    exact ⟨j, by rw [Function.update_of_ne hne, hj]⟩
  · rw [List.mem_singleton.mp hx]
    exact ⟨i, Function.update_self ..⟩

theorem Lost.acquire {x : H} (hl : l.Lost held h) (hx : x ∉ l.created) (i : ι) :
    (l.create x).Lost (Function.update held i (some x)) h := by
  refine ⟨List.mem_append_left _ hl.1, hl.2.1, fun j hj => ?_⟩
  by_cases he : j = i
  · rw [he, Function.update_self] at hj
    cases hj
    exact hx hl.1
  · rw [Function.update_of_ne he] at hj
    exact hl.2.2 j hj

theorem Holds.lost_acquire {x : H} (hh : l.Holds held) (hx : x ∉ l.created)
    (hi : held i = some h) : (l.create x).Lost (Function.update held i (some x)) h := by
  have hl := (hh.lost_clear hi).acquire hx i
  rwa [Function.update_idem] at hl

/-! ## Releasing what a variable holds -/

theorem Holds.release (hh : l.Holds held) (hi : held i = some h) :
    (l.release h).Holds (Function.update held i none) := by
  have hc := hh.clear i
  refine ⟨?_, fun x hx => ?_, fun j x hx => ?_, hc.unique⟩
  · exact List.nodup_append.mpr ⟨hh.released_nodup, List.nodup_singleton h, fun x hx y hy hxy =>
      (hh.live i h hi).2 (by rw [← List.mem_singleton.mp hy, ← hxy]; exact hx)⟩
  · rcases List.mem_append.mp hx with hx | hx
    · exact hh.released_created x hx
    · rw [List.mem_singleton.mp hx]
      exact (hh.live i h hi).1
  · refine ⟨(hc.live j x hx).1, fun hr => ?_⟩
    rcases List.mem_append.mp hr with hr | hr
    · exact (hc.live j x hx).2 hr
    · rw [List.mem_singleton.mp hr] at hx
      exact (hh.lost_clear hi).2.2 j hx

theorem Covers.release (hc : l.Covers held) (hi : held i = some h) :
    (l.release h).Covers (Function.update held i none) := by
  intro x hx hr
  obtain ⟨j, hj⟩ := hc x hx fun hr' => hr (List.mem_append_left _ hr')
  have hne : j ≠ i := by
    rintro rfl
    rw [hi] at hj
    cases hj
    exact hr (by simp [Ledger.release])
  exact ⟨j, by rw [Function.update_of_ne hne, hj]⟩

end Ledger
