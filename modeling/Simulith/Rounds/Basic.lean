import Mathlib.Data.Fintype.Defs
import Mathlib.Logic.Function.Basic
import Simulith.Lts.Basic

/-!
# Rounds

A coordinator announces values, and each participant takes every announcement,
in order. The next one is made only when all have taken those before it:
bulk-synchronous rounds. Participants are a finite type, announcements any.
-/

/-- The announcements made and how many of them each participant has taken. -/
structure Rounds (ι κ : Type*) where
  announced : List κ
  seen : ι → Nat

namespace Rounds

variable {ι κ : Type*}

inductive Event (ι κ : Type*) where
  | announce (t : κ)
  | take (i : ι) (t : κ)

def init (ι κ : Type*) : Rounds ι κ := ⟨[], fun _ => 0⟩

def Event.announced : Event ι κ → Option κ
  | .announce t => some t
  | .take _ _ => none

/-- The values announced in a trace. -/
def announcements (es : List (Event ι κ)) : List κ := es.filterMap Event.announced

theorem announcements_snoc (es : List (Event ι κ)) (e : Event ι κ) :
    announcements (es ++ [e]) = announcements es ++ e.announced.toList := by
  rw [announcements, List.filterMap_append]
  cases e <;> rfl

variable [DecidableEq ι]

def Event.takenBy (i : ι) : Event ι κ → Option κ
  | .announce _ => none
  | .take j t => if j = i then some t else none

/-- The values participant `i` takes in a trace. -/
def taken (i : ι) (es : List (Event ι κ)) : List κ := es.filterMap (Event.takenBy i)

theorem taken_snoc (i : ι) (es : List (Event ι κ)) (e : Event ι κ) :
    taken i (es ++ [e]) = taken i es ++ (e.takenBy i).toList := by
  rw [taken, List.filterMap_append, List.filterMap_cons, List.filterMap_nil]
  cases e.takenBy i <;> rfl

def step [Fintype ι] [DecidableEq κ] (r : Rounds ι κ) : Event ι κ → Option (Rounds ι κ)
  | .announce t =>
    if ∀ i, r.seen i = r.announced.length then some { r with announced := r.announced ++ [t] }
    else none
  | .take i t =>
    if r.announced[r.seen i]? = some t then
      some { r with seen := Function.update r.seen i (r.seen i + 1) }
    else none

/-- The state after a trace. -/
structure History (es : List (Event ι κ)) (r : Rounds ι κ) : Prop where
  announced : r.announced = announcements es
  taken : ∀ i, taken i es = r.announced.take (r.seen i)
  le : ∀ i, r.seen i ≤ r.announced.length

theorem History.announce {es : List (Event ι κ)} {r : Rounds ι κ} (h : History es r) (t : κ) :
    History (es ++ [.announce t]) { r with announced := r.announced ++ [t] } where
  announced := by
    rw [announcements_snoc, ← h.announced]
    rfl
  taken i := by
    rw [taken_snoc, List.take_append_of_le_length (h.le i), ← h.taken i]
    exact List.append_nil _
  le i := (h.le i).trans (by simp)

theorem History.take {es : List (Event ι κ)} {r : Rounds ι κ} (h : History es r) {i : ι} {t : κ}
    (ht : r.announced[r.seen i]? = some t) :
    History (es ++ [.take i t]) { r with seen := Function.update r.seen i (r.seen i + 1) } where
  announced := by
    rw [announcements_snoc]
    exact h.announced.trans (List.append_nil _).symm
  taken j := by
    rw [taken_snoc, h.taken j]
    by_cases hj : i = j
    · subst hj
      simp only [Event.takenBy, if_true, Function.update_self, List.take_add_one, ht]
    · simp only [Event.takenBy, if_neg hj, Function.update_of_ne (Ne.symm hj), Option.toList_none,
        List.append_nil]
  le j := by
    by_cases hj : i = j
    · subst hj
      simp only [Function.update_self]
      exact (List.getElem?_eq_some_iff.mp ht).1
    · simp only [Function.update_of_ne (Ne.symm hj)]
      exact h.le j

variable [Fintype ι] [DecidableEq κ]

theorem History.step {es : List (Event ι κ)} {r r' : Rounds ι κ} {e : Event ι κ}
    (h : History es r) (hs : r.step e = some r') : History (es ++ [e]) r' := by
  cases e with
  | announce t =>
    simp only [Rounds.step] at hs
    split at hs
    · cases hs
      exact h.announce t
    · cases hs
  | take i t =>
    simp only [Rounds.step] at hs
    split at hs
    · next ht =>
      cases hs
      exact h.take ht
    · cases hs

theorem history_exec {es : List (Event ι κ)} {r : Rounds ι κ}
    (h : Lts.exec step (init ι κ) es = some r) : History es r := by
  refine Lts.exec_trace (H := History) ⟨rfl, fun i => ?_, fun i => Nat.le_refl _⟩
    (fun _ _ _ _ ih hs => ih.step hs) h
  simp [Rounds.taken, init]

/-- **When the next value is announced everyone has taken all there were.** -/
theorem taken_of_announce {pre post : List (Event ι κ)} {t : κ} {r : Rounds ι κ}
    (h : Lts.exec step (init ι κ) (pre ++ .announce t :: post) = some r) (i : ι) :
    taken i pre = announcements pre := by
  obtain ⟨s, hs, hpost⟩ := Lts.exec_append_eq_some.mp h
  obtain ⟨s', hs', -⟩ := Lts.exec_cons_eq_some.mp hpost
  have hhist := history_exec hs
  have hall : ∀ i, s.seen i = s.announced.length := by
    unfold step at hs'
    by_contra hn
    simp [hn] at hs'
  rw [hhist.taken i, hall i, List.take_length, hhist.announced]

end Rounds
