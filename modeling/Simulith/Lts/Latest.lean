import Mathlib.Data.List.DropRight
import Mathlib.Tactic.Cases

/-!
# The latest value in a history

`latest f as` is the last value that `f` reads off the labels of a history,
`since f as` the labels that have come after it. One more label either gives a
new latest value, and nothing has come since, or leaves the value and is one
more label since (`latest_snoc_some`, `latest_snoc_none` and their likes).
-/

namespace Lts

variable {α β : Type*}

def latest (f : α → Option β) (as : List α) : Option β := (as.filterMap f).getLast?

def since (f : α → Option β) (as : List α) : List α := as.rtakeWhile fun a => (f a).isNone

variable {f : α → Option β} {as : List α} {a : α} {b : β}

@[simp] theorem latest_nil : latest f [] = none := rfl

theorem latest_snoc_some (h : f a = some b) : latest f (as ++ [a]) = some b := by
  simp [latest, h]

theorem latest_snoc_none (h : f a = none) : latest f (as ++ [a]) = latest f as := by
  simp [latest, h]

theorem since_snoc_some (h : f a = some b) : since f (as ++ [a]) = [] :=
  List.rtakeWhile_concat_neg _ _ _ (by simp [h])

theorem since_snoc_none (h : f a = none) : since f (as ++ [a]) = since f as ++ [a] :=
  List.rtakeWhile_concat_pos _ _ _ (by simp [h])

theorem since_of_forall (h : ∀ a ∈ as, f a = none) : since f as = as :=
  List.rtakeWhile_eq_self_iff.mpr fun a ha => by simp [h a ha]

theorem since_append_cons {pre post : List α} (h : f a = some b) (hpost : ∀ x ∈ post, f x = none) :
    since f (pre ++ a :: post) = post := by
  induction post using List.reverseRecOn with
  | nil => exact since_snoc_some h
  | append_singleton post x ih =>
    obtain ⟨hpost, hx⟩ := List.forall_mem_append.mp hpost
    rw [← List.cons_append, ← List.append_assoc, since_snoc_none (hx x (List.mem_singleton_self x)),
      ih hpost]

theorem forall_none_or_exists_last (f : α → Option β) (as : List α) :
    (∀ a ∈ as, f a = none) ∨ ∃ pre a b post, as = pre ++ a :: post ∧ f a = some b ∧
      ∀ x ∈ post, f x = none := by
  induction as using List.reverseRecOn with
  | nil => exact .inl (by simp)
  | append_singleton as a ih =>
    cases h : f a with
    | some b => exact .inr ⟨as, a, b, [], rfl, h, by simp⟩
    | none =>
      rcases ih with hall | ⟨pre, c, b, post, rfl, hc, hpost⟩
      · exact .inl (List.forall_mem_append.mpr ⟨hall, by simpa using h⟩)
      · refine .inr ⟨pre, c, b, post ++ [a], by simp, hc, ?_⟩
        exact List.forall_mem_append.mpr ⟨hpost, by simpa using h⟩

end Lts
