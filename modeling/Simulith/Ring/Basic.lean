import Mathlib.Algebra.GroupWithZero.Nat
import Mathlib.Data.List.Basic
import Mathlib.Logic.Function.Basic
import Mathlib.Tactic.SplitIfs

/-!
# Circular buffers

A buffer of `n` slots is written at `head` and read at `tail`; both positions
move on by one modulo `n`. It is empty when they meet, and full when `head`
would run into `tail`, so one slot stays free. `contents` reads the buffer as
the queue it holds, oldest entry first: `contents_push` and `contents_pop` say
that writing appends to that queue and reading takes its first entry.
-/

namespace Ring

variable {α : Type*} {n : Nat}

/-- The slot at index `i`; `none` outside the array. -/
def load (slots : Fin n → α) (i : Nat) : Option α :=
  if h : i < n then some (slots ⟨i, h⟩) else none

/-- The array with `a` stored at index `i`; `none` outside the array. -/
def store (slots : Fin n → α) (i : Nat) (a : α) : Option (Fin n → α) :=
  if h : i < n then some (Function.update slots ⟨i, h⟩ a) else none

/-- How many entries lie from `tail` up to `head`. -/
def count (n head tail : Nat) : Nat := if tail ≤ head then head - tail else head + n - tail

variable {head tail i : Nat}

theorem load_of_lt {slots : Fin n → α} (h : i < n) : load slots i = some (slots ⟨i, h⟩) :=
  dif_pos h

theorem store_of_lt {slots : Fin n → α} {a : α} (h : i < n) :
    store slots i a = some (Function.update slots ⟨i, h⟩ a) :=
  dif_pos h

theorem count_lt (hh : head < n) (ht : tail < n) : count n head tail < n := by
  unfold count
  split_ifs <;> omega

theorem count_eq_zero_iff (ht : tail < n) :
    count n head tail = 0 ↔ head = tail := by
  unfold count
  split_ifs <;> omega

theorem succ_mod (h : i < n) : (i + 1) % n = if i + 1 = n then 0 else i + 1 := by
  split_ifs with hn
  · rw [hn, Nat.mod_self]
  · exact Nat.mod_eq_of_lt (by omega)

theorem succ_mod_lt (h : i < n) : (i + 1) % n < n := Nat.mod_lt _ (by omega)

theorem mod_of_lt_two_mul (h : i < 2 * n) : i % n = if i < n then i else i - n := by
  split_ifs with hn
  · exact Nat.mod_eq_of_lt hn
  · rw [Nat.mod_eq_sub_mod (by omega), Nat.mod_eq_of_lt (by omega)]

theorem full_iff (hh : head < n) (ht : tail < n) :
    (head + 1) % n = tail ↔ count n head tail = n - 1 := by
  rw [succ_mod hh]
  unfold count
  split_ifs <;> omega

theorem count_push (hh : head < n) (ht : tail < n) (hroom : (head + 1) % n ≠ tail) :
    count n ((head + 1) % n) tail = count n head tail + 1 := by
  rw [succ_mod hh] at hroom ⊢
  unfold count
  split_ifs at * <;> omega

theorem count_pop (hh : head < n) (ht : tail < n) (hne : head ≠ tail) :
    count n head tail = count n head ((tail + 1) % n) + 1 := by
  rw [succ_mod ht]
  unfold count
  split_ifs at * <;> omega

variable [NeZero n]

/-- The entries from `tail` up to `head`, oldest first. -/
def contents (slots : Fin n → α) (head tail : Nat) : List α :=
  (List.range (count n head tail)).map fun i => slots (Fin.ofNat n (tail + i))

variable {slots : Fin n → α} {a : α}

theorem length_contents : (contents slots head tail).length = count n head tail := by
  simp [contents]

theorem contents_eq_nil_iff (ht : tail < n) :
    contents slots head tail = [] ↔ head = tail := by
  rw [← List.length_eq_zero_iff, length_contents, count_eq_zero_iff ht]

theorem contents_push (hh : head < n) (ht : tail < n) (hroom : (head + 1) % n ≠ tail) :
    contents (Function.update slots ⟨head, hh⟩ a) ((head + 1) % n) tail =
      contents slots head tail ++ [a] := by
  have hlt : count n ((head + 1) % n) tail < n := count_lt (succ_mod_lt hh) ht
  unfold contents
  rw [count_push hh ht hroom] at hlt ⊢
  rw [List.range_succ, List.map_append]
  congr 1
  · refine List.map_congr_left fun i hi => Function.update_of_ne (fun he => ?_) _ _
    have hi : i < count n head tail := List.mem_range.mp hi
    have he : (tail + i) % n = head := congrArg Fin.val he
    rw [mod_of_lt_two_mul (by omega)] at he
    unfold count at hi
    split_ifs at he hi <;> omega
  · have hlast : Fin.ofNat n (tail + count n head tail) = ⟨head, hh⟩ := by
      refine Fin.ext ?_
      change (tail + count n head tail) % n = head
      rw [mod_of_lt_two_mul (by omega)]
      unfold count
      split_ifs <;> omega
    rw [List.map_singleton, hlast, Function.update_self]

theorem contents_pop (hh : head < n) (ht : tail < n) (hne : head ≠ tail) :
    contents slots head tail = slots ⟨tail, ht⟩ :: contents slots head ((tail + 1) % n) := by
  unfold contents
  rw [count_pop hh ht hne, List.range_succ_eq_map, List.map_cons, List.map_map]
  congr 1
  · exact congrArg slots (Fin.ext (Nat.mod_eq_of_lt ht))
  · refine List.map_congr_left fun i _ => congrArg slots (Fin.ext ?_)
    change (tail + (i + 1)) % n = ((tail + 1) % n + i) % n
    rw [Nat.mod_add_mod]
    congr 1
    omega

theorem contents_drop {k : Nat} (hh : head < n) (ht : tail < n) (hk : k ≤ count n head tail) :
    contents slots head ((tail + k) % n) = (contents slots head tail).drop k := by
  induction k with
  | zero => rw [Nat.add_zero, Nat.mod_eq_of_lt ht, List.drop_zero]
  | succ k ih =>
    have hd := ih (by omega)
    have ht' : (tail + k) % n < n := Nat.mod_lt _ (by omega)
    have hne : head ≠ (tail + k) % n := by
      intro he
      rw [(contents_eq_nil_iff ht').mpr he, eq_comm, List.drop_eq_nil_iff, length_contents] at hd
      omega
    rw [contents_pop hh ht' hne, Nat.mod_add_mod] at hd
    rw [← List.tail_drop, ← hd, List.tail_cons, Nat.add_assoc]

end Ring
