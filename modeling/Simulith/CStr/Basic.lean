import Mathlib.Data.List.TakeWhile
import Mathlib.Tactic.Cases
import Mathlib.Tactic.NthRewrite

/-!
# C strings in fixed-size buffers

A block of memory is its list of bytes. `str b` is the C string it starts
with: the bytes before the first NUL (the end of the block counts as one).
`CharBuf n` is a `char` array of `n` bytes; its operations keep the length, so
a write can change its contents but never its extent. The comparison, search
and copy functions are those of `string.h`, each with the lemma that reads
its result off `str`.
-/

namespace CStr

/-- The C string at the start of a block. -/
def str (b : List UInt8) : List UInt8 := b.takeWhile (· != 0)

@[simp] theorem str_nil : str [] = [] := rfl

theorem str_cons (x : UInt8) (b : List UInt8) :
    str (x :: b) = if x = 0 then [] else x :: str b := by
  by_cases h : x = 0 <;> simp [str, h]

@[simp] theorem str_zero_cons (b : List UInt8) : str (0 :: b) = [] := by simp [str_cons]

theorem zero_notMem_str (b : List UInt8) : 0 ∉ str b := by
  intro h
  simpa using List.mem_takeWhile_imp h

theorem str_eq_self {b : List UInt8} (h : 0 ∉ b) : str b = b := by
  rw [str, List.takeWhile_eq_self_iff]
  intro x hx
  simp only [bne_iff_ne, ne_eq]
  rintro rfl
  exact h hx

@[simp] theorem str_str (b : List UInt8) : str (str b) = str b :=
  str_eq_self (zero_notMem_str b)

theorem str_prefix_self (b : List UInt8) : str b <+: b := List.takeWhile_prefix _

theorem length_str_le (b : List UInt8) : (str b).length ≤ b.length := (str_prefix_self b).length_le

theorem str_append_of_notMem {a : List UInt8} (h : 0 ∉ a) (b : List UInt8) :
    str (a ++ b) = a ++ str b := by
  rw [str, List.takeWhile_append_of_pos]
  · rfl
  · intro x hx
    simp only [bne_iff_ne, ne_eq]
    rintro rfl
    exact h hx

/-- What follows a NUL is not part of the string. -/
theorem str_append_of_mem {a : List UInt8} (h : 0 ∈ a) (b : List UInt8) :
    str (a ++ b) = str a := by
  induction a with
  | nil => cases h
  | cons x a ih =>
    rw [List.cons_append, str_cons, str_cons]
    split
    · rfl
    · next hx => rw [ih ((List.mem_cons.mp h).resolve_left (Ne.symm hx))]

@[simp] theorem str_replicate_zero (k : Nat) : str (List.replicate k 0) = [] := by
  cases k <;> simp [List.replicate_succ]

@[simp] theorem str_append_replicate (b : List UInt8) (k : Nat) :
    str (b ++ List.replicate k 0) = str b := by
  by_cases h : 0 ∈ b
  · exact str_append_of_mem h _
  · rw [str_append_of_notMem h, str_replicate_zero, List.append_nil, str_eq_self h]

theorem str_append_zero {a : List UInt8} (h : 0 ∉ a) (b : List UInt8) : str (a ++ 0 :: b) = a := by
  rw [str_append_of_notMem h, str_zero_cons, List.append_nil]

theorem headD_eq_zero_iff (b : List UInt8) : b.headD 0 = 0 ↔ str b = [] := by
  cases b with
  | nil => simp
  | cons x b => by_cases h : x = 0 <;> simp [str_cons, h]

/-! ## `string.h` -/

def strlen (b : List UInt8) : Nat := (str b).length

/-- The difference of the first two bytes that differ, `0` when the strings are equal. -/
def strcmp : List UInt8 → List UInt8 → Int
  | [], b => -((b.headD 0).toNat : Int)
  | x :: a, b =>
    if x ≠ b.headD 0 then (x.toNat : Int) - (b.headD 0).toNat
    else if x = 0 then 0
    else strcmp a b.tail

/-- `strcmp` on the first `n` bytes. -/
def strncmp : Nat → List UInt8 → List UInt8 → Int
  | 0, _, _ => 0
  | n + 1, a, b =>
    if a.headD 0 ≠ b.headD 0 then ((a.headD 0).toNat : Int) - (b.headD 0).toNat
    else if a.headD 0 = 0 then 0
    else strncmp n a.tail b.tail

/-- The index of the first `c` (not NUL) in the string. -/
def strchr (b : List UInt8) (c : UInt8) : Option Nat := (str b).findIdx? (· == c)

theorem toNat_sub_ne_zero {x y : UInt8} (h : x ≠ y) : (x.toNat : Int) - y.toNat ≠ 0 := by
  have : x.toNat ≠ y.toNat := fun e => h (UInt8.toNat_inj.mp e)
  omega

theorem strcmp_eq_zero {a b : List UInt8} : strcmp a b = 0 ↔ str a = str b := by
  induction a generalizing b with
  | nil =>
    rw [strcmp, str_nil, eq_comm (a := []), ← headD_eq_zero_iff, ← UInt8.toNat_inj]
    simp only [UInt8.toNat_zero]
    omega
  | cons x a ih =>
    unfold strcmp
    split
    · next h =>
      refine iff_of_false (toNat_sub_ne_zero h) ?_
      cases b with
      | nil => simp_all [str_cons]
      | cons y b =>
        simp only [List.headD_cons] at h
        rw [str_cons, str_cons]
        by_cases hx : x = 0 <;> by_cases hy : y = 0 <;> simp_all
    · next h =>
      simp only [ne_eq, not_not] at h
      split
      · next hx =>
        rw [hx, str_zero_cons]
        simp only [true_iff]
        rw [eq_comm, ← headD_eq_zero_iff, ← h, hx]
      · next hx =>
        rw [ih]
        cases b with
        | nil => exact absurd h hx
        | cons y b =>
          simp only [List.headD_cons] at h
          subst h
          simp [str_cons, hx]

theorem strncmp_eq_zero {n : Nat} {a b : List UInt8} :
    strncmp n a b = 0 ↔ (str a).take n = (str b).take n := by
  induction n generalizing a b with
  | zero => simp [strncmp]
  | succ n ih =>
    unfold strncmp
    split
    · next h =>
      refine iff_of_false (toNat_sub_ne_zero h) ?_
      rcases a with _ | ⟨x, a⟩ <;> rcases b with _ | ⟨y, b⟩ <;>
        simp only [List.headD_nil, List.headD_cons, ne_eq, not_true_eq_false] at h
      · simp [str_cons, Ne.symm h]
      · simp [str_cons, h]
      · rw [str_cons, str_cons]
        by_cases hx : x = 0 <;> by_cases hy : y = 0 <;> simp_all
    · next h =>
      simp only [ne_eq, not_not] at h
      split
      · next hx =>
        rw [(headD_eq_zero_iff a).mp hx, (headD_eq_zero_iff b).mp (h ▸ hx)]
        simp
      · next hx =>
        rw [ih]
        cases a with
        | nil => exact absurd rfl hx
        | cons x a =>
          cases b with
          | nil => exact absurd h hx
          | cons y b =>
            simp only [List.headD_cons] at h hx
            subst h
            simp [str_cons, hx]

theorem str_drop {b : List UInt8} {i : Nat} (h : i ≤ (str b).length) :
    str (b.drop i) = (str b).drop i := by
  induction b generalizing i with
  | nil => simp
  | cons x b ih =>
    cases i with
    | zero => simp
    | succ i =>
      rw [str_cons] at h ⊢
      split
      · next hx => simp [hx] at h
      · next hx =>
        simp only [hx, ↓reduceIte, List.length_cons, Nat.add_le_add_iff_right] at h
        simpa using ih h

/-- The bytes `snprintf(b, n, ..)` writes for the formatted text `text`. -/
def snprintf (n : Nat) (text : List UInt8) : List UInt8 := text.take (n - 1) ++ [0]

theorem take_strlen (b : List UInt8) : b.take (strlen b) = str b := by
  obtain ⟨t, ht⟩ := str_prefix_self b
  rw [strlen]
  nth_rewrite 2 [← ht]
  exact List.take_left

theorem str_snprintf {n : Nat} {text : List UInt8} (h : text.length < n) (h0 : 0 ∉ text) :
    str (snprintf n text) = text := by
  rw [snprintf, List.take_of_length_le (by omega), str_append_zero h0]

/-! ## Buffers -/

/-- A `char` array of `n` bytes. -/
structure CharBuf (n : Nat) where
  bytes : List UInt8
  size : bytes.length = n
  deriving DecidableEq

namespace CharBuf

variable {n : Nat}

/-- `char b[n] = {0}`. -/
def zero (n : Nat) : CharBuf n := ⟨List.replicate n 0, List.length_replicate⟩

/-- `b[i] = v` at an index known to be in range. -/
def set (b : CharBuf n) (i : Fin n) (v : UInt8) : CharBuf n :=
  ⟨b.bytes.set i v, by rw [List.length_set, b.size]⟩

/-- `b[i] = v`; an index out of range has no defined result. -/
def store (b : CharBuf n) (i : Nat) (v : UInt8) : Option (CharBuf n) :=
  if h : i < n then some (b.set ⟨i, h⟩ v) else none

/-- Overwrite the first bytes of a buffer. -/
def overwrite (b : CharBuf n) (s : List UInt8) : CharBuf n :=
  ⟨(s ++ b.bytes.drop s.length).take n, by
    rw [List.length_take, List.length_append, List.length_drop, b.size]; omega⟩

/-- `strncpy(b, src, k)`: at most `k` bytes of the string, NUL-padded up to `k`. -/
def strncpy (b : CharBuf n) (src : List UInt8) (k : Nat) : CharBuf n :=
  b.overwrite ((str src).take k ++ List.replicate (k - (str src).length) 0)

theorem store_eq_none {b : CharBuf n} {i : Nat} {v : UInt8} : b.store i v = none ↔ n ≤ i := by
  unfold store
  split <;> simp_all

theorem overwrite_bytes {b : CharBuf n} {s : List UInt8} (h : s.length ≤ n) :
    (b.overwrite s).bytes = s ++ b.bytes.drop s.length := by
  refine List.take_of_length_le ?_
  rw [List.length_append, List.length_drop, b.size]; omega

theorem overwrite_zero_bytes {s : List UInt8} (h : s.length ≤ n) :
    ((zero n).overwrite s).bytes = s ++ List.replicate (n - s.length) 0 := by
  rw [overwrite_bytes h, zero, List.drop_replicate]

theorem eq_of_bytes {b b' : CharBuf n} (h : b.bytes = b'.bytes) : b = b' := by
  cases b
  cases b'
  cases h
  rfl

/-- Copying a string and terminating the last byte leaves its first `n` bytes and zeros. -/
theorem strncpy_set_bytes (b : CharBuf (n + 1)) (src : List UInt8) :
    ((b.strncpy src n).set (Fin.last n) 0).bytes =
      (str src).take n ++ List.replicate (n - (str src).length + 1) 0 := by
  have hlen : ((str src).take n ++ List.replicate (n - (str src).length) (0 : UInt8)).length = n := by
    simp; omega
  simp only [set, strncpy, Fin.val_last]
  rw [overwrite_bytes (by omega), List.set_append_right _ _ (by omega), hlen, Nat.sub_self]
  obtain ⟨y, hy⟩ : ∃ y, b.bytes.drop n = [y] := by
    rw [← List.length_eq_one_iff, List.length_drop, b.size]
    omega
  rw [hy, List.set_cons_zero, List.append_assoc, List.replicate_succ']

theorem str_strncpy_set (b : CharBuf (n + 1)) (src : List UInt8) :
    str ((b.strncpy src n).set (Fin.last n) 0).bytes = (str src).take n := by
  have hz : 0 ∉ (str src).take n := fun h => zero_notMem_str _ (List.mem_of_mem_take h)
  rw [strncpy_set_bytes, str_append_replicate, str_eq_self hz]

end CharBuf

/-! ## Receiving into a buffer -/

/-- `char b[n] = {0}; k = recv(b, n - 1); b[k] = '\0';` for a call that copies at
most `n - 1` bytes of the message but returns its full length. -/
def recvTerminated (n : Nat) (m : List UInt8) : Option (CharBuf n) :=
  ((CharBuf.zero n).overwrite (m.take (n - 1))).store m.length 0

theorem recvTerminated_eq_none {n : Nat} {m : List UInt8} :
    recvTerminated n m = none ↔ n ≤ m.length := CharBuf.store_eq_none

/-- A message that fits is received as the string it starts with. -/
theorem str_recvTerminated {n : Nat} {m : List UInt8} {b : CharBuf n}
    (h : recvTerminated n m = some b) : str b.bytes = str m := by
  unfold recvTerminated CharBuf.store at h
  split at h
  · next hlt =>
    cases h
    have hm : m.take (n - 1) = m := List.take_of_length_le (by omega)
    simp only [CharBuf.set]
    rw [CharBuf.overwrite_zero_bytes (by rw [hm]; omega), hm,
      List.set_append_right _ _ (Nat.le_refl _), Nat.sub_self]
    rcases hk : n - m.length with _ | k
    · omega
    · rw [List.replicate_succ, List.set_cons_zero, ← List.replicate_succ, str_append_replicate]
  · cases h

theorem recvTerminated_isSome {n : Nat} {m : List UInt8} (h : m.length < n) :
    ∃ b, recvTerminated n m = some b ∧ str b.bytes = str m := by
  cases hb : recvTerminated n m with
  | none => rw [recvTerminated_eq_none] at hb; omega
  | some b => exact ⟨b, rfl, str_recvTerminated hb⟩

end CStr
