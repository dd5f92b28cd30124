import Mathlib.Data.Nat.Digits.Defs

/-!
# Integers in memory

A 64-bit integer is eight bytes in memory, in the order of the machine, and is
read back from them (`ofBytes_toBytes`).
-/

namespace Bytes

inductive Order where
  | little | big
  deriving DecidableEq, Repr

/-- The `k` low bytes of `n`, lowest first. -/
def digits : Nat → Nat → List UInt8
  | 0, _ => []
  | k + 1, n => UInt8.ofNat n :: digits k (n / 256)

/-- The number with these bytes, lowest first. -/
def value (b : List UInt8) : Nat := Nat.ofDigits 256 (b.map UInt8.toNat)

@[simp] theorem length_digits (k n : Nat) : (digits k n).length = k := by
  induction k generalizing n with
  | zero => rfl
  | succ k ih => rw [digits, List.length_cons, ih]

theorem value_cons (x : UInt8) (b : List UInt8) : value (x :: b) = x.toNat + 256 * value b := by
  simp [value, Nat.ofDigits_cons]

theorem value_digits (k n : Nat) : value (digits k n) = n % 256 ^ k := by
  induction k generalizing n with
  | zero => rw [Nat.pow_zero, Nat.mod_one]; rfl
  | succ k ih =>
    have hpow : 256 ^ (k + 1) = 256 * 256 ^ k := Nat.pow_succ'
    rw [digits, value_cons, ih, UInt8.toNat_ofNat', hpow, Nat.mod_mul]

/-- The bytes of an integer. -/
def toBytes (o : Order) (t : UInt64) : List UInt8 :=
  match o with
  | .little => digits 8 t.toNat
  | .big => (digits 8 t.toNat).reverse

/-- The integer eight bytes make. -/
def ofBytes (o : Order) (b : List UInt8) : UInt64 :=
  match o with
  | .little => UInt64.ofNat (value b)
  | .big => UInt64.ofNat (value b.reverse)

@[simp] theorem length_toBytes (o : Order) (t : UInt64) : (toBytes o t).length = 8 := by
  cases o <;> simp [toBytes]

theorem ofNat_value_digits (t : UInt64) : UInt64.ofNat (value (digits 8 t.toNat)) = t := by
  apply UInt64.toNat_inj.mp
  rw [UInt64.toNat_ofNat', value_digits]
  have := t.toNat_lt
  omega

@[simp] theorem ofBytes_toBytes (o : Order) (t : UInt64) : ofBytes o (toBytes o t) = t := by
  cases o with
  | little => exact ofNat_value_digits t
  | big => rw [toBytes, ofBytes, List.reverse_reverse, ofNat_value_digits]

end Bytes
