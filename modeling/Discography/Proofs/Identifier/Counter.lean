import Discography.Identifier.Generator
import Mathlib.Tactic.Ring

/-!
# Bytes as numbers

Bytes with the most significant one first stand for a number. Among bytes of one length the byte
order is the order of these numbers, and an increment adds one unless all bits are set.

## Main results

* `Identifier.bigEndian_lt_bigEndian_iff`: the byte order is the order of the numbers
* `Identifier.bigEndian_bytesOf`: the lowest bytes of a number
* `Identifier.bigEndian_of_increment?`, `Identifier.increment?_eq_none_iff`: increments
-/

namespace Discography.Identifier

variable {xs ys bytes next : List UInt8}

/-! ### The number of a byte string -/

private theorem foldl_eq_add_bigEndian (n : Nat) (bytes : List UInt8) :
    bytes.foldl (fun n b => 256 * n + b.toNat) n = n * 256 ^ bytes.length + bigEndian bytes := by
  induction bytes generalizing n with
  | nil => simp [bigEndian]
  | cons b bytes ih =>
    simp only [bigEndian, List.foldl_cons, List.length_cons]
    rw [ih, ih (256 * 0 + b.toNat), pow_succ]
    ring

@[simp] theorem bigEndian_nil : bigEndian [] = 0 := rfl

theorem bigEndian_append (xs ys : List UInt8) :
    bigEndian (xs ++ ys) = bigEndian xs * 256 ^ ys.length + bigEndian ys := by
  rw [bigEndian, List.foldl_append, foldl_eq_add_bigEndian]
  rfl

theorem bigEndian_cons (b : UInt8) (bytes : List UInt8) :
    bigEndian (b :: bytes) = b.toNat * 256 ^ bytes.length + bigEndian bytes := by
  have hsingle : bigEndian [b] = b.toNat := by simp [bigEndian]
  rw [← List.singleton_append, bigEndian_append, hsingle]

theorem bigEndian_lt (bytes : List UInt8) : bigEndian bytes < 256 ^ bytes.length := by
  induction bytes with
  | nil => simp
  | cons b bytes ih =>
    have hb : b.toNat + 1 ≤ 256 := b.toNat_lt
    calc bigEndian (b :: bytes) = b.toNat * 256 ^ bytes.length + bigEndian bytes :=
          bigEndian_cons b bytes
      _ < (b.toNat + 1) * 256 ^ bytes.length := by rw [Nat.add_one_mul]; omega
      _ ≤ 256 * 256 ^ bytes.length := Nat.mul_le_mul_right _ hb
      _ = 256 ^ (b :: bytes).length := by rw [List.length_cons, pow_succ']

/-- A greater leading part makes a greater number, whatever follows. -/
private theorem mul_add_lt_mul_add {width m n x y : Nat} (hmn : m < n) (hx : x < width) :
    m * width + x < n * width + y := by
  calc m * width + x < (m + 1) * width := by rw [Nat.add_one_mul]; omega
    _ ≤ n * width := Nat.mul_le_mul_right _ hmn
    _ ≤ n * width + y := Nat.le_add_right _ _

/-- Among bytes of one length, the byte order is the order of the numbers. -/
theorem bigEndian_lt_bigEndian_iff (h : xs.length = ys.length) :
    bigEndian xs < bigEndian ys ↔ xs < ys := by
  induction xs generalizing ys with
  | nil =>
    obtain rfl := List.length_eq_zero_iff.mp h.symm
    simp
  | cons x xs ih =>
    obtain ⟨y, ys, rfl⟩ := List.exists_cons_of_length_eq_add_one h.symm
    have hlen : xs.length = ys.length := Nat.succ.inj h
    have hx := bigEndian_lt xs
    have hy := bigEndian_lt ys
    rw [List.cons_lt_cons_iff, ← ih hlen, bigEndian_cons, bigEndian_cons, hlen,
      UInt8.lt_iff_toNat_lt, ← UInt8.toNat_inj]
    rw [hlen] at hx
    rcases lt_trichotomy x.toNat y.toNat with hlt | heq | hgt
    · exact iff_of_true (mul_add_lt_mul_add hlt hx) (.inl hlt)
    · simp [heq]
    · have hle := mul_add_lt_mul_add (y := bigEndian xs) hgt hy
      omega

/-- A greater number in the first bytes decides the byte order. -/
theorem lt_of_bigEndian_take_lt (h : xs.length = ys.length) (count : Nat)
    (hlt : bigEndian (xs.take count) < bigEndian (ys.take count)) : xs < ys := by
  rw [← bigEndian_lt_bigEndian_iff h, ← List.take_append_drop count xs,
    ← List.take_append_drop count ys, bigEndian_append, bigEndian_append, List.length_drop,
    List.length_drop, h]
  have hbound := bigEndian_lt (xs.drop count)
  rw [List.length_drop, h] at hbound
  exact mul_add_lt_mul_add hlt hbound

/-- After equal first bytes, a greater number in the rest decides the byte order. -/
theorem lt_of_bigEndian_drop_lt (h : xs.length = ys.length) {count : Nat}
    (htake : xs.take count = ys.take count)
    (hlt : bigEndian (xs.drop count) < bigEndian (ys.drop count)) : xs < ys := by
  rw [← bigEndian_lt_bigEndian_iff h, ← List.take_append_drop count xs,
    ← List.take_append_drop count ys, bigEndian_append, bigEndian_append, List.length_drop,
    List.length_drop, h, htake]
  omega

/-! ### The bytes of a number -/

theorem bytesOf_succ (width n : Nat) :
    bytesOf (width + 1) n = UInt8.ofNat (n / 256 ^ width) :: bytesOf width n := by
  simp only [bytesOf, List.range_succ_eq_map, List.map_cons, List.map_map]
  refine congrArg (_ :: ·) (List.map_congr_left fun i _ => ?_)
  simp only [Function.comp_apply, Nat.succ_eq_add_one]
  rw [show width + 1 - 1 - (i + 1) = width - 1 - i by omega]

@[simp] theorem length_bytesOf (width n : Nat) : (bytesOf width n).length = width := by
  simp [bytesOf]

/-- The lowest bytes of a number stand for its remainder. -/
theorem bigEndian_bytesOf (width n : Nat) : bigEndian (bytesOf width n) = n % 256 ^ width := by
  induction width with
  | zero => simp [bytesOf, Nat.mod_one]
  | succ width ih =>
    rw [bytesOf_succ, bigEndian_cons, ih, length_bytesOf, UInt8.toNat_ofNat',
      Nat.mod_pow_succ (b := 256)]
    ring

/-! ### Increments -/

theorem bigEndian_replicate_zero (count : Nat) : bigEndian (List.replicate count 0) = 0 := by
  induction count with
  | zero => rfl
  | succ count ih => simp [List.replicate_succ, bigEndian_cons, ih]

theorem bigEndian_add_one_of_forall (h : ∀ b ∈ bytes, b = 0xFF) :
    bigEndian bytes + 1 = 256 ^ bytes.length := by
  induction bytes with
  | nil => rfl
  | cons b bytes ih =>
    obtain ⟨rfl, hrest⟩ := List.forall_mem_cons.mp h
    have hbytes := ih hrest
    rw [bigEndian_cons, List.length_cons, pow_succ, ← hbytes]
    simp only [UInt8.reduceToNat]
    ring

/-- No increment is possible exactly if all bits are set. -/
theorem increment?_eq_none_iff : increment? bytes = none ↔ ∀ b ∈ bytes, b = 0xFF := by
  induction bytes with
  | nil => simp [increment?]
  | cons b bytes ih =>
    rw [increment?, List.forall_mem_cons, ← ih]
    cases increment? bytes <;> simp

/-- An increment adds one to the number, with its carry through the bytes that are full. -/
theorem bigEndian_of_increment? (h : increment? bytes = some next) :
    bigEndian next = bigEndian bytes + 1 := by
  induction bytes generalizing next with
  | nil => simp [increment?] at h
  | cons b bytes ih =>
    rw [increment?] at h
    cases hrest : increment? bytes with
    | some rest =>
      obtain rfl : b :: rest = next := by simpa [hrest] using h
      rw [bigEndian_cons, bigEndian_cons, length_of_increment? hrest, ih hrest, Nat.add_assoc]
    | none =>
      obtain ⟨hb, rfl⟩ : ¬ b = 0xFF ∧ (b + 1) :: List.replicate bytes.length 0 = next := by
        simpa [hrest] using h
      have hfull := bigEndian_add_one_of_forall (increment?_eq_none_iff.mp hrest)
      have hcarry : (b + 1).toNat = b.toNat + 1 := by
        have hlt := b.toNat_lt
        have hne : b.toNat ≠ 255 := fun heq => hb (UInt8.toNat_inj.mp heq)
        rw [UInt8.toNat_add]
        simp only [UInt8.reduceToNat]
        omega
      rw [bigEndian_cons, bigEndian_cons, List.length_replicate, bigEndian_replicate_zero, hcarry,
        Nat.add_assoc, hfull, Nat.add_one_mul, Nat.add_zero]

end Discography.Identifier
