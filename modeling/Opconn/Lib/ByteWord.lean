import Mathlib.Data.List.Induction
import Mathlib.Data.Nat.Bitwise

/-!
# Words of bytes

Bytes shifted into a word of 64 bits, the highest first, are the digits of its number to the
base 256; masks and shifts of the word are remainders and quotients of that number.
-/

namespace ByteWord

/-- The bytes shifted in one after the other. -/
def word (bs : List UInt8) : UInt64 := bs.foldl (fun x c => x <<< 8 ||| c.toUInt64) 0

/-- The number that some bytes stand for, the highest first. -/
def number (bs : List UInt8) : Nat := bs.foldl (fun n c => n * 2 ^ 8 + c.toNat) 0

theorem number_append (bs : List UInt8) (c : UInt8) :
    number (bs ++ [c]) = number bs * 2 ^ 8 + c.toNat := by
  simp [number]

theorem number_lt (bs : List UInt8) : number bs < 2 ^ (8 * bs.length) := by
  induction bs using List.reverseRecOn with
  | nil => simp [number]
  | append_singleton bs c ih =>
    have hbyte := c.toNat_lt
    rw [number_append, List.length_append, List.length_singleton, Nat.mul_add, Nat.pow_add]
    omega

theorem number_append_list (bs cs : List UInt8) :
    number (bs ++ cs) = number bs * 2 ^ (8 * cs.length) + number cs := by
  induction cs using List.reverseRecOn with
  | nil => simp [number]
  | append_singleton cs c ih =>
    rw [← List.append_assoc, number_append, number_append, ih, List.length_append,
      List.length_singleton, Nat.mul_add, Nat.pow_add, Nat.add_mul, Nat.mul_assoc, Nat.add_assoc]

/-- Where the number has `n` bits, the bytes in front of these bits are zero. -/
theorem number_mod_of_lt (bs cs : List UInt8) {n : Nat} (hn : n ≤ 8 * cs.length)
    (h : number (bs ++ cs) < 2 ^ n) : number cs % 2 ^ n = number (bs ++ cs) := by
  have hle : 2 ^ n ≤ 2 ^ (8 * cs.length) := Nat.pow_le_pow_right (by decide) hn
  rw [number_append_list] at h ⊢
  have hzero : number bs = 0 := by
    by_contra hne
    have := Nat.le_mul_of_pos_left (2 ^ (8 * cs.length)) (Nat.pos_of_ne_zero hne)
    omega
  rw [hzero, Nat.zero_mul, Nat.zero_add] at h ⊢
  exact Nat.mod_eq_of_lt h

/-- A word has room for eight bytes. -/
theorem toNat_word (bs : List UInt8) (hlen : bs.length ≤ 8) : (word bs).toNat = number bs := by
  induction bs using List.reverseRecOn with
  | nil => rfl
  | append_singleton bs c ih =>
    rw [List.length_append, List.length_singleton] at hlen
    have hbyte := c.toNat_lt
    have hroom : number bs < 2 ^ 56 := calc
      number bs < 2 ^ (8 * bs.length) := number_lt bs
      _ ≤ 2 ^ 56 := Nat.pow_le_pow_right (by decide) (by omega)
    have hstep : word (bs ++ [c]) = word bs <<< 8 ||| c.toUInt64 := by simp [word]
    have hshift : (word bs <<< 8).toNat = number bs <<< 8 := by
      have : (word bs <<< 8).toNat = ((word bs).toNat <<< 8) % 2 ^ 64 :=
        UInt64.toNat_shiftLeft (word bs) 8
      rw [this, ih (by omega), Nat.shiftLeft_eq]
      omega
    rw [hstep, UInt64.toNat_or, hshift, UInt8.toNat_toUInt64,
      ← Nat.shiftLeft_add_eq_or_of_lt (by omega), Nat.shiftLeft_eq, number_append]

/-- A mask of `n` bits. -/
theorem toNat_word_and (bs : List UInt8) (hlen : bs.length ≤ 8) {mask : UInt64} {n : Nat}
    (hmask : mask.toNat = 2 ^ n - 1) : (word bs &&& mask).toNat = number bs % 2 ^ n := by
  rw [UInt64.toNat_and, hmask, Nat.and_two_pow_sub_one_eq_mod, toNat_word bs hlen]

/-- A byte of a word. -/
theorem toNat_byte (v : UInt64) {n : UInt64} (hn : n < 64) :
    (v >>> n).toUInt8.toNat = v.toNat / 2 ^ n.toNat % 256 := by
  have hsmall : n.toNat < 64 := hn
  rw [UInt64.toNat_toUInt8, UInt64.toNat_shiftRight, Nat.mod_eq_of_lt hsmall,
    Nat.shiftRight_eq_div_pow]

end ByteWord
