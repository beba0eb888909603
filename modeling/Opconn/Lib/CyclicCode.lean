import Mathlib

/-!
# Checksums by division of polynomials

A string of bits is a polynomial over the field of two elements, the first bit its highest
coefficient.  A register that shifts to the left, and at every bit takes the generator away when
what is shifted out differs from the bit, holds the remainder of the string at the division by the
generator.  Two strings of one length that differ in no more consecutive bits than the register has
leave different remainders.
-/

namespace CyclicCode

open Polynomial

/-- A bit as a coefficient. -/
def bit (b : Bool) : ZMod 2 := if b then 1 else 0

theorem bit_xor (a b : Bool) : bit (a ^^ b) = bit a + bit b := by
  cases a <;> cases b <;> decide

theorem bit_injective : Function.Injective bit := by
  intro a b h
  cases a <;> cases b <;> first | rfl | exact absurd h (by decide)

/-! ### Strings of bits -/

/-- The polynomial of a string of bits. -/
noncomputable def message (bits : List Bool) : (ZMod 2)[X] :=
  bits.foldl (fun p b => X * p + C (bit b)) 0

@[simp] theorem message_nil : message [] = 0 := rfl

theorem message_concat (bits : List Bool) (b : Bool) :
    message (bits ++ [b]) = X * message bits + C (bit b) := by
  rw [message, List.foldl_append, List.foldl_cons, List.foldl_nil, message]

theorem message_append (a b : List Bool) :
    message (a ++ b) = X ^ b.length * message a + message b := by
  induction b using List.reverseRecOn with
  | nil => simp
  | append_singleton b x ih =>
    rw [← List.append_assoc, message_concat, message_concat, ih, List.length_append,
      List.length_singleton, pow_succ]
    ring

theorem degree_message_lt (bits : List Bool) : (message bits).degree < bits.length := by
  induction bits using List.reverseRecOn with
  | nil => simp
  | append_singleton bits b ih =>
    rw [degree_lt_iff_coeff_zero] at ih ⊢
    intro m hm
    rw [List.length_append, List.length_singleton] at hm
    obtain ⟨k, rfl⟩ : ∃ k, m = k + 1 := ⟨m - 1, by omega⟩
    rw [message_concat, coeff_add, coeff_X_mul, coeff_C_succ, ih k (by omega), add_zero]

/-- A string is given by its polynomial and its length. -/
theorem message_inj {a b : List Bool} (hlen : a.length = b.length) (h : message a = message b) :
    a = b := by
  induction a using List.reverseRecOn generalizing b with
  | nil => exact (List.eq_nil_of_length_eq_zero hlen.symm).symm
  | append_singleton a x ih =>
    rcases List.eq_nil_or_concat b with rfl | ⟨b, y, rfl⟩
    · rw [List.length_append, List.length_singleton] at hlen
      cases hlen
    · rw [List.concat_eq_append] at hlen h ⊢
      rw [List.length_append, List.length_append] at hlen
      rw [message_concat, message_concat] at h
      have hlast : x = y := by
        have hcoeff := congrArg (fun p => coeff p 0) h
        simp only [coeff_add, mul_coeff_zero, coeff_X_zero, zero_mul, zero_add, coeff_C_zero]
          at hcoeff
        exact bit_injective hcoeff
      have hfront : message a = message b := by
        ext k
        have hcoeff := congrArg (fun p => coeff p (k + 1)) h
        simpa only [coeff_add, coeff_X_mul, coeff_C_succ, add_zero] using hcoeff
      rw [ih (Nat.add_right_cancel hlen) hfront, hlast]

theorem message_cons (b : Bool) (bits : List Bool) :
    message (b :: bits) = C (bit b) * X ^ bits.length + message bits := by
  have happend := message_append [b] bits
  have hone : message [b] = C (bit b) := by
    rw [message, List.foldl_cons, List.foldl_nil, mul_zero, zero_add]
  rw [List.singleton_append, hone, mul_comm] at happend
  exact happend

theorem message_zipWith_xor {a b : List Bool} (hlen : a.length = b.length) :
    message (List.zipWith xor a b) = message a + message b := by
  induction a generalizing b with
  | nil =>
    rw [List.eq_nil_of_length_eq_zero hlen.symm]
    simp
  | cons x a ih =>
    cases b with
    | nil => cases hlen
    | cons y b =>
      have hrest : a.length = b.length := Nat.succ.inj hlen
      rw [List.zipWith_cons_cons, message_cons, message_cons, message_cons, ih hrest,
        List.length_zipWith, hrest, Nat.min_self, bit_xor, C_add]
      ring

/-! ### The register -/

variable {w : ℕ}

/-- The bits of a register, the highest first. -/
def bits (c : BitVec w) : List Bool := (List.range w).map c.getMsbD

/-- The polynomial of a register. -/
noncomputable def toPoly (c : BitVec w) : (ZMod 2)[X] := message (bits c)

/-- The divisor that a generator stands for. -/
noncomputable def generator (g : BitVec w) : (ZMod 2)[X] := X ^ w + toPoly g

/-- The register after one more bit. -/
def next (g c : BitVec w) (b : Bool) : BitVec w :=
  if c.msb ^^ b then c <<< 1 ^^^ g else c <<< 1

/-- The register after a string of bits. -/
def run (g c : BitVec w) (bs : List Bool) : BitVec w := bs.foldl (next g) c

@[simp] theorem length_bits (c : BitVec w) : (bits c).length = w := by
  rw [bits, List.length_map, List.length_range]

theorem bits_xor (a b : BitVec w) : bits (a ^^^ b) = List.zipWith xor (bits a) (bits b) := by
  apply List.ext_getElem
  · simp
  · intro i h1 h2
    simp [bits]

theorem toPoly_xor (a b : BitVec w) : toPoly (a ^^^ b) = toPoly a + toPoly b := by
  rw [toPoly, bits_xor, message_zipWith_xor (by rw [length_bits, length_bits]), toPoly, toPoly]

theorem toPoly_injective : Function.Injective (toPoly (w := w)) := by
  intro a b h
  have hbits := message_inj (by rw [length_bits, length_bits]) h
  apply BitVec.eq_of_getMsbD_eq
  intro i hi
  have hget := congrArg (fun l => l[i]?) hbits
  simpa [bits, hi] using hget

theorem degree_toPoly_lt (c : BitVec w) : (toPoly c).degree < w := by
  have hdegree := degree_message_lt (bits c)
  rwa [length_bits] at hdegree

theorem monic_generator (g : BitVec w) : (generator g).Monic :=
  monic_X_pow_add (degree_toPoly_lt g)

theorem degree_generator (g : BitVec w) : (generator g).degree = w := by
  rw [generator, degree_add_eq_left_of_degree_lt, degree_X_pow]
  rw [degree_X_pow]
  exact degree_toPoly_lt g

/-- The bit that is shifted out, and the rest. -/
theorem X_mul_toPoly (c : BitVec w) :
    X * toPoly c = C (bit c.msb) * X ^ w + toPoly (c <<< 1) := by
  cases w with
  | zero => simp [toPoly, bits, BitVec.msb, bit]
  | succ n =>
    have hbits : bits c = c.msb :: (List.range n).map fun i => c.getMsbD (i + 1) := by
      rw [bits, List.range_succ_eq_map, List.map_cons, List.map_map]
      rfl
    have hshift : bits (c <<< 1) = ((List.range n).map fun i => c.getMsbD (i + 1)) ++ [false] := by
      rw [bits, List.range_succ, List.map_append]
      simp
    have hfalse : bit false = 0 := rfl
    rw [toPoly, hbits, message_cons, toPoly, hshift, message_concat, List.length_map,
      List.length_range, hfalse, C_0, pow_succ]
    ring

/-- One bit more is one step of the division. -/
theorem toPoly_next (g c : BitVec w) (b : Bool) :
    X * toPoly c + C (bit b) * X ^ w =
      toPoly (next g c b) + C (bit (c.msb ^^ b)) * generator g := by
  rw [X_mul_toPoly, next]
  cases hout : c.msb ^^ b with
  | true =>
    have hsum : C (bit c.msb) * X ^ w + C (bit b) * X ^ w = (X ^ w : (ZMod 2)[X]) := by
      rw [← add_mul, ← C_add, ← bit_xor, hout]
      simp [bit]
    have htwice : toPoly g + toPoly g = 0 := CharTwo.add_self_eq_zero _
    have hone : bit true = 1 := rfl
    rw [if_pos rfl, toPoly_xor, generator, hone, C_1, one_mul, add_right_comm, hsum,
      add_assoc (toPoly (c <<< 1)), add_left_comm (toPoly g), htwice, add_zero, add_comm]
  | false =>
    have hsum : C (bit c.msb) * X ^ w + C (bit b) * X ^ w = (0 : (ZMod 2)[X]) := by
      rw [← add_mul, ← C_add, ← bit_xor, hout]
      simp [bit]
    have hzero : bit false = 0 := rfl
    rw [if_neg Bool.false_ne_true, hzero, C_0, zero_mul, add_zero, add_right_comm, hsum, zero_add]

/-- A string of bits, the register's own polynomial in front of it, and what is left in the
register. -/
theorem exists_quotient (g c : BitVec w) (bs : List Bool) :
    ∃ q, X ^ w * message bs + X ^ bs.length * toPoly c =
      toPoly (run g c bs) + generator g * q := by
  induction bs using List.reverseRecOn with
  | nil => exact ⟨0, by simp [run]⟩
  | append_singleton bs b ih =>
    obtain ⟨q, hq⟩ := ih
    have hrun : run g c (bs ++ [b]) = next g (run g c bs) b := by
      rw [run, List.foldl_append, List.foldl_cons, List.foldl_nil, run]
    have hnext := toPoly_next g (run g c bs) b
    refine ⟨X * q + C (bit ((run g c bs).msb ^^ b)), ?_⟩
    rw [hrun, message_concat, List.length_append, List.length_singleton, pow_succ]
    calc X ^ w * (X * message bs + C (bit b)) + X ^ bs.length * X * toPoly c
        = X * (X ^ w * message bs + X ^ bs.length * toPoly c) + C (bit b) * X ^ w := by ring
      _ = X * toPoly (run g c bs) + C (bit b) * X ^ w + generator g * (X * q) := by
          rw [hq]
          ring
      _ = toPoly (next g (run g c bs) b) +
            generator g * (X * q + C (bit ((run g c bs).msb ^^ b))) := by
          rw [hnext]
          ring

/-- **Remainder.**  The register holds the remainder of the string behind its own polynomial. -/
theorem toPoly_run (g c : BitVec w) (bs : List Bool) :
    toPoly (run g c bs) =
      (X ^ w * message bs + X ^ bs.length * toPoly c) %ₘ generator g := by
  obtain ⟨q, hq⟩ := exists_quotient g c bs
  have hdegree : (toPoly (run g c bs)).degree < (generator g).degree := by
    rw [degree_generator]
    exact degree_toPoly_lt _
  exact (div_modByMonic_unique q _ (monic_generator g) ⟨hq.symm, hdegree⟩).2.symm

/-- Strings of one length that leave the same remainder differ by a multiple of the divisor. -/
theorem dvd_of_run_eq {g c : BitVec w} {a b : List Bool} (hlen : a.length = b.length)
    (h : run g c a = run g c b) : generator g ∣ X ^ w * (message a + message b) := by
  obtain ⟨p, hp⟩ := exists_quotient g c a
  obtain ⟨q, hq⟩ := exists_quotient g c b
  refine ⟨p + q, ?_⟩
  have hsum : X ^ w * message a + X ^ a.length * toPoly c +
      (X ^ w * message b + X ^ a.length * toPoly c) = generator g * (p + q) := by
    rw [hp, hlen, hq, h, add_add_add_comm, CharTwo.add_self_eq_zero, zero_add, mul_add]
  rw [add_add_add_comm, CharTwo.add_self_eq_zero, add_zero, ← mul_add] at hsum
  exact hsum

/-! ### Bursts -/

/-- Two strings of one length that differ, in no more than `n` consecutive bits. -/
structure Burst (n : ℕ) (a b : List Bool) : Prop where
  length : a.length = b.length
  ne : a ≠ b
  confined : ∃ k, ∀ i, a[i]? ≠ b[i]? → k ≤ i ∧ i < k + n

/-- The pieces in front of a burst and behind it are the same. -/
theorem Burst.pieces {n : ℕ} {a b : List Bool} (h : Burst n a b) :
    ∃ front mid mid' back, a = front ++ (mid ++ back) ∧ b = front ++ (mid' ++ back) ∧
      mid.length = mid'.length ∧ mid.length ≤ n ∧ mid ≠ mid' := by
  obtain ⟨k, hk⟩ := h.confined
  have hfront : a.take k = b.take k := by
    apply List.ext_getElem?
    intro i
    by_cases hi : i < k
    · rw [List.getElem?_take_of_lt hi, List.getElem?_take_of_lt hi]
      by_contra hne
      exact Nat.not_lt.mpr (hk i hne).1 hi
    · rw [List.getElem?_take_eq_none (by omega), List.getElem?_take_eq_none (by omega)]
  have hback : (a.drop k).drop n = (b.drop k).drop n := by
    apply List.ext_getElem?
    intro i
    rw [List.drop_drop, List.drop_drop, List.getElem?_drop, List.getElem?_drop]
    by_contra hne
    have hlt := (hk _ hne).2
    omega
  refine ⟨a.take k, (a.drop k).take n, (b.drop k).take n, (a.drop k).drop n, ?_, ?_, ?_, ?_, ?_⟩
  · rw [List.take_append_drop, List.take_append_drop]
  · rw [hback, List.take_append_drop, hfront, List.take_append_drop]
  · rw [List.length_take, List.length_take, List.length_drop, List.length_drop, h.length]
  · exact List.length_take_le n _
  · intro hmid
    apply h.ne
    rw [← List.take_append_drop k a, ← List.take_append_drop k b, hfront,
      ← List.take_append_drop n (a.drop k), ← List.take_append_drop n (b.drop k), hmid, hback]

/-- A divisor whose lowest bit is set has no factor in common with a power of `X`. -/
theorem isCoprime_generator {g : BitVec w} (hw : 0 < w) (hg : g.getLsbD 0 = true) (k : ℕ) :
    IsCoprime (generator g) (X ^ k) := by
  obtain ⟨n, rfl⟩ : ∃ n, w = n + 1 := ⟨w - 1, by omega⟩
  have hlow : bits g = (List.range n).map g.getMsbD ++ [true] := by
    rw [bits, List.range_succ, List.map_append, List.map_singleton, ← hg, BitVec.getMsbD]
    simp
  have hone : bit true = 1 := rfl
  apply IsCoprime.pow_right
  refine ⟨1, -(X ^ n + message ((List.range n).map g.getMsbD)), ?_⟩
  rw [generator, toPoly, hlow, message_concat, hone, C_1]
  ring

theorem degree_add_message_lt {a b : List Bool} {n : ℕ} (ha : a.length ≤ n) (hb : b.length ≤ n) :
    (message a + message b).degree < n := by
  have hle : ∀ bs : List Bool, bs.length ≤ n → (message bs).degree < n := by
    intro bs hbs
    exact (degree_message_lt bs).trans_le (by exact_mod_cast hbs)
  exact (degree_add_le _ _).trans_lt (max_lt (hle a ha) (hle b hb))

/-- **Bursts.**  A burst as long as the register changes what is left in it. -/
theorem run_ne_of_burst {g c : BitVec w} (hw : 0 < w) (hg : g.getLsbD 0 = true)
    {a b : List Bool} (h : Burst w a b) : run g c a ≠ run g c b := by
  intro heq
  obtain ⟨front, mid, mid', back, ha, hb, hlen, hle, hne⟩ := h.pieces
  have hdvd := dvd_of_run_eq h.length heq
  have hdiff : message a + message b = X ^ back.length * (message mid + message mid') := by
    rw [ha, hb, message_append, message_append, message_append, message_append,
      List.length_append, List.length_append, hlen]
    calc _ = (X ^ (mid'.length + back.length) * message front +
              X ^ (mid'.length + back.length) * message front) +
            (message back + message back) +
            X ^ back.length * (message mid + message mid') := by ring
      _ = X ^ back.length * (message mid + message mid') := by
          rw [CharTwo.add_self_eq_zero, CharTwo.add_self_eq_zero, zero_add, zero_add]
  rw [hdiff, ← mul_assoc, ← pow_add] at hdvd
  have hmid := (isCoprime_generator hw hg _).dvd_of_dvd_mul_left hdvd
  have hzero : message mid + message mid' ≠ 0 := by
    intro hsum
    exact hne (message_inj hlen (CharTwo.add_eq_zero.mp hsum))
  apply (monic_generator g).not_dvd_of_degree_lt hzero _ hmid
  rw [degree_generator]
  exact degree_add_message_lt hle (hlen ▸ hle)

theorem toPoly_zero : toPoly (0 : BitVec w) = 0 := by
  have hxor := toPoly_xor (0 : BitVec w) 0
  rwa [CharTwo.add_self_eq_zero, BitVec.xor_self] at hxor

/-- Nothing is left of a string with what it left behind it. -/
theorem run_append_bits (g c : BitVec w) (bs : List Bool) :
    run g c (bs ++ bits (run g c bs)) = 0 := by
  have hsplit : run g c (bs ++ bits (run g c bs)) = run g (run g c bs) (bits (run g c bs)) := by
    rw [run, List.foldl_append, run, run]
  apply toPoly_injective
  rw [hsplit, toPoly_run, length_bits, toPoly_zero, ← toPoly, CharTwo.add_self_eq_zero,
    zero_modByMonic]

/-- A burst over a string and what it left is seen: the changed string does not leave what is behind
it. -/
theorem run_ne_of_burst_append {g c r : BitVec w} (hw : 0 < w) (hg : g.getLsbD 0 = true)
    {a b : List Bool} (h : Burst w (a ++ bits (run g c a)) (b ++ bits r)) : run g c b ≠ r := by
  intro heq
  have hne := run_ne_of_burst hw hg h (c := c)
  rw [← heq, run_append_bits, run_append_bits] at hne
  exact hne rfl

end CyclicCode
