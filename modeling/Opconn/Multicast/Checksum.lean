import Opconn.Lib.OnesComplement

/-!
# The Internet checksum

`op_lib_inet_chksum` adds the words of a message as the host reads them, folds the carries and
complements the sum.  The order of the bytes in a word does not matter: on a little-endian host the
sum is the network's with its bytes swapped.  The byte that an odd length leaves over is not the
one that the routine adds.
-/

namespace Opconn.Multicast

open OnesComplement

/-! ### The routine -/

variable (bigEndian : Bool)

/-- Two bytes read as a word of the host. -/
def hostWord (a b : UInt8) : UInt16 :=
  if bigEndian then a.toUInt16 * 256 + b.toUInt16 else b.toUInt16 * 256 + a.toUInt16

/-- `htons`. -/
def htons (v : UInt16) : UInt16 := if bigEndian then v else v <<< 8 ||| v >>> 8

/-- The loop of `chksum`: the sum, and the length that is left. -/
def chksumLoop (mem : Nat → UInt8) : Nat → Nat → UInt32 → UInt32 × Nat
  | temp, len + 2, acc =>
    chksumLoop mem (temp + 2) len (acc + (hostWord bigEndian (mem temp) (mem (temp + 1))).toUInt32)
  | _, 1, acc => (acc, 1)
  | _, 0, acc => (acc, 0)

/-- `chksum`. -/
def chksum (mem : Nat → UInt8) (dataptr len : Nat) : UInt32 :=
  let r := chksumLoop bigEndian mem dataptr len 0
  -- `dataptr` has not moved with `temp`: the odd byte is read at the start of the message
  if r.2 = 1 then r.1 + (htons bigEndian ((mem dataptr).toUInt16 <<< 8)).toUInt32 else r.1

theorem toNat_low (acc : UInt32) : (acc &&& (0xffff : UInt32)).toNat = acc.toNat % 65536 :=
  Nat.and_two_pow_sub_one_eq_mod _ 16

theorem toNat_high (acc : UInt32) : (acc >>> 16).toNat = acc.toNat / 65536 := by
  simp [Nat.shiftRight_eq_div_pow]

theorem toNat_folded (acc : UInt32) :
    ((acc &&& (0xffff : UInt32)) + (acc >>> 16)).toNat = acc.toNat % 65536 + acc.toNat / 65536 := by
  have hlt := acc.toNat_lt
  rw [UInt32.toNat_add, toNat_low, toNat_high]
  omega

theorem high_eq_zero_iff (acc : UInt32) : acc >>> 16 = 0 ↔ acc.toNat ≤ 65535 := by
  rw [← UInt32.toNat_inj, toNat_high, UInt32.toNat_zero]
  omega

/-- The loop that adds the carries back. -/
def foldCarries (acc : UInt32) : UInt32 :=
  if acc >>> 16 = 0 then acc else foldCarries ((acc &&& (0xffff : UInt32)) + (acc >>> 16))
termination_by acc.toNat
decreasing_by
  rename_i h
  rw [high_eq_zero_iff] at h
  rw [toNat_folded]
  omega

/-- `op_lib_inet_chksum`. -/
def opLibInetChksum (mem : Nat → UInt8) (dataptr : Nat) (len : UInt16) : UInt16 :=
  (~~~(foldCarries (chksum bigEndian mem dataptr len.toNat) &&& (0xffff : UInt32))).toUInt16

/-- The bytes of a stored word, in the order of their addresses. -/
def storedBytes (w : UInt16) : UInt8 × UInt8 :=
  if bigEndian then ((w >>> 8).toUInt8, w.toUInt8) else (w.toUInt8, (w >>> 8).toUInt8)

/-- Two bytes stored into a field of a message. -/
def fillField (mem : Nat → UInt8) (p : Nat) (bs : UInt8 × UInt8) : Nat → UInt8 :=
  fun i => if i = p then bs.1 else if i = p + 1 then bs.2 else mem i

/-! ### The checksum of a byte string -/

/-- The bytes of a message. -/
def messageBytes (mem : Nat → UInt8) : Nat → Nat → List UInt8
  | _, 0 => []
  | p, n + 1 => mem p :: messageBytes mem (p + 1) n

/-- The number that two bytes of a message stand for. -/
def networkValue (bs : UInt8 × UInt8) : ℕ := bs.1.toNat * 256 + bs.2.toNat

/-- The words of a byte string, an odd last byte padded with zero. -/
def inetWords : List UInt8 → List ℕ
  | a :: b :: bs => networkValue (a, b) :: inetWords bs
  | [a] => [networkValue (a, 0)]
  | [] => []

/-- The sum of the words in ones' complement. -/
def inetSum (bs : List UInt8) : ℕ := OnesComplement.sum 65535 (inetWords bs)

/-- The Internet checksum of a byte string. -/
def inetChecksum (bs : List UInt8) : ℕ := 65535 - inetSum bs

/-! ### What the routine adds -/

/-- The sum of the words in a message. -/
def wordSum (mem : Nat → UInt8) : Nat → Nat → ℕ
  | p, len + 2 => (hostWord bigEndian (mem p) (mem (p + 1))).toNat + wordSum mem (p + 2) len
  | _, 1 => 0
  | _, 0 => 0

theorem wordSum_le (mem : Nat → UInt8) (p len : Nat) :
    wordSum bigEndian mem p len ≤ len / 2 * 65535 := by
  fun_induction wordSum bigEndian mem p len with
  | case1 p len ih =>
    have hword := (hostWord bigEndian (mem p) (mem (p + 1))).toNat_lt
    rw [Nat.succ_eq_add_one]
    omega
  | case2 p => exact Nat.zero_le _
  | case3 p => exact Nat.zero_le _

theorem toNat_hostWord (a b : UInt8) :
    (hostWord bigEndian a b).toNat =
      if bigEndian then a.toNat * 256 + b.toNat else b.toNat * 256 + a.toNat := by
  have ha := a.toNat_lt
  have hb := b.toNat_lt
  cases bigEndian <;> simp [hostWord] <;> omega

theorem htons_odd (a : UInt8) : htons bigEndian (a.toUInt16 <<< 8) = hostWord bigEndian a 0 := by
  cases bigEndian with
  | true =>
    apply UInt16.toNat_inj.mp
    simp [htons, hostWord, Nat.shiftLeft_eq]
  | false =>
    apply UInt16.toNat_inj.mp
    have ha := a.toNat_lt
    have hhigh : a.toNat * 256 * 256 % 65536 = 0 := by omega
    have hlow : a.toNat * 256 % 65536 / 256 = a.toNat := by omega
    simp [htons, hostWord, Nat.shiftLeft_eq, Nat.shiftRight_eq_div_pow, hhigh, hlow]

theorem toNat_chksumLoop (mem : Nat → UInt8) (p len : Nat) (acc : UInt32)
    (hacc : acc.toNat + len * 65536 < 2 ^ 32) :
    (chksumLoop bigEndian mem p len acc).1.toNat = acc.toNat + wordSum bigEndian mem p len ∧
      (chksumLoop bigEndian mem p len acc).2 = len % 2 := by
  fun_induction chksumLoop bigEndian mem p len acc with
  | case1 p len acc ih =>
    have hword := (hostWord bigEndian (mem p) (mem (p + 1))).toNat_lt
    have hsum : (acc + (hostWord bigEndian (mem p) (mem (p + 1))).toUInt32).toNat =
        acc.toNat + (hostWord bigEndian (mem p) (mem (p + 1))).toNat := by
      rw [UInt32.toNat_add, UInt16.toNat_toUInt32]
      omega
    rw [hsum] at ih
    obtain ⟨hval, hlen⟩ := ih (by omega)
    exact ⟨by rw [hval, wordSum, Nat.add_assoc], hlen.trans (Nat.add_mod_right len 2).symm⟩
  | case2 p acc => exact ⟨rfl, rfl⟩
  | case3 p acc => exact ⟨rfl, rfl⟩

/-- The sum of the words in a message and of the byte `x` that stands in for an odd one. -/
def wordTotal (mem : Nat → UInt8) (p len : Nat) (x : UInt8) : ℕ :=
  wordSum bigEndian mem p len + if len % 2 = 1 then (hostWord bigEndian x 0).toNat else 0

theorem toNat_chksum (mem : Nat → UInt8) (p : Nat) {len : Nat} (hlen : len < 65536) :
    (chksum bigEndian mem p len).toNat = wordTotal bigEndian mem p len (mem p) := by
  obtain ⟨hval, hodd⟩ := toNat_chksumLoop bigEndian mem p len 0 (by rw [UInt32.toNat_zero]; omega)
  rw [UInt32.toNat_zero, Nat.zero_add] at hval
  rw [chksum, wordTotal, hodd]
  split
  · have hword := (hostWord bigEndian (mem p) 0).toNat_lt
    have hsum := wordSum_le bigEndian mem p len
    rw [htons_odd, UInt32.toNat_add, UInt16.toNat_toUInt32, hval]
    omega
  · rw [hval, Nat.add_zero]

theorem represents_foldCarries (acc : UInt32) :
    Represents 65535 (foldCarries acc).toNat acc.toNat := by
  fun_induction foldCarries acc with
  | case1 acc h => exact ⟨(high_eq_zero_iff acc).mp h, rfl, Iff.rfl⟩
  | case2 acc h ih =>
    have hsum := toNat_folded acc
    rw [toNat_folded] at ih
    refine ⟨ih.le, ih.modEq.trans ?_, ih.zero.trans ?_⟩
    · have hsplit := Nat.div_add_mod acc.toNat 65536
      omega
    · omega

/-- The number that the host's word `r` is in the network. -/
def swapped (r : ℕ) : ℕ := if bigEndian then r else r % 256 * 256 + r / 256

theorem networkValue_storedBytes (w : UInt16) :
    networkValue (storedBytes bigEndian w) = swapped bigEndian w.toNat := by
  have hw := w.toNat_lt
  cases bigEndian <;>
    simp [networkValue, storedBytes, swapped, Nat.shiftRight_eq_div_pow] <;> omega

theorem represents_swapped {r n n' : ℕ} (h : Represents 65535 r n)
    (hbig : bigEndian = true → n' = n) (hlittle : bigEndian = false → n' % 65535 = 256 * n % 65535)
    (hzero : n' = 0 ↔ n = 0) : Represents 65535 (swapped bigEndian r) n' := by
  have hle := h.le
  have hmod := h.modEq
  cases bigEndian with
  | true => rwa [hbig rfl]
  | false =>
    have hn := hlittle rfl
    refine ⟨?_, ?_, ?_⟩
    · rw [swapped, if_neg Bool.false_ne_true]
      omega
    · rw [swapped, if_neg Bool.false_ne_true]
      omega
    · rw [swapped, if_neg Bool.false_ne_true, hzero, ← h.zero]
      omega

/-- The sum of the words in the network's order. -/
theorem wordSum_swapped (mem : Nat → UInt8) (p len : Nat) :
    wordSum true mem p len % 65535 = 256 * wordSum false mem p len % 65535 ∧
      (wordSum true mem p len = 0 ↔ wordSum false mem p len = 0) := by
  fun_induction wordSum true mem p len with
  | case1 p len ih =>
    have htrue := toNat_hostWord true (mem p) (mem (p + 1))
    have hfalse := toNat_hostWord false (mem p) (mem (p + 1))
    simp only [if_true, Bool.false_eq_true, if_false] at htrue hfalse
    rw [wordSum]
    omega
  | case2 p => exact ⟨rfl, Iff.rfl⟩
  | case3 p => exact ⟨rfl, Iff.rfl⟩

theorem wordTotal_swapped (mem : Nat → UInt8) (p len : Nat) (x : UInt8) :
    wordTotal true mem p len x % 65535 = 256 * wordTotal false mem p len x % 65535 ∧
      (wordTotal true mem p len x = 0 ↔ wordTotal false mem p len x = 0) := by
  have hsum := wordSum_swapped mem p len
  have htrue := toNat_hostWord true x 0
  have hfalse := toNat_hostWord false x 0
  simp only [if_true, Bool.false_eq_true, if_false, UInt8.toNat_zero] at htrue hfalse
  rw [wordTotal, wordTotal]
  split
  · omega
  · simpa only [Nat.add_zero] using hsum

/-- The folded sum, with its bytes in the network's order, stands for the words that the routine
adds. -/
theorem represents_chksum (mem : Nat → UInt8) (p : Nat) {len : Nat} (hlen : len < 65536) :
    Represents 65535 (swapped bigEndian (foldCarries (chksum bigEndian mem p len)).toNat)
      (wordTotal true mem p len (mem p)) := by
  have hfold := represents_foldCarries (chksum bigEndian mem p len)
  rw [toNat_chksum bigEndian mem p hlen] at hfold
  apply represents_swapped bigEndian hfold
  · rintro rfl
    rfl
  · rintro rfl
    exact (wordTotal_swapped mem p len (mem p)).1
  · cases bigEndian with
    | true => exact Iff.rfl
    | false => exact (wordTotal_swapped mem p len (mem p)).2

theorem networkValue_opLibInetChksum (mem : Nat → UInt8) (p : Nat) (len : UInt16) :
    networkValue (storedBytes bigEndian (opLibInetChksum bigEndian mem p len)) =
      65535 - swapped bigEndian (foldCarries (chksum bigEndian mem p len.toNat)).toNat := by
  have hle := (represents_foldCarries (chksum bigEndian mem p len.toNat)).le
  have hval : (opLibInetChksum bigEndian mem p len).toNat =
      65535 - (foldCarries (chksum bigEndian mem p len.toNat)).toNat := by
    have hsize : UInt32.size = 4294967296 := rfl
    rw [opLibInetChksum, UInt32.toNat_toUInt16, UInt32.toNat_not, toNat_low]
    omega
  rw [networkValue_storedBytes, hval]
  cases bigEndian with
  | true => rfl
  | false =>
    rw [swapped, swapped, if_neg Bool.false_ne_true, if_neg Bool.false_ne_true]
    omega

theorem eq_zero_of_networkValue {w : UInt16} (h : networkValue (storedBytes bigEndian w) = 0) :
    w = 0 := by
  rw [networkValue_storedBytes] at h
  apply UInt16.toNat_inj.mp
  rw [UInt16.toNat_zero]
  cases bigEndian with
  | true => exact h
  | false =>
    rw [swapped, if_neg Bool.false_ne_true] at h
    omega

/-! ### The words of the byte string -/

theorem inetWords_le (bs : List UInt8) : ∀ w ∈ inetWords bs, w ≤ 65535 := by
  have hvalue : ∀ a b : UInt8, networkValue (a, b) ≤ 65535 := by
    intro a b
    have ha := a.toNat_lt
    have hb := b.toNat_lt
    simp only [networkValue]
    omega
  fun_induction inetWords bs with
  | case1 a b bs ih =>
    intro w hw
    rcases List.mem_cons.mp hw with rfl | hw
    · exact hvalue a b
    · exact ih w hw
  | case2 a =>
    intro w hw
    rw [List.mem_singleton.mp hw]
    exact hvalue a 0
  | case3 =>
    intro w hw
    cases hw

/-- An odd last byte is the high byte of a word. -/
theorem sum_inetWords (mem : Nat → UInt8) (p len : Nat) :
    (inetWords (messageBytes mem p len)).sum = wordTotal true mem p len (mem (p + len - 1)) := by
  rw [wordTotal]
  fun_induction wordSum true mem p len with
  | case1 p len ih =>
    have hlast : p + (len + 2) - 1 = p + 2 + len - 1 := by omega
    have hodd : (len + 2) % 2 = len % 2 := Nat.add_mod_right len 2
    have hword : networkValue (mem p, mem (p + 1)) = (hostWord true (mem p) (mem (p + 1))).toNat :=
      (toNat_hostWord true (mem p) (mem (p + 1))).symm
    rw [Nat.succ_eq_add_one, hlast, hodd, messageBytes, messageBytes, inetWords, List.sum_cons,
      ih, hword]
    exact (Nat.add_assoc _ _ _).symm
  | case2 p =>
    have hword := toNat_hostWord true (mem p) 0
    rw [if_pos rfl] at hword
    simp [messageBytes, inetWords, networkValue, hword]
  | case3 p => rfl

theorem represents_inetSum (mem : Nat → UInt8) (p len : Nat) :
    Represents 65535 (inetSum (messageBytes mem p len))
      (wordTotal true mem p len (mem (p + len - 1))) := by
  rw [← sum_inetWords]
  exact represents_sum (inetWords_le _)

/-! ### A checksum filled in -/

/-- A field of two zero bytes at a word of the message. -/
structure ChecksumField (mem : Nat → UInt8) (p len f : Nat) : Prop where
  even : f % 2 = 0
  inside : f + 2 ≤ len
  high : mem (p + f) = 0
  low : mem (p + f + 1) = 0

theorem wordSum_congr {mem mem' : Nat → UInt8} {p len : Nat}
    (h : ∀ i, p ≤ i → mem' i = mem i) :
    wordSum bigEndian mem' p len = wordSum bigEndian mem p len := by
  fun_induction wordSum bigEndian mem p len with
  | case1 p len ih =>
    rw [wordSum, h p (Nat.le_refl p), h (p + 1) (Nat.le_succ p), ih (fun i hi => h i (by omega))]
  | case2 p => rfl
  | case3 p => rfl

/-- The sum of the words grows by what is filled in. -/
theorem wordSum_fillField (mem : Nat → UInt8) {p len f : Nat} (hf : ChecksumField mem p len f)
    (bs : UInt8 × UInt8) :
    wordSum true (fillField mem (p + f) bs) p len = wordSum true mem p len + networkValue bs := by
  have hinside := hf.inside
  have heven := hf.even
  fun_induction wordSum true mem p len generalizing f with
  | case1 p len ih =>
    rw [Nat.succ_eq_add_one, wordSum]
    by_cases hzero : f = 0
    · subst hzero
      have hhigh := hf.high
      have hlow := hf.low
      rw [Nat.add_zero] at hhigh hlow
      have hrest : wordSum true (fillField mem (p + 0) bs) (p + 2) len =
          wordSum true mem (p + 2) len := by
        apply wordSum_congr
        intro i hi
        rw [fillField, if_neg (by omega), if_neg (by omega)]
      have hold : (hostWord true (mem p) (mem (p + 1))).toNat = 0 := by
        rw [hhigh, hlow]
        rfl
      have hnew : (hostWord true (fillField mem (p + 0) bs p)
          (fillField mem (p + 0) bs (p + 1))).toNat = networkValue bs := by
        have hfirst : fillField mem (p + 0) bs p = bs.1 := if_pos rfl
        have hsecond : fillField mem (p + 0) bs (p + 1) = bs.2 := by
          rw [fillField, if_neg (by omega), if_pos rfl]
        rw [toNat_hostWord, if_pos rfl, hfirst, hsecond]
        rfl
      rw [hrest, hold, hnew, Nat.zero_add, Nat.add_comm]
    · have hshift : p + f = p + 2 + (f - 2) := by omega
      have hmoved : ChecksumField mem (p + 2) len (f - 2) := by
        refine ⟨by omega, by omega, ?_, ?_⟩
        · rw [← hshift]
          exact hf.high
        · rw [← hshift]
          exact hf.low
      have hrest := ih hmoved (by omega) (by omega)
      have hhead : fillField mem (p + 2 + (f - 2)) bs p = mem p := by
        rw [fillField, if_neg (by omega), if_neg (by omega)]
      have hnext : fillField mem (p + 2 + (f - 2)) bs (p + 1) = mem (p + 1) := by
        rw [fillField, if_neg (by omega), if_neg (by omega)]
      rw [hshift, hrest, hhead, hnext, Nat.add_assoc]
  | case2 p => omega
  | case3 p => omega

theorem wordTotal_fillField (mem : Nat → UInt8) {p len f : Nat} (hf : ChecksumField mem p len f)
    (bs : UInt8 × UInt8) :
    wordTotal true (fillField mem (p + f) bs) p len (fillField mem (p + f) bs (p + len - 1)) =
      wordTotal true mem p len (mem (p + len - 1)) + networkValue bs := by
  have heven := hf.even
  have hinside := hf.inside
  rw [wordTotal, wordTotal, wordSum_fillField mem hf bs]
  split
  · have hlast : fillField mem (p + f) bs (p + len - 1) = mem (p + len - 1) := by
      rw [fillField, if_neg (by omega), if_neg (by omega)]
    rw [hlast, Nat.add_right_comm]
  · rw [Nat.add_zero, Nat.add_zero]

/-- A byte string with its checksum filled in sums up to all ones. -/
theorem inetChecksum_fillField (mem : Nat → UInt8) {p len f : Nat} (hf : ChecksumField mem p len f)
    {bs : UInt8 × UInt8} (hbs : networkValue bs = inetChecksum (messageBytes mem p len)) :
    inetChecksum (messageBytes (fillField mem (p + f) bs) p len) = 0 := by
  have hsum := represents_inetSum mem p len
  have hfilled := represents_inetSum (fillField mem (p + f) bs) p len
  rw [wordTotal_fillField mem hf bs, hbs, inetChecksum] at hfilled
  have hones := hfilled.unique (represents_complement hsum)
  rw [inetChecksum, hones, Nat.sub_self]

/-- The routine computes the checksum of the message, and the message with this checksum filled in
verifies. -/
structure ChecksumCorrect (mem : Nat → UInt8) (p : Nat) (len : UInt16) : Prop where
  checksum : networkValue (storedBytes bigEndian (opLibInetChksum bigEndian mem p len)) =
    inetChecksum (messageBytes mem p len.toNat)
  verifies : ∀ f, ChecksumField mem p len.toNat f →
    inetChecksum (messageBytes (fillField mem (p + f)
      (storedBytes bigEndian (opLibInetChksum bigEndian mem p len))) p len.toNat) = 0

theorem wordTotal_mod_inj {mem : Nat → UInt8} {p len : Nat} {x y : UInt8} (hodd : len % 2 = 1)
    (h : wordTotal true mem p len x % 65535 = wordTotal true mem p len y % 65535) : x = y := by
  have hx := toNat_hostWord true x 0
  have hy := toNat_hostWord true y 0
  have hxlt := x.toNat_lt
  have hylt := y.toNat_lt
  rw [if_pos rfl, UInt8.toNat_zero, Nat.add_zero] at hx hy
  rw [wordTotal, wordTotal, if_pos hodd, if_pos hodd, hx, hy] at h
  apply UInt8.toNat_inj.mp
  omega

theorem networkValue_eq_inetChecksum_iff (mem : Nat → UInt8) (p : Nat) (len : UInt16) :
    networkValue (storedBytes bigEndian (opLibInetChksum bigEndian mem p len)) =
        inetChecksum (messageBytes mem p len.toNat) ↔
      (len.toNat % 2 = 1 → mem p = mem (p + len.toNat - 1)) := by
  have hcode := represents_chksum bigEndian mem p len.toNat_lt
  have hspec := represents_inetSum mem p len.toNat
  have hle := hcode.le
  have hle' := hspec.le
  rw [networkValue_opLibInetChksum, inetChecksum]
  constructor
  · intro h hodd
    have hsums : swapped bigEndian (foldCarries (chksum bigEndian mem p len.toNat)).toNat =
        inetSum (messageBytes mem p len.toNat) := by omega
    rw [hsums] at hcode
    exact wordTotal_mod_inj hodd (hcode.modEq_of_eq hspec)
  · intro h
    have htotal : wordTotal true mem p len.toNat (mem p) =
        wordTotal true mem p len.toNat (mem (p + len.toNat - 1)) := by
      rw [wordTotal, wordTotal]
      split
      · rename_i hodd
        rw [h hodd]
      · rfl
    rw [htotal] at hcode
    rw [hcode.unique hspec]

/-- **The checksum of a message.**  The routine computes the Internet checksum of a message, which
then verifies with the checksum filled in, exactly when the message has an even length or its last
byte is its first.  What is computed for an even length is zero for the message with its checksum
filled in. -/
theorem checksumCorrect_iff (mem : Nat → UInt8) (p : Nat) (len : UInt16) :
    (ChecksumCorrect bigEndian mem p len ↔
      (len.toNat % 2 = 1 → mem p = mem (p + len.toNat - 1))) ∧
    (len.toNat % 2 = 0 → ∀ f, ChecksumField mem p len.toNat f →
      opLibInetChksum bigEndian (fillField mem (p + f)
        (storedBytes bigEndian (opLibInetChksum bigEndian mem p len))) p len = 0) := by
  constructor
  · rw [← networkValue_eq_inetChecksum_iff bigEndian mem p len]
    constructor
    · intro h
      exact h.checksum
    · intro h
      exact ⟨h, fun f hf => inetChecksum_fillField mem hf h⟩
  · intro heven f hf
    have hdone := (networkValue_eq_inetChecksum_iff bigEndian mem p len).mpr (by omega)
    have hagain := (networkValue_eq_inetChecksum_iff bigEndian (fillField mem (p + f)
      (storedBytes bigEndian (opLibInetChksum bigEndian mem p len))) p len).mpr (by omega)
    rw [inetChecksum_fillField mem hf hdone] at hagain
    exact eq_zero_of_networkValue bigEndian hagain

/-- The message 1, 0, 0: the routine adds its first byte twice. -/
theorem checksum_odd_wrong : ¬ChecksumCorrect true (fun i => if i = 0 then 1 else 0) 0 3 := by
  intro h
  have hbytes := (networkValue_eq_inetChecksum_iff true (fun i => if i = 0 then 1 else 0) 0 3).mp
    h.checksum (by decide)
  exact absurd hbytes (by decide)

end Opconn.Multicast
