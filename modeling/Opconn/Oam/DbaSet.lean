import Mathlib.Data.List.Nodup
import Mathlib.Data.List.TakeWhile
import Opconn.Lib.Calls
import Opconn.Oam.VariableRequest

/-!
# Thresholds of the queue sets

A DBA set request carries queue sets: a bitmap of queues and a threshold for each of them.
`eopl_set_dba_2_0` walks over them, hands every threshold to the layer below and answers with a
copy of what it has walked over.  An empty bitmap does not move the walk on, and the copy is
longer than the walk by the size of a full queue set.
-/

namespace Opconn.Oam.Dba

open Calls
open Variable (Link eoplOamPduHdr)

/-! ### The handler -/

/-- A call of `odmPonQsetThresholdSet`. -/
structure Assign where
  ucIdx : Nat
  ucQId : Nat
  threshold : UInt16
deriving DecidableEq, Repr

/-- `OPL_OK`. -/
def oplOk : UInt32 := 0

/-- `sizeof(oam_dba_queue_t)`: a bitmap and eight thresholds. -/
def oamDbaQueueSize : Nat := 17

/-- `OAM_EXT_CODE_DBA` and `OAM_SET_DBA_RESPONSE`. -/
def oamExtCodeDba : UInt8 := 0x0A
def oamSetDbaResponse : UInt8 := 0x03

/-- `g_aucCtcOui`. -/
def aucCtcOui : Buffer := [0x11, 0x11, 0x11]

/-- `eopl_ctc_header_2_0`, and `eopl_ctc_header` of the later version. -/
def eoplCtcHeader (l : Link) (extCode : UInt8) : Buffer :=
  eoplOamPduHdr l oamCodeOrgSpec ++ aucCtcOui ++ [extCode]

section Handler

variable {σ : Type} (layer : σ → Assign → σ × UInt32)

/-- The walk over the queues of a set: the layer below, the calls so far, the thresholds taken
out of this set and the last answer. -/
structure QueueWalk (σ : Type) where
  state : σ
  calls : List Assign
  size : Nat
  rlt : UInt32

/-- The inner loop of `eopl_set_dba_2_0`, with `p_dba` at the set. -/
def queueLoop (pDba : Buffer) (ucIdx : Nat) : List Nat → QueueWalk σ → QueueWalk σ
  | [], w => w
  | ucQId :: rest, w =>
    if (byteAt pDba 0).toNat.testBit ucQId then
      let call : Assign := ⟨ucIdx, ucQId, u16At pDba (1 + 2 * w.size)⟩
      let done := layer w.state call
      if done.2 ≠ oplOk then ⟨done.1, w.calls ++ [call], w.size, done.2⟩
      else queueLoop pDba ucIdx rest ⟨done.1, w.calls ++ [call], w.size + 1, done.2⟩
    else queueLoop pDba ucIdx rest w

/-- The walk over the sets: how far `p_dba` has come, and whether it came to the end. -/
structure SetWalk (σ : Type) where
  state : σ
  calls : List Assign
  read : Nat
  complete : Bool

/-- The outer loop, with `rounds` sets to go. -/
def setLoop (pTmp : Buffer) : Nat → Nat → Nat → σ → List Assign → SetWalk σ
  | 0, _, read, s, calls => ⟨s, calls, read, true⟩
  | rounds + 1, ucIdx, read, s, calls =>
    let w := queueLoop layer (pTmp.drop read) ucIdx (List.range 8) ⟨s, calls, 0, oplOk⟩
    if w.rlt ≠ oplOk then ⟨w.state, w.calls, read, false⟩
    else setLoop pTmp rounds (ucIdx + 1) (if 0 < w.size then read + (1 + w.size * 2) else read)
      w.state w.calls

/-- The frame that is sent: `size` is a byte, computed first for the copy and then for all. -/
def setDbaResponse (l : Link) (ucQSetNum : UInt8) (pTmp : Buffer) (read : Nat)
    (complete : Bool) : Buffer :=
  let copied := (read + oamDbaQueueSize) % 256
  let front := eoplCtcHeader l oamExtCodeDba ++
    [oamSetDbaResponse, if complete then 1 else 0, ucQSetNum] ++ bytesAt pTmp 0 copied
  let size := (oampduHdrSize + 4 + 3 + copied) % 256
  if size < oamMinimizePduSize then
    (front ++ List.replicate (oamMinimizePduSize - size) 0).take oamMinimizePduSize
  else front.take size

/-- `eopl_set_dba_2_0`: what the walk leaves, and the frame that is sent. -/
def eoplSetDba20 (l : Link) (ucQSetNum : UInt8) (pDba : Buffer) (s : σ) : SetWalk σ × Buffer :=
  let walked := setLoop layer pDba ucQSetNum.toNat 0 0 s []
  (walked, setDbaResponse l ucQSetNum pDba walked.read walked.complete)

/-- `eopl_set_dba` of the later version has the same body. -/
def eoplSetDba (l : Link) (ucQSetNum : UInt8) (pDba : Buffer) (s : σ) : SetWalk σ × Buffer :=
  eoplSetDba20 layer l ucQSetNum pDba s

end Handler

/-! ### Queue sets -/

/-- The queues of a bitmap. -/
def queuesOf (bitmap : UInt8) : List Nat := (List.range 8).filter bitmap.toNat.testBit

/-- A queue set: a threshold for each queue of its bitmap. -/
structure QueueSet where
  bitmap : UInt8
  thresholds : List UInt16
  one_each : thresholds.length = (queuesOf bitmap).length

def thresholdBytes (t : UInt16) : Buffer := [(t >>> 8).toUInt8, t.toUInt8]

/-- A queue set in a request. -/
def QueueSet.encode (set : QueueSet) : Buffer :=
  set.bitmap :: set.thresholds.flatMap thresholdBytes

def encodeAll (sets : List QueueSet) : Buffer := sets.flatMap QueueSet.encode

/-- What set `i` asks for. -/
def QueueSet.assigns (set : QueueSet) (i : Nat) : List Assign :=
  List.zipWith (fun q t => ⟨i, q, t⟩) (queuesOf set.bitmap) set.thresholds

/-- What the sets from number `i` on ask for. -/
def assignsFrom : Nat → List QueueSet → List Assign
  | _, [] => []
  | i, set :: sets => set.assigns i ++ assignsFrom (i + 1) sets

/-- The answer to a request with these sets: the sets behind the header, and zeros up to the
length of the shortest frame. -/
def echoOf (l : Link) (sets : List QueueSet) : Buffer :=
  let front := eoplCtcHeader l oamExtCodeDba ++
    [oamSetDbaResponse, 1, UInt8.ofNat sets.length] ++ encodeAll sets
  front ++ List.replicate (oamMinimizePduSize - front.length) 0

/-- What is asked of a request with these sets, in front of the bytes `behind`. -/
structure SetExactly {σ : Type} (layer : σ → Assign → σ × UInt32) (l : Link)
    (sets : List QueueSet) (behind : Buffer) (s : σ) : Prop where
  assigns : (eoplSetDba20 layer l (UInt8.ofNat sets.length) (encodeAll sets ++ behind) s).1.calls =
    assignsFrom 0 sets
  echoes : (eoplSetDba20 layer l (UInt8.ofNat sets.length) (encodeAll sets ++ behind) s).2 =
    echoOf l sets

/-! ### The walk -/

section Walk

variable {σ : Type} {layer : σ → Assign → σ × UInt32}

/-- The queues of a set that are still to come, with the thresholds for them in the request. -/
structure Ahead (pDba : Buffer) (queues : List Nat) (size : Nat) (ts : List UInt16) : Prop where
  count : ts.length = (queues.filter (byteAt pDba 0).toNat.testBit).length
  reads : ∀ j (hj : j < ts.length), u16At pDba (1 + 2 * (size + j)) = ts[j]

theorem Ahead.tail {pDba : Buffer} {q : Nat} {rest : List Nat} {size : Nat} {t : UInt16}
    {ts : List UInt16} (h : Ahead pDba (q :: rest) size (t :: ts))
    (hq : (byteAt pDba 0).toNat.testBit q = true) : Ahead pDba rest (size + 1) ts := by
  constructor
  · have hcount := h.count
    rw [List.filter_cons, if_pos hq, List.length_cons, List.length_cons] at hcount
    exact Nat.succ.inj hcount
  · intro j hj
    have hplace : size + 1 + j = size + (j + 1) := by omega
    rw [hplace]
    exact h.reads (j + 1) (Nat.succ_lt_succ hj)

/-- The calls for the queues ahead. -/
def callsAhead (pDba : Buffer) (ucIdx : Nat) (queues : List Nat) (ts : List UInt16) :
    List Assign :=
  List.zipWith (fun q t => ⟨ucIdx, q, t⟩) (queues.filter (byteAt pDba 0).toNat.testBit) ts

/-- The inner loop makes the calls ahead as long as the layer takes them. -/
theorem queueLoop_eq {pDba : Buffer} {ucIdx : Nat} {queues : List Nat} {w : QueueWalk σ}
    {ts : List UInt16} (hw : w.rlt = oplOk) (h : Ahead pDba queues w.size ts) :
    (Accepts (· = oplOk) layer w.state (callsAhead pDba ucIdx queues ts) →
      queueLoop layer pDba ucIdx queues w =
        ⟨afterCalls layer w.state (callsAhead pDba ucIdx queues ts),
          w.calls ++ callsAhead pDba ucIdx queues ts, w.size + ts.length, oplOk⟩) ∧
    (¬Accepts (· = oplOk) layer w.state (callsAhead pDba ucIdx queues ts) →
      (queueLoop layer pDba ucIdx queues w).rlt ≠ oplOk) := by
  induction queues generalizing w ts with
  | nil =>
    have hnil : ts = [] := List.length_eq_zero_iff.mp h.count
    subst hnil
    refine ⟨fun _ => ?_, fun hno => absurd trivial hno⟩
    obtain ⟨state, calls, size, rlt⟩ := w
    obtain rfl : rlt = oplOk := hw
    simp [queueLoop, callsAhead, afterCalls]
  | cons q rest ih =>
    by_cases hq : (byteAt pDba 0).toNat.testBit q = true
    · cases ts with
      | nil =>
        have hcount := h.count
        rw [List.filter_cons, if_pos hq] at hcount
        cases hcount
      | cons t ts =>
        have hread : u16At pDba (1 + 2 * w.size) = t := h.reads 0 (Nat.zero_lt_succ _)
        have hcalls : callsAhead pDba ucIdx (q :: rest) (t :: ts) =
            ⟨ucIdx, q, t⟩ :: callsAhead pDba ucIdx rest ts := by
          rw [callsAhead, List.filter_cons, if_pos hq, List.zipWith_cons_cons]
          rfl
        rw [hcalls, Accepts, queueLoop, if_pos hq]
        simp only [hread]
        by_cases hok : (layer w.state ⟨ucIdx, q, t⟩).2 = oplOk
        · have hnext := ih (w := ⟨(layer w.state ⟨ucIdx, q, t⟩).1,
            w.calls ++ [⟨ucIdx, q, t⟩], w.size + 1, (layer w.state ⟨ucIdx, q, t⟩).2⟩) hok
            (h.tail hq)
          rw [if_neg (not_not_intro hok)]
          refine ⟨?_, fun hno => hnext.2 fun hrest => hno ⟨hok, hrest⟩⟩
          rintro ⟨-, hrest⟩
          have hsize : w.size + 1 + ts.length = w.size + (ts.length + 1) := by omega
          rw [hnext.1 hrest, List.append_assoc, List.singleton_append, List.length_cons, hsize]
          rfl
        · rw [if_pos hok]
          exact ⟨fun hall => absurd hall.1 hok, fun _ => hok⟩
    · have hahead : Ahead pDba rest w.size ts := by
        refine ⟨?_, h.reads⟩
        rw [h.count, List.filter_cons, if_neg hq]
      have hcalls : callsAhead pDba ucIdx (q :: rest) ts = callsAhead pDba ucIdx rest ts := by
        rw [callsAhead, List.filter_cons, if_neg hq]
        rfl
      rw [hcalls, queueLoop, if_neg hq]
      exact ih hw hahead

theorem length_thresholds (ts : List UInt16) :
    (ts.flatMap thresholdBytes).length = 2 * ts.length := by
  induction ts with
  | nil => rfl
  | cons t ts ih =>
    rw [List.flatMap_cons, List.length_append, ih, List.length_cons]
    simp only [thresholdBytes, List.length_cons, List.length_nil]
    omega

theorem QueueSet.length_encode (set : QueueSet) :
    set.encode.length = 1 + 2 * set.thresholds.length := by
  rw [QueueSet.encode, List.length_cons, length_thresholds, Nat.add_comm]

/-- The thresholds of a set are read as they were put in. -/
theorem u16At_thresholds (b : UInt8) (ts : List UInt16) (tail : Buffer) (j : Nat)
    (hj : j < ts.length) :
    u16At (b :: (ts.flatMap thresholdBytes ++ tail)) (1 + 2 * j) = ts[j] := by
  induction ts generalizing b j with
  | nil => cases hj
  | cons t ts ih =>
    cases j with
    | zero => exact u16_of_bytes t
    | succ j =>
      have hplace : 1 + 2 * (j + 1) = 1 + 2 * j + 2 := by omega
      rw [hplace]
      exact ih t.toUInt8 j (Nat.lt_of_succ_lt_succ hj)

theorem ahead_encode (set : QueueSet) (tail : Buffer) :
    Ahead (set.encode ++ tail) (List.range 8) 0 set.thresholds := by
  constructor
  · exact set.one_each
  · intro j hj
    rw [Nat.zero_add]
    exact u16At_thresholds set.bitmap set.thresholds tail j hj

/-- A set with an empty bitmap has no thresholds, and only such a set. -/
theorem QueueSet.bitmap_eq_zero_iff (set : QueueSet) :
    set.bitmap = 0 ↔ set.thresholds.length = 0 := by
  have hbits : ∀ b : UInt8, b = 0 ↔ (queuesOf b).length = 0 := by
    intro b
    have hall : ∀ n < 256, UInt8.ofNat n = 0 ↔ (queuesOf (UInt8.ofNat n)).length = 0 := by
      decide +kernel
    have hb := hall b.toNat b.toNat_lt
    rwa [UInt8.ofNat_toNat] at hb
  rw [set.one_each]
  exact hbits set.bitmap

theorem QueueSet.encode_of_empty {set : QueueSet} (h : set.bitmap = 0) : set.encode = [0] := by
  have hnil := List.length_eq_zero_iff.mp (set.bitmap_eq_zero_iff.mp h)
  rw [QueueSet.encode, hnil, h]
  rfl

theorem QueueSet.assigns_of_empty {set : QueueSet} (h : set.bitmap = 0) (i : Nat) :
    set.assigns i = [] := by
  have hnil := List.length_eq_zero_iff.mp (set.bitmap_eq_zero_iff.mp h)
  rw [QueueSet.assigns, hnil, List.zipWith_nil_right]

theorem QueueSet.assigns_ne_nil {set : QueueSet} (h : set.bitmap ≠ 0) (i : Nat) :
    set.assigns i ≠ [] := by
  have hlen : (set.assigns i).length = set.thresholds.length := by
    rw [QueueSet.assigns, List.length_zipWith, ← set.one_each, Nat.min_self]
  intro hnil
  rw [hnil, List.length_nil] at hlen
  exact h (set.bitmap_eq_zero_iff.mpr hlen.symm)

theorem encodeAll_cons (set : QueueSet) (sets : List QueueSet) :
    encodeAll (set :: sets) = set.encode ++ encodeAll sets := List.flatMap_cons

theorem encodeAll_append (sets sets' : List QueueSet) :
    encodeAll (sets ++ sets') = encodeAll sets ++ encodeAll sets' := List.flatMap_append

/-- The outer loop over sets that all have queues: it comes to their end when the layer takes all
calls, and breaks off otherwise. -/
theorem setLoop_front {front : List QueueSet} (hfront : ∀ set ∈ front, set.bitmap ≠ 0)
    {pTmp tail : Buffer} (ucIdx : Nat) {read : Nat}
    (hread : pTmp.drop read = encodeAll front ++ tail)
    (rounds : Nat) (s : σ) (calls : List Assign) :
    (Accepts (· = oplOk) layer s (assignsFrom ucIdx front) →
      setLoop layer pTmp (front.length + rounds) ucIdx read s calls =
        setLoop layer pTmp rounds (ucIdx + front.length) (read + (encodeAll front).length)
          (afterCalls layer s (assignsFrom ucIdx front)) (calls ++ assignsFrom ucIdx front)) ∧
    (¬Accepts (· = oplOk) layer s (assignsFrom ucIdx front) →
      (setLoop layer pTmp (front.length + rounds) ucIdx read s calls).complete = false) := by
  induction front generalizing ucIdx read s calls with
  | nil =>
    refine ⟨fun _ => ?_, fun hno => absurd trivial hno⟩
    simp [assignsFrom, encodeAll, afterCalls]
  | cons set front ih =>
    have hset : set.bitmap ≠ 0 := hfront set (List.mem_cons_self ..)
    have hsize : 0 < set.thresholds.length :=
      Nat.pos_of_ne_zero fun hzero => hset (set.bitmap_eq_zero_iff.mpr hzero)
    rw [encodeAll_cons, List.append_assoc] at hread
    have hrounds : (set :: front).length + rounds = (front.length + rounds) + 1 := by
      rw [List.length_cons]
      omega
    have hqueues := @queueLoop_eq σ layer _ ucIdx _ ⟨s, calls, 0, oplOk⟩ _
      rfl (ahead_encode set (encodeAll front ++ tail))
    rw [hrounds, assignsFrom, accepts_append, setLoop, hread]
    have hcalls : callsAhead (set.encode ++ (encodeAll front ++ tail)) ucIdx (List.range 8)
        set.thresholds = set.assigns ucIdx := rfl
    rw [hcalls] at hqueues
    by_cases hok : Accepts (· = oplOk) layer s (set.assigns ucIdx)
    · have hnext : pTmp.drop (read + set.encode.length) = encodeAll front ++ tail := by
        rw [← List.drop_drop, hread, List.drop_left]
      have hmove : read + (1 + (0 + set.thresholds.length) * 2) = read + set.encode.length := by
        rw [set.length_encode]
        omega
      have hpos : 0 < 0 + set.thresholds.length := by omega
      have hrest := ih (fun set' hset' => hfront set' (List.mem_cons_of_mem _ hset')) (ucIdx + 1)
        hnext
        (afterCalls layer s (set.assigns ucIdx))
        (calls ++ set.assigns ucIdx)
      simp only [hqueues.1 hok, ne_eq, not_true_eq_false, if_false, if_pos hpos, hmove]
      refine ⟨?_, fun hno => hrest.2 fun hall => hno ⟨hok, hall⟩⟩
      rintro ⟨-, hall⟩
      have hidx : ucIdx + 1 + front.length = ucIdx + (front.length + 1) := by omega
      have hlength : read + set.encode.length + (encodeAll front).length =
          read + (encodeAll (set :: front)).length := by
        rw [encodeAll_cons, List.length_append, Nat.add_assoc]
      have hafter : afterCalls layer (afterCalls layer s (set.assigns ucIdx))
          (assignsFrom (ucIdx + 1) front) =
            afterCalls layer s (set.assigns ucIdx ++ assignsFrom (ucIdx + 1) front) :=
        (Runs.run_append _ s _ _).symm
      rw [hrest.1 hall, hidx, hlength, hafter, List.append_assoc, List.length_cons]
    · have hbroken := hqueues.2 hok
      rw [if_pos hbroken]
      exact ⟨fun hall => absurd hall.1 hok, fun _ => rfl⟩

/-- In front of an empty bitmap the walk over the queues makes no call. -/
theorem queueLoop_stays {pDba : Buffer} (hzero : byteAt pDba 0 = 0) (ucIdx : Nat)
    (queues : List Nat) (w : QueueWalk σ) : queueLoop layer pDba ucIdx queues w = w := by
  induction queues with
  | nil => rfl
  | cons q rest ih =>
    have hbit : ¬(byteAt pDba 0).toNat.testBit q = true := by
      rw [hzero]
      simp
    rw [queueLoop, if_neg hbit, ih]

/-- There the outer loop stays, however many sets are to go. -/
theorem setLoop_stays {pTmp : Buffer} {read : Nat} (hzero : byteAt (pTmp.drop read) 0 = 0)
    (rounds ucIdx : Nat) (s : σ) (calls : List Assign) :
    setLoop layer pTmp rounds ucIdx read s calls = ⟨s, calls, read, true⟩ := by
  induction rounds generalizing ucIdx with
  | zero => rfl
  | succ rounds ih =>
    rw [setLoop, queueLoop_stays hzero]
    simpa using ih (ucIdx + 1)

/-! ### The sets up to the first empty one -/

/-- The sets in front of the first one with an empty bitmap, and the others. -/
def frontOf (sets : List QueueSet) : List QueueSet := sets.takeWhile (·.bitmap != 0)
def restOf (sets : List QueueSet) : List QueueSet := sets.dropWhile (·.bitmap != 0)

theorem frontOf_append_restOf (sets : List QueueSet) : frontOf sets ++ restOf sets = sets :=
  List.takeWhile_append_dropWhile

theorem bitmap_ne_of_mem_frontOf {sets : List QueueSet} {set : QueueSet}
    (h : set ∈ frontOf sets) : set.bitmap ≠ 0 := by
  simpa using List.mem_takeWhile_imp h

/-- The rest starts with an empty set. -/
theorem restOf_cases (sets : List QueueSet) :
    restOf sets = [] ∨ ∃ set rest, restOf sets = set :: rest ∧ set.bitmap = 0 := by
  cases hrest : restOf sets with
  | nil => exact .inl rfl
  | cons set rest =>
    have hne : sets.dropWhile (·.bitmap != 0) ≠ [] := by
      rw [← restOf, hrest]
      exact List.cons_ne_nil _ _
    have hhead := List.head_dropWhile_not (fun set : QueueSet => set.bitmap != 0) hne
    refine .inr ⟨set, rest, rfl, ?_⟩
    rw [restOf] at hrest
    simpa [hrest] using hhead

/-- The whole walk: over the sets in front of the first empty one. -/
theorem setLoop_encodeAll (layer : σ → Assign → σ × UInt32) (sets : List QueueSet)
    (behind : Buffer) (s : σ) :
    (Accepts (· = oplOk) layer s (assignsFrom 0 (frontOf sets)) →
      setLoop layer (encodeAll sets ++ behind) sets.length 0 0 s [] =
        ⟨afterCalls layer s (assignsFrom 0 (frontOf sets)), assignsFrom 0 (frontOf sets),
          (encodeAll (frontOf sets)).length, true⟩) ∧
    (¬Accepts (· = oplOk) layer s (assignsFrom 0 (frontOf sets)) →
      (setLoop layer (encodeAll sets ++ behind) sets.length 0 0 s []).complete = false) := by
  have hlength : sets.length = (frontOf sets).length + (restOf sets).length := by
    rw [← List.length_append, frontOf_append_restOf]
  have hread : (encodeAll sets ++ behind).drop 0 =
      encodeAll (frontOf sets) ++ (encodeAll (restOf sets) ++ behind) := by
    rw [List.drop_zero, ← List.append_assoc, ← encodeAll_append, frontOf_append_restOf]
  have hwalk := @setLoop_front σ layer _
    (fun set hset => bitmap_ne_of_mem_frontOf hset) _ _ 0 0 hread (restOf sets).length s []
  rw [hlength]
  refine ⟨?_, hwalk.2⟩
  intro hok
  rw [hwalk.1 hok, Nat.zero_add, Nat.zero_add, List.nil_append]
  rcases restOf_cases sets with hnil | ⟨set, rest, hrest, hempty⟩
  · rw [hnil]
    rfl
  · apply setLoop_stays
    rw [List.drop_zero] at hread
    rw [hread, List.drop_left, hrest, encodeAll_cons, QueueSet.encode_of_empty hempty]
    rfl

/-- What is asked for ends with the front exactly when the rest is empty sets. -/
theorem assignsFrom_eq_frontOf_iff (sets : List QueueSet) :
    assignsFrom 0 (frontOf sets) = assignsFrom 0 sets ↔
      ∀ set ∈ restOf sets, set.bitmap = 0 := by
  have happend : ∀ (i : Nat) (sets sets' : List QueueSet), assignsFrom i (sets ++ sets') =
      assignsFrom i sets ++ assignsFrom (i + sets.length) sets' := by
    intro i sets sets'
    induction sets generalizing i with
    | nil => rfl
    | cons set sets ih =>
      have hidx : i + 1 + sets.length = i + (sets.length + 1) := by omega
      rw [List.cons_append, assignsFrom, assignsFrom, ih, List.append_assoc, List.length_cons, hidx]
  have hnil : ∀ (i : Nat) (sets : List QueueSet), assignsFrom i sets = [] ↔
      ∀ set ∈ sets, set.bitmap = 0 := by
    intro i sets
    induction sets generalizing i with
    | nil => simp [assignsFrom]
    | cons set sets ih =>
      rw [assignsFrom, List.append_eq_nil_iff, ih, List.forall_mem_cons]
      refine and_congr_left fun _ => ⟨?_, fun hempty => QueueSet.assigns_of_empty hempty i⟩
      intro hassigns
      by_contra hne
      exact QueueSet.assigns_ne_nil hne i hassigns
  have hsplit := happend 0 (frontOf sets) (restOf sets)
  rw [frontOf_append_restOf] at hsplit
  rw [hsplit, List.self_eq_append_right, hnil]

end Walk

/-! ### The echo -/

theorem bytesAt_zero_add (front tail : Buffer) (n : Nat) :
    bytesAt (front ++ tail) 0 (front.length + n) = front ++ bytesAt tail 0 n := by
  apply List.ext_getElem
  · simp [bytesAt]
  · intro i hi hi'
    by_cases hlt : i < front.length
    · simp [bytesAt, byteAt, List.getElem_append_left hlt, List.getElem?_append_left hlt,
        List.getElem?_eq_getElem hlt]
    · simp [bytesAt, byteAt, List.getElem_append_right (Nat.le_of_not_lt hlt),
        List.getElem?_append_right (Nat.le_of_not_lt hlt)]

/-- Empty sets are zeros. -/
theorem encodeAll_of_empty {sets : List QueueSet} (h : ∀ set ∈ sets, set.bitmap = 0) :
    encodeAll sets = List.replicate sets.length 0 := by
  induction sets with
  | nil => rfl
  | cons set sets ih =>
    rw [encodeAll_cons, QueueSet.encode_of_empty (h set (List.mem_cons_self ..)),
      ih fun set' hset' => h set' (List.mem_cons_of_mem _ hset')]
    rfl

/-- The echo of `m` bytes of sets with queues and `k` empty sets: either the empty sets make up
just what is copied too much, or all fits the shortest frame and only zeros are copied. -/
def EchoFits (m k : Nat) (behind : Buffer) : Prop :=
  (k = oamDbaQueueSize ∧ m ≤ 213) ∨
    (m ≤ 18 ∧ m + k ≤ 35 ∧ ∀ j, j + k < oamDbaQueueSize → byteAt behind j = 0)

/-- What is copied behind the walk is zeros. -/
theorem copied_eq_zeros_iff (k : Nat) (behind : Buffer) :
    bytesAt (List.replicate k 0 ++ behind) 0 17 = List.replicate 17 0 ↔
      ∀ j, j + k < 17 → byteAt behind j = 0 := by
  have hbyte : ∀ i, byteAt (List.replicate k 0 ++ behind) i =
      if i < k then 0 else byteAt behind (i - k) := by
    intro i
    by_cases hlt : i < k
    · simp [byteAt, hlt, List.getElem?_append_left]
    · have hge : (List.replicate k (0 : UInt8)).length ≤ i := by
        rw [List.length_replicate]
        exact Nat.le_of_not_lt hlt
      simp [byteAt, hlt, List.getElem?_append_right hge]
  have hzeros : bytesAt (List.replicate k 0 ++ behind) 0 17 = List.replicate 17 0 ↔
      ∀ i < 17, byteAt (List.replicate k 0 ++ behind) i = 0 := by
    rw [List.eq_replicate_iff]
    simp [bytesAt]
  rw [hzeros]
  constructor
  · intro hall j hj
    have hplace := hall (j + k) hj
    rwa [hbyte, if_neg (by omega), Nat.add_sub_cancel] at hplace
  · intro hall i hi
    rw [hbyte]
    split
    · rfl
    · exact hall (i - k) (by omega)

section Response

variable (l : Link) (num : UInt8)

/-- The bytes in front of the sets. -/
def responseHead (l : Link) (num : UInt8) : Buffer :=
  eoplCtcHeader l oamExtCodeDba ++ [oamSetDbaResponse, 1, num]

theorem length_responseHead : (responseHead l num).length = 25 := by
  simp [responseHead, eoplCtcHeader, aucCtcOui, oampduHdrSize]

/-- The frame when nothing is cut off. -/
theorem setDbaResponse_eq (walked tail : Buffer) (h : walked.length ≤ 213) :
    setDbaResponse l num (walked ++ tail) walked.length true =
      responseHead l num ++ (walked ++ (bytesAt tail 0 17 ++
        List.replicate (18 - walked.length) 0)) := by
  have hcopied : (walked.length + oamDbaQueueSize) % 256 = walked.length + 17 :=
    Nat.mod_eq_of_lt (by simp only [oamDbaQueueSize]; omega)
  have hsize : (oampduHdrSize + 4 + 3 + (walked.length + 17)) % 256 = walked.length + 42 := by
    simp only [oampduHdrSize]
    omega
  have hhead := length_responseHead l num
  have htail : (bytesAt tail 0 17).length = 17 := by simp [bytesAt]
  have hfront : (responseHead l num ++ (walked ++ bytesAt tail 0 17)).length =
      walked.length + 42 := by
    simp only [List.length_append, hhead, htail]
    omega
  simp only [setDbaResponse, hcopied, bytesAt_zero_add, if_true, hsize, oamMinimizePduSize]
  rw [← responseHead]
  split
  · have hpad : 60 - (walked.length + 42) = 18 - walked.length := by omega
    rw [List.take_of_length_le, hpad, List.append_assoc, List.append_assoc]
    rw [List.length_append, hfront, List.length_replicate]
    omega
  · have hnone : 18 - walked.length = 0 := by omega
    rw [List.take_of_length_le (Nat.le_of_eq hfront), hnone, List.replicate_zero, List.append_nil]

/-- A frame is at most 255 bytes long, and the shortest one where its length wraps. -/
theorem length_setDbaResponse_le (walked tail : Buffer) (h : 213 < walked.length) :
    (setDbaResponse l num (walked ++ tail) walked.length true).length < 25 + walked.length := by
  simp only [setDbaResponse, oamMinimizePduSize, oampduHdrSize, oamDbaQueueSize]
  split
  · exact Nat.lt_of_le_of_lt (List.length_take_le ..) (by omega)
  · exact Nat.lt_of_le_of_lt (List.length_take_le ..) (by omega)

/-- The echo is right exactly when it fits. -/
theorem setDbaResponse_eq_iff (walked behind : Buffer) (k : Nat) :
    setDbaResponse l num (walked ++ (List.replicate k 0 ++ behind)) walked.length true =
        responseHead l num ++ (walked ++ List.replicate k 0) ++
          List.replicate (oamMinimizePduSize - (25 + (walked.length + k))) 0 ↔
      EchoFits walked.length k behind := by
  simp only [EchoFits, oamDbaQueueSize, oamMinimizePduSize]
  by_cases hlong : 213 < walked.length
  · have hlt := length_setDbaResponse_le l num walked (List.replicate k 0 ++ behind) hlong
    refine iff_of_false ?_ (by omega)
    intro heq
    rw [heq] at hlt
    simp only [List.length_append, List.length_replicate, length_responseHead] at hlt
    omega
  · rw [setDbaResponse_eq l num _ _ (Nat.le_of_not_lt hlong),
      List.append_assoc (responseHead l num), List.append_assoc walked, List.append_right_inj,
      List.append_right_inj]
    rw [← copied_eq_zeros_iff]
    have hcopied : (bytesAt (List.replicate k 0 ++ behind) 0 17).length = 17 := by simp [bytesAt]
    -- what pads the shortest frame, cut where the copy ends
    have hzeros : 17 + (18 - walked.length) = k + (60 - (25 + (walked.length + k))) →
        List.replicate k (0 : UInt8) ++ List.replicate (60 - (25 + (walked.length + k))) 0 =
          List.replicate 17 0 ++ List.replicate (18 - walked.length) 0 := by
      intro hlength
      rw [List.replicate_append_replicate, List.replicate_append_replicate, hlength]
    constructor
    · intro heq
      have hlength := congrArg List.length heq
      simp only [List.length_append, List.length_replicate, hcopied] at hlength
      rw [hzeros hlength] at heq
      have hsame := List.append_inj_left' heq rfl
      by_cases hshort : walked.length ≤ 18
      · exact .inr ⟨hshort, by omega, hsame⟩
      · exact .inl ⟨by omega, Nat.le_of_not_lt hlong⟩
    · intro hfits
      have hlength : 17 + (18 - walked.length) = k + (60 - (25 + (walked.length + k))) := by
        omega
      rw [hzeros hlength]
      congr 1
      rcases hfits with ⟨hcount, -⟩ | ⟨-, -, hbehind⟩
      · apply (copied_eq_zeros_iff k behind).mpr
        intro j hj
        omega
      · exact hbehind

theorem length_eoplCtcHeader (extCode : UInt8) : (eoplCtcHeader l extCode).length = 22 := by
  simp [eoplCtcHeader, aucCtcOui, oampduHdrSize]

/-- The byte of the answer that says whether the walk came to its end. -/
theorem ackByte (flag : UInt8) (rest : Buffer) :
    (eoplCtcHeader l oamExtCodeDba ++ ([oamSetDbaResponse, flag, num] ++ rest))[23]? =
      some flag := by
  have hhead := length_eoplCtcHeader l oamExtCodeDba
  rw [List.getElem?_append_right (by rw [hhead]; omega), hhead]
  rfl

/-- A broken walk is answered with another byte there. -/
theorem setDbaResponse_refused (pTmp encoded pad : Buffer) (read : Nat) :
    setDbaResponse l num pTmp read false ≠ responseHead l num ++ encoded ++ pad := by
  have hecho : (responseHead l num ++ encoded ++ pad)[23]? = some 1 := by
    rw [responseHead, List.append_assoc, List.append_assoc]
    exact ackByte l num 1 (encoded ++ pad)
  have hsent : (setDbaResponse l num pTmp read false)[23]? = some 0 := by
    simp only [setDbaResponse, oampduHdrSize, oamMinimizePduSize, Bool.false_eq_true, if_false]
    split_ifs with hshort
    · rw [List.getElem?_take_of_lt (by omega), List.append_assoc, List.append_assoc]
      exact ackByte l num 0 _
    · rw [List.getElem?_take_of_lt (by omega), List.append_assoc]
      exact ackByte l num 0 _
  intro heq
  rw [heq, hecho] at hsent
  cases hsent

end Response

/-! ### When a request is taken as it is -/

/-- The sets in front of the first empty one are all there is to set, the layer below takes their
thresholds, and the echo fits. -/
structure TakenAsIs {σ : Type} (layer : σ → Assign → σ × UInt32) (sets : List QueueSet)
    (behind : Buffer) (s : σ) : Prop where
  accepted : Accepts (· = oplOk) layer s (assignsFrom 0 (frontOf sets))
  empty_behind : ∀ set ∈ restOf sets, set.bitmap = 0
  fits : EchoFits (encodeAll (frontOf sets)).length (restOf sets).length behind

/-- A request with sets is answered and carried out as it should be exactly when all empty sets
come last and their number makes up for what the copy has too much. -/
theorem set_exactly_iff {σ : Type} (layer : σ → Assign → σ × UInt32) (l : Link)
    (sets : List QueueSet) (hnum : sets.length < 256) (behind : Buffer) (s : σ) :
    SetExactly layer l sets behind s ↔ TakenAsIs layer sets behind s := by
  have hcount : (UInt8.ofNat sets.length).toNat = sets.length := by
    rw [UInt8.toNat_ofNat']
    exact Nat.mod_eq_of_lt hnum
  have hwalk := setLoop_encodeAll layer sets behind s
  have hhead := length_responseHead l (UInt8.ofNat sets.length)
  have hecho : echoOf l sets = responseHead l (UInt8.ofNat sets.length) ++ encodeAll sets ++
      List.replicate (oamMinimizePduSize - (25 + (encodeAll sets).length)) 0 := by
    rw [← hhead, ← List.length_append]
    rfl
  by_cases hok : Accepts (· = oplOk) layer s (assignsFrom 0 (frontOf sets))
  · have hcalls : (eoplSetDba20 layer l (UInt8.ofNat sets.length) (encodeAll sets ++ behind)
        s).1.calls = assignsFrom 0 (frontOf sets) := by
      rw [eoplSetDba20, hcount, hwalk.1 hok]
    have hsent : (eoplSetDba20 layer l (UInt8.ofNat sets.length) (encodeAll sets ++ behind)
        s).2 = setDbaResponse l (UInt8.ofNat sets.length) (encodeAll sets ++ behind)
          (encodeAll (frontOf sets)).length true := by
      rw [eoplSetDba20, hcount, hwalk.1 hok]
    by_cases hempty : ∀ set ∈ restOf sets, set.bitmap = 0
    · have hencoded : encodeAll sets =
          encodeAll (frontOf sets) ++ List.replicate (restOf sets).length 0 := by
        rw [← encodeAll_of_empty hempty, ← encodeAll_append, frontOf_append_restOf]
      have hfits := setDbaResponse_eq_iff l (UInt8.ofNat sets.length) (encodeAll (frontOf sets))
        behind (restOf sets).length
      have hlength : (encodeAll sets).length =
          (encodeAll (frontOf sets)).length + (restOf sets).length := by
        rw [hencoded, List.length_append, List.length_replicate]
      rw [← hlength, ← List.append_assoc, ← hencoded, ← hecho, ← hsent] at hfits
      constructor
      · intro hset
        exact ⟨hok, hempty, hfits.mp hset.echoes⟩
      · intro htaken
        exact ⟨hcalls.trans ((assignsFrom_eq_frontOf_iff sets).mpr hempty),
          hfits.mpr htaken.fits⟩
    · refine iff_of_false ?_ fun htaken => hempty htaken.empty_behind
      intro hset
      exact hempty ((assignsFrom_eq_frontOf_iff sets).mp (hcalls.symm.trans hset.assigns))
  · refine iff_of_false ?_ fun htaken => hok htaken.accepted
    intro hset
    have hechoes := hset.echoes
    rw [hecho, eoplSetDba20, hcount] at hechoes
    simp only [hwalk.2 hok] at hechoes
    exact setDbaResponse_refused l _ _ _ _ _ hechoes

/-! ### The layer below -/

/-- `ODM_Q_SET_NUM` and `ODM_Q_NUM`. -/
def odmQSetNum : Nat := 2
def odmQNum : Nat := 8

/-- The thresholds in the configuration, where there are any. -/
abbrev PonConfig := Nat → Nat → Option UInt16

/-- `odmPonQsetThresholdSet`, with the answers of the driver.  Sets the chip does not have are
taken without any effect. -/
def odmPonQsetThresholdSet (halAppApiCallSync : Assign → UInt32) (cfg : PonConfig)
    (call : Assign) : PonConfig × UInt32 :=
  if odmQSetNum ≤ call.ucIdx ∨ odmQNum ≤ call.ucQId then (cfg, oplOk)
  else if cfg call.ucIdx call.ucQId = some call.threshold then (cfg, oplOk)
  else if halAppApiCallSync call ≠ oplOk then (cfg, halAppApiCallSync call)
  else
    (fun i q => if i = call.ucIdx ∧ q = call.ucQId then some call.threshold else cfg i q, oplOk)

section Layer

variable {halAppApiCallSync : Assign → UInt32}

/-- The set and the queue a call is about. -/
def Assign.place (call : Assign) : Nat × Nat := (call.ucIdx, call.ucQId)

theorem odmPonQsetThresholdSet_same {cfg : PonConfig} {call : Assign} (hi : call.ucIdx < 2)
    (hq : call.ucQId < 8)
    (hok : (odmPonQsetThresholdSet halAppApiCallSync cfg call).2 = oplOk) :
    (odmPonQsetThresholdSet halAppApiCallSync cfg call).1 call.ucIdx call.ucQId =
      some call.threshold := by
  have hplace : ¬(odmQSetNum ≤ call.ucIdx ∨ odmQNum ≤ call.ucQId) := by
    simp only [odmQSetNum, odmQNum]
    omega
  rw [odmPonQsetThresholdSet, if_neg hplace] at hok ⊢
  split
  · assumption
  · next hnew =>
    rw [if_neg hnew] at hok
    split
    · next hrefused =>
      rw [if_pos hrefused] at hok
      exact absurd hok hrefused
    · simp

theorem odmPonQsetThresholdSet_other (cfg : PonConfig) (call : Assign) {i q : Nat}
    (h : (i, q) ≠ call.place) :
    (odmPonQsetThresholdSet halAppApiCallSync cfg call).1 i q = cfg i q := by
  rw [odmPonQsetThresholdSet]
  split
  · rfl
  · split
    · rfl
    · split
      · rfl
      · refine if_neg ?_
        rintro ⟨rfl, rfl⟩
        exact h rfl

/-- What the calls have put in stays there as long as no two are about one queue. -/
theorem thresholds_kept {calls : List Assign} (hplaces : (calls.map Assign.place).Nodup)
    {cfg : PonConfig}
    (hok : Accepts (· = oplOk) (odmPonQsetThresholdSet halAppApiCallSync) cfg calls)
    {call : Assign} (hmem : call ∈ calls) (hi : call.ucIdx < 2) (hq : call.ucQId < 8) :
    afterCalls (odmPonQsetThresholdSet halAppApiCallSync) cfg calls call.ucIdx call.ucQId =
      some call.threshold := by
  have hother : ∀ {calls : List Assign} {cfg : PonConfig} {i q : Nat},
      (i, q) ∉ calls.map Assign.place →
        afterCalls (odmPonQsetThresholdSet halAppApiCallSync) cfg calls i q = cfg i q := by
    intro calls
    induction calls with
    | nil => exact fun _ => rfl
    | cons first calls ih =>
      intro cfg i q hnot
      rw [List.map_cons, List.mem_cons, not_or] at hnot
      exact (ih hnot.2).trans (odmPonQsetThresholdSet_other cfg first hnot.1)
  induction calls generalizing cfg with
  | nil => cases hmem
  | cons first calls ih =>
    rw [List.map_cons, List.nodup_cons] at hplaces
    rcases List.mem_cons.mp hmem with rfl | hlater
    · exact (hother hplaces.1).trans (odmPonQsetThresholdSet_same hi hq hok.1)
    · exact ih hplaces.2 hok.2 hlater

theorem mem_assigns {set : QueueSet} {i : Nat} {call : Assign} (h : call ∈ set.assigns i) :
    call.ucIdx = i ∧ call.ucQId < 8 := by
  rw [QueueSet.assigns, ← List.map_uncurry_zip_eq_zipWith] at h
  obtain ⟨⟨q, t⟩, hpair, rfl⟩ := List.mem_map.mp h
  have hq := (List.mem_filter.mp (List.of_mem_zip hpair).1).1
  exact ⟨rfl, List.mem_range.mp hq⟩

theorem mem_assignsFrom {sets : List QueueSet} {i : Nat} {call : Assign}
    (h : call ∈ assignsFrom i sets) : i ≤ call.ucIdx ∧ call.ucQId < 8 := by
  induction sets generalizing i with
  | nil => cases h
  | cons set sets ih =>
    rw [assignsFrom, List.mem_append] at h
    rcases h with hset | hsets
    · exact ⟨Nat.le_of_eq (mem_assigns hset).1.symm, (mem_assigns hset).2⟩
    · exact ⟨Nat.le_of_succ_le (ih hsets).1, (ih hsets).2⟩

/-- A request is about each queue of each set at most once. -/
theorem nodup_places (sets : List QueueSet) (i : Nat) :
    ((assignsFrom i sets).map Assign.place).Nodup := by
  induction sets generalizing i with
  | nil => exact List.nodup_nil
  | cons set sets ih =>
    rw [assignsFrom, List.map_append, List.nodup_append]
    refine ⟨?_, ih (i + 1), ?_⟩
    · have hqueues : ((set.assigns i).map Assign.place).map Prod.snd = queuesOf set.bitmap := by
        rw [QueueSet.assigns, List.map_map, List.map_zipWith, ← List.map_uncurry_zip_eq_zipWith]
        exact List.map_fst_zip (Nat.le_of_eq set.one_each.symm)
      apply List.Nodup.of_map Prod.snd
      rw [hqueues]
      exact List.nodup_range.filter _
    · intro place hset place' hsets heq
      obtain ⟨call, hcall, rfl⟩ := List.mem_map.mp hset
      obtain ⟨call', hcall', rfl⟩ := List.mem_map.mp hsets
      have hidx : call.ucIdx = call'.ucIdx := congrArg Prod.fst heq
      have hle := (mem_assignsFrom hcall').1
      rw [← hidx, (mem_assigns hcall).1] at hle
      exact Nat.not_succ_le_self i hle

/-- After a request that is taken as it is the configuration has the thresholds of its sets. -/
theorem thresholds_after_set {sets : List QueueSet} (hnum : sets.length < 256)
    {behind : Buffer} {cfg : PonConfig} (l : Link)
    (htaken : TakenAsIs (odmPonQsetThresholdSet halAppApiCallSync) sets behind cfg)
    {call : Assign} (hmem : call ∈ assignsFrom 0 sets) (hi : call.ucIdx < 2) :
    (eoplSetDba20 (odmPonQsetThresholdSet halAppApiCallSync) l (UInt8.ofNat sets.length)
      (encodeAll sets ++ behind) cfg).1.state call.ucIdx call.ucQId = some call.threshold := by
  have hcount : (UInt8.ofNat sets.length).toNat = sets.length := by
    rw [UInt8.toNat_ofNat']
    exact Nat.mod_eq_of_lt hnum
  have hwalk := (setLoop_encodeAll _ sets behind cfg).1 htaken.accepted
  rw [← (assignsFrom_eq_frontOf_iff sets).mpr htaken.empty_behind] at hmem
  rw [eoplSetDba20, hcount, hwalk]
  exact thresholds_kept (nodup_places _ 0) htaken.accepted hmem hi (mem_assignsFrom hmem).2

end Layer

/-! ### Two requests -/

/-- The link of the examples. -/
def plainLink : Link := ⟨#v[0, 0, 0, 0, 0, 1], 0x0050⟩

/-- A driver that takes everything, with an empty configuration. -/
def takesAll : PonConfig → Assign → PonConfig × UInt32 := odmPonQsetThresholdSet fun _ => oplOk

/-- One set with two queues is set and answered as it should be. -/
theorem one_set_taken :
    SetExactly takesAll plainLink [⟨0x03, [100, 200], rfl⟩] [] (fun _ _ => none) :=
  (set_exactly_iff takesAll plainLink _ (by decide) [] _).mpr
    ⟨⟨rfl, rfl, trivial⟩, by simp [restOf], .inr ⟨by decide, by decide, fun _ _ => rfl⟩⟩

/-- A set behind an empty one is left out. -/
theorem set_behind_empty_left_out :
    ¬SetExactly takesAll plainLink [⟨0x00, [], rfl⟩, ⟨0x01, [100], rfl⟩] []
      (fun _ _ => none) := by
  intro hset
  have hcalls := hset.assigns
  revert hcalls
  decide

end Opconn.Oam.Dba
