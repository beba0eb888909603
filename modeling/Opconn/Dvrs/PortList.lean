import Mathlib.Logic.Function.Basic
import Opconn.Dvrs.PortText

/-!
# Lists of ports

`convertPortListString2PortArry` walks over a string such as `1,4,50-58,90-110,125`, collects each
item in a buffer of 256 characters, and sets the entries of the ports.  A range is meant to be
written in either order, but the exchange of its ends loses one of them; a blank ends the list; the
empty string is not looked at; and of the numbers with a zero in front only some are refused.
-/

namespace Opconn.Dvrs

open Opconn.Vos (CStr digitValue digitsValue isSpace)

/-- An array of `unsigned int`, in a memory of 32-bit addresses. -/
structure PortArry where
  numOfPorts : Nat
  fits : numOfPorts * 4 < 2 ^ 32
  entry : Nat → UInt32

/-- `atoi`, which is `strtol` in base 10; `long` has 32 bits, and no larger number is returned. -/
def atoi (s : CStr) : UInt32 :=
  let s := s.dropWhile isSpace
  let negative := s.head? = some dash
  let n := digitsValue 10 (if negative ∨ s.head? = some 43 then s.tail else s)
  if negative then -UInt32.ofNat (min n (2 ^ 31)) else UInt32.ofNat (min n (2 ^ 31 - 1))

/-- `convertFirstStringType`, with what it returns and the array. -/
def convertFirstStringType (listString : CStr) (portArry : Nat → UInt32) (numOfPorts : Nat) :
    Int × (Nat → UInt32) :=
  let tmpPortId := atoi listString
  if tmpPortId.toNat < numOfPorts then (0, Function.update portArry tmpPortId.toNat 1)
  else (-1, portArry)

/-- `convertSecondStringType`.  The third assignment of the exchange reads what the second one
wrote. -/
def convertSecondStringType (listString : CStr) (portArry : Nat → UInt32) (numOfPorts : Nat) :
    Int × (Nat → UInt32) :=
  let portStartId := atoi listString
  let p := listString.dropWhile (· ≠ dash)
  let portEndId := atoi p.tail
  let (portStartId, portEndId) :=
    if portEndId < portStartId then
      let portStartId := portEndId
      let portEndId := portStartId
      (portStartId, portEndId)
    else (portStartId, portEndId)
  if numOfPorts ≤ portEndId.toNat then (-1, portArry)
  else
    (0, (List.range' portStartId.toNat (portEndId.toNat + 1 - portStartId.toNat)).foldl
      (fun portArry index => Function.update portArry index 1) portArry)

/-- What a call comes to: it returns a value, it runs off its end without one, or it writes outside
of `tmpBuff`. -/
inductive Call where
  | returns (retVal : Int) (portArry : Nat → UInt32)
  | noReturn
  | outside

/-- `tmpBuff[index] = c; index++`; `index` is the length of what is in the buffer. -/
def putTmp (tmpBuff : CStr) (c : UInt8) : Option CStr :=
  if tmpBuff.length < 256 then some (tmpBuff ++ [c]) else none

/-- `tmpBuff[index] = '\0'`, and the conversion for the mode. -/
def convertItem (numOfPorts : Nat) (tmpBuff : CStr) (mode : Bool) (portArry : Nat → UInt32) :
    Option (Int × (Nat → UInt32)) :=
  if tmpBuff.length < 256 then
    some (if mode then convertSecondStringType tmpBuff portArry numOfPorts
      else convertFirstStringType tmpBuff portArry numOfPorts)
  else none

/-- The conversion of the last item. -/
def lastItem (numOfPorts : Nat) (tmpBuff : CStr) (mode : Bool) (portArry : Nat → UInt32) : Call :=
  match convertItem numOfPorts tmpBuff mode portArry with
  | none => .outside
  | some (retVal, portArry) => .returns retVal portArry

/-- `case '0'`: not behind a digit, and the next character is from 1 to 8. -/
def refusedZero (prev : Option UInt8) (c : UInt8) (next : Option UInt8) : Bool :=
  c = zero && !digitAt prev && next.any fun d => zero < d && d < nine

/-- The loop, at a character and with the one before it; what is behind it is `rest`. -/
def portListLoop (numOfPorts : Nat) : Option UInt8 → CStr → CStr → Bool → (Nat → UInt32) → Call
  | _, [], _, _, _ => .noReturn
  | prev, c :: rest, tmpBuff, mode, portArry =>
    if c = comma then
      if !digitAt prev || !digitAt rest.head? then .returns (-1) portArry
      else
        match convertItem numOfPorts tmpBuff mode portArry with
        | none => .outside
        | some (retVal, portArry) =>
          if retVal ≠ 0 then .returns retVal portArry
          else portListLoop numOfPorts (some c) rest [] false portArry
    else if c = dash then
      if mode || !digitAt prev || !digitAt rest.head? then .returns (-1) portArry
      else
        match putTmp tmpBuff c with
        | none => .outside
        | some tmpBuff => portListLoop numOfPorts (some c) rest tmpBuff true portArry
    else if isDigit c then
      if refusedZero prev c rest.head? then .returns (-1) portArry
      else
        match putTmp tmpBuff c with
        | none => .outside
        | some tmpBuff =>
          if rest = [] then lastItem numOfPorts tmpBuff mode portArry
          else portListLoop numOfPorts (some c) rest tmpBuff mode portArry
    else if c = blank then lastItem numOfPorts tmpBuff mode portArry
    else .returns (-1) portArry

/-- `memset` of the array. -/
def cleared (portArry : PortArry) : Nat → UInt32 :=
  fun i => if i < portArry.numOfPorts then 0 else portArry.entry i

def convertPortListString2PortArry (listString : CStr) (portArry : PortArry) : Call :=
  portListLoop portArry.numOfPorts none listString [] false (cleared portArry)

/-! ### What the list is for -/

def Item.Plain : Item → Prop
  | .port n => n.Plain
  | .range a b => a.Plain ∧ b.Plain

/-- The smallest and the largest port of an item. -/
def Item.low : Item → Nat
  | .port n => n.value
  | .range a b => min a.value b.value

def Item.high : Item → Nat
  | .port n => n.value
  | .range a b => max a.value b.value

def Denotes (items : List Item) (i : Nat) : Prop := ∃ item ∈ items, item.low ≤ i ∧ i ≤ item.high

/-- The string is a list of ports below `numOfPorts`. -/
structure PortList (numOfPorts : Nat) (s : CStr) (items : List Item) : Prop where
  ne : items ≠ []
  text : s = line [] items
  plain : ∀ item ∈ items, item.Plain
  high : ∀ item ∈ items, item.high < numOfPorts

/-- The entries of exactly the ports of the list are set. -/
def Entries (numOfPorts : Nat) (items : List Item) (portArry : Nat → UInt32) : Prop :=
  ∀ i < numOfPorts, (Denotes items i → portArry i = 1) ∧ (¬Denotes items i → portArry i = 0)

/-- What is claimed of a call: 0 and the entries for a list of ports, and -1 for any other string. -/
structure Correct (numOfPorts : Nat) (s : CStr) (call : Call) : Prop where
  list : ∀ items, PortList numOfPorts s items →
    ∃ portArry, call = .returns 0 portArry ∧ Entries numOfPorts items portArry
  other : (¬∃ items, PortList numOfPorts s items) → ∃ portArry, call = .returns (-1) portArry

/-! ### When the code does it -/

/-- A zero and a digit from 1 to 8 in front. -/
def Number.Refused (n : Number) : Prop :=
  ∃ c rest, n.digits = zero :: c :: rest ∧ zero < c ∧ c < nine

/-- A number of the item is refused, and the buffer has place for what is in front of it. -/
def Item.Refused : Item → Prop
  | .port n => n.Refused
  | .range a b => a.Refused ∨ a.digits.length < 256 ∧ b.Refused

/-- The number that is compared with `numOfPorts`, and the entries from `start` to it that are
set. -/
def Item.last : Item → Nat
  | .port n => n.value
  | .range _ b => b.value

def Item.start : Item → Nat
  | .port n => n.value
  | .range a b => if a.value ≤ b.value then a.value else b.value

/-- Behind the last item is the end of the string, or a blank. -/
def Converted (rest : CStr) : Prop := rest = [] ∨ rest.head? = some blank

/-- Walking over the items from the left, a number that is refused, or one out of range, or a
character that is wrong behind an item, comes before any item that does not fit into the buffer. -/
def RefusedInTime (numOfPorts : Nat) (rest : CStr) : List Item → Prop
  | [] => rest ≠ [] ∧ (rest.head? = some blank → numOfPorts = 0)
  | [item] => item.Refused ∨
      Converted rest ∧ item.text.length < 256 ∧ numOfPorts ≤ item.last ∨
      ¬Converted rest ∧ item.text.length ≤ 256
  | item :: item' :: items => item.Refused ∨ item.text.length < 256 ∧
      (numOfPorts ≤ item.last ∨ RefusedInTime numOfPorts rest (item' :: items))

/-- The items fit into the buffer, and the ports of a range that is written downwards are among the
entries that are set for the items. -/
structure Covered (items : List Item) : Prop where
  length : ∀ item ∈ items, item.text.length < 256
  ports : ∀ i, Denotes items i → ∃ item ∈ items, item.start ≤ i ∧ i ≤ item.last

/-- The string is refused in time, or a list of ports that are covered. -/
def Handled (numOfPorts : Nat) (s : CStr) : Prop :=
  (∃ items rest, s = line rest items ∧ Reads rest items ∧ RefusedInTime numOfPorts rest items) ∨
    ∃ items, PortList numOfPorts s items ∧ Covered items

/-! ### Numbers -/

theorem isDigit_iff {c : UInt8} : isDigit c = true ↔ 48 ≤ c.toNat ∧ c.toNat ≤ 57 := by
  rw [isDigit, Bool.and_eq_true, decide_eq_true_eq, decide_eq_true_eq, UInt8.le_iff_toNat_le,
    UInt8.le_iff_toNat_le]
  rfl

theorem digitValue_lt_iff (c : UInt8) : digitValue c < 10 ↔ isDigit c = true := by
  rw [isDigit_iff]
  simp only [digitValue, UInt8.le_iff_toNat_le, UInt8.reduceToNat]
  split
  · omega
  · split
    · omega
    · split <;> omega

theorem digitsValue_append (n : Number) {r : CStr} (hr : digitAt r.head? = false) :
    digitsValue 10 (n.digits ++ r) = n.value := by
  have htake : ∀ t : CStr, digitAt t.head? = false →
      (n.digits ++ t).takeWhile (fun c => digitValue c < 10) = n.digits := by
    intro t ht
    have hstop : t.takeWhile (fun c => decide (digitValue c < 10)) = [] := by
      cases t with
      | nil => rfl
      | cons c t =>
        apply List.takeWhile_cons_of_neg
        rw [decide_eq_true_eq, digitValue_lt_iff]
        simpa [digitAt] using ht
    rw [List.takeWhile_append_of_pos, hstop, List.append_nil]
    intro c hc
    rw [decide_eq_true_eq, digitValue_lt_iff]
    exact n.all c hc
  have hself := htake [] rfl
  rw [List.append_nil] at hself
  rw [Number.value, digitsValue, digitsValue, htake r hr, hself]

theorem Number.exists_cons (n : Number) :
    ∃ c rest, n.digits = c :: rest ∧ isDigit c = true ∧ ∀ d ∈ rest, isDigit d = true := by
  obtain ⟨c, rest, heq⟩ := List.exists_cons_of_ne_nil n.ne
  refine ⟨c, rest, heq, n.all c (heq ▸ List.mem_cons_self ..), ?_⟩
  intro d hd
  exact n.all d (heq ▸ List.mem_cons_of_mem c hd)

/-- `atoi` stops behind the digits, and no number above 2147483647 is told apart from it. -/
theorem atoi_number (n : Number) {r : CStr} (hr : digitAt r.head? = false) :
    (atoi (n.digits ++ r)).toNat = min n.value (2 ^ 31 - 1) := by
  obtain ⟨c, rest, heq, hc, -⟩ := n.exists_cons
  have hrange := isDigit_iff.mp hc
  have hspace : isSpace c = false := by
    simp only [isSpace, UInt8.le_iff_toNat_le, ← UInt8.toNat_inj, UInt8.reduceToNat,
      Bool.or_eq_false_iff, Bool.and_eq_false_iff, decide_eq_false_iff_not]
    omega
  have hdrop : (n.digits ++ r).dropWhile isSpace = n.digits ++ r := by
    rw [heq, List.cons_append, List.dropWhile_cons_of_neg (by rw [hspace]; decide)]
  have hhead : (n.digits ++ r).head? = some c := by rw [heq]; rfl
  have hdash : some c ≠ some dash := by
    rintro h
    rw [Option.some.inj h] at hc
    cases hc
  have hplus : some c ≠ some 43 := by
    rintro h
    rw [Option.some.inj h] at hc
    cases hc
  simp only [atoi, hdrop, hhead, hdash, hplus, false_or, if_false,
    digitsValue_append n hr]
  apply UInt32.toNat_ofNat_of_lt'
  exact (Nat.min_le_right _ _).trans_lt (by decide)

/-! ### Conversions -/

variable {numOfPorts : Nat}

/-- The ports of a range from `lo` to `hi` are set. -/
def marked (portArry : Nat → UInt32) (lo hi : Nat) : Nat → UInt32 :=
  fun i => if lo ≤ i ∧ i ≤ hi then 1 else portArry i

theorem foldl_update (portArry : Nat → UInt32) (lo len : Nat) :
    (List.range' lo len).foldl (fun portArry index => Function.update portArry index 1) portArry =
      fun i => if lo ≤ i ∧ i < lo + len then 1 else portArry i := by
  induction len generalizing lo portArry with
  | zero =>
    funext i
    rw [if_neg (by omega)]
    rfl
  | succ len ih =>
    rw [List.range'_succ, List.foldl_cons, ih]
    funext i
    by_cases hi : i = lo
    · subst hi
      rw [if_neg (by omega), Function.update_self, if_pos (by omega)]
    · rw [Function.update_of_ne hi]
      by_cases hin : lo + 1 ≤ i ∧ i < lo + 1 + len
      · rw [if_pos hin, if_pos (by omega)]
      · rw [if_neg hin, if_neg (by omega)]

theorem convertFirstStringType_eq (hports : numOfPorts * 4 < 2 ^ 32) (n : Number)
    (portArry : Nat → UInt32) :
    convertFirstStringType n.digits portArry numOfPorts =
      if n.value < numOfPorts then (0, marked portArry n.value n.value) else (-1, portArry) := by
  have hvalue := atoi_number n (r := []) rfl
  rw [List.append_nil] at hvalue
  rw [convertFirstStringType, hvalue]
  by_cases hlt : n.value < numOfPorts
  · have hmin : min n.value (2 ^ 31 - 1) = n.value := by omega
    rw [hmin, if_pos hlt, if_pos hlt]
    congr 1
    funext i
    by_cases hi : i = n.value
    · subst hi
      rw [Function.update_self, marked, if_pos ⟨Nat.le_refl _, Nat.le_refl _⟩]
    · rw [Function.update_of_ne hi, marked, if_neg (by omega)]
  · rw [if_neg (by omega), if_neg hlt]

theorem dropWhile_range (a b : Number) :
    (a.digits ++ dash :: b.digits).dropWhile (· ≠ dash) = dash :: b.digits := by
  rw [List.dropWhile_append_of_pos]
  · exact List.dropWhile_cons_of_neg (by simp)
  · intro c hc
    rw [decide_eq_true_eq]
    rintro rfl
    exact absurd (a.all dash hc) (by decide)

/-- Of a range that is written downwards only its smaller end is compared and set. -/
theorem convertSecondStringType_eq (hports : numOfPorts * 4 < 2 ^ 32) (a b : Number)
    (portArry : Nat → UInt32) :
    convertSecondStringType (a.digits ++ dash :: b.digits) portArry numOfPorts =
      if b.value < numOfPorts then
        (0, marked portArry (Item.range a b).start b.value)
      else (-1, portArry) := by
  have hstart : (atoi (a.digits ++ dash :: b.digits)).toNat = min a.value (2 ^ 31 - 1) :=
    atoi_number a rfl
  have hend := atoi_number b (r := []) rfl
  rw [List.append_nil] at hend
  have hlast : ∀ x y : UInt32, (if y < x then (y, y) else (x, y)) =
      ((if y < x then y else x), y) := by
    intro x y
    split <;> rfl
  simp only [convertSecondStringType, dropWhile_range, List.tail_cons, hlast, hend]
  by_cases hlt : b.value < numOfPorts
  · have hmin : min b.value (2 ^ 31 - 1) = b.value := by omega
    have hfirst : (if atoi b.digits < atoi (a.digits ++ dash :: b.digits) then atoi b.digits
        else atoi (a.digits ++ dash :: b.digits)).toNat = (Item.range a b).start := by
      rw [Item.start]
      by_cases hle : a.value ≤ b.value
      · rw [if_neg, if_pos hle, hstart]
        · omega
        · rw [UInt32.lt_iff_toNat_lt, hstart, hend]
          omega
      · rw [if_pos, if_neg hle, hend, hmin]
        rw [UInt32.lt_iff_toNat_lt, hstart, hend]
        omega
    rw [hmin, if_neg (by omega), if_pos hlt, hfirst, foldl_update]
    congr 1
    have hle : (Item.range a b).start ≤ b.value := by
      rw [Item.start]
      split
      · assumption
      · exact Nat.le_refl _
    funext i
    rw [marked]
    congr 1
    apply propext
    omega
  · rw [if_pos (by omega), if_neg hlt]

/-! ### Walking over an item -/

/-- Where the walk goes on behind a digit. -/
def resume (numOfPorts : Nat) (q : UInt8) (rest tmpBuff : CStr) (mode : Bool)
    (portArry : Nat → UInt32) : Call :=
  if rest = [] then lastItem numOfPorts tmpBuff mode portArry
  else portListLoop numOfPorts (some q) rest tmpBuff mode portArry

/-- The mode behind an item. -/
def Item.mode : Item → Bool
  | .port _ => false
  | .range _ _ => true

variable {prev : Option UInt8} {rest tmpBuff : CStr} {mode : Bool} {portArry : Nat → UInt32}

theorem loop_digit {c : UInt8} (hc : isDigit c = true) :
    portListLoop numOfPorts prev (c :: rest) tmpBuff mode portArry =
      if refusedZero prev c rest.head? then .returns (-1) portArry
      else if tmpBuff.length < 256 then
        resume numOfPorts c rest (tmpBuff ++ [c]) mode portArry
      else .outside := by
  have hcomma : c ≠ comma := by
    rintro rfl
    exact absurd hc (by decide)
  have hdash : c ≠ dash := by
    rintro rfl
    exact absurd hc (by decide)
  rw [portListLoop, if_neg hcomma, if_neg hdash, if_pos hc, putTmp]
  by_cases hlen : tmpBuff.length < 256
  · simp only [if_pos hlen, resume]
  · simp only [if_neg hlen]

/-- It does not matter which digit it was. -/
theorem resume_congr {q q' : UInt8} (hq : isDigit q = true) (hq' : isDigit q' = true) :
    resume numOfPorts q rest tmpBuff mode portArry =
      resume numOfPorts q' rest tmpBuff mode portArry := by
  have hat : digitAt (some q) = digitAt (some q') := hq.trans hq'.symm
  cases rest with
  | nil => rfl
  | cons c rest =>
    have hzero : refusedZero (some q) c rest.head? = refusedZero (some q') c rest.head? := by
      rw [refusedZero, refusedZero, hat]
    rw [resume, resume, portListLoop, portListLoop, hat, hzero]

theorem resume_digits {q : UInt8} (hq : isDigit q = true) {ds : CStr}
    (hds : ∀ c ∈ ds, isDigit c = true) (hlen : tmpBuff.length ≤ 256) :
    resume numOfPorts q (ds ++ rest) tmpBuff mode portArry =
      if tmpBuff.length + ds.length ≤ 256 then
        resume numOfPorts q rest (tmpBuff ++ ds) mode portArry
      else .outside := by
  induction ds generalizing tmpBuff with
  | nil =>
    rw [List.length_nil, Nat.add_zero, if_pos hlen, List.append_nil, List.nil_append]
  | cons c ds ih =>
    have hc := hds c (List.mem_cons_self ..)
    have hzero : refusedZero (some q) c (ds ++ rest).head? = false := by
      have hat : digitAt (some q) = true := hq
      rw [refusedZero, hat, Bool.not_true, Bool.and_false, Bool.false_and]
    rw [List.cons_append, resume, if_neg (List.cons_ne_nil _ _), loop_digit hc, hzero,
      if_neg Bool.false_ne_true, List.length_cons]
    by_cases hfull : tmpBuff.length < 256
    · have hput : (tmpBuff ++ [c]).length = tmpBuff.length + 1 := List.length_append
      rw [if_pos hfull, resume_congr hc hq,
        ih (fun d hd => hds d (List.mem_cons_of_mem c hd)) (hput.trans_le hfull), hput,
        List.append_assoc, List.singleton_append, Nat.add_assoc, Nat.add_comm 1]
    · rw [if_neg hfull, if_neg (by omega)]

theorem refusedZero_iff (hprev : digitAt prev = false) {n : Number} {c : UInt8} {ds : CStr}
    (hn : n.digits = c :: ds) (hrest : digitAt rest.head? = false) :
    refusedZero prev c (ds ++ rest).head? = true ↔ n.Refused := by
  have hwords : refusedZero prev c (ds ++ rest).head? = true ↔
      c = zero ∧ ∃ d, (ds ++ rest).head? = some d ∧ zero < d ∧ d < nine := by
    simp [refusedZero, hprev, Option.any_eq_true]
  rw [hwords, Number.Refused, hn]
  constructor
  · rintro ⟨rfl, d, hd, hlow, hhigh⟩
    cases ds with
    | nil =>
      rw [List.nil_append] at hd
      rw [hd] at hrest
      have hdigit : isDigit d = true := by
        rw [isDigit_iff]
        exact ⟨(UInt8.lt_iff_toNat_lt.mp hlow).le, (UInt8.lt_iff_toNat_lt.mp hhigh).le⟩
      rw [show digitAt (some d) = isDigit d from rfl, hdigit] at hrest
      cases hrest
    | cons d' ds =>
      obtain rfl : d' = d := Option.some.inj hd
      exact ⟨d', ds, rfl, hlow, hhigh⟩
  · rintro ⟨d, t, heq, hlow, hhigh⟩
    obtain ⟨rfl, rfl⟩ := List.cons.inj heq
    exact ⟨rfl, d, rfl, hlow, hhigh⟩

open Classical in
/-- A number, not behind a digit. -/
theorem loop_number (hprev : digitAt prev = false) (n : Number)
    (hrest : digitAt rest.head? = false) (hlen : tmpBuff.length ≤ 256) :
    portListLoop numOfPorts prev (n.digits ++ rest) tmpBuff mode portArry =
      if n.Refused then .returns (-1) portArry
      else if tmpBuff.length + n.digits.length ≤ 256 then
        resume numOfPorts zero rest (tmpBuff ++ n.digits) mode portArry
      else .outside := by
  obtain ⟨c, ds, hn, hc, hds⟩ := n.exists_cons
  have hiff := refusedZero_iff hprev hn hrest
  rw [hn, List.cons_append, loop_digit hc, if_congr hiff rfl rfl]
  by_cases hrefused : n.Refused
  · rw [if_pos hrefused, if_pos hrefused]
  · rw [if_neg hrefused, if_neg hrefused, List.length_cons]
    by_cases hfull : tmpBuff.length < 256
    · have hput : (tmpBuff ++ [c]).length = tmpBuff.length + 1 := List.length_append
      rw [if_pos hfull, resume_digits hc hds (hput.trans_le hfull), hput, List.append_assoc,
        List.singleton_append, Nat.add_assoc, Nat.add_comm 1, resume_congr hc (show isDigit zero = true by decide)]
    · rw [if_neg hfull, if_neg (by omega)]

theorem digitAt_number (n : Number) (r : CStr) : digitAt (n.digits ++ r).head? = true := by
  obtain ⟨c, ds, hn, hc, -⟩ := n.exists_cons
  rw [hn]
  exact hc

/-- The dash of a range. -/
theorem resume_dash {r : CStr} (hr : digitAt r.head? = true) :
    resume numOfPorts zero (dash :: r) tmpBuff false portArry =
      if tmpBuff.length < 256 then
        portListLoop numOfPorts (some dash) r (tmpBuff ++ [dash]) true portArry
      else .outside := by
  have hdash : ¬dash = comma := by decide
  have hprev : digitAt (some zero) = true := by decide
  rw [resume, if_neg (List.cons_ne_nil _ _), portListLoop, if_neg hdash, if_pos rfl, hprev, hr,
    putTmp]
  by_cases hlen : tmpBuff.length < 256
  · simp only [if_pos hlen, Bool.not_true, Bool.or_self, Bool.false_eq_true, if_false]
  · simp only [if_neg hlen, Bool.not_true, Bool.or_self, Bool.false_eq_true, if_false]

open Classical in
/-- An item, from its beginning. -/
theorem loop_item (hprev : digitAt prev = false) (item : Item)
    (hrest : digitAt rest.head? = false) :
    portListLoop numOfPorts prev (item.text ++ rest) [] false portArry =
      if item.Refused then .returns (-1) portArry
      else if item.text.length ≤ 256 then
        resume numOfPorts zero rest item.text item.mode portArry
      else .outside := by
  cases item with
  | port n =>
    rw [Item.text, loop_number hprev n hrest (Nat.zero_le _), List.length_nil, Nat.zero_add,
      List.nil_append]
    rfl
  | range a b =>
    have hdash : digitAt (dash :: (b.digits ++ rest)).head? = false := rfl
    have hlength : (Item.range a b).text.length = a.digits.length + 1 + b.digits.length := by
      rw [Item.text, List.length_append, List.length_cons, Nat.add_assoc, Nat.add_comm 1]
    rw [hlength, Item.text, List.append_assoc, List.cons_append,
      loop_number hprev a hdash (Nat.zero_le _), List.length_nil, Nat.zero_add, List.nil_append]
    by_cases ha : a.Refused
    · rw [if_pos ha, if_pos (show (Item.range a b).Refused from Or.inl ha)]
    · rw [if_neg ha]
      by_cases hfits : a.digits.length < 256
      · have hput : (a.digits ++ [dash]).length = a.digits.length + 1 := List.length_append
        have hiff : (Item.range a b).Refused ↔ b.Refused := by
          rw [Item.Refused]
          exact ⟨fun h => (h.resolve_left ha).2, fun h => .inr ⟨hfits, h⟩⟩
        rw [if_pos hfits.le, resume_dash (digitAt_number b rest), if_pos hfits,
          loop_number (by decide) b hrest (hput.trans_le hfits), hput, if_congr hiff rfl rfl,
          List.append_assoc, List.singleton_append]
        rfl
      · have hnot : ¬(Item.range a b).Refused := by
          rintro (h | ⟨h, -⟩)
          · exact ha h
          · exact hfits h
        rw [if_neg hnot, if_neg (show ¬a.digits.length + 1 + b.digits.length ≤ 256 by omega)]
        by_cases hlen : a.digits.length ≤ 256
        · rw [if_pos hlen, resume_dash (digitAt_number b rest), if_neg hfits]
        · rw [if_neg hlen]

theorem convertItem_text (hports : numOfPorts * 4 < 2 ^ 32) (item : Item)
    (portArry : Nat → UInt32) :
    convertItem numOfPorts item.text item.mode portArry =
      if item.text.length < 256 then
        some (if item.last < numOfPorts then (0, marked portArry item.start item.last)
          else (-1, portArry))
      else none := by
  rw [convertItem]
  cases item with
  | port n =>
    rw [Item.mode, if_neg Bool.false_ne_true, Item.text, convertFirstStringType_eq hports]
    rfl
  | range a b =>
    rw [Item.mode, if_pos rfl, Item.text, convertSecondStringType_eq hports]
    rfl

/-! ### Walking over a list -/

/-- What stands behind the last item. -/
theorem resume_converted (hrest : Converted rest) :
    resume numOfPorts zero rest tmpBuff mode portArry =
      lastItem numOfPorts tmpBuff mode portArry := by
  rcases hrest with rfl | hblank
  · exact if_pos rfl
  · cases rest with
    | nil => cases hblank
    | cons c rest =>
      obtain rfl : c = blank := Option.some.inj hblank
      have hcomma : ¬blank = comma := by decide
      have hdash : ¬blank = dash := by decide
      have hdigit : ¬isDigit blank = true := by decide
      rw [resume, if_neg (List.cons_ne_nil _ _), portListLoop, if_neg hcomma, if_neg hdash,
        if_neg hdigit, if_pos rfl]

theorem resume_wrong {item : Item} (hends : Ends item rest) (hrest : ¬Converted rest) :
    resume numOfPorts zero rest tmpBuff item.mode portArry = .returns (-1) portArry := by
  cases rest with
  | nil => exact absurd (Or.inl rfl) hrest
  | cons c rest =>
    have hdigit : ¬isDigit c = true := by
      have hc : isDigit c = false := hends.digit
      rw [hc]
      exact Bool.false_ne_true
    have hblank : c ≠ blank := by
      rintro rfl
      exact hrest (.inr rfl)
    rw [resume, if_neg (List.cons_ne_nil _ _), portListLoop]
    by_cases hcomma : c = comma
    · subst hcomma
      rw [if_pos rfl, hends.next rest rfl, Bool.not_false, Bool.or_true, if_pos rfl]
    · rw [if_neg hcomma]
      by_cases hdash : c = dash
      · subst hdash
        have hbad : (item.mode || !digitAt (some zero) || !digitAt rest.head?) = true := by
          cases item with
          | port n =>
            rw [hends.range n rfl rest rfl, Bool.not_false, Bool.or_true]
          | range a b => rfl
        rw [if_pos rfl, hbad, if_pos rfl]
      · rw [if_neg hdash, if_neg hdigit, if_neg hblank]

theorem resume_comma {r : CStr} (hr : digitAt r.head? = true) :
    resume numOfPorts zero (comma :: r) tmpBuff mode portArry =
      match convertItem numOfPorts tmpBuff mode portArry with
      | none => .outside
      | some (retVal, portArry) =>
        if retVal ≠ 0 then .returns retVal portArry
        else portListLoop numOfPorts (some comma) r [] false portArry := by
  have hprev : digitAt (some zero) = true := by decide
  rw [resume, if_neg (List.cons_ne_nil _ _), portListLoop, if_pos rfl, hprev, hr, Bool.not_true,
    Bool.or_false, if_neg Bool.false_ne_true]

/-- The code accepts the item. -/
structure Accepts (numOfPorts : Nat) (item : Item) : Prop where
  zero : ¬item.Refused
  length : item.text.length < 256
  last : item.last < numOfPorts

/-- The entries that are set for the items. -/
def markAll (portArry : Nat → UInt32) (items : List Item) : Nat → UInt32 :=
  items.foldl (fun portArry item => marked portArry item.start item.last) portArry

/-- A walk over items: it is refused in time, or an item does not fit into the buffer, or all items
are accepted. -/
inductive Walk (numOfPorts : Nat) (rest : CStr) (items : List Item) (portArry : Nat → UInt32) :
    Call → Prop where
  | refused (h : RefusedInTime numOfPorts rest items) (p : Nat → UInt32) :
    Walk numOfPorts rest items portArry (.returns (-1) p)
  | outside (h : ∃ item ∈ items, 256 ≤ item.text.length)
      (hnot : ¬RefusedInTime numOfPorts rest items) :
    Walk numOfPorts rest items portArry .outside
  | accepted (hrest : Converted rest) (h : ∀ item ∈ items, Accepts numOfPorts item) :
    Walk numOfPorts rest items portArry (.returns 0 (markAll portArry items))

/-- The last item. -/
theorem walk_last (hports : numOfPorts * 4 < 2 ^ 32) (hprev : digitAt prev = false) {item : Item}
    (hends : Ends item rest) : Walk numOfPorts rest [item] portArry
      (portListLoop numOfPorts prev (item.text ++ rest) [] false portArry) := by
  rw [loop_item hprev item hends.digit]
  by_cases hrefused : item.Refused
  · rw [if_pos hrefused]
    refine Walk.refused ?_ portArry
    exact Or.inl hrefused
  · rw [if_neg hrefused]
    by_cases hconverted : Converted rest
    · by_cases hfits : item.text.length < 256
      · rw [if_pos hfits.le, resume_converted hconverted, lastItem, convertItem_text hports,
          if_pos hfits]
        by_cases hlast : item.last < numOfPorts
        · rw [if_pos hlast]
          apply Walk.accepted hconverted
          intro item' hitem'
          rw [List.mem_singleton.mp hitem']
          exact ⟨hrefused, hfits, hlast⟩
        · rw [if_neg hlast]
          refine Walk.refused ?_ portArry
          exact Or.inr (Or.inl ⟨hconverted, hfits, Nat.not_lt.mp hlast⟩)
      · have hout : (if item.text.length ≤ 256 then
            resume numOfPorts zero rest item.text item.mode portArry else .outside) =
            Call.outside := by
          by_cases hlen : item.text.length ≤ 256
          · rw [if_pos hlen, resume_converted hconverted, lastItem, convertItem_text hports,
              if_neg hfits]
          · exact if_neg hlen
        rw [hout]
        apply Walk.outside ⟨item, List.mem_cons_self .., Nat.not_lt.mp hfits⟩
        rintro (h | ⟨-, h, -⟩ | ⟨h, -⟩)
        · exact hrefused h
        · exact hfits h
        · exact h hconverted
    · by_cases hlen : item.text.length ≤ 256
      · rw [if_pos hlen, resume_wrong hends hconverted]
        refine Walk.refused ?_ portArry
        exact Or.inr (Or.inr ⟨hconverted, hlen⟩)
      · rw [if_neg hlen]
        apply Walk.outside ⟨item, List.mem_cons_self .., (Nat.lt_of_not_le hlen).le⟩
        rintro (h | ⟨h, -⟩ | ⟨-, h⟩)
        · exact hrefused h
        · exact hconverted h
        · exact hlen h

theorem digitAt_line {item : Item} {items : List Item} (rest : CStr) :
    digitAt (line rest (item :: items)).head? = true := by
  have htext : ∀ r : CStr, digitAt (item.text ++ r).head? = true := by
    intro r
    cases item with
    | port n => exact digitAt_number n r
    | range a b =>
      rw [Item.text, List.append_assoc]
      exact digitAt_number a _
  cases items with
  | nil => exact htext rest
  | cons item' items => exact htext _

/-- **The walk.**  The induction is on the items; each but the last is converted at its comma. -/
theorem walk_line (portArry : Nat → UInt32) (hports : numOfPorts * 4 < 2 ^ 32) {items : List Item} (hne : items ≠ [])
    (hreads : Reads rest items) (hprev : digitAt prev = false) :
    Walk numOfPorts rest items portArry
      (portListLoop numOfPorts prev (line rest items) [] false portArry) := by
  induction items generalizing prev portArry with
  | nil => exact absurd rfl hne
  | cons item items ih =>
    cases items with
    | nil => exact walk_last hports hprev hreads
    | cons item' items =>
      have hcomma : digitAt (comma :: line rest (item' :: items)).head? = false := rfl
      rw [line, loop_item hprev item hcomma]
      by_cases hrefused : item.Refused
      · rw [if_pos hrefused]
        refine Walk.refused ?_ portArry
        exact Or.inl hrefused
      · rw [if_neg hrefused]
        by_cases hfits : item.text.length < 256
        · rw [if_pos hfits.le, resume_comma (digitAt_line rest), convertItem_text hports,
            if_pos hfits]
          by_cases hlast : item.last < numOfPorts
          · have hwalk := ih (marked portArry item.start item.last)
              (List.cons_ne_nil _ _) hreads (show digitAt (some comma) = false by decide)
            rw [if_pos hlast]
            show Walk _ _ _ _ (portListLoop numOfPorts (some comma) (line rest (item' :: items)) []
              false (marked portArry item.start item.last))
            generalize portListLoop numOfPorts (some comma) (line rest (item' :: items)) [] false
              (marked portArry item.start item.last) = call at hwalk ⊢
            cases hwalk with
            | refused h p =>
              refine Walk.refused ?_ p
              exact Or.inr ⟨hfits, Or.inr h⟩
            | outside h hnot =>
              obtain ⟨long, hmem, hlong⟩ := h
              apply Walk.outside ⟨long, List.mem_cons_of_mem _ hmem, hlong⟩
              rintro (h | ⟨-, h | h⟩)
              · exact hrefused h
              · exact Nat.not_lt.mpr h hlast
              · exact hnot h
            | accepted hrest h =>
              apply Walk.accepted hrest
              intro found hmem
              rcases List.mem_cons.mp hmem with rfl | hmem
              · exact ⟨hrefused, hfits, hlast⟩
              · exact h found hmem
          · rw [if_neg hlast]
            refine Walk.refused ?_ portArry
            exact Or.inr ⟨hfits, Or.inl (Nat.not_lt.mp hlast)⟩
        · have hout : (if item.text.length ≤ 256 then
              resume numOfPorts zero (comma :: line rest (item' :: items)) item.text item.mode
                portArry else .outside) = Call.outside := by
            by_cases hlen : item.text.length ≤ 256
            · rw [if_pos hlen, resume_comma (digitAt_line rest), convertItem_text hports,
                if_neg hfits]
            · exact if_neg hlen
          rw [hout]
          apply Walk.outside ⟨item, List.mem_cons_self .., Nat.not_lt.mp hfits⟩
          rintro (h | ⟨h, -⟩)
          · exact hrefused h
          · exact hfits h

/-- A string that does not begin with a digit: it is refused, or the call returns 0 for a blank, or
nothing for the empty string. -/
theorem loop_no_item (numOfPorts : Nat) (portArry : Nat → UInt32)
    (hdigit : digitAt rest.head? = false) :
    (RefusedInTime numOfPorts rest [] ∧
      portListLoop numOfPorts none rest [] false portArry = .returns (-1) portArry) ∨
    ¬RefusedInTime numOfPorts rest [] ∧
      (portListLoop numOfPorts none rest [] false portArry = .noReturn ∨
        ∃ p, portListLoop numOfPorts none rest [] false portArry = .returns 0 p) := by
  cases rest with
  | nil => exact .inr ⟨fun h => h.1 rfl, .inl rfl⟩
  | cons c rest =>
    have hc : ¬isDigit c = true := by
      have hnot : isDigit c = false := hdigit
      rw [hnot]
      exact Bool.false_ne_true
    have hne : c :: rest ≠ [] := List.cons_ne_nil _ _
    by_cases hblank : c = blank
    · subst hblank
      have hcomma : ¬blank = comma := by decide
      have hdash : ¬blank = dash := by decide
      have hzero : (atoi []).toNat = 0 := by decide
      rw [portListLoop, if_neg hcomma, if_neg hdash, if_neg hc, if_pos rfl, lastItem, convertItem,
        if_pos (by decide), if_neg Bool.false_ne_true, convertFirstStringType, hzero]
      rcases Nat.eq_zero_or_pos numOfPorts with hnone | hpos
      · rw [if_neg (by omega)]
        exact .inl ⟨⟨hne, fun _ => hnone⟩, rfl⟩
      · rw [if_pos hpos]
        exact .inr ⟨fun h => Nat.ne_of_gt hpos (h.2 rfl), .inr ⟨_, rfl⟩⟩
    · have hhead : (c :: rest).head? = some blank → numOfPorts = 0 :=
        fun h => absurd (Option.some.inj h) hblank
      refine .inl ⟨⟨hne, hhead⟩, ?_⟩
      rw [portListLoop]
      by_cases hcomma : c = comma
      · rw [if_pos hcomma]
        rfl
      · rw [if_neg hcomma]
        by_cases hdash : c = dash
        · rw [if_pos hdash]
          rfl
        · rw [if_neg hdash, if_neg hc, if_neg hblank]

/-! ### Lists of ports -/

theorem markAll_of_mem {items : List Item} {i : Nat}
    (h : ∃ item ∈ items, item.start ≤ i ∧ i ≤ item.last) : markAll portArry items i = 1 := by
  have hkeep : ∀ (items : List Item) (p : Nat → UInt32), p i = 1 → markAll p items i = 1 := by
    intro items
    induction items with
    | nil => exact fun p hp => hp
    | cons item items ih =>
      intro p hp
      apply ih
      show (if item.start ≤ i ∧ i ≤ item.last then 1 else p i) = 1
      rw [hp, ite_self]
  induction items generalizing portArry with
  | nil =>
    obtain ⟨item, hmem, -⟩ := h
    cases hmem
  | cons item items ih =>
    obtain ⟨found, hmem, hfound⟩ := h
    rcases List.mem_cons.mp hmem with rfl | hmem
    · exact hkeep items _ (if_pos hfound)
    · exact ih ⟨found, hmem, hfound⟩

theorem markAll_of_not_mem {items : List Item} {i : Nat}
    (h : ¬∃ item ∈ items, item.start ≤ i ∧ i ≤ item.last) :
    markAll portArry items i = portArry i := by
  induction items generalizing portArry with
  | nil => rfl
  | cons item items ih =>
    have hfirst : ¬(item.start ≤ i ∧ i ≤ item.last) :=
      fun hin => h ⟨item, List.mem_cons_self .., hin⟩
    have hrest : ¬∃ found ∈ items, found.start ≤ i ∧ i ≤ found.last := by
      rintro ⟨found, hmem, hin⟩
      exact h ⟨found, List.mem_cons_of_mem _ hmem, hin⟩
    rw [markAll, List.foldl_cons, ← markAll, ih hrest, marked, if_neg hfirst]

theorem Item.Plain.not_refused {item : Item} (h : item.Plain) : ¬item.Refused := by
  have hnumber : ∀ n : Number, n.Plain → ¬n.Refused := by
    rintro n hplain ⟨c, rest, heq, -⟩
    exact hplain c rest heq
  cases item with
  | port n => exact hnumber n h
  | range a b =>
    rintro (hrefused | ⟨-, hrefused⟩)
    · exact hnumber a h.1 hrefused
    · exact hnumber b h.2 hrefused

theorem Item.last_le_high (item : Item) : item.last ≤ item.high := by
  cases item with
  | port n => exact Nat.le_refl _
  | range a b => exact Nat.le_max_right _ _

theorem Item.low_le_start (item : Item) : item.low ≤ item.start := by
  cases item with
  | port n => exact Nat.le_refl _
  | range a b =>
    rw [Item.low, Item.start]
    split
    · exact Nat.min_le_left _ _
    · exact Nat.min_le_right _ _

/-- Items whose numbers are good, and nothing wrong behind them. -/
theorem not_refusedInTime {items : List Item} (hne : items ≠ []) (hrest : Converted rest)
    (h : ∀ item ∈ items, ¬item.Refused ∧ item.last < numOfPorts) :
    ¬RefusedInTime numOfPorts rest items := by
  induction items with
  | nil => exact absurd rfl hne
  | cons item items ih =>
    obtain ⟨hzero, hlast⟩ := h item (List.mem_cons_self ..)
    cases items with
    | nil =>
      rintro (hrefused | ⟨-, -, hle⟩ | ⟨hend, -⟩)
      · exact hzero hrefused
      · exact Nat.not_lt.mpr hle hlast
      · exact hend hrest
    | cons item' items =>
      rintro (hrefused | ⟨-, hle | htail⟩)
      · exact hzero hrefused
      · exact Nat.not_lt.mpr hle hlast
      · exact ih (List.cons_ne_nil _ _) (fun it hit => h it (List.mem_cons_of_mem _ hit)) htail

theorem reads_nil {items : List Item} (hne : items ≠ []) : Reads [] items := by
  induction items with
  | nil => exact absurd rfl hne
  | cons item items ih =>
    cases items with
    | nil =>
      refine ⟨rfl, ?_, ?_⟩
      · intro r hr
        cases hr
      · intro n _ r hr
        cases hr
    | cons item' items => exact ih (List.cons_ne_nil _ _)

variable {s : CStr} {items : List Item}

/-- What the walk makes of a list of ports. -/
theorem PortList.walk (h : PortList numOfPorts s items) (hports : numOfPorts * 4 < 2 ^ 32)
    (portArry : Nat → UInt32) :
    (portListLoop numOfPorts none s [] false portArry = .outside ∧
      ∃ item ∈ items, 256 ≤ item.text.length) ∨
    portListLoop numOfPorts none s [] false portArry = .returns 0 (markAll portArry items) := by
  have hnot : ¬RefusedInTime numOfPorts [] items := by
    apply not_refusedInTime h.ne (.inl rfl)
    intro item hitem
    exact ⟨(h.plain item hitem).not_refused, item.last_le_high.trans_lt (h.high item hitem)⟩
  have hwalk := walk_line portArry hports h.ne (reads_nil h.ne)
    (show digitAt none = false from rfl)
  rw [← h.text] at hwalk
  cases hcall : portListLoop numOfPorts none s [] false portArry with
  | noReturn =>
    rw [hcall] at hwalk
    cases hwalk
  | outside =>
    rw [hcall] at hwalk
    cases hwalk with
    | outside hlong _ => exact .inl ⟨rfl, hlong⟩
  | returns retVal p =>
    rw [hcall] at hwalk
    cases hwalk with
    | refused hrefused _ => exact absurd hrefused hnot
    | accepted _ _ => exact .inr rfl

theorem PortList.text_digit (h : PortList numOfPorts s items) : digitAt s.head? = true := by
  obtain ⟨item, items, rfl⟩ := List.exists_cons_of_ne_nil h.ne
  rw [h.text]
  exact digitAt_line []

theorem loop_of_refused (portArry : Nat → UInt32) (hports : numOfPorts * 4 < 2 ^ 32) (hs : s = line rest items)
    (hreads : Reads rest items) (h : RefusedInTime numOfPorts rest items) :
    ∃ p, portListLoop numOfPorts none s [] false portArry = .returns (-1) p := by
  by_cases hne : items = []
  · subst hne
    obtain rfl : s = rest := hs
    rcases loop_no_item numOfPorts portArry hreads with ⟨-, hcall⟩ | ⟨hnot, -⟩
    · exact ⟨portArry, hcall⟩
    · exact absurd h hnot
  · have hwalk := walk_line portArry hports hne hreads
      (show digitAt none = false from rfl)
    rw [← hs] at hwalk
    generalize portListLoop numOfPorts none s [] false portArry = call at hwalk ⊢
    cases hwalk with
    | refused _ p => exact ⟨p, rfl⟩
    | outside _ hnot => exact absurd h hnot
    | accepted hrest haccepts =>
      refine absurd h (not_refusedInTime hne hrest ?_)
      intro item hitem
      exact ⟨(haccepts item hitem).zero, (haccepts item hitem).last⟩

/-- Where the call returns -1, there is no list of ports to return 0 for. -/
theorem correct_of_refused (hports : numOfPorts * 4 < 2 ^ 32) {p : Nat → UInt32}
    (h : portListLoop numOfPorts none s [] false portArry = .returns (-1) p) :
    Correct numOfPorts s (.returns (-1) p) where
  list := by
    intro items hlist
    rcases hlist.walk hports portArry with ⟨hout, -⟩ | hzero
    · rw [h] at hout
      cases hout
    · rw [h] at hzero
      cases hzero
  other := fun _ => ⟨p, rfl⟩

/-- A string that is neither refused in time nor a list of ports that are covered. -/
theorem not_correct {call : Call} (hnone : (¬∃ items, PortList numOfPorts s items) →
      ∀ p, call ≠ .returns (-1) p)
    (hsome : ∀ items, PortList numOfPorts s items → ∀ p, call = .returns 0 p →
      Entries numOfPorts items p → False) : ¬Correct numOfPorts s call := by
  intro hcorrect
  by_cases hlist : ∃ items, PortList numOfPorts s items
  · obtain ⟨items, hitems⟩ := hlist
    obtain ⟨p, hcall, hentries⟩ := hcorrect.list items hitems
    exact hsome items hitems p hcall hentries
  · obtain ⟨p, hcall⟩ := hcorrect.other hlist
    exact hnone hlist p hcall

/-- The entries that are set are those of the list exactly when its ports are covered. -/
theorem entries_markAll_iff {portArry : PortArry} (h : PortList portArry.numOfPorts s items) :
    Entries portArry.numOfPorts items (markAll (cleared portArry) items) ↔
      ∀ i, Denotes items i → ∃ item ∈ items, item.start ≤ i ∧ i ≤ item.last := by
  constructor
  · intro hentries i hi
    obtain ⟨item, hitem, hlow, hhigh⟩ := hi
    have hlt : i < portArry.numOfPorts := hhigh.trans_lt (h.high item hitem)
    by_contra hnot
    have hone := (hentries i hlt).1 ⟨item, hitem, hlow, hhigh⟩
    rw [markAll_of_not_mem hnot, cleared, if_pos hlt] at hone
    exact absurd hone (by decide)
  · intro hcovered i hlt
    refine ⟨fun hi => markAll_of_mem (hcovered i hi), ?_⟩
    intro hi
    rw [markAll_of_not_mem, cleared, if_pos hlt]
    rintro ⟨item, hitem, hstart, hlast⟩
    exact hi ⟨item, hitem, item.low_le_start.trans hstart, hlast.trans item.last_le_high⟩

/-- **Port lists.**  The call returns 0 and the entries of the list for every list of ports below
`numOfPorts`, and -1 for every other string, exactly when the string is refused in time, or its
items fit into the buffer and its ports are covered. -/
theorem convertPortListString2PortArry_iff (s : CStr) (portArry : PortArry) :
    Correct portArry.numOfPorts s (convertPortListString2PortArry s portArry) ↔
      Handled portArry.numOfPorts s := by
  have hports := portArry.fits
  have hcall : convertPortListString2PortArry s portArry =
      portListLoop portArry.numOfPorts none s [] false (cleared portArry) := rfl
  constructor
  · intro hcorrect
    by_contra hhandled
    have hrefused : ∀ items rest, s = line rest items → Reads rest items →
        ¬RefusedInTime portArry.numOfPorts rest items :=
      fun items rest hs hreads h => hhandled (.inl ⟨items, rest, hs, hreads, h⟩)
    revert hcorrect
    rw [hcall]
    obtain ⟨items, rest, hs, hreads⟩ := exists_reading s
    by_cases hne : items = []
    · subst hne
      obtain rfl : s = rest := hs
      have hdigit : digitAt s.head? = false := hreads
      have hlist : ∀ items, ¬PortList portArry.numOfPorts s items := by
        intro items h
        rw [h.text_digit] at hdigit
        cases hdigit
      rcases loop_no_item portArry.numOfPorts (cleared portArry) hdigit with ⟨h, -⟩ | ⟨-, h | ⟨q, h⟩⟩
      · exact absurd h (hrefused [] s rfl hreads)
      · rw [h]
        exact not_correct (fun _ p hp => by cases hp) (fun items h => absurd h (hlist items))
      · rw [h]
        exact not_correct (fun _ p hp => by cases hp) (fun items h => absurd h (hlist items))
    · have hwalk := walk_line (cleared portArry) hports hne hreads
        (show digitAt none = false from rfl)
      rw [← hs] at hwalk
      generalize portListLoop portArry.numOfPorts none s [] false (cleared portArry) = call at hwalk ⊢
      cases hwalk with
      | refused h p => exact absurd h (hrefused items rest hs hreads)
      | outside hlong hnot =>
        exact not_correct (fun _ p hp => by cases hp) (fun _ _ p hp => by cases hp)
      | accepted hrest haccepts =>
        apply not_correct
        · intro _ p hp
          cases hp
        · intro items' hlist p hp hentries
          have hend : rest = [] := by
            rcases hrest with hend | hblank
            · exact hend
            · obtain ⟨r, rfl⟩ : ∃ r, rest = blank :: r := by
                cases rest with
                | nil => cases hblank
                | cons c r => exact ⟨r, by rw [Option.some.inj hblank]⟩
              have hmem : blank ∈ line [] items' := by
                have hsplit := line_append [] (blank :: r) hne
                rw [List.nil_append] at hsplit
                rw [← hlist.text, hs, hsplit]
                exact List.mem_append_right _ (List.mem_cons_self ..)
              rcases mem_line hmem with h | h | h
              · exact absurd h (by decide)
              · exact absurd h (by decide)
              · exact absurd h (by decide)
          subst hend
          obtain rfl : items' = items := line_inj hlist.ne hne (hlist.text.symm.trans hs)
          obtain rfl : p = markAll (cleared portArry) items' := by
            injection hp with _ hp
            exact hp.symm
          apply hhandled
          refine .inr ⟨items', hlist, ?_, (entries_markAll_iff hlist).mp hentries⟩
          intro item hitem
          exact (haccepts item hitem).length
  · rintro (⟨items, rest, hs, hreads, hrefused⟩ | ⟨items, hlist, hcovered⟩)
    · obtain ⟨p, hp⟩ := loop_of_refused (cleared portArry) hports hs hreads hrefused
      rw [hcall, hp]
      exact correct_of_refused hports hp
    · rcases hlist.walk hports (cleared portArry) with ⟨-, item, hitem, hlong⟩ | hzero
      · exact absurd (hcovered.length item hitem) (Nat.not_lt.mpr hlong)
      · rw [hcall, hzero]
        refine ⟨?_, fun hnone => absurd ⟨items, hlist⟩ hnone⟩
        intro items' hlist'
        obtain rfl : items = items' :=
          line_inj hlist.ne hlist'.ne (hlist.text.symm.trans hlist'.text)
        exact ⟨_, rfl, (entries_markAll_iff hlist).mpr hcovered.ports⟩

theorem eight_fits : 8 * 4 < 2 ^ 32 := by decide

/-- An array of eight ports. -/
def eightPorts : PortArry := ⟨8, eight_fits, fun _ => 0⟩

theorem all_singleton {d : UInt8} (h : isDigit d = true) : ∀ c ∈ [d], isDigit c = true := by
  intro c hc
  rwa [List.mem_singleton.mp hc]

/-- A number of one digit. -/
def oneDigit (d : UInt8) (h : isDigit d = true) : Number :=
  ⟨[d], List.cons_ne_nil d [], all_singleton h⟩

theorem oneDigit_plain (d : UInt8) (h : isDigit d = true) : (oneDigit d h).Plain := by
  intro c rest heq
  cases heq

/-- `5-3` sets port 3 only. -/
theorem downwards_loses_ports :
    ¬Correct eightPorts.numOfPorts [53, dash, 51]
      (convertPortListString2PortArry [53, dash, 51] eightPorts) := by
  intro hcorrect
  have hlist : PortList eightPorts.numOfPorts [53, dash, 51]
      [.range (oneDigit 53 rfl) (oneDigit 51 rfl)] := by
    refine ⟨List.cons_ne_nil _ _, rfl, ?_, ?_⟩
    · intro item hitem
      rw [List.mem_singleton.mp hitem]
      exact ⟨oneDigit_plain 53 rfl, oneDigit_plain 51 rfl⟩
    · intro item hitem
      rw [List.mem_singleton.mp hitem]
      decide
  obtain ⟨p, hp, hentries⟩ := hcorrect.list _ hlist
  have hfour := (hentries 4 (by decide)).1 ⟨_, List.mem_cons_self .., by decide⟩
  rcases hlist.walk eightPorts.fits (cleared eightPorts) with ⟨hout, -⟩ | hzero
  · rw [convertPortListString2PortArry, hout] at hp
    cases hp
  · rw [convertPortListString2PortArry, hzero] at hp
    injection hp with _ hp
    rw [← hp, markAll_of_not_mem] at hfour
    · exact absurd hfour (by decide)
    · rintro ⟨item, hitem, hin⟩
      rw [List.mem_singleton.mp hitem] at hin
      exact absurd hin (by decide)

end Opconn.Dvrs
