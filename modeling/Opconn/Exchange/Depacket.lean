import Mathlib.Data.List.Basic

/-!
# The dispatcher of management messages

The body of a SET or GET message names a management function by its index and carries up to six
parameters, each with its type, its length and its bytes.  `AdmDepacket` unpacks the parameters
into arrays of twenty bytes, looks the index up in a table of 256 entries and calls the function
that it finds.  Indices from 38 on, the two of the BPDU action and the two tests are in no entry
that has a function, and no statement returns what a function returned.
-/

namespace Opconn.Exchange

/-! ### The table -/

/-- The functions in `AdmFuncTabArry`. -/
inductive AdmFunc where
  | ponMacIdSet
  | ponMacIdGet
  | ponLaserEnableSet
  | ponLaserEnableGet
  | ponDeviceReset
  | ponVersionGet
  | ponLinkGet
  | ponUptimeGet
  | ponExtendMtuEnableSet
  | ponExtendMtuEnableGet
  | ponUNIConfigSet
  | ponUNIConfigGet
  | ponConnectionSet
  | ponConnectionGet
  | ponStatusGet
  | ponEncryptionSet
  | ponEncryptionGet
  | ponEncryptionActKeySet
  | ponEncryptionActKeyGet
  | ponEventEnable
  | ponPortStatsGet
  | uniPortStatsGet
  | ponRegRead
  | ponRegWrite
  | ponLedSet
  | ponIPMcSet
  | ponIPMcGet
  | ponQueueLimitGet
  | ponClsMcSet
  | ponClsMcGet
  | ponIgmpEnableSet
  | ponIgmpEnableGet
  | ponLearnEnableSet
  | ponLearnEnableGet
deriving DecidableEq, Repr

/-- `ADM_FUNC_TAB_t`; `func` may be `NULL`. -/
structure AdmFuncTab where
  funIndex : UInt16
  numOfPara : UInt8
  func : Option AdmFunc
deriving DecidableEq, Repr

/-- The entries that `AdmFuncTabArry` is written with. -/
def admFuncEntries : List AdmFuncTab :=
  [⟨0, 1, some .ponMacIdSet⟩,
   ⟨1, 0, some .ponMacIdGet⟩,
   ⟨2, 1, some .ponLaserEnableSet⟩,
   ⟨3, 0, some .ponLaserEnableGet⟩,
   ⟨4, 1, some .ponDeviceReset⟩,
   ⟨5, 0, some .ponVersionGet⟩,
   ⟨6, 0, some .ponLinkGet⟩,
   ⟨7, 0, some .ponUptimeGet⟩,
   ⟨8, 1, some .ponExtendMtuEnableSet⟩,
   ⟨9, 0, some .ponExtendMtuEnableGet⟩,
   ⟨10, 1, some .ponUNIConfigSet⟩,
   ⟨11, 0, some .ponUNIConfigGet⟩,
   ⟨12, 1, some .ponConnectionSet⟩,
   ⟨13, 0, some .ponConnectionGet⟩,
   ⟨14, 0, some .ponStatusGet⟩,
   ⟨15, 1, some .ponEncryptionSet⟩,
   ⟨16, 0, some .ponEncryptionGet⟩,
   ⟨17, 1, some .ponEncryptionActKeySet⟩,
   ⟨18, 0, some .ponEncryptionActKeyGet⟩,
   ⟨19, 1, some .ponEventEnable⟩,
   ⟨20, 0, some .ponPortStatsGet⟩,
   ⟨21, 1, some .uniPortStatsGet⟩,
   ⟨22, 1, some .ponRegRead⟩,
   ⟨23, 1, some .ponRegWrite⟩,
   ⟨24, 1, some .ponLedSet⟩,
   ⟨25, 1, some .ponIPMcSet⟩,
   ⟨26, 1, some .ponIPMcGet⟩,
   ⟨27, 1, some .ponQueueLimitGet⟩,
   ⟨28, 1, some .ponClsMcSet⟩,
   ⟨29, 1, some .ponClsMcGet⟩,
   ⟨30, 1, some .ponIgmpEnableSet⟩,
   ⟨31, 0, some .ponIgmpEnableGet⟩,
   ⟨32, 1, some .ponLearnEnableSet⟩,
   ⟨33, 0, some .ponLearnEnableGet⟩,
   ⟨36, 3, none⟩,
   ⟨37, 4, none⟩,
   ⟨0xffff, 0, none⟩]

/-- `ADM_MAX_FUNC_INDEX`. -/
def admMaxFuncIndex : Nat := 256

/-- `AdmFuncTabArry`, whose other entries are zero. -/
def admFuncTabArry : List AdmFuncTab :=
  admFuncEntries ++ List.replicate (admMaxFuncIndex - admFuncEntries.length) ⟨0, 0, none⟩

/-- `ADM_TEST_4`. -/
def admTest4 : Nat := 37

/-- `ADM_MAX_NUM_OF_PAR`. -/
def admMaxNumOfPar : Nat := 6

/-- `ADM_MAX_LEN_OF_PARA`. -/
def admMaxLenOfPara : Nat := 20

/-! ### The message -/

/-- `ADM_PAR_INFO_t`, with the bytes of `pVal` that were stored. -/
structure AdmParInfo where
  typeOfPar : UInt8
  lengthOfPar : UInt8
  pVal : List UInt8
deriving DecidableEq, Repr

/-- `OPL_UNPACK_BUFF`. -/
def unpackBuff (buf : Nat → UInt8) (p len : Nat) : List UInt8 :=
  (List.range len).map fun i => buf (p + i)

/-- A parameter as it is encoded at some place of the message. -/
def encodedPar (buf : Nat → UInt8) (p : Nat) : AdmParInfo :=
  ⟨buf p, buf (p + 1), unpackBuff buf (p + 2) (buf (p + 1)).toNat⟩

/-- The parameters as they are encoded from some place of the message on. -/
def encodedPars (buf : Nat → UInt8) : Nat → Nat → List AdmParInfo
  | _, 0 => []
  | p, n + 1 => encodedPar buf p :: encodedPars buf (p + 2 + (buf (p + 1)).toNat) n

/-- What a message leads to: `opl_error`; more bytes stored than a parameter has room for; an access
behind the table; a call of `NULL`; nothing at all; or a call of a function with its parameters, of which those
that the message has not are not initialised, and the value returned, if one is. -/
inductive Depacket where
  | error
  | nothing
  | overflow
  | outside
  | nullCall
  | called (func : AdmFunc) (args : List (Option AdmParInfo)) (returned : Option UInt32)
deriving DecidableEq

/-- The loop that unpacks the parameters; `none` when one is too long. -/
def unpackPars (buf : Nat → UInt8) : Nat → Nat → Option (List AdmParInfo)
  | _, 0 => some []
  | p, n + 1 =>
    if admMaxLenOfPara < (buf (p + 1)).toNat then none
    else (unpackPars buf (p + 2 + (buf (p + 1)).toNat) n).map (encodedPar buf p :: ·)

/-- The switch over `numOfPara`. -/
def callEntry (e : AdmFuncTab) (pars : List AdmParInfo) : Depacket :=
  if e.numOfPara.toNat ≤ admMaxNumOfPar then
    match e.func with
    -- `retVal` is assigned here and not returned
    | some func => .called func ((List.range e.numOfPara.toNat).map fun i => pars[i]?) none
    | none => .nullCall
  else .nothing

def funIndexOf (buf : Nat → UInt8) : UInt16 := (buf 0).toUInt16 <<< 8 ||| (buf 1).toUInt16

/-- `AdmDepacket`. -/
def admDepacket (buf : Nat → UInt8) : Depacket :=
  if buf 0 ≠ 0 then .error
  else if admMaxNumOfPar < (buf 2).toNat then .error
  else
    match unpackPars buf 3 (buf 2).toNat with
    | none => .overflow
    | some pars =>
      let funindex := admFuncTabArry.findIdx fun e => e.funIndex = funIndexOf buf
      if funindex = admTest4 then .error
      else if (funIndexOf buf).toNat < admMaxFuncIndex then
        match admFuncTabArry[funindex]? with
        | some e => callEntry e pars
        | none => .outside
      else .error

/-! ### What the dispatcher should do -/

/-- The entry that the table has for an index. -/
def registered (funIndex : UInt16) : Option AdmFuncTab :=
  admFuncTabArry.find? fun e => e.funIndex = funIndex

/-- The parameters of a message as encoded. -/
def messagePars (buf : Nat → UInt8) : List AdmParInfo := encodedPars buf 3 (buf 2).toNat

/-- The dispatcher returns `opl_error` without a call, or calls the function that is registered with
the parameters as encoded, all of which the message has, and returns a value as `answers` says. -/
def Dispatched (answers : AdmFunc → List AdmParInfo → Option UInt32 → Prop) (buf : Nat → UInt8)
    (out : Depacket) : Prop :=
  out = .error ∨ ∃ e func returned, registered (funIndexOf buf) = some e ∧ e.func = some func ∧
    e.numOfPara.toNat ≤ (messagePars buf).length ∧
    out = .called func (((messagePars buf).take e.numOfPara.toNat).map some) returned ∧
    answers func ((messagePars buf).take e.numOfPara.toNat) returned

/-- The two tests at the start of the dispatcher. -/
def Rejected (buf : Nat → UInt8) : Prop := buf 0 ≠ 0 ∨ admMaxNumOfPar < (buf 2).toNat

/-- No parameter is too long, and the message has all parameters of a function that is registered. -/
def Dispatchable (buf : Nat → UInt8) : Prop :=
  (∀ par ∈ messagePars buf, par.lengthOfPar.toNat ≤ admMaxLenOfPara) ∧
    ∃ e, registered (funIndexOf buf) = some e ∧ e.func ≠ none ∧
      e.numOfPara.toNat ≤ (messagePars buf).length

/-! ### The loops -/

/-- The parameters are unpacked as they are encoded, unless one is too long. -/
theorem unpackPars_eq (buf : Nat → UInt8) (p n : Nat) :
    unpackPars buf p n =
      if ∀ par ∈ encodedPars buf p n, par.lengthOfPar.toNat ≤ admMaxLenOfPara then
        some (encodedPars buf p n)
      else none := by
  induction n generalizing p with
  | zero =>
    rw [if_pos (fun par h => by cases h)]
    rfl
  | succ n ih =>
    rw [unpackPars, encodedPars]
    by_cases hlong : admMaxLenOfPara < (buf (p + 1)).toNat
    · rw [if_pos hlong, if_neg]
      intro hall
      exact Nat.not_lt.mpr (hall (encodedPar buf p) List.mem_cons_self) hlong
    · rw [if_neg hlong, ih]
      by_cases hall : ∀ par ∈ encodedPars buf (p + 2 + (buf (p + 1)).toNat) n,
          par.lengthOfPar.toNat ≤ admMaxLenOfPara
      · rw [if_pos hall, if_pos, Option.map_some]
        intro par hpar
        rcases List.mem_cons.mp hpar with rfl | hpar
        · exact Nat.not_lt.mp hlong
        · exact hall par hpar
      · rw [if_neg hall, if_neg, Option.map_none]
        intro hcons
        exact hall (fun par hpar => hcons par (List.mem_cons_of_mem _ hpar))

/-- The entries from 37 on have index 0, which the first entry has too. -/
theorem findIdx_ne_admTest4 (f : UInt16) :
    (admFuncTabArry.findIdx fun e => e.funIndex = f) ≠ admTest4 := by
  intro h
  have hentry : admFuncTabArry[admFuncTabArry.findIdx fun e => e.funIndex = f]? =
      some ⟨0, 0, none⟩ := by
    rw [h]
    rfl
  have hzero : (0 : UInt16) = f :=
    of_decide_eq_true (List.findIdx_of_getElem?_eq_some 
      (p := fun e : AdmFuncTab => e.funIndex = f) hentry)
  subst hzero
  have hfirst : (admFuncTabArry.findIdx fun e => e.funIndex = 0) = 0 := rfl
  rw [hfirst] at h
  cases h

theorem numOfPara_le {f : UInt16} {e : AdmFuncTab} (h : registered f = some e) :
    e.numOfPara.toNat ≤ admMaxNumOfPar := by
  rcases List.mem_append.mp (List.mem_of_find?_eq_some h) with hentry | hzero
  · have hall : ∀ e ∈ admFuncEntries, e.numOfPara.toNat ≤ admMaxNumOfPar := by decide
    exact hall e hentry
  · rw [List.eq_of_mem_replicate hzero]
    decide

theorem funIndexOf_lt {buf : Nat → UInt8} (h : buf 0 = 0) :
    (funIndexOf buf).toNat < admMaxFuncIndex := by
  have hindex : funIndexOf buf = (buf 1).toUInt16 := by
    rw [funIndexOf, h]
    apply UInt16.toNat_inj.mp
    simp
  rw [hindex, UInt8.toNat_toUInt16]
  exact (buf 1).toNat_lt

/-! ### The dispatcher -/

/-- Behind the tests and the loop: the entry of the index, if there is one. -/
theorem admDepacket_of_accepted {buf : Nat → UInt8} (h : ¬Rejected buf)
    (hlen : ∀ par ∈ messagePars buf, par.lengthOfPar.toNat ≤ admMaxLenOfPara) :
    admDepacket buf =
      match registered (funIndexOf buf) with
      | some e => callEntry e (messagePars buf)
      | none => .outside := by
  have hfirst : buf 0 = 0 := by
    by_contra hne
    exact h (Or.inl hne)
  have hnum : ¬admMaxNumOfPar < (buf 2).toNat := fun hlt => h (Or.inr hlt)
  have hpars : unpackPars buf 3 (buf 2).toNat = some (messagePars buf) := by
    rw [unpackPars_eq]
    exact if_pos hlen
  rw [admDepacket, if_neg (not_not_intro hfirst), if_neg hnum, hpars]
  simp only [if_neg (findIdx_ne_admTest4 _), if_pos (funIndexOf_lt hfirst),
    ← List.find?_eq_getElem?_findIdx]
  rfl

theorem admDepacket_of_long {buf : Nat → UInt8} (h : ¬Rejected buf)
    (hlen : ¬∀ par ∈ messagePars buf, par.lengthOfPar.toNat ≤ admMaxLenOfPara) :
    admDepacket buf = .overflow := by
  have hfirst : ¬buf 0 ≠ 0 := fun hne => h (Or.inl hne)
  have hnum : ¬admMaxNumOfPar < (buf 2).toNat := fun hlt => h (Or.inr hlt)
  have hpars : unpackPars buf 3 (buf 2).toNat = none := by
    rw [unpackPars_eq]
    exact if_neg hlen
  rw [admDepacket, if_neg hfirst, if_neg hnum, hpars]

theorem admDepacket_of_rejected {buf : Nat → UInt8} (h : Rejected buf) :
    admDepacket buf = .error := by
  rw [admDepacket]
  rcases h with hfirst | hnum
  · exact if_pos hfirst
  · rw [if_pos hnum]
    exact ite_self _

/-- The parameters passed are those of the message exactly when it has enough. -/
theorem map_getElem?_eq_iff {α : Type*} (l : List α) (n : Nat) :
    (List.range n).map (fun i => l[i]?) = (l.take n).map some ↔ n ≤ l.length := by
  constructor
  · intro h
    have hlen := congrArg List.length h
    rw [List.length_map, List.length_map, List.length_range, List.length_take] at hlen
    omega
  · intro h
    apply List.ext_getElem
    · rw [List.length_map, List.length_map, List.length_range, List.length_take_of_le h]
    · intro i hi _
      have hlt : i < l.length := by
        rw [List.length_map, List.length_range] at hi
        exact Nat.lt_of_lt_of_le hi h
      rw [List.getElem_map, List.getElem_map, List.getElem_range, List.getElem_take,
        List.getElem?_eq_getElem hlt]

/-- A message that is not rejected reaches the function that is registered, with no value returned,
exactly if it is dispatchable. -/
theorem dispatched_iff (answers : AdmFunc → List AdmParInfo → Option UInt32 → Prop)
    {buf : Nat → UInt8} (h : ¬Rejected buf) :
    Dispatched answers buf (admDepacket buf) ↔
      Dispatchable buf ∧ ∀ e func, registered (funIndexOf buf) = some e → e.func = some func →
        answers func ((messagePars buf).take e.numOfPara.toNat) none := by
  by_cases hlen : ∀ par ∈ messagePars buf, par.lengthOfPar.toNat ≤ admMaxLenOfPara
  · have hout := admDepacket_of_accepted h hlen
    rcases hentry : registered (funIndexOf buf) with _ | e
    · rw [hentry] at hout
      refine iff_of_false ?_ ?_
      · rintro (herror | ⟨e, -, -, he, -⟩)
        · rw [hout] at herror
          cases herror
        · rw [hentry] at he
          cases he
      · rintro ⟨⟨-, e, he, -⟩, -⟩
        rw [hentry] at he
        cases he
    · rw [hentry] at hout
      simp only [callEntry, if_pos (numOfPara_le hentry)] at hout
      rcases hfunc : e.func with _ | func
      · rw [hfunc] at hout
        refine iff_of_false ?_ ?_
        · rintro (herror | ⟨e', func, -, he, hf, -⟩)
          · rw [hout] at herror
            cases herror
          · rw [hentry] at he
            obtain rfl := Option.some.inj he
            rw [hfunc] at hf
            cases hf
        · rintro ⟨⟨-, e', he, hne, -⟩, -⟩
          rw [hentry] at he
          obtain rfl := Option.some.inj he
          exact hne hfunc
      · rw [hfunc] at hout
        constructor
        · rintro (herror | ⟨e', func', returned, he, hf, hpara, hcall, hanswers⟩)
          · rw [hout] at herror
            cases herror
          · rw [hentry] at he
            obtain rfl := Option.some.inj he
            rw [hfunc] at hf
            obtain rfl := Option.some.inj hf
            rw [hout] at hcall
            obtain ⟨-, -, rfl⟩ := Depacket.called.inj hcall
            refine ⟨⟨hlen, e, hentry, by rw [hfunc]; exact Option.some_ne_none _, hpara⟩, ?_⟩
            intro e' func' he' hf'
            obtain rfl := Option.some.inj he'
            rw [hfunc] at hf'
            obtain rfl := Option.some.inj hf'
            exact hanswers
        · rintro ⟨⟨-, e', he, -, hpara⟩, hanswers⟩
          rw [hentry] at he
          obtain rfl := Option.some.inj he
          refine Or.inr ⟨e, func, none, hentry, hfunc, hpara, ?_, hanswers e func rfl hfunc⟩
          rw [hout, (map_getElem?_eq_iff _ _).mpr hpara]
  · have hout := admDepacket_of_long h hlen
    refine iff_of_false ?_ ?_
    · rintro (herror | ⟨_, _, _, _, _, _, hcall, _⟩)
      · rw [hout] at herror
        cases herror
      · rw [hout] at hcall
        cases hcall
    · rintro ⟨⟨hall, -⟩, -⟩
      exact hlen hall

/-- **The dispatcher.**  Whatever the functions return, the dispatcher returns `opl_error` or calls
the registered function with its parameters and returns the function's result exactly for the
messages that its first two tests reject; when the value returned is left out, exactly for these
and the dispatchable ones. -/
theorem admDepacket_iff (results : AdmFunc → List AdmParInfo → UInt32) (buf : Nat → UInt8) :
    (Dispatched (fun func pars returned => returned = some (results func pars)) buf
        (admDepacket buf) ↔ Rejected buf) ∧
      (Dispatched (fun _ _ _ => True) buf (admDepacket buf) ↔ Rejected buf ∨ Dispatchable buf) := by
  by_cases h : Rejected buf
  · have hout := admDepacket_of_rejected h
    exact ⟨iff_of_true (Or.inl hout) h, iff_of_true (Or.inl hout) (Or.inl h)⟩
  · constructor
    · rw [dispatched_iff _ h]
      refine iff_of_false ?_ h
      rintro ⟨⟨-, e, he, hne, -⟩, hanswers⟩
      obtain ⟨func, hfunc⟩ := Option.ne_none_iff_exists'.mp hne
      have hnone := hanswers e func he hfunc
      cases hnone
    · rw [dispatched_iff _ h]
      constructor
      · rintro ⟨hd, -⟩
        exact Or.inr hd
      · rintro (hr | hd)
        · exact absurd hr h
        · exact ⟨hd, fun _ _ _ _ => trivial⟩

/-- The message 0, 0, 1, 0, 21, whose parameter is one byte too long. -/
theorem long_parameter_overflows :
    ¬Dispatched (fun _ _ returned => returned = some 0)
      (fun i => if i = 2 then 1 else if i = 4 then 21 else 0)
      (admDepacket fun i => if i = 2 then 1 else if i = 4 then 21 else 0) := by
  have hout : admDepacket (fun i => if i = 2 then 1 else if i = 4 then 21 else 0) = .overflow := by
    decide
  rw [hout]
  rintro (herror | ⟨_, _, _, _, _, _, hcall, _⟩)
  · cases herror
  · cases hcall

end Opconn.Exchange
