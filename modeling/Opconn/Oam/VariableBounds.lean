import Mathlib.Data.List.GetD
import Opconn.Oam.DiscoverySafety
import Opconn.Oam.VariableRequest

/-!
# How far a variable request is read

The loop of `OamVarReq` has no other end than a branch of 0, and the length of the frame is
not passed to it.  The descriptors are three bytes and their containers eight, so that a
frame of admitted length can be without an end or ask for more than `out_data` holds.
-/

namespace Opconn.Oam.Variable

open Ctc

/-! ### The loop in memory -/

/-- The memory at `in_data` behind a frame that was received. -/
def received (frame : Buffer) (behind : Nat → UInt8) (i : Nat) : UInt8 :=
  if i < frame.length then byteAt frame i else behind i

/-- `pstVarDes`, as an offset into `in_data`, and `out_data`. -/
structure VarState where
  pos : Nat
  out : OutData

def varDesOffset : Nat := pduOffset + oampduHdrSize

/-- One round of the loop of `OamVarReq`. -/
def varReqStep (l : Link) (frame : Buffer) (behind : Nat → UInt8) (s : VarState) :
    VarState ⊕ OutData :=
  let branch := received frame behind s.pos
  if branch = 0 then .inr s.out
  else
    .inl
      { pos := s.pos + oamVariableDescriptorSize
        out :=
          if branch = oamBranchStandardAttrib then oamVarAttr l (frame.drop varDesOffset) s.out
          else s.out }

/-- The branches of the descriptors, as far as the frame goes. -/
def branches : Buffer → List UInt8
  | branch :: _ :: _ :: rest => branch :: branches rest
  | branch :: _ => [branch]
  | [] => []

/-- The containers that are written for the descriptors in front of the end. -/
def written (pucData : Buffer) (bs : List UInt8) : Nat :=
  if (ptrAt pucData 0).leaf = oamAttrFrmTxOk ∨ (ptrAt pucData 0).leaf = oamAttrFrmRxOk then
    (bs.takeWhile (· ≠ 0)).count oamBranchStandardAttrib
  else 0

theorem branches_cons (branch : UInt8) (rest : Buffer) :
    branches (branch :: rest) = branch :: branches (rest.drop 2) := by
  rcases rest with _ | ⟨hi, _ | ⟨lo, rest⟩⟩ <;> rfl

variable {l : Link} {frame : Buffer} {behind : Nat → UInt8}

variable (behind) in
theorem received_eq {i : Nat} (hi : i < frame.length) : received frame behind i = frame[i] := by
  rw [received, if_pos hi, byteAt, List.getD_eq_getElem _ _ hi]

/-- One descriptor writes one container, or nothing. -/
theorem Written.attr {n : Nat} {o : OutData} (h : Written l n o.front) (pucData : Buffer)
    (branch : UInt8) :
    Written l (n + if branch = oamBranchStandardAttrib ∧
        ((ptrAt pucData 0).leaf = oamAttrFrmTxOk ∨ (ptrAt pucData 0).leaf = oamAttrFrmRxOk) then 1
      else 0)
      (if branch = oamBranchStandardAttrib then oamVarAttr l pucData o else o).front := by
  rw [oamVarAttr_eq]
  by_cases hstd : branch = oamBranchStandardAttrib
  · by_cases hleaf : (ptrAt pucData 0).leaf = oamAttrFrmTxOk ∨
        (ptrAt pucData 0).leaf = oamAttrFrmRxOk
    · rw [if_pos ⟨hstd, hleaf⟩, if_pos hstd, if_pos hleaf]
      exact h.step
    · rw [if_neg fun h => hleaf h.2, if_pos hstd, if_neg hleaf]
      exact h
  · rw [if_neg fun h => hstd h.1, if_neg hstd]
    exact h

/-- A frame of minimal length whose descriptors are all the same. -/
def requestFrame (descriptor : Buffer) (count : Nat) : Buffer :=
  List.replicate 21 0 ++ [oamCodeVariableReq] ++ (List.replicate count descriptor).flatten ++
    List.replicate (42 - 3 * count) 0

/-- Where the end comes inside the frame, the loop writes what the walk over the request
writes. -/
theorem varReq_run (l : Link) (behind : Nat → UInt8) (frame : Buffer) (left : Nat) {s : VarState}
    (hleft : frame.length ≤ s.pos + left) (hend : 0 ∈ branches (frame.drop s.pos)) :
    ∃ fuel, Loop.run (varReqStep l frame behind) fuel s =
      some (varReqLoop l (frame.drop varDesOffset) (frame.drop s.pos) s.out) := by
  induction left generalizing s with
  | zero =>
    have hpos : frame.length ≤ s.pos := hleft
    rw [List.drop_eq_nil_of_le hpos] at hend
    cases hend
  | succ left ih =>
    rcases Nat.lt_or_ge s.pos frame.length with hpos | hpos
    · have hread := received_eq behind hpos
      rw [List.drop_eq_getElem_cons hpos] at hend ⊢
      by_cases hzero : frame[s.pos] = 0
      · have hstep : varReqStep l frame behind s = .inr s.out := if_pos (hread.trans hzero)
        have hloop : varReqLoop l (frame.drop varDesOffset)
            (frame[s.pos] :: frame.drop (s.pos + 1)) s.out = s.out := by
          rw [hzero]
          rcases frame.drop (s.pos + 1) with _ | ⟨hi, _ | ⟨lo, rest⟩⟩ <;> rfl
        exact ⟨1, (Loop.run_succ_inr hstep 0).trans (congrArg some hloop.symm)⟩
      · have hstep : varReqStep l frame behind s = .inl _ := if_neg (by rwa [hread])
        rw [branches_cons, List.drop_drop, List.mem_cons, or_iff_right (Ne.symm hzero)] at hend
        obtain ⟨fuel, hrun⟩ := ih (s := ⟨s.pos + 3, _⟩) (by dsimp only; omega) hend
        refine ⟨fuel + 1, (Loop.run_succ_inl hstep fuel).trans (hrun.trans (congrArg some ?_))⟩
        have hrest : frame.drop (s.pos + 1 + 2) = (frame.drop (s.pos + 1)).drop 2 :=
          (List.drop_drop ..).symm
        rw [hrest] at hend
        rw [hread]
        change varReqLoop l _ (frame.drop (s.pos + 1 + 2)) _ = _
        rw [hrest]
        generalize frame.drop (s.pos + 1) = more at hend ⊢
        rcases more with _ | ⟨hi, _ | ⟨lo, rest⟩⟩
        · cases hend
        · cases hend
        · exact (if_neg hzero).symm
    · rw [List.drop_eq_nil_of_le hpos] at hend
      cases hend

end Opconn.Oam.Variable
