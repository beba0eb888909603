import Opconn.Lib.Loop
import Opconn.Multicast.ForwardingTable
import Opconn.Multicast.GroupLimit

/-!
# The loop that lowers the number of groups on a port

`odmMulticastControlEntryNumSet` deletes one group of the port, takes the list from its
head again and goes on until as many are deleted as there are too many.  It deletes by key
and not by node, so that each turn gets on only when the search for the key finds the group
that the loop stands on.
-/

namespace Opconn.Multicast

open FirstMatch Runs

variable (board : Board) (takes : SwitchEntry → Bool)

/-! ### The loop -/

/-- What the loop has: where it is in the list, and how many are to go. -/
structure EntryNumLoop where
  list : List Group
  delEntryNum : Nat
  tables : Tables

/-- One round.  The list ends without a match, and the outer loop is left; or a group goes,
and the outer loop starts at the head of what is listed then. -/
def entryNumStep (board : Board) (takes : SwitchEntry → Bool) (portId : Nat) (s : EntryNumLoop) :
    EntryNumLoop ⊕ (OplStatus × Tables) :=
  match s.list with
  | [] => .inr (.ok, s.tables)
  | group :: rest =>
    if group.hostPortId = portId ∧ 0 < s.delEntryNum then
      match odmMcGroupDel board takes s.tables group.toGroupKey with
      | (.ok, t) => .inl ⟨t.mcGroupList, s.delEntryNum - 1, t⟩
      | failed => .inr failed
    else .inl ⟨rest, s.delEntryNum, s.tables⟩

/-- The call, when `fuel` rounds are enough. -/
def entryNumSetLoop (board : Board) (takes : SwitchEntry → Bool) (t : Tables) (portId num : Nat)
    (fuel : Nat) : Option (OplStatus × Tables) :=
  if isHostPort board portId then
    if mcGroupNumPerPort t portId ≤ num then some (.ok, t)
    else
      Loop.run (entryNumStep board takes portId) fuel
        ⟨t.mcGroupList, mcGroupNumPerPort t portId - num, t⟩
  else some (.error, t)

/-- The port is left with as many groups as it had, and with `num` when it had more; the
groups of the other ports stay as they are, in their order. -/
def LoweredTo (portId num : Nat) (t' t : Tables) : Prop :=
  mcGroupNumPerPort t' portId = min (mcGroupNumPerPort t portId) num ∧
    t'.mcGroupList.filter (·.hostPortId ≠ portId) = t.mcGroupList.filter (·.hostPortId ≠ portId)

/-! ### The loop is the deletion of the first groups -/

/-- The rounds over groups that stay. -/
theorem run_entryNum_pass {portId n : Nat} {pre : List Group} (list : List Group) (t : Tables)
    (hpre : ∀ g ∈ pre, ¬(g.hostPortId = portId ∧ 0 < n)) (fuel : Nat) :
    Loop.run (entryNumStep board takes portId) (pre.length + fuel) ⟨pre ++ list, n, t⟩ =
      Loop.run (entryNumStep board takes portId) fuel ⟨list, n, t⟩ := by
  induction pre with
  | nil => rw [List.length_nil, Nat.zero_add, List.nil_append]
  | cons g pre ih =>
    have hstep : entryNumStep board takes portId ⟨(g :: pre) ++ list, n, t⟩ =
        .inl ⟨pre ++ list, n, t⟩ := if_neg (hpre g (List.mem_cons_self ..))
    rw [List.length_cons, Nat.add_right_comm, Loop.run_succ_inl hstep]
    exact ih fun g' hg' => hpre g' (List.mem_cons_of_mem _ hg')

/-- Whatever the list, the loop leaves, and has deleted the first groups of the port. -/
theorem run_entryNum (portId n : Nat) (t : Tables) :
    ∃ fuel, Loop.run (entryNumStep board takes portId) fuel ⟨t.mcGroupList, n, t⟩ =
      some (deleteGroups board takes (·.hostPortId = portId) n t) := by
  have hend : ∀ (n : Nat) (t : Tables), (∀ g ∈ t.mcGroupList, ¬(g.hostPortId = portId ∧ 0 < n)) →
      Loop.run (entryNumStep board takes portId) (t.mcGroupList.length + 1)
        ⟨t.mcGroupList, n, t⟩ = some (.ok, t) := by
    intro n t hpass
    have hrun := run_entryNum_pass board takes [] t hpass 1
    rw [List.append_nil] at hrun
    rw [hrun]
    exact Loop.run_succ_inr rfl 0
  induction n generalizing t with
  | zero => exact ⟨_, hend 0 t fun g _ h => Nat.lt_irrefl 0 h.2⟩
  | succ n ih =>
    unfold deleteGroups
    cases hfind : t.mcGroupList.find? (·.hostPortId = portId) with
    | none =>
      refine ⟨_, hend (n + 1) t ?_⟩
      intro g hg hport
      have hnot := List.find?_eq_none.mp hfind g hg
      exact hnot (by simpa using hport.1)
    | some group =>
      obtain ⟨hport, pre, rest, hlist, hpre⟩ := List.find?_eq_some_iff_append.mp hfind
      rw [decide_eq_true_eq] at hport
      have hpass : ∀ g ∈ pre, ¬(g.hostPortId = portId ∧ 0 < n + 1) := by
        intro g hg h
        have hnot := hpre g hg
        simp [h.1] at hnot
      cases hdel : odmMcGroupDel board takes t group.toGroupKey with
      | mk status t' =>
        by_cases hok : status = .ok
        · subst hok
          have hstep : entryNumStep board takes portId ⟨group :: rest, n + 1, t⟩ =
              .inl ⟨t'.mcGroupList, n, t'⟩ := by
            simp only [entryNumStep, hport, hdel, Nat.zero_lt_succ, and_self, if_true]
            rfl
          obtain ⟨fuel, hrun⟩ := ih t'
          refine ⟨pre.length + (fuel + 1), ?_⟩
          rw [hlist, run_entryNum_pass board takes _ _ hpass, Loop.run_succ_inl hstep, hrun]
          simp only [hdel]
        · have hstep : entryNumStep board takes portId ⟨group :: rest, n + 1, t⟩ =
              .inr (status, t') := by
            simp only [entryNumStep, hport, hdel, Nat.zero_lt_succ, and_self, if_true]
            cases status with
            | ok => exact absurd rfl hok
            | _ => rfl
          refine ⟨pre.length + 1, ?_⟩
          rw [hlist, run_entryNum_pass board takes _ _ hpass, Loop.run_succ_inr hstep]
          simp only [hdel]
          cases status with
          | ok => exact absurd rfl hok
          | _ => rfl

/-- **The restarting loop terminates on every list, with the result that `System` has for
it.** -/
theorem entryNumSetLoop_leaves (t : Tables) (portId num : Nat) :
    ∃ fuel, entryNumSetLoop board takes t portId num fuel =
      some (odmMulticastControlEntryNumSet board takes t portId num) := by
  unfold entryNumSetLoop odmMulticastControlEntryNumSet
  split
  · split
    · next hfew =>
      refine ⟨0, ?_⟩
      rw [Nat.sub_eq_zero_of_le hfew]
      rfl
    · exact run_entryNum board takes portId _ t
  · exact ⟨0, rfl⟩

theorem entryNumSetLoop_unique {t : Tables} {portId num fuel fuel' : Nat}
    {r r' : OplStatus × Tables} (h : entryNumSetLoop board takes t portId num fuel = some r)
    (h' : entryNumSetLoop board takes t portId num fuel' = some r') : r = r' := by
  unfold entryNumSetLoop at h h'
  split at h
  · split at h
    · next hhost hfew =>
      rw [if_pos hhost, if_pos hfew] at h'
      exact Option.some.inj (h.symm.trans h')
    · next hhost hmany =>
      rw [if_pos hhost, if_neg hmany] at h'
      exact Loop.run_unique h h'
  · next hhost =>
    rw [if_neg hhost] at h'
    exact Option.some.inj (h.symm.trans h')

/-! ### What goes and what stays -/

/-- A deletion by the key of a listed group takes that group. -/
theorem list_odmMcGroupDel {t : Tables} (h : Keyed t) (hsa : t.control.bitmap.saMac = false)
    {pre rest : List Group} {group : Group} (hlist : t.mcGroupList = pre ++ group :: rest) :
    (odmMcGroupDel board takes t group.toGroupKey).1 = .ok ∧
      (odmMcGroupDel board takes t group.toGroupKey).2.mcGroupList = pre ++ rest := by
  have hmem : group ∈ t.mcGroupList := by simp [hlist]
  have hbefore : ∀ g ∈ pre, groupMatches t.control.bitmap group.toGroupKey g = false := by
    intro g hg
    have hkeys := h.groups
    rw [hlist] at hkeys
    have hpair := (List.pairwise_append.mp hkeys).2.2 g hg group (List.mem_cons_self ..)
    rw [← hpair, Bool.eq_iff_iff, groupMatches_iff, groupMatches_iff, groupCompare_symm]
  rw [odmMcGroupDel_of_mem h hsa takes hmem]
  refine ⟨rfl, ?_⟩
  rw [hlist]
  exact eraseP_append hbefore (groupMatches_self hsa group)

/-- Where keys are unique, the loop takes as many groups off the port as it is told to, and
no other. -/
theorem deleteGroups_lowers (portId n : Nat) {t : Tables} (h : Keyed t)
    (hsa : t.control.bitmap.saMac = false) (hn : n ≤ mcGroupNumPerPort t portId) :
    mcGroupNumPerPort (deleteGroups board takes (·.hostPortId = portId) n t).2 portId + n =
        mcGroupNumPerPort t portId ∧
      (deleteGroups board takes (·.hostPortId = portId) n t).2.mcGroupList.filter
          (·.hostPortId ≠ portId) =
        t.mcGroupList.filter (·.hostPortId ≠ portId) := by
  induction n generalizing t with
  | zero => exact ⟨rfl, rfl⟩
  | succ n ih =>
    unfold deleteGroups
    cases hfind : t.mcGroupList.find? (·.hostPortId = portId) with
    | none =>
      have hzero : mcGroupNumPerPort t portId = 0 := by
        rw [mcGroupNumPerPort, List.countP_eq_zero]
        exact fun g hg => List.find?_eq_none.mp hfind g hg
      omega
    | some group =>
      obtain ⟨hport, pre, rest, hlist, -⟩ := List.find?_eq_some_iff_append.mp hfind
      have hdel := list_odmMcGroupDel board takes h hsa hlist
      have hshrinks : Shrinks (odmMcGroupDel board takes t group.toGroupKey).2 t :=
        shrinks_odmMcGroupDel takes t group.toGroupKey
      have hkeyed := hshrinks.evolves.keyed h
      have hcontrol : (odmMcGroupDel board takes t group.toGroupKey).2.control = t.control :=
        control_odmMcGroupDel takes t group.toGroupKey
      dsimp only
      generalize odmMcGroupDel board takes t group.toGroupKey = deleted at hdel hkeyed hcontrol hshrinks ⊢
      obtain ⟨status, t'⟩ := deleted
      obtain ⟨rfl, hlist'⟩ := hdel
      dsimp only at hlist' hkeyed hcontrol ⊢
      have hcount : mcGroupNumPerPort t' portId + 1 = mcGroupNumPerPort t portId := by
        rw [mcGroupNumPerPort, mcGroupNumPerPort, hlist', hlist, List.countP_append,
          List.countP_append, List.countP_cons, if_pos hport]
        omega
      obtain ⟨hleft, hothers⟩ := ih hkeyed (by rw [hcontrol]; exact hsa) (by omega)
      have hsame : group.hostPortId = portId := by simpa using hport
      refine ⟨by omega, hothers.trans ?_⟩
      rw [hlist', hlist, List.filter_append, List.filter_append,
        List.filter_cons_of_neg (by simp [hsame])]

theorem loweredTo_of_list {t' t : Tables} (h : t'.mcGroupList = t.mcGroupList) {portId num : Nat} :
    LoweredTo portId num t' t ↔ mcGroupNumPerPort t portId ≤ num := by
  rw [LoweredTo, mcGroupNumPerPort, mcGroupNumPerPort, h, and_iff_left rfl]
  constructor
  · intro heq
    rw [heq]
    exact Nat.min_le_right _ _
  · intro hle
    exact (Nat.min_eq_left hle).symm

/-- **On a list with unique keys the loop ends, with the port down to the number and the
groups of other ports as they were, exactly when the port has no more groups, or it is a
port of the board and groups are not searched by the source MAC.** -/
theorem entry_num_loop_lowers_iff {t : Tables} (h : Keyed t) (portId num : Nat) :
    (∃ fuel status t', entryNumSetLoop board takes t portId num fuel = some (status, t') ∧
        LoweredTo portId num t' t) ↔ CanLower board t portId num := by
  have hresult : (∃ fuel status t', entryNumSetLoop board takes t portId num fuel =
      some (status, t') ∧ LoweredTo portId num t' t) ↔
      LoweredTo portId num (odmMulticastControlEntryNumSet board takes t portId num).2 t := by
    obtain ⟨fuel, hleaves⟩ := entryNumSetLoop_leaves board takes t portId num
    constructor
    · rintro ⟨fuel', status, t', hrun, hlowered⟩
      rw [← entryNumSetLoop_unique _ _ hrun hleaves]
      exact hlowered
    · intro hlowered
      exact ⟨fuel, _, _, hleaves, hlowered⟩
  rw [hresult]
  unfold odmMulticastControlEntryNumSet CanLower
  cases hhost : isHostPort board portId with
  | false =>
    rw [if_neg Bool.false_ne_true, loweredTo_of_list rfl]
    simp
  | true =>
    cases hsa : t.control.bitmap.saMac with
    | true =>
      rw [if_pos rfl, loweredTo_of_list (list_deleteGroups_of_saMac takes _ _ hsa)]
      simp
    | false =>
      obtain ⟨hcount, hothers⟩ := deleteGroups_lowers board takes portId
        (mcGroupNumPerPort t portId - num) h hsa (Nat.sub_le _ _)
      refine iff_of_true ⟨?_, hothers⟩ (Or.inr ⟨rfl, rfl⟩)
      rw [if_pos rfl]
      omega

/-- The tables after snooping has learned two groups on port 1 under a control type. -/
def twoReported (type : CtcControlType) : Tables :=
  (run (limitStep .onu1Port) (mcInit mcConfigDefault vlanInit)
    [.mc (.controlTypeSet (fun _ => true) type),
      .mc (.packet .granting (reportFrom 1 7 0xe0010101)),
      .mc (.packet .granting (reportFrom 1 7 0xe0010102))]).tables

/-- Of two groups, one goes. -/
theorem entry_num_loop_lowers_two :
    Keyed (twoReported .gdaIpVid) ∧ mcGroupNumPerPort (twoReported .gdaIpVid) 1 = 2 ∧
      ∃ fuel status t', entryNumSetLoop .onu1Port (fun _ => true) (twoReported .gdaIpVid) 1 1 fuel =
        some (status, t') ∧ LoweredTo 1 1 t' (twoReported .gdaIpVid) := by
  have hkeyed : Keyed (twoReported .gdaIpVid) := ⟨by decide, by decide⟩
  exact ⟨hkeyed, by decide, (entry_num_loop_lowers_iff _ _ hkeyed 1 1).mpr (Or.inr ⟨rfl, rfl⟩)⟩

/-- Searched by the source MAC, the first group is not found, and both stay. -/
theorem entry_num_loop_stops :
    Keyed (twoReported .gdaSaMac) ∧ isHostPort .onu1Port 1 = true ∧
      ¬∃ fuel status t', entryNumSetLoop .onu1Port (fun _ => true) (twoReported .gdaSaMac) 1 1
        fuel = some (status, t') ∧ LoweredTo 1 1 t' (twoReported .gdaSaMac) := by
  refine ⟨⟨by decide, by decide⟩, rfl, ?_⟩
  rintro ⟨fuel, status, t', hrun, hlowered, -⟩
  obtain ⟨fuel', hleaves⟩ := entryNumSetLoop_leaves .onu1Port (fun _ => true)
    (twoReported .gdaSaMac) 1 1
  have hresult : t' = (odmMulticastControlEntryNumSet .onu1Port (fun _ => true)
      (twoReported .gdaSaMac) 1 1).2 := congrArg Prod.snd (entryNumSetLoop_unique _ _ hrun hleaves)
  rw [hresult] at hlowered
  revert hlowered
  decide

end Opconn.Multicast
