import Opconn.Multicast.TableSteps

/-!
# What a leave finds

A leave carries a packet's descriptor and looks its host or group up again with every
message.  What it finds follows the tables: a write through the same search is seen, a
removal leaves nothing to find, and tables that only lost something show nothing new.
-/

namespace Opconn.Multicast

open FirstMatch List

variable {board : Board}

/-! ### Searches that find what is listed -/

theorem UniqueHosts.get_of_mem {hostBitmap : HostBitmap} {g : Group}
    (h : UniqueHosts hostBitmap g.hostList) {k : HostKey} {host : Host} (hhost : host ∈ g.hostList)
    (hm : hostMatches hostBitmap k host = true) : mcHostListGet hostBitmap g k = some host :=
  find?_eq_some_of_single (h.single k) hhost hm

theorem leaveTarget_of_mem_host {t : Tables} (h : Keyed t) {desc : PacketDesc} {g : Group}
    {host : Host} (hg : g ∈ t.mcGroupList) (hhost : host ∈ g.hostList)
    (hgroup : groupMatches t.control.bitmap desc.groupKey g = true)
    (hm : hostMatches t.control.hostBitmap desc.hostKey host = true) :
    leaveTarget .snooping t desc = some host.target := by
  simp only [leaveTarget, h.get_of_mem hg hgroup, (h.hosts g hg).get_of_mem hhost hm,
    Option.map_some]

theorem leaveTarget_of_mem_group {t : Tables} (h : Keyed t) {desc : PacketDesc} {g : Group}
    (hg : g ∈ t.mcGroupList) (hgroup : groupMatches t.control.bitmap desc.groupKey g = true) :
    leaveTarget .ctc t desc = some g.target := by
  simp only [leaveTarget, h.get_of_mem hg hgroup]

/-- What a host's leave finds. -/
theorem leaveTarget_snooping_iff {t : Tables} {desc : PacketDesc} {target : LeaveTarget} :
    leaveTarget .snooping t desc = some target ↔ ∃ g host, mcGroupListGet t desc.groupKey = some g ∧
      mcHostListGet t.control.hostBitmap g desc.hostKey = some host ∧ host.target = target := by
  unfold leaveTarget
  cases mcGroupListGet t desc.groupKey with
  | none => simp
  | some g => simp

theorem leaveTarget_ctc_iff {t : Tables} {desc : PacketDesc} {target : LeaveTarget} :
    leaveTarget .ctc t desc = some target ↔
      ∃ g, mcGroupListGet t desc.groupKey = some g ∧ g.target = target := by
  unfold leaveTarget
  cases mcGroupListGet t desc.groupKey with
  | none => simp
  | some g => simp

/-- Tables that shrank show nothing new. -/
theorem Shrinks.leaveTarget {t' t : Tables} (h : Shrinks t' t) (hkeyed : Keyed t)
    {kind : LeaveKind} {desc : PacketDesc} {target : LeaveTarget}
    (htarget : leaveTarget kind t' desc = some target) : leaveTarget kind t desc = some target := by
  cases kind with
  | snooping =>
    obtain ⟨g', host', hget, hhost, rfl⟩ := leaveTarget_snooping_iff.mp htarget
    obtain ⟨g, hg, hkept⟩ := exists_of_mem_shrunk h.groups (mem_of_get hget)
    obtain ⟨host, hmem, hsame⟩ := exists_of_mem_shrunk hkept.hosts (List.mem_of_find?_eq_some hhost)
    have hgroup := matches_of_get hget
    have hm := List.find?_some hhost
    rw [h.bitmap, (SameGroup.of_eq hkept.key).matches_eq] at hgroup
    rw [h.hostBitmap, (SameHost.of_eq hsame.1).matches_eq] at hm
    rw [leaveTarget_of_mem_host hkeyed hg hmem hgroup hm, hsame.2]
  | ctc =>
    obtain ⟨g', hget, rfl⟩ := leaveTarget_ctc_iff.mp htarget
    obtain ⟨g, hg, hkept⟩ := exists_of_mem_shrunk h.groups (mem_of_get hget)
    have hgroup := matches_of_get hget
    rw [h.bitmap, (SameGroup.of_eq hkept.key).matches_eq] at hgroup
    rw [leaveTarget_of_mem_group hkeyed hg hgroup, hkept.target]

theorem Shrinks.leaveTarget_none {t' t : Tables} (h : Shrinks t' t) (hkeyed : Keyed t)
    {kind : LeaveKind} {desc : PacketDesc} (hnone : Opconn.Multicast.leaveTarget kind t desc = none) :
    Opconn.Multicast.leaveTarget kind t' desc = none := by
  cases htarget : Opconn.Multicast.leaveTarget kind t' desc with
  | none => rfl
  | some target =>
    rw [h.leaveTarget hkeyed htarget] at hnone
    cases hnone

theorem leaveTarget_of_nil {t : Tables} (h : t.mcGroupList = []) (kind : LeaveKind)
    (desc : PacketDesc) : leaveTarget kind t desc = none := by
  simp [leaveTarget, mcGroupListGet, h]

/-! ### Writes through the search -/

theorem get_groupModify_self (t : Tables) (k : GroupKey) (f : Group → Group)
    (hkey : ∀ g, (f g).toGroupKey = g.toGroupKey) :
    mcGroupListGet (groupModify t k f) k = (mcGroupListGet t k).map f := by
  apply find?_updateFirst_self
  intro g hg
  rw [(SameGroup.of_eq (hkey g)).matches_eq]
  exact hg

theorem get_hostModify_self (hostBitmap : HostBitmap) (k : HostKey) (f : Host → Host) (g : Group)
    (hkey : ∀ h, (f h).toHostKey = h.toHostKey) :
    mcHostListGet hostBitmap (hostModify hostBitmap k f g) k =
      (mcHostListGet hostBitmap g k).map f := by
  apply find?_updateFirst_self
  intro h hm
  rw [(SameHost.of_eq (hkey h)).matches_eq]
  exact hm

/-- The flags that were written are the ones that are found. -/
theorem leaveTarget_targetModify (kind : LeaveKind) (t : Tables) (desc : PacketDesc)
    (f : LeaveTarget → LeaveTarget) :
    leaveTarget kind (targetModify kind t desc f) desc = (leaveTarget kind t desc).map f := by
  cases kind with
  | ctc =>
    simp only [leaveTarget, targetModify]
    rw [get_groupModify_self _ _ _ (by intro g; rfl)]
    cases mcGroupListGet t desc.groupKey with
    | none => rfl
    | some g => rfl
  | snooping =>
    simp only [leaveTarget, targetModify]
    rw [get_groupModify_self _ _ _ (by intro g; rfl)]
    cases mcGroupListGet t desc.groupKey with
    | none => rfl
    | some g =>
      simp only [Option.map_some]
      change Option.map Host.target (mcHostListGet t.control.hostBitmap _ desc.hostKey) = _
      rw [get_hostModify_self _ _ _ _ (by intro h; rfl)]
      cases mcHostListGet t.control.hostBitmap g desc.hostKey with
      | none => rfl
      | some host => rfl

theorem keyed_targetModify {t : Tables} (h : Keyed t) (kind : LeaveKind) (desc : PacketDesc)
    (f : LeaveTarget → LeaveTarget) : Keyed (targetModify kind t desc f) := by
  cases kind with
  | snooping =>
    apply h.modify
    · intro g _
      exact SameGroup.refl _ _
    · intro g
      exact uniqueHosts_updateFirst (by intro host; rfl)
  | ctc =>
    apply h.modify
    · intro g _
      exact SameGroup.refl _ _
    · intro g hg
      exact hg

theorem hostless_targetModify {t : Tables} (h : Hostless t) (kind : LeaveKind) (desc : PacketDesc)
    (f : LeaveTarget → LeaveTarget) : Hostless (targetModify kind t desc f) := by
  cases kind with
  | snooping =>
    apply forall_mem_updateFirst h
    intro g hnone
    simp [hostModify, hnone]
  | ctc =>
    apply forall_mem_updateFirst h
    intro g hnone
    exact hnone

theorem targetModify_control (kind : LeaveKind) (t : Tables) (desc : PacketDesc)
    (f : LeaveTarget → LeaveTarget) : (targetModify kind t desc f).control = t.control := by
  cases kind with
  | snooping => rfl
  | ctc => rfl

theorem leaveTarget_of_hostless {t : Tables} (h : Hostless t) (desc : PacketDesc) :
    leaveTarget .snooping t desc = none := by
  unfold leaveTarget
  cases hget : mcGroupListGet t desc.groupKey with
  | none => rfl
  | some g => simp [mcHostListGet, h g (mem_of_get hget)]

/-! ### Removals -/

theorem mcGroupListGet_odmMcGroupDel {t : Tables} (h : Keyed t) (takes : SwitchEntry → Bool)
    {k k' : GroupKey} (hsame : groupMatches t.control.bitmap k = groupMatches t.control.bitmap k') :
    mcGroupListGet (odmMcGroupDel board takes t k).2 k' = none := by
  cases hget : mcGroupListGet (dalMcGroupDel board takes t k) k with
  | none =>
    simp only [odmMcGroupDel, mcGroupListDel, hget]
    change find? (groupMatches t.control.bitmap k') t.mcGroupList = none
    rw [← hsame]
    exact hget
  | some g =>
    simp only [odmMcGroupDel, mcGroupListDel, hget]
    change find? (groupMatches t.control.bitmap k')
      (t.mcGroupList.eraseP (groupMatches t.control.bitmap k)) = none
    rw [← hsame]
    exact find?_eraseP_self (h.single k)

/-- A host that left is not found any more. -/
theorem leaveTarget_removeTarget_snooping {t : Tables} (h : Keyed t) (takes : SwitchEntry → Bool)
    (desc : PacketDesc) :
    leaveTarget .snooping (removeTarget board takes .snooping t desc) desc = none := by
  unfold removeTarget
  cases hget : mcGroupListGet t desc.groupKey with
  | none => simp [leaveTarget, hget]
  | some g =>
    cases hhost : mcHostListGet t.control.hostBitmap g desc.hostKey with
    | none => simp [leaveTarget, hget, hhost]
    | some host =>
      have hkey : hostMatches t.control.hostBitmap host.toHostKey =
          hostMatches t.control.hostBitmap desc.hostKey :=
        search_eq_of_hostMatches (List.find?_some hhost)
      have hkeyed : Keyed (groupModify t desc.groupKey
          (mcHostListDel t.control.hostBitmap host.toHostKey)) :=
        (shrinks_groupModify (kept_mcHostListDel _ _) t _).evolves.keyed h
      simp only [hhost]
      refine (shrinks_deleteIfEmpty takes _ _).leaveTarget_none hkeyed ?_
      simp only [leaveTarget]
      rw [get_groupModify_self _ _ _ (by intro g; rfl), hget]
      simp only [Option.map_some, Option.map_eq_none_iff, mcHostListGet, mcHostListDel]
      change find? (hostMatches t.control.hostBitmap desc.hostKey) _ = none
      rw [hkey]
      exact find?_eraseP_self ((h.hosts g (mem_of_get hget)).single desc.hostKey)

/-- A group without hosts that left is not found any more. -/
theorem leaveTarget_removeTarget_ctc {t : Tables} (h : Keyed t) (hless : Hostless t)
    (takes : SwitchEntry → Bool) (desc : PacketDesc) :
    leaveTarget .ctc (removeTarget board takes .ctc t desc) desc = none := by
  unfold removeTarget
  cases hget : mcGroupListGet t desc.groupKey with
  | none => simp [leaveTarget, hget]
  | some g =>
    have hkey : groupMatches t.control.bitmap g.toGroupKey =
        groupMatches t.control.bitmap desc.groupKey := search_eq_of_groupMatches (matches_of_get hget)
    have hself : mcGroupListGet t g.toGroupKey = some g := by
      unfold mcGroupListGet
      rw [hkey]
      exact hget
    have hempty : mcGroupListHostListEmpty t g.toGroupKey = true := by
      simp [mcGroupListHostListEmpty, hself, hless g (mem_of_get hget)]
    simp only [deleteIfEmpty, hempty, if_true, leaveTarget,
      mcGroupListGet_odmMcGroupDel h takes hkey]

/-! ### Leaves of something else -/

/-- The two packets are about the same host or, for a leave of a group, the same group. -/
def sameTarget (bitmap : Bitmap) (hostBitmap : HostBitmap) (kind : LeaveKind) (a b : PacketDesc) :
    Bool :=
  decide (groupCompare a.groupKey b.groupKey bitmap = bitmap) &&
    match kind with
    | .snooping => decide (hostCompare a.hostKey b.hostKey hostBitmap = hostBitmap)
    | .ctc => true

theorem groupCompare_of_matches {bitmap : Bitmap} {a b : GroupKey} {g : Group}
    (ha : groupMatches bitmap a g = true) (hb : groupMatches bitmap b g = true) :
    groupCompare a b bitmap = bitmap :=
  (sameGroup_of_compare (groupMatches_iff.mp ha) b).mp (groupMatches_iff.mp hb)

theorem hostCompare_of_matches {hostBitmap : HostBitmap} {a b : HostKey} {h : Host}
    (ha : hostMatches hostBitmap a h = true) (hb : hostMatches hostBitmap b h = true) :
    hostCompare a b hostBitmap = hostBitmap :=
  (sameHost_of_compare (hostMatches_iff.mp ha) b).mp (hostMatches_iff.mp hb)

theorem groupCompare_ne_of_disjoint {bitmap : Bitmap} {a b : GroupKey} {g : Group}
    (hdisjoint : ∀ g, groupMatches bitmap a g = true → groupMatches bitmap b g = false)
    (hb : groupMatches bitmap b g = true) : groupCompare a b bitmap ≠ bitmap := by
  intro hsame
  have hnot := hdisjoint g ((sameGroup_of_compare hsame).search_eq ▸ hb)
  rw [hb] at hnot
  cases hnot

theorem hostCompare_ne_of_disjoint {hostBitmap : HostBitmap} {a b : HostKey} {h : Host}
    (hdisjoint : ∀ h, hostMatches hostBitmap a h = true → hostMatches hostBitmap b h = false)
    (hb : hostMatches hostBitmap b h = true) : hostCompare a b hostBitmap ≠ hostBitmap := by
  intro hsame
  have hnot := hdisjoint h ((sameHost_of_compare hsame).search_eq ▸ hb)
  rw [hb] at hnot
  cases hnot

/-- After a write through one search, another search sees it or sees what it saw before. -/
theorem get_groupModify (t : Tables) (k k' : GroupKey) (f : Group → Group)
    (hkey : ∀ g, (f g).toGroupKey = g.toGroupKey) :
    (groupMatches t.control.bitmap k = groupMatches t.control.bitmap k' ∧
        mcGroupListGet (groupModify t k f) k' = (mcGroupListGet t k').map f) ∨
      ((∀ g, groupMatches t.control.bitmap k g = true →
          groupMatches t.control.bitmap k' g = false) ∧
        mcGroupListGet (groupModify t k f) k' = mcGroupListGet t k') := by
  have hmatches : ∀ g, groupMatches t.control.bitmap k g = true →
      groupMatches t.control.bitmap k (f g) = true := by
    intro g hg
    rw [(SameGroup.of_eq (hkey g)).matches_eq]
    exact hg
  rcases groupMatches_dichotomy t.control.bitmap k k' with hsame | hdisjoint
  · left
    refine ⟨hsame, ?_⟩
    change List.find? (groupMatches t.control.bitmap k')
      (updateFirst (groupMatches t.control.bitmap k) f t.mcGroupList) = _
    rw [← hsame, find?_updateFirst_self hmatches, mcGroupListGet, ← hsame]
  · right
    exact ⟨hdisjoint, find?_updateFirst_of_disjoint hdisjoint hmatches⟩

theorem get_hostModify (hostBitmap : HostBitmap) (k k' : HostKey) (f : Host → Host) (g : Group)
    (hkey : ∀ h, (f h).toHostKey = h.toHostKey) :
    (hostMatches hostBitmap k = hostMatches hostBitmap k' ∧
        mcHostListGet hostBitmap (hostModify hostBitmap k f g) k' =
          (mcHostListGet hostBitmap g k').map f) ∨
      ((∀ h, hostMatches hostBitmap k h = true → hostMatches hostBitmap k' h = false) ∧
        mcHostListGet hostBitmap (hostModify hostBitmap k f g) k' =
          mcHostListGet hostBitmap g k') := by
  have hmatches : ∀ h, hostMatches hostBitmap k h = true →
      hostMatches hostBitmap k (f h) = true := by
    intro h hm
    rw [(SameHost.of_eq (hkey h)).matches_eq]
    exact hm
  rcases hostMatches_dichotomy hostBitmap k k' with hsame | hdisjoint
  · left
    refine ⟨hsame, ?_⟩
    change List.find? (hostMatches hostBitmap k')
      (updateFirst (hostMatches hostBitmap k) f g.hostList) = _
    rw [← hsame, find?_updateFirst_self hmatches, mcHostListGet, ← hsame]
  · right
    exact ⟨hdisjoint, find?_updateFirst_of_disjoint hdisjoint hmatches⟩

/-- A write to the flags of one target is seen by the leaves of this target only. -/
theorem leaveTarget_targetModify_cases {kind kind' : LeaveKind} {t : Tables}
    {desc desc' : PacketDesc} {f : LeaveTarget → LeaveTarget} {target : LeaveTarget}
    (h : leaveTarget kind' (targetModify kind t desc f) desc' = some target) :
    leaveTarget kind' t desc' = some target ∨
      (kind' = kind ∧ sameTarget t.control.bitmap t.control.hostBitmap kind desc desc' = true ∧
        ∃ target₀, leaveTarget kind t desc' = some target₀ ∧ target = f target₀) := by
  cases kind with
  | ctc =>
    have hget := get_groupModify t desc.groupKey desc'.groupKey
      (fun group => { group with
        isLastReportRecevied := (f group.target).isLastReportRecevied
        isNonFastLeaveTimerStart := (f group.target).isNonFastLeaveTimerStart }) (by intro g; rfl)
    rcases hget with ⟨hsame, hget⟩ | ⟨-, hget⟩
    · cases kind' with
      | snooping =>
        left
        obtain ⟨g', host, hg', hhost, rfl⟩ := leaveTarget_snooping_iff.mp h
        rw [targetModify, hget, Option.map_eq_some_iff] at hg'
        obtain ⟨g, hg, rfl⟩ := hg'
        exact leaveTarget_snooping_iff.mpr ⟨g, host, hg, hhost, rfl⟩
      | ctc =>
        right
        obtain ⟨g', hg', rfl⟩ := leaveTarget_ctc_iff.mp h
        rw [targetModify, hget, Option.map_eq_some_iff] at hg'
        obtain ⟨g, hg, rfl⟩ := hg'
        refine ⟨rfl, ?_, g.target, leaveTarget_ctc_iff.mpr ⟨g, hg, rfl⟩, rfl⟩
        have hm := matches_of_get hg
        simp [sameTarget, groupCompare_of_matches (hsame ▸ hm) hm]
    · left
      rw [leaveTarget, targetModify, hget] at h
      exact h
  | snooping =>
    have hget := get_groupModify t desc.groupKey desc'.groupKey
      (hostModify t.control.hostBitmap desc.hostKey fun host => { host with
        isLastReportRecevied := (f host.target).isLastReportRecevied
        isNonFastLeaveTimerStart := (f host.target).isNonFastLeaveTimerStart }) (by intro g; rfl)
    rcases hget with ⟨hsame, hget⟩ | ⟨-, hget⟩
    · cases kind' with
      | ctc =>
        left
        obtain ⟨g', hg', rfl⟩ := leaveTarget_ctc_iff.mp h
        rw [targetModify, hget, Option.map_eq_some_iff] at hg'
        obtain ⟨g, hg, rfl⟩ := hg'
        exact leaveTarget_ctc_iff.mpr ⟨g, hg, rfl⟩
      | snooping =>
        obtain ⟨g', host', hg', hhost', rfl⟩ := leaveTarget_snooping_iff.mp h
        rw [targetModify, hget, Option.map_eq_some_iff] at hg'
        obtain ⟨g, hg, rfl⟩ := hg'
        have hhosts := get_hostModify t.control.hostBitmap desc.hostKey desc'.hostKey
          (fun host => { host with
            isLastReportRecevied := (f host.target).isLastReportRecevied
            isNonFastLeaveTimerStart := (f host.target).isNonFastLeaveTimerStart }) g
          (by intro host; rfl)
        change mcHostListGet t.control.hostBitmap _ desc'.hostKey = some host' at hhost'
        rcases hhosts with ⟨hsameHost, hhosts⟩ | ⟨-, hhosts⟩
        · rw [hhosts, Option.map_eq_some_iff] at hhost'
          obtain ⟨host, hhost, rfl⟩ := hhost'
          right
          have hm := matches_of_get hg
          have hmh : hostMatches t.control.hostBitmap desc'.hostKey host = true :=
            List.find?_some hhost
          refine ⟨rfl, ?_, host.target, leaveTarget_snooping_iff.mpr ⟨g, host, hg, hhost, rfl⟩, rfl⟩
          simp [sameTarget, groupCompare_of_matches (hsame ▸ hm) hm,
            hostCompare_of_matches (hsameHost ▸ hmh) hmh]
        · rw [hhosts] at hhost'
          exact Or.inl (leaveTarget_snooping_iff.mpr ⟨g, host', hg, hhost', rfl⟩)
    · left
      rw [leaveTarget, targetModify, hget] at h
      exact h

/-! ### Reports -/

/-- What another search finds after a group was added: a group it found before, or the new
one. -/
theorem get_mcGroupListAdd {alloc : Bool} {t t' : Tables} {k k' : GroupKey} {state : NodeState}
    {g' : Group} (hadd : mcGroupListAdd alloc t k state = some t')
    (hget : mcGroupListGet t' k' = some g') :
    (∃ g, mcGroupListGet t k' = some g ∧ g'.target = g.target ∧ g'.hostList = g.hostList) ∨
      (alloc = true ∧ mcGroupListGet t k = none ∧ g'.hostList = [] ∧
        groupCompare k k' t.control.bitmap = t.control.bitmap) := by
  unfold mcGroupListAdd at hadd
  cases hfound : mcGroupListGet t k with
  | some g₀ =>
    left
    simp only [hfound, Option.some.injEq] at hadd
    subst hadd
    have hmatches : ∀ g, groupMatches t.control.bitmap k g = true →
        groupMatches t.control.bitmap k (groupWrite t.control.bitmap k state g) = true := by
      intro g hg
      rw [groupMatches_iff] at hg ⊢
      exact (sameGroup_groupWrite _ k state g k).mpr
        ((sameGroup_of_compare hg k).mp hg)
    change List.find? (groupMatches t.control.bitmap k') (updateFirst _ _ _) = some g' at hget
    rcases groupMatches_dichotomy t.control.bitmap k k' with hsame | hdisjoint
    · rw [← hsame, find?_updateFirst_self hmatches, Option.map_eq_some_iff] at hget
      obtain ⟨g, hg, rfl⟩ := hget
      refine ⟨g, ?_, rfl, rfl⟩
      rw [mcGroupListGet, ← hsame]
      exact hg
    · rw [find?_updateFirst_of_disjoint hdisjoint hmatches] at hget
      exact ⟨g', hget, rfl, rfl⟩
  | none =>
    simp only [hfound] at hadd
    split at hadd
    · rename_i halloc
      cases hadd
      change List.find? (groupMatches t.control.bitmap k') (_ :: _) = some g' at hget
      cases hnew : groupMatches t.control.bitmap k'
          (groupWrite t.control.bitmap k state zeroGroup) with
      | true =>
        right
        rw [List.find?_cons_of_pos hnew, Option.some.injEq] at hget
        subst hget
        refine ⟨halloc, rfl, rfl, ?_⟩
        exact (sameGroup_groupWrite _ k state zeroGroup k').mp (groupMatches_iff.mp hnew)
      | false =>
        left
        rw [List.find?_cons_of_neg (by simp [hnew])] at hget
        exact ⟨g', hget, rfl, rfl⟩
    · cases hadd

theorem get_odmMcGroupAdd {takes : SwitchEntry → Bool} {alloc : Bool} {t : Tables} {k k' : GroupKey}
    {state : NodeState} {g' : Group}
    (hget : mcGroupListGet (odmMcGroupAdd board takes alloc t k state).2 k' = some g') :
    (∃ g, mcGroupListGet t k' = some g ∧ g'.target = g.target ∧ g'.hostList = g.hostList) ∨
      (alloc = true ∧ mcGroupListGet t k = none ∧ g'.hostList = [] ∧
        groupCompare k k' t.control.bitmap = t.control.bitmap) := by
  unfold odmMcGroupAdd at hget
  simp only at hget
  split at hget
  · exact Or.inl ⟨g', hget, rfl, rfl⟩
  · rename_i t' hadd
    have hcases := get_mcGroupListAdd hadd hget
    exact hcases

/-- What is found among the hosts of a group after a report: the host of the report, with
its flag set, or one that was found before. -/
theorem get_joinHost {control : McControl} {hostNode : Bool} {k k' : HostKey} {g : Group}
    {host' : Host}
    (hget : mcHostListGet control.hostBitmap (joinHost control hostNode k g) k' = some host') :
    (hostCompare k k' control.hostBitmap = control.hostBitmap ∧ host'.isLastReportRecevied = true) ∨
      (hostCompare k k' control.hostBitmap ≠ control.hostBitmap ∧
        mcHostListGet control.hostBitmap g k' = some host') := by
  have hm' : hostMatches control.hostBitmap k' host' = true := List.find?_some hget
  have hrefresh : ∀ g, mcHostListGet control.hostBitmap (hostModify control.hostBitmap k
      (fun host => { host with
        hostAgingTime := control.hostAgingTime, isLastReportRecevied := true }) g) k' = some host' →
      (hostCompare k k' control.hostBitmap = control.hostBitmap ∧
          host'.isLastReportRecevied = true) ∨
        ((∀ h, hostMatches control.hostBitmap k h = true →
            hostMatches control.hostBitmap k' h = false) ∧
          mcHostListGet control.hostBitmap g k' = some host') := by
    intro g hget
    have hhosts := get_hostModify control.hostBitmap k k'
      (fun host => { host with
        hostAgingTime := control.hostAgingTime, isLastReportRecevied := true }) g
      (by intro host; rfl)
    rcases hhosts with ⟨hsame, hhosts⟩ | ⟨hdisjoint, hhosts⟩
    · left
      rw [hhosts, Option.map_eq_some_iff] at hget
      obtain ⟨host, -, rfl⟩ := hget
      exact ⟨hostCompare_of_matches (hsame ▸ hm') hm', rfl⟩
    · right
      exact ⟨hdisjoint, hhosts ▸ hget⟩
  unfold joinHost at hget
  cases hfound : mcHostListGet control.hostBitmap g k with
  | some host =>
    simp only [hfound] at hget
    rcases hrefresh g hget with hset | ⟨hdisjoint, hold⟩
    · exact Or.inl hset
    · exact Or.inr ⟨hostCompare_ne_of_disjoint hdisjoint hm', hold⟩
  | none =>
    simp only [hfound] at hget
    split at hget
    · rcases hrefresh _ hget with hset | ⟨hdisjoint, hold⟩
      · exact Or.inl hset
      · right
        refine ⟨hostCompare_ne_of_disjoint hdisjoint hm', ?_⟩
        have hnew : hostMatches control.hostBitmap k (newHost control.hostBitmap k) = true := by
          rw [hostMatches_iff, sameHost_newHost control.hostBitmap k k, hostCompare_iff]
          exact ⟨fun _ => rfl, fun _ => rfl⟩
        rw [mcHostListGet, List.find?_cons_of_neg (by simp [hdisjoint _ hnew])] at hold
        exact hold
    · right
      refine ⟨?_, hget⟩
      intro hsame
      rw [mcHostListGet, (sameHost_of_compare hsame).search_eq] at hfound
      rw [mcHostListGet, hfound] at hget
      cases hget

theorem joinHost_target (control : McControl) (hostNode : Bool) (k : HostKey) (g : Group) :
    (joinHost control hostNode k g).target = g.target := by
  unfold joinHost
  cases mcHostListGet control.hostBitmap g k with
  | some host => rfl
  | none =>
    simp only
    split <;> rfl

/-- The groups that a report finds with its host in them. -/
theorem leaveTarget_joined {t : Tables} {hostNode : Bool} {desc desc' : PacketDesc}
    {target : LeaveTarget}
    (h : leaveTarget .snooping (groupModify t desc.groupKey
      (joinHost t.control hostNode desc.hostKey)) desc' = some target) :
    (sameTarget t.control.bitmap t.control.hostBitmap .snooping desc desc' = true ∧
        target.isLastReportRecevied = true) ∨
      (sameTarget t.control.bitmap t.control.hostBitmap .snooping desc desc' = false ∧
        leaveTarget .snooping t desc' = some target) := by
  obtain ⟨g', host', hg', hhost', rfl⟩ := leaveTarget_snooping_iff.mp h
  change mcHostListGet t.control.hostBitmap g' desc'.hostKey = some host' at hhost'
  have hm' : groupMatches t.control.bitmap desc'.groupKey g' = true := List.find?_some hg'
  have hget := get_groupModify t desc.groupKey desc'.groupKey
    (joinHost t.control hostNode desc.hostKey) (joinHost_key _ _ _)
  rcases hget with ⟨hsame, hget⟩ | ⟨hdisjoint, hget⟩
  · rw [hget, Option.map_eq_some_iff] at hg'
    obtain ⟨g, hg, rfl⟩ := hg'
    have hm := matches_of_get hg
    have hgroup : groupCompare desc.groupKey desc'.groupKey t.control.bitmap = t.control.bitmap :=
      groupCompare_of_matches (hsame ▸ hm) hm
    rcases get_joinHost hhost' with ⟨hhost, hset⟩ | ⟨hhost, hold⟩
    · exact Or.inl ⟨by simp [sameTarget, hgroup, hhost], hset⟩
    · exact Or.inr ⟨by simp [sameTarget, hhost],
        leaveTarget_snooping_iff.mpr ⟨g, host', hg, hold, rfl⟩⟩
  · right
    rw [hget] at hg'
    refine ⟨?_, leaveTarget_snooping_iff.mpr ⟨g', host', hg', hhost', rfl⟩⟩
    simp [sameTarget, groupCompare_ne_of_disjoint hdisjoint hm']

/-- After a report, the leaves of its host or group find the report flag set; the others
find what they found before. -/
theorem leaveTarget_joinTables {env : Env} {kind : LeaveKind} {desc desc' : PacketDesc} {t : Tables}
    {target : LeaveTarget} (hchecks : joinChecks board desc = true)
    (h : leaveTarget kind (joinTables board env kind desc t) desc' = some target) :
    (sameTarget t.control.bitmap t.control.hostBitmap kind desc desc' = true ∧
        target.isLastReportRecevied = true) ∨
      (sameTarget t.control.bitmap t.control.hostBitmap kind desc desc' = false ∧
        leaveTarget kind t desc' = some target) := by
  cases kind with
  | ctc =>
    change leaveTarget .ctc (mcCtcJoinAction board desc t) desc' = some target at h
    rw [mcCtcJoinAction, if_pos hchecks] at h
    obtain ⟨g', hg', rfl⟩ := leaveTarget_ctc_iff.mp h
    have hm' : groupMatches t.control.bitmap desc'.groupKey g' = true := List.find?_some hg'
    have hget := get_groupModify t desc.groupKey desc'.groupKey
      (fun group => { group with
        hostAgingTime := t.control.hostAgingTime, isLastReportRecevied := true })
      (by intro g; rfl)
    rcases hget with ⟨hsame, hget⟩ | ⟨hdisjoint, hget⟩
    · left
      rw [hget, Option.map_eq_some_iff] at hg'
      obtain ⟨g, hg, rfl⟩ := hg'
      have hm := matches_of_get hg
      exact ⟨by simp [sameTarget, groupCompare_of_matches (hsame ▸ hm) hm], rfl⟩
    · right
      rw [hget] at hg'
      refine ⟨?_, leaveTarget_ctc_iff.mpr ⟨g', hg', rfl⟩⟩
      simp [sameTarget, groupCompare_ne_of_disjoint hdisjoint hm']
  | snooping =>
    change leaveTarget .snooping (mcSnoopingJoinAction board env desc t) desc' = some target at h
    unfold mcSnoopingJoinAction at h
    simp only [hchecks, if_true] at h
    cases hfound : mcGroupListGet t desc.groupKey with
    | some g₀ =>
      simp only [hfound] at h
      exact leaveTarget_joined h
    | none =>
      simp only [hfound] at h
      split at h
      · right
        refine ⟨?_, h⟩
        obtain ⟨g', host', hg', -, -⟩ := leaveTarget_snooping_iff.mp h
        have hother : groupCompare desc.groupKey desc'.groupKey t.control.bitmap ≠
            t.control.bitmap := by
          intro hsame
          rw [mcGroupListGet, ← (sameGroup_of_compare hsame).search_eq] at hg'
          rw [mcGroupListGet, hg'] at hfound
          cases hfound
        simp [sameTarget, hother]
      · have hev : Evolves (odmMcGroupAdd board env.takes env.groupNode t desc.groupKey
            .learning).2 t := evolves_odmMcGroupAdd ..
        have hcases := leaveTarget_joined h
        rw [hev.bitmap, hev.hostBitmap] at hcases
        rcases hcases with hset | ⟨hother, hold⟩
        · exact Or.inl hset
        · right
          refine ⟨hother, ?_⟩
          obtain ⟨g', host', hg', hhost', rfl⟩ := leaveTarget_snooping_iff.mp hold
          rw [hev.hostBitmap] at hhost'
          rcases get_odmMcGroupAdd hg' with ⟨g, hg, -, hhosts⟩ | ⟨-, -, hhosts, -⟩
          · refine leaveTarget_snooping_iff.mpr ⟨g, host', hg, ?_, rfl⟩
            rw [mcHostListGet, ← hhosts]
            exact hhost'
          · rw [mcHostListGet, hhosts] at hhost'
            cases hhost'

/-- A report of a host brings no group to light but the one it adds. -/
theorem leaveTarget_ctc_joinTables {env : Env} {desc desc' : PacketDesc} {t : Tables}
    {target : LeaveTarget}
    (h : leaveTarget .ctc (joinTables board env .snooping desc t) desc' = some target) :
    leaveTarget .ctc t desc' = some target ∨
      (env.groupNode = true ∧ mcGroupListGet t desc.groupKey = none ∧
        mcGroupNumPerPort t desc.ingressPortId ≠ t.control.maxGroupNum desc.ingressPortId ∧
        groupCompare desc.groupKey desc'.groupKey t.control.bitmap = t.control.bitmap) := by
  have hjoined : ∀ t : Tables, leaveTarget .ctc (groupModify t desc.groupKey
      (joinHost t.control env.hostNode desc.hostKey)) desc' = some target →
      leaveTarget .ctc t desc' = some target := by
    intro t h
    obtain ⟨g', hg', rfl⟩ := leaveTarget_ctc_iff.mp h
    rcases get_groupModify t desc.groupKey desc'.groupKey
      (joinHost t.control env.hostNode desc.hostKey) (joinHost_key _ _ _) with
      ⟨-, hget⟩ | ⟨-, hget⟩
    · rw [hget, Option.map_eq_some_iff] at hg'
      obtain ⟨g, hg, rfl⟩ := hg'
      exact leaveTarget_ctc_iff.mpr ⟨g, hg, (joinHost_target ..).symm⟩
    · rw [hget] at hg'
      exact leaveTarget_ctc_iff.mpr ⟨g', hg', rfl⟩
  change leaveTarget .ctc (mcSnoopingJoinAction board env desc t) desc' = some target at h
  unfold mcSnoopingJoinAction at h
  simp only at h
  split at h
  · split at h
    · exact Or.inl (hjoined t h)
    · rename_i hfound
      split at h
      · exact Or.inl h
      · rename_i hroom
        obtain ⟨g', hg', rfl⟩ := leaveTarget_ctc_iff.mp (hjoined _ h)
        rcases get_odmMcGroupAdd hg' with ⟨g, hg, htarget, -⟩ | ⟨halloc, -, -, hsame⟩
        · exact Or.inl (leaveTarget_ctc_iff.mpr ⟨g, hg, htarget.symm⟩)
        · exact Or.inr ⟨halloc, hfound, hroom, hsame⟩
  · exact Or.inl h

/-- A new control entry brings no group to light but the one it adds. -/
theorem get_entryAdd {env : Env} {t : Tables} {portId vlanId : Nat} {mac : Mac} {k' : GroupKey}
    {g' : Group}
    (hget : mcGroupListGet (odmMulticastControlEntryAdd board env t portId vlanId mac).2 k' =
      some g') :
    (∃ g, mcGroupListGet t k' = some g ∧ g'.target = g.target) ∨
      ∃ k, env.groupNode = true ∧
        entryKey t.control.ctcControlType portId vlanId mac = some k ∧
        mcGroupListGet t k = none ∧ groupCompare k k' t.control.bitmap = t.control.bitmap := by
  unfold odmMulticastControlEntryAdd at hget
  split at hget
  · exact Or.inl ⟨g', hget, rfl⟩
  · cases hk : entryKey t.control.ctcControlType portId vlanId mac with
    | none =>
      simp only [hk] at hget
      split at hget
      · exact Or.inl ⟨g', hget, rfl⟩
      · exact Or.inl ⟨g', hget, rfl⟩
    | some k =>
      -- the VLAN that may follow leaves the list alone
      have hlist : mcGroupListGet (odmMcGroupAdd board env.takes env.groupNode t k
          .configByOam).2 k' = some g' := by
        simp only [hk] at hget
        split at hget
        · rename_i t' heq
          rw [heq]
          split at hget
          · exact hget
          · exact hget
        · exact hget
      rcases get_odmMcGroupAdd hlist with ⟨g, hg, htarget, -⟩ | ⟨hnode, hnone, -, hsame⟩
      · exact Or.inl ⟨g, hg, htarget⟩
      · exact Or.inr ⟨k, hnode, rfl, hnone, hsame⟩

end Opconn.Multicast
