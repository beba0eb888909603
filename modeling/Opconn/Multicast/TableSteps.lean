import Opconn.Multicast.Keys
import Opconn.Multicast.Steps

/-!
# What happens to the tables

Most of what the threads do to `mcGroupList` takes something away: hosts age, leave or
are deleted with their group, and what stays keeps its key and its flags.  `Shrinks` says
so, once for each call; the invariants of the flags are kept by all of these at once.
-/

namespace Opconn.Multicast

open FirstMatch List

variable {board : Board}

/-! ### Shrinking -/

/-- The same host, a second older perhaps. -/
def HostKept (h' h : Host) : Prop := h'.toHostKey = h.toHostKey ∧ h'.target = h.target

/-- The same group, with some of its hosts. -/
structure GroupKept (g' g : Group) : Prop where
  key : g'.toGroupKey = g.toGroupKey
  target : g'.target = g.target
  hosts : SublistForall₂ HostKept g'.hostList g.hostList

structure Shrinks (t' t : Tables) : Prop where
  bitmap : t'.control.bitmap = t.control.bitmap
  hostBitmap : t'.control.hostBitmap = t.control.hostBitmap
  mcMode : t'.control.mcMode = t.control.mcMode
  groups : SublistForall₂ GroupKept t'.mcGroupList t.mcGroupList

theorem HostKept.refl (h : Host) : HostKept h h := ⟨rfl, rfl⟩

theorem HostKept.trans {h'' h' h : Host} (h₁ : HostKept h'' h') (h₂ : HostKept h' h) :
    HostKept h'' h := ⟨h₁.1.trans h₂.1, h₁.2.trans h₂.2⟩

theorem GroupKept.refl (g : Group) : GroupKept g g := ⟨rfl, rfl, shrunk_refl HostKept.refl _⟩

theorem GroupKept.trans {g'' g' g : Group} (h₁ : GroupKept g'' g') (h₂ : GroupKept g' g) :
    GroupKept g'' g :=
  ⟨h₁.key.trans h₂.key, h₁.target.trans h₂.target,
    shrunk_trans h₁.hosts h₂.hosts (fun _ _ _ => HostKept.trans)⟩

theorem Shrinks.trans {t'' t' t : Tables} (h₁ : Shrinks t'' t') (h₂ : Shrinks t' t) :
    Shrinks t'' t where
  bitmap := h₁.bitmap.trans h₂.bitmap
  hostBitmap := h₁.hostBitmap.trans h₂.hostBitmap
  mcMode := h₁.mcMode.trans h₂.mcMode
  groups := shrunk_trans h₁.groups h₂.groups (fun _ _ _ => GroupKept.trans)

/-- Calls that leave the list alone. -/
theorem shrinks_of_same {t' t : Tables} (hbitmap : t'.control.bitmap = t.control.bitmap)
    (hhost : t'.control.hostBitmap = t.control.hostBitmap)
    (hmode : t'.control.mcMode = t.control.mcMode) (hlist : t'.mcGroupList = t.mcGroupList) :
    Shrinks t' t where
  bitmap := hbitmap
  hostBitmap := hhost
  mcMode := hmode
  groups := hlist ▸ shrunk_refl GroupKept.refl _

theorem Shrinks.refl (t : Tables) : Shrinks t t := shrinks_of_same rfl rfl rfl rfl

theorem shrinks_groupModify {f : Group → Group} (hf : ∀ g, GroupKept (f g) g) (t : Tables)
    (k : GroupKey) : Shrinks (groupModify t k f) t where
  bitmap := rfl
  hostBitmap := rfl
  mcMode := rfl
  groups := shrunk_updateFirst GroupKept.refl (fun g _ => hf g) _

theorem kept_mcHostListDel (hostBitmap : HostBitmap) (k : HostKey) (g : Group) :
    GroupKept (mcHostListDel hostBitmap k g) g :=
  ⟨rfl, rfl, shrunk_of_sublist HostKept.refl eraseP_sublist⟩

/-! ### Deleting groups -/

theorem shrinks_mcGroupListDel (t : Tables) (k : GroupKey) : Shrinks (mcGroupListDel t k).2 t := by
  unfold mcGroupListDel
  split
  · exact Shrinks.refl t
  · exact ⟨rfl, rfl, rfl, shrunk_of_sublist GroupKept.refl eraseP_sublist⟩

theorem shrinks_odmMcGroupDel (takes : SwitchEntry → Bool) (t : Tables) (k : GroupKey) :
    Shrinks (odmMcGroupDel board takes t k).2 t :=
  (shrinks_mcGroupListDel _ k).trans (shrinks_of_same rfl rfl rfl rfl)

theorem shrinks_deleteIfEmpty (takes : SwitchEntry → Bool) (t : Tables) (k : GroupKey) :
    Shrinks (deleteIfEmpty board takes t k) t := by
  unfold deleteIfEmpty
  split
  · exact shrinks_odmMcGroupDel takes t k
  · exact Shrinks.refl t

theorem shrinks_removeTarget (takes : SwitchEntry → Bool) (kind : LeaveKind) (t : Tables)
    (desc : PacketDesc) : Shrinks (removeTarget board takes kind t desc) t := by
  unfold removeTarget
  cases mcGroupListGet t desc.groupKey with
  | none => exact Shrinks.refl t
  | some group =>
    cases kind with
    | ctc => exact shrinks_deleteIfEmpty takes t _
    | snooping =>
      simp only
      cases mcHostListGet t.control.hostBitmap group desc.hostKey with
      | none => exact Shrinks.refl t
      | some host =>
        exact (shrinks_deleteIfEmpty takes _ _).trans
          (shrinks_groupModify (kept_mcHostListDel _ _) t _)

theorem shrinks_deleteGroups (takes : SwitchEntry → Bool) (p : Group → Bool) (n : Nat)
    (t : Tables) : Shrinks (deleteGroups board takes p n t).2 t := by
  induction n generalizing t with
  | zero => exact Shrinks.refl t
  | succ n ih =>
    unfold deleteGroups
    split
    · exact Shrinks.refl t
    · rename_i group _
      have hdel : Shrinks (odmMcGroupDel board takes t group.toGroupKey).2 t :=
        shrinks_odmMcGroupDel takes t group.toGroupKey
      split
      · rename_i t' heq
        rw [heq] at hdel
        exact (ih t').trans hdel
      · exact hdel

theorem shrinks_odmMulticastVlanDelete (takes : SwitchEntry → Bool) (t : Tables)
    (portId vlanId : Nat) : Shrinks (odmMulticastVlanDelete board takes t portId vlanId) t := by
  unfold odmMulticastVlanDelete
  simp only
  split
  · exact shrinks_of_same rfl rfl rfl rfl
  · exact Shrinks.refl t

/-- A loop over calls that shrink the tables shrinks them. -/
theorem shrinks_foldl {α : Type} {f : Tables → α → Tables} (hf : ∀ t a, Shrinks (f t a) t)
    (l : List α) (t : Tables) : Shrinks (l.foldl f t) t := by
  induction l generalizing t with
  | nil => exact Shrinks.refl t
  | cons a l ih => exact (ih (f t a)).trans (hf t a)

theorem shrinks_entryDeleteByVlan (takes : SwitchEntry → Bool) (t : Tables) (vlanId : Nat) :
    Shrinks (odmMulticastControlEntryDeleteByVlan board takes t vlanId).2 t := by
  unfold odmMulticastControlEntryDeleteByVlan
  have hdel : Shrinks (deleteGroups board takes (·.mcVlan = vlanId) t.mcGroupList.length t).2 t :=
    shrinks_deleteGroups takes _ _ t
  split
  · rename_i t' heq
    rw [heq] at hdel
    split
    · exact (shrinks_foldl
        (fun t i => shrinks_odmMulticastVlanDelete takes t i vlanId) _ t').trans hdel
    · exact hdel
  · exact hdel

theorem shrinks_maxGroupNumSet (takes : SwitchEntry → Bool) (t : Tables) (portId maxGroup : Nat) :
    Shrinks (odmMcControlBlockMaxGroupNumSet board takes t portId maxGroup) t := by
  unfold odmMcControlBlockMaxGroupNumSet odmMulticastControlEntryNumSet
  simp only
  split
  · exact (shrinks_deleteGroups takes _ _ _).trans (shrinks_of_same rfl rfl rfl rfl)
  · exact shrinks_of_same rfl rfl rfl rfl

theorem shrinks_entryDelete (takes : SwitchEntry → Bool) (t : Tables) (portId vlanId : Nat)
    (mac : Mac) : Shrinks (odmMulticastControlEntryDelete board takes t portId vlanId mac).2 t := by
  unfold odmMulticastControlEntryDelete
  split
  · exact Shrinks.refl t
  · split
    · exact Shrinks.refl t
    · simp only
      split
      · exact (shrinks_odmMulticastVlanDelete takes _ _ _).trans (shrinks_deleteIfEmpty takes t _)
      · exact shrinks_deleteIfEmpty takes t _

/-! ### Aging -/

theorem kept_ageHost (hostBitmap : HostBitmap) (g : Group) (h : Host) :
    GroupKept (ageHost hostBitmap g h) g := by
  unfold ageHost
  split
  · exact kept_mcHostListDel hostBitmap _ g
  · refine ⟨rfl, rfl, shrunk_updateFirst HostKept.refl ?_ _⟩
    intro host _
    exact ⟨rfl, rfl⟩

theorem kept_foldl_ageHost (hostBitmap : HostBitmap) (hosts : List Host) (g : Group) :
    GroupKept (hosts.foldl (ageHost hostBitmap) g) g := by
  induction hosts generalizing g with
  | nil => exact GroupKept.refl g
  | cons h hosts ih => exact (ih (ageHost hostBitmap g h)).trans (kept_ageHost hostBitmap g h)

/-- The list with one group's hosts a second older. -/
theorem shrinks_aged (t : Tables) (node : Group) :
    Shrinks { t with
      mcGroupList := updateFirst (· = node)
        (fun _ => node.hostList.foldl (ageHost t.control.hostBitmap) node) t.mcGroupList } t := by
  refine ⟨rfl, rfl, rfl, shrunk_updateFirst GroupKept.refl ?_ _⟩
  intro g hg
  rw [of_decide_eq_true hg]
  exact kept_foldl_ageHost ..

theorem shrinks_ageGroup (takes : SwitchEntry → Bool) (t : Tables) (node : Group) :
    Shrinks (ageGroup board takes t node) t := by
  unfold ageGroup
  simp only
  split
  · exact (shrinks_odmMcGroupDel takes _ _).trans (shrinks_aged t node)
  · exact shrinks_aged t node

theorem shrinks_age (takes : SwitchEntry → Bool) (t : Tables) :
    Shrinks (mcHostAgingTimerSnoopingHandler board takes t) t := by
  unfold mcHostAgingTimerSnoopingHandler
  split
  · exact Shrinks.refl t
  · exact shrinks_foldl (shrinks_ageGroup takes) _ t

theorem shrinks_hostAgingTimeSet (t : Tables) (hostAgingTime : Nat) :
    Shrinks (odmMulticastHostAgingTimeSet t hostAgingTime) t := by
  unfold odmMulticastHostAgingTimeSet
  split
  · exact Shrinks.refl t
  · refine ⟨rfl, rfl, rfl, shrunk_map ?_ _⟩
    intro g
    exact ⟨rfl, rfl, shrunk_map (fun h => ⟨rfl, rfl⟩) _⟩

/-! ### Evolving -/

def Hostless (t : Tables) : Prop := ∀ g ∈ t.mcGroupList, g.hostList = []

/-- No two groups came to answer to the same key, no leave flag was set, and only snooping
adds hosts. -/
structure Evolves (t' t : Tables) : Prop where
  bitmap : t'.control.bitmap = t.control.bitmap
  hostBitmap : t'.control.hostBitmap = t.control.hostBitmap
  mcMode : t'.control.mcMode = t.control.mcMode
  keyed : Keyed t → Keyed t'
  hostless : t.control.mcMode ≠ .snooping → Hostless t → Hostless t'
  hostFlags : ∀ g' ∈ t'.mcGroupList, ∀ h' ∈ g'.hostList, h'.isNonFastLeaveTimerStart = true →
    ∃ g ∈ t.mcGroupList, ∃ h ∈ g.hostList, h.isNonFastLeaveTimerStart = true ∧
      SameGroup t.control.bitmap g'.toGroupKey g.toGroupKey ∧
      SameHost t.control.hostBitmap h'.toHostKey h.toHostKey
  groupFlags : ∀ g' ∈ t'.mcGroupList, g'.isNonFastLeaveTimerStart = true →
    ∃ g ∈ t.mcGroupList, g.isNonFastLeaveTimerStart = true ∧
      SameGroup t.control.bitmap g'.toGroupKey g.toGroupKey

theorem SameGroup.trans {bitmap : Bitmap} {a b c : GroupKey} (h₁ : SameGroup bitmap a b)
    (h₂ : SameGroup bitmap b c) : SameGroup bitmap a c := fun k => (h₁ k).trans (h₂ k)

theorem SameHost.trans {hostBitmap : HostBitmap} {a b c : HostKey} (h₁ : SameHost hostBitmap a b)
    (h₂ : SameHost hostBitmap b c) : SameHost hostBitmap a c := fun k => (h₁ k).trans (h₂ k)

theorem Evolves.trans {t'' t' t : Tables} (h₁ : Evolves t'' t') (h₂ : Evolves t' t) :
    Evolves t'' t where
  bitmap := h₁.bitmap.trans h₂.bitmap
  hostBitmap := h₁.hostBitmap.trans h₂.hostBitmap
  mcMode := h₁.mcMode.trans h₂.mcMode
  keyed := fun h => h₁.keyed (h₂.keyed h)
  hostless := fun hmode h => h₁.hostless (h₂.mcMode ▸ hmode) (h₂.hostless hmode h)
  hostFlags := by
    intro g'' hg'' h'' hh'' hflag
    obtain ⟨g', hg', h', hh', hflag', hgroup, hhost⟩ := h₁.hostFlags g'' hg'' h'' hh'' hflag
    obtain ⟨g, hg, h, hh, hset, hgroup', hhost'⟩ := h₂.hostFlags g' hg' h' hh' hflag'
    rw [h₂.bitmap] at hgroup
    rw [h₂.hostBitmap] at hhost
    exact ⟨g, hg, h, hh, hset, hgroup.trans hgroup', hhost.trans hhost'⟩
  groupFlags := by
    intro g'' hg'' hflag
    obtain ⟨g', hg', hflag', hgroup⟩ := h₁.groupFlags g'' hg'' hflag
    obtain ⟨g, hg, hset, hgroup'⟩ := h₂.groupFlags g' hg' hflag'
    rw [h₂.bitmap] at hgroup
    exact ⟨g, hg, hset, hgroup.trans hgroup'⟩

theorem HostKept.flag {h' h : Host} (hkept : HostKept h' h) :
    h'.isNonFastLeaveTimerStart = h.isNonFastLeaveTimerStart :=
  congrArg LeaveTarget.isNonFastLeaveTimerStart hkept.2

theorem GroupKept.flag {g' g : Group} (hkept : GroupKept g' g) :
    g'.isNonFastLeaveTimerStart = g.isNonFastLeaveTimerStart :=
  congrArg LeaveTarget.isNonFastLeaveTimerStart hkept.target

theorem SameGroup.of_eq {bitmap : Bitmap} {a b : GroupKey} (h : a = b) : SameGroup bitmap a b :=
  h ▸ SameGroup.refl bitmap a

theorem SameHost.of_eq {hostBitmap : HostBitmap} {a b : HostKey} (h : a = b) :
    SameHost hostBitmap a b :=
  h ▸ SameHost.refl hostBitmap a

theorem uniqueHosts_of_shrunk {hostBitmap : HostBitmap} {hosts' hosts : List Host}
    (h : SublistForall₂ HostKept hosts' hosts) (hunique : UniqueHosts hostBitmap hosts) :
    UniqueHosts hostBitmap hosts' := by
  refine pairwise_of_shrunk h hunique ?_
  intro a' a b' b ha hb hab
  rw [ha.1, (SameHost.of_eq hb.1).matches_eq]
  exact hab

theorem Shrinks.evolves {t' t : Tables} (h : Shrinks t' t) : Evolves t' t where
  bitmap := h.bitmap
  hostBitmap := h.hostBitmap
  mcMode := h.mcMode
  keyed := by
    intro hkeyed
    refine ⟨?_, ?_⟩
    · rw [h.bitmap]
      refine pairwise_of_shrunk h.groups hkeyed.groups ?_
      intro a' a b' b ha hb hab
      rw [ha.key, (SameGroup.of_eq hb.key).matches_eq]
      exact hab
    · intro g' hg'
      obtain ⟨g, hg, hkept⟩ := exists_of_mem_shrunk h.groups hg'
      rw [h.hostBitmap]
      exact uniqueHosts_of_shrunk hkept.hosts (hkeyed.hosts g hg)
  hostless := by
    intro _ hless g' hg'
    obtain ⟨g, hg, hkept⟩ := exists_of_mem_shrunk h.groups hg'
    rw [List.eq_nil_iff_forall_not_mem]
    intro host hhost
    obtain ⟨host', hhost', -⟩ := exists_of_mem_shrunk hkept.hosts hhost
    rw [hless g hg] at hhost'
    cases hhost'
  hostFlags := by
    intro g' hg' h' hh' hflag
    obtain ⟨g, hg, hkept⟩ := exists_of_mem_shrunk h.groups hg'
    obtain ⟨host, hhost, hhkept⟩ := exists_of_mem_shrunk hkept.hosts hh'
    exact ⟨g, hg, host, hhost, hhkept.flag ▸ hflag, SameGroup.of_eq hkept.key,
      SameHost.of_eq hhkept.1⟩
  groupFlags := by
    intro g' hg' hflag
    obtain ⟨g, hg, hkept⟩ := exists_of_mem_shrunk h.groups hg'
    exact ⟨g, hg, hkept.flag ▸ hflag, SameGroup.of_eq hkept.key⟩

/-! ### Writing to a group -/

/-- What a write to a found group may do: its hosts stay apart, no flag is set. -/
structure GroupWrite (hostBitmap : HostBitmap) (g' g : Group) : Prop where
  hosts : UniqueHosts hostBitmap g.hostList → UniqueHosts hostBitmap g'.hostList
  hostFlags : ∀ h' ∈ g'.hostList, h'.isNonFastLeaveTimerStart = true →
    ∃ h ∈ g.hostList, h.isNonFastLeaveTimerStart = true ∧
      SameHost hostBitmap h'.toHostKey h.toHostKey
  flag : g'.isNonFastLeaveTimerStart = true → g.isNonFastLeaveTimerStart = true

theorem Keyed.modify {t : Tables} (h : Keyed t) {k : GroupKey} {f : Group → Group}
    (hkey : ∀ g, groupMatches t.control.bitmap k g = true →
      SameGroup t.control.bitmap (f g).toGroupKey g.toGroupKey)
    (hhosts : ∀ g, UniqueHosts t.control.hostBitmap g.hostList →
      UniqueHosts t.control.hostBitmap (f g).hostList) : Keyed (groupModify t k f) where
  groups := by
    have hshrunk : SublistForall₂
        (fun g' g : Group => SameGroup t.control.bitmap g'.toGroupKey g.toGroupKey)
        (updateFirst (groupMatches t.control.bitmap k) f t.mcGroupList) t.mcGroupList := by
      apply shrunk_updateFirst
      · intro g
        exact SameGroup.refl _ _
      · exact hkey
    refine pairwise_of_shrunk hshrunk h.groups ?_
    intro a' a b' b ha hb hab
    change groupMatches t.control.bitmap a'.toGroupKey b' = false
    rw [ha.search_eq, hb.matches_eq]
    exact hab
  hosts := by
    exact forall_mem_updateFirst h.hosts hhosts

theorem evolves_groupModify {t : Tables} {k : GroupKey} {f : Group → Group}
    (hkey : ∀ g, groupMatches t.control.bitmap k g = true →
      SameGroup t.control.bitmap (f g).toGroupKey g.toGroupKey)
    (hwrite : ∀ g, GroupWrite t.control.hostBitmap (f g) g)
    (hless : t.control.mcMode ≠ .snooping → ∀ g, g.hostList = [] → (f g).hostList = []) :
    Evolves (groupModify t k f) t where
  bitmap := rfl
  hostBitmap := rfl
  mcMode := rfl
  keyed := fun h => h.modify hkey (fun g => (hwrite g).hosts)
  hostless := by
    intro hmode hnone
    exact forall_mem_updateFirst hnone (hless hmode)
  hostFlags := by
    intro g' hg' h' hh' hflag
    rcases mem_updateFirst hg' with hold | ⟨g, hfound, rfl⟩
    · exact ⟨g', hold, h', hh', hflag, SameGroup.refl _ _, SameHost.refl _ _⟩
    · obtain ⟨host, hhost, hset, hsame⟩ := (hwrite g).hostFlags h' hh' hflag
      exact ⟨g, List.mem_of_find?_eq_some hfound, host, hhost, hset,
        hkey g (List.find?_some hfound), hsame⟩
  groupFlags := by
    intro g' hg' hflag
    rcases mem_updateFirst hg' with hold | ⟨g, hfound, rfl⟩
    · exact ⟨g', hold, hflag, SameGroup.refl _ _⟩
    · exact ⟨g, List.mem_of_find?_eq_some hfound, (hwrite g).flag hflag,
        hkey g (List.find?_some hfound)⟩

/-! ### Adding a group -/

theorem sameGroup_groupWrite (bitmap : Bitmap) (k : GroupKey) (state : NodeState) (node : Group) :
    SameGroup bitmap (groupWrite bitmap k state node).toGroupKey k := by
  intro k'
  rw [groupCompare_iff, groupCompare_iff]
  have hmac : bitmap.gdaMac = true →
      (groupWrite bitmap k state node).groupMac = k.groupMac := by
    intro hb
    simp [groupWrite, hb]
  constructor
  · rintro ⟨hsa, hport, hmac', hip, hvlan⟩
    exact ⟨hsa, hport, fun hb => (hmac hb).symm.trans (hmac' hb), hip, hvlan⟩
  · rintro ⟨hsa, hport, hmac', hip, hvlan⟩
    exact ⟨hsa, hport, fun hb => (hmac hb).trans (hmac' hb), hip, hvlan⟩

/-- A write over a group that a search for the key found. -/
theorem evolves_groupWrite (t : Tables) (k : GroupKey) (state : NodeState) :
    Evolves (groupModify t k (groupWrite t.control.bitmap k state)) t := by
  apply evolves_groupModify
  · intro g hg
    exact (sameGroup_groupWrite _ k state g).trans
      (sameGroup_of_compare (groupMatches_iff.mp hg)).symm
  · intro g
    exact ⟨id, fun h hh hflag => ⟨h, hh, hflag, SameHost.refl _ _⟩, id⟩
  · intro _ g hnone
    exact hnone

theorem evolves_mcGroupListAdd {alloc : Bool} {t t' : Tables} {k : GroupKey} {state : NodeState}
    (h : mcGroupListAdd alloc t k state = some t') : Evolves t' t := by
  unfold mcGroupListAdd at h
  cases hget : mcGroupListGet t k with
  | some g =>
    simp only [hget, Option.some.injEq] at h
    rw [← h]
    exact evolves_groupWrite t k state
  | none =>
    simp only [hget] at h
    split at h
    · cases h
      have hnew : ∀ {g : Group}, g ∈ t.mcGroupList →
          groupMatches t.control.bitmap k g = false := by
        intro g hg
        simpa using List.find?_eq_none.mp hget g hg
      refine ⟨rfl, rfl, rfl, ?_, ?_, ?_, ?_⟩
      · intro hkeyed
        refine ⟨List.pairwise_cons.mpr ⟨?_, hkeyed.groups⟩, ?_⟩
        · intro g hg
          rw [(sameGroup_groupWrite t.control.bitmap k state zeroGroup).search_eq]
          exact hnew hg
        · intro g hg
          rcases List.mem_cons.mp hg with rfl | hold
          · exact List.Pairwise.nil
          · exact hkeyed.hosts g hold
      · intro _ hless g hg
        rcases List.mem_cons.mp hg with rfl | hold
        · rfl
        · exact hless g hold
      · intro g hg host hhost hflag
        rcases List.mem_cons.mp hg with rfl | hold
        · cases hhost
        · exact ⟨g, hold, host, hhost, hflag, SameGroup.refl _ _, SameHost.refl _ _⟩
      · intro g hg hflag
        rcases List.mem_cons.mp hg with rfl | hold
        · cases hflag
        · exact ⟨g, hold, hflag, SameGroup.refl _ _⟩
    · cases h

theorem evolves_odmMcGroupAdd (takes : SwitchEntry → Bool) (alloc : Bool) (t : Tables)
    (k : GroupKey) (state : NodeState) :
    Evolves (odmMcGroupAdd board takes alloc t k state).2 t := by
  have hdal : Shrinks (dalMcGroupAdd board takes t k) t := shrinks_of_same rfl rfl rfl rfl
  unfold odmMcGroupAdd
  simp only
  split
  · exact hdal.evolves
  · rename_i t' hadd
    exact (evolves_mcGroupListAdd hadd).trans hdal.evolves

/-! ### Reports -/

theorem uniqueHosts_updateFirst {hostBitmap : HostBitmap} {p : Host → Bool} {f : Host → Host}
    {hosts : List Host} (hkey : ∀ h, (f h).toHostKey = h.toHostKey)
    (h : UniqueHosts hostBitmap hosts) : UniqueHosts hostBitmap (updateFirst p f hosts) := by
  have hshrunk : SublistForall₂ (fun h' h : Host => h'.toHostKey = h.toHostKey)
      (updateFirst p f hosts) hosts := by
    apply shrunk_updateFirst
    · intro host
      rfl
    · intro host _
      exact hkey host
  refine pairwise_of_shrunk hshrunk h ?_
  intro a' a b' b ha hb hab
  rw [ha, (SameHost.of_eq hb).matches_eq]
  exact hab

/-- A write to a host that sets no leave flag. -/
theorem write_hostModify (hostBitmap : HostBitmap) (k : HostKey) {f : Host → Host} (g : Group)
    (hkey : ∀ h, (f h).toHostKey = h.toHostKey)
    (hflag : ∀ h, (f h).isNonFastLeaveTimerStart = true → h.isNonFastLeaveTimerStart = true) :
    GroupWrite hostBitmap (hostModify hostBitmap k f g) g where
  hosts := uniqueHosts_updateFirst hkey
  hostFlags := by
    intro h' hh' hset
    rcases mem_updateFirst hh' with hold | ⟨h, hfound, rfl⟩
    · exact ⟨h', hold, hset, SameHost.refl _ _⟩
    · exact ⟨h, List.mem_of_find?_eq_some hfound, hflag h hset, SameHost.of_eq (hkey h)⟩
  flag := id

theorem GroupWrite.trans {hostBitmap : HostBitmap} {g'' g' g : Group}
    (h₁ : GroupWrite hostBitmap g'' g') (h₂ : GroupWrite hostBitmap g' g) :
    GroupWrite hostBitmap g'' g where
  hosts := fun h => h₁.hosts (h₂.hosts h)
  hostFlags := by
    intro h'' hh'' hset
    obtain ⟨h', hh', hset', hsame⟩ := h₁.hostFlags h'' hh'' hset
    obtain ⟨h, hh, hset, hsame'⟩ := h₂.hostFlags h' hh' hset'
    exact ⟨h, hh, hset, hsame.trans hsame'⟩
  flag := fun h => h₂.flag (h₁.flag h)

theorem sameHost_newHost (hostBitmap : HostBitmap) (k : HostKey) :
    SameHost hostBitmap (newHost hostBitmap k).toHostKey k := by
  intro k'
  rw [hostCompare_iff, hostCompare_iff]
  have hmac : hostBitmap.hostSaMac = true → (newHost hostBitmap k).saMac = k.saMac := by
    intro hb
    simp [newHost, hb]
  constructor
  · rintro ⟨hip, hmac'⟩
    exact ⟨hip, fun hb => (hmac hb).symm.trans (hmac' hb)⟩
  · rintro ⟨hip, hmac'⟩
    exact ⟨hip, fun hb => (hmac hb).trans (hmac' hb)⟩

theorem write_newHost {hostBitmap : HostBitmap} {k : HostKey} {g : Group}
    (hnone : mcHostListGet hostBitmap g k = none) :
    GroupWrite hostBitmap { g with hostList := newHost hostBitmap k :: g.hostList } g where
  hosts := by
    intro h
    refine List.pairwise_cons.mpr ⟨?_, h⟩
    intro host hhost
    rw [(sameHost_newHost hostBitmap k).search_eq]
    simpa using List.find?_eq_none.mp hnone host hhost
  hostFlags := by
    intro h' hh' hset
    rcases List.mem_cons.mp hh' with rfl | hold
    · cases hset
    · exact ⟨h', hold, hset, SameHost.refl _ _⟩
  flag := id

theorem write_joinHost (control : McControl) (hostNode : Bool) (k : HostKey) (g : Group) :
    GroupWrite control.hostBitmap (joinHost control hostNode k g) g := by
  have hrefresh : ∀ g, GroupWrite control.hostBitmap
      (hostModify control.hostBitmap k (fun host =>
        { host with hostAgingTime := control.hostAgingTime, isLastReportRecevied := true }) g) g :=
    fun g => write_hostModify _ _ g (fun _ => rfl) (fun _ h => h)
  unfold joinHost
  cases hget : mcHostListGet control.hostBitmap g k with
  | some host => exact hrefresh g
  | none =>
    simp only
    split
    · exact (hrefresh _).trans (write_newHost hget)
    · exact ⟨id, fun h hh hset => ⟨h, hh, hset, SameHost.refl _ _⟩, id⟩

theorem joinHost_key (control : McControl) (hostNode : Bool) (k : HostKey) (g : Group) :
    (joinHost control hostNode k g).toGroupKey = g.toGroupKey := by
  unfold joinHost
  cases mcHostListGet control.hostBitmap g k with
  | some host => rfl
  | none =>
    simp only
    split <;> rfl

theorem evolves_joinTables (env : Env) {kind : LeaveKind} (desc : PacketDesc) {t : Tables}
    (hkind : t.control.mcMode.leaveKind = some kind) :
    Evolves (joinTables board env kind desc t) t := by
  cases kind with
  | ctc =>
    change Evolves (mcCtcJoinAction board desc t) t
    unfold mcCtcJoinAction
    split
    · apply evolves_groupModify
      · intro g _
        exact SameGroup.refl _ _
      · intro g
        exact ⟨id, fun h hh hset => ⟨h, hh, hset, SameHost.refl _ _⟩, id⟩
      · intro _ g hnone
        exact hnone
    · exact (Shrinks.refl t).evolves
  | snooping =>
    have hsnooping : t.control.mcMode = .snooping := by
      cases hmode : t.control.mcMode with
      | snooping => rfl
      | ctc | proxy | stop => simp [hmode, McMode.leaveKind] at hkind
    have hjoined : ∀ t : Tables, t.control.mcMode = .snooping → Evolves
        (groupModify t desc.groupKey (joinHost t.control env.hostNode desc.hostKey)) t := by
      intro t hmode
      apply evolves_groupModify
      · intro g _
        exact SameGroup.of_eq (joinHost_key ..)
      · intro g
        exact write_joinHost ..
      · intro hother
        exact absurd hmode hother
    change Evolves (mcSnoopingJoinAction board env desc t) t
    unfold mcSnoopingJoinAction
    simp only
    split
    · split
      · exact hjoined t hsnooping
      · split
        · exact (Shrinks.refl t).evolves
        · have hadd : Evolves (odmMcGroupAdd board env.takes env.groupNode t desc.groupKey
              .learning).2 t := evolves_odmMcGroupAdd ..
          exact (hjoined _ (hadd.mcMode.trans hsnooping)).trans hadd
    · exact (Shrinks.refl t).evolves

/-! ### Leaves -/

/-- A write to the flags of what leaves, when it sets no leave flag. -/
theorem evolves_targetModify (kind : LeaveKind) (t : Tables) (desc : PacketDesc)
    {f : LeaveTarget → LeaveTarget}
    (hflag : ∀ target, (f target).isNonFastLeaveTimerStart = true →
      target.isNonFastLeaveTimerStart = true) : Evolves (targetModify kind t desc f) t := by
  cases kind with
  | snooping =>
    apply evolves_groupModify
    · intro g _
      exact SameGroup.refl _ _
    · intro g
      exact write_hostModify _ _ g (fun _ => rfl) (fun h => hflag h.target)
    · intro _ g hnone
      simp [hostModify, hnone]
  | ctc =>
    apply evolves_groupModify
    · intro g _
      exact SameGroup.refl _ _
    · intro g
      exact ⟨id, fun h hh hset => ⟨h, hh, hset, SameHost.refl _ _⟩, hflag g.target⟩
    · intro _ g hnone
      exact hnone

/-- The last message of a leave sets no flag. -/
theorem LastMessage.evolves {takes : SwitchEntry → Bool} {s : McState} {kind : LeaveKind}
    {desc : PacketDesc} {t : Tables} (h : LastMessage board takes s kind desc t) :
    Evolves t s.tables := by
  cases h with
  | gone => exact (Shrinks.refl _).evolves
  | reported target htarget hreported hcount =>
    apply evolves_targetModify
    intro target hset
    cases hset
  | removed target htarget hreported hcount => exact (shrinks_removeTarget ..).evolves
  | overrun => exact (Shrinks.refl _).evolves

/-! ### Management -/

theorem evolves_entryAdd (env : Env) (t : Tables) (portId vlanId : Nat) (mac : Mac) :
    Evolves (odmMulticastControlEntryAdd board env t portId vlanId mac).2 t := by
  have hvlan : ∀ t : Tables, Shrinks (odmMulticastVlanAdd board t portId vlanId) t :=
    fun t => shrinks_of_same rfl rfl rfl rfl
  unfold odmMulticastControlEntryAdd
  split
  · exact (Shrinks.refl t).evolves
  · cases entryKey t.control.ctcControlType portId vlanId mac with
    | none =>
      simp only
      split
      · exact (hvlan t).evolves
      · exact (Shrinks.refl t).evolves
    | some k =>
      have hadd : Evolves (odmMcGroupAdd board env.takes env.groupNode t k .configByOam).2 t :=
        evolves_odmMcGroupAdd ..
      simp only
      split
      · rename_i t' heq
        rw [heq] at hadd
        split
        · exact (hvlan t').evolves.trans hadd
        · exact hadd
      · exact hadd

/-! ### Steps that only take away -/

/-- No packet, no leave message and no new control entry. -/
def McEvent.quiet : McEvent → Bool
  | .packet .. | .handle .. | .entryAdd .. => false
  | _ => true

theorem shrinks_step {s : McState} {e : McEvent} (hquiet : e.quiet = true) :
    Shrinks (mcStep board s e).tables s.tables ∨ (mcStep board s e).tables.mcGroupList = [] := by
  cases e with
  | packet | handle | entryAdd => cases hquiet
  | fire d =>
    obtain ⟨callback, hfire⟩ := fireTimer_frame d s
    left
    change Shrinks (fireTimer d s).tables s.tables
    rw [hfire]
    exact Shrinks.refl _
  | send =>
    obtain ⟨callback, queue, hsend⟩ := mcTimerMsgSend_frame s
    left
    change Shrinks (mcTimerMsgSend s).tables s.tables
    rw [hsend]
    exact Shrinks.refl _
  | age takes => exact Or.inl (shrinks_age takes s.tables)
  | entryDelete takes portId vlanId mac => exact Or.inl (shrinks_entryDelete ..)
  | entryDeleteByVlan takes vlanId => exact Or.inl (shrinks_entryDeleteByVlan ..)
  | entryClear takes => exact Or.inr rfl
  | maxGroupNumSet takes portId maxGroup => exact Or.inl (shrinks_maxGroupNumSet ..)
  | switchSet takes mcMode =>
    simp only [mcStep, onTables, odmMulticastSwitchSet]
    split
    · exact Or.inl (Shrinks.refl _)
    · exact Or.inr rfl
  | controlTypeSet takes ctcControlType =>
    simp only [mcStep, onTables, odmMcControlBlockCtcControlTypeSet]
    split
    · exact Or.inl (Shrinks.refl _)
    · exact Or.inr rfl
  | hostAgingTimeSet hostAgingTime => exact Or.inl (shrinks_hostAgingTimeSet ..)
  | leaveModeSet | lastQueryIntervalSet | lastQueryCountSet =>
    exact Or.inl (shrinks_of_same rfl rfl rfl rfl)

/-- Such a step leaves no mark. -/
theorem marks_step {s : McState} {e : McEvent} (hquiet : e.quiet = true) :
    (mcStep board s e).marks = s.marks := by
  cases e with
  | packet | handle | entryAdd => cases hquiet
  | fire d =>
    obtain ⟨callback, hfire⟩ := fireTimer_frame d s
    change (fireTimer d s).marks = s.marks
    rw [hfire]
  | send =>
    obtain ⟨callback, queue, hsend⟩ := mcTimerMsgSend_frame s
    change (mcTimerMsgSend s).marks = s.marks
    rw [hsend]
  | age | entryDelete | entryDeleteByVlan | entryClear | maxGroupNumSet | switchSet
  | controlTypeSet | leaveModeSet | hostAgingTimeSet | lastQueryIntervalSet | lastQueryCountSet =>
    rfl

end Opconn.Multicast
