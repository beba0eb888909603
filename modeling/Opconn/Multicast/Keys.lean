import Opconn.Multicast.System

/-!
# Searches by key

A search compares the fields that the bitmap selects, so a group stands for all keys that
agree with it there.  `Keyed` says that no two groups answer to the same key and no two
hosts of a group either; then what a search finds is the only match, and a group that
was changed outside its key is still found.
-/

namespace Opconn.Multicast

open FirstMatch

/-! ### Comparing keys -/

theorem groupCompare_iff {a k : GroupKey} {bitmap : Bitmap} :
    groupCompare a k bitmap = bitmap ↔ bitmap.saMac = false ∧
      (bitmap.hostPortId = true → a.hostPortId = k.hostPortId) ∧
      (bitmap.gdaMac = true → a.groupMac = k.groupMac) ∧
      (bitmap.gdaIp = true → a.groupAddress = k.groupAddress) ∧
      (bitmap.vlanId = true → a.mcVlan = k.mcVlan) := by
  obtain ⟨gdaMac, gdaIp, hostPortId, vlanId, saMac⟩ := bitmap
  cases gdaMac <;> cases gdaIp <;> cases hostPortId <;> cases vlanId <;> cases saMac <;>
    simp [groupCompare] <;> tauto

theorem hostCompare_iff {a k : HostKey} {hostBitmap : HostBitmap} :
    hostCompare a k hostBitmap = hostBitmap ↔
      (hostBitmap.hostSrcIp = true → a.srcIp = k.srcIp) ∧
      (hostBitmap.hostSaMac = true → a.saMac = k.saMac) := by
  obtain ⟨hostSrcIp, hostSaMac⟩ := hostBitmap
  cases hostSrcIp <;> cases hostSaMac <;> simp [hostCompare]

/-- The two keys answer to the same searches. -/
def SameGroup (bitmap : Bitmap) (a b : GroupKey) : Prop :=
  ∀ k, groupCompare a k bitmap = bitmap ↔ groupCompare b k bitmap = bitmap

def SameHost (hostBitmap : HostBitmap) (a b : HostKey) : Prop :=
  ∀ k, hostCompare a k hostBitmap = hostBitmap ↔ hostCompare b k hostBitmap = hostBitmap

theorem SameGroup.refl (bitmap : Bitmap) (a : GroupKey) : SameGroup bitmap a a := fun _ => Iff.rfl

theorem SameHost.refl (hostBitmap : HostBitmap) (a : HostKey) : SameHost hostBitmap a a :=
  fun _ => Iff.rfl

theorem SameGroup.symm {bitmap : Bitmap} {a b : GroupKey} (h : SameGroup bitmap a b) :
    SameGroup bitmap b a := fun k => (h k).symm

theorem groupCompare_symm {a b : GroupKey} {bitmap : Bitmap} :
    groupCompare a b bitmap = bitmap ↔ groupCompare b a bitmap = bitmap := by
  have hturn : ∀ {a b : GroupKey}, groupCompare a b bitmap = bitmap →
      groupCompare b a bitmap = bitmap := by
    intro a b h
    obtain ⟨hsa, hport, hmac, hip, hvlan⟩ := groupCompare_iff.mp h
    exact groupCompare_iff.mpr ⟨hsa, fun hb => (hport hb).symm, fun hb => (hmac hb).symm,
      fun hb => (hip hb).symm, fun hb => (hvlan hb).symm⟩
  exact ⟨hturn, hturn⟩

theorem hostCompare_symm {a b : HostKey} {hostBitmap : HostBitmap} :
    hostCompare a b hostBitmap = hostBitmap ↔ hostCompare b a hostBitmap = hostBitmap := by
  have hturn : ∀ {a b : HostKey}, hostCompare a b hostBitmap = hostBitmap →
      hostCompare b a hostBitmap = hostBitmap := by
    intro a b h
    obtain ⟨hip, hmac⟩ := hostCompare_iff.mp h
    exact hostCompare_iff.mpr ⟨fun hb => (hip hb).symm, fun hb => (hmac hb).symm⟩
  exact ⟨hturn, hturn⟩

/-- A key that was found stands for the key of the search. -/
theorem sameGroup_of_compare {a b : GroupKey} {bitmap : Bitmap}
    (h : groupCompare a b bitmap = bitmap) : SameGroup bitmap a b := by
  intro k
  rw [groupCompare_iff] at h
  obtain ⟨hsa, hport, hmac, hip, hvlan⟩ := h
  simp only [groupCompare_iff]
  constructor
  · rintro ⟨-, hport', hmac', hip', hvlan'⟩
    exact ⟨hsa, fun hb => (hport hb).symm.trans (hport' hb), fun hb => (hmac hb).symm.trans (hmac' hb),
      fun hb => (hip hb).symm.trans (hip' hb), fun hb => (hvlan hb).symm.trans (hvlan' hb)⟩
  · rintro ⟨-, hport', hmac', hip', hvlan'⟩
    exact ⟨hsa, fun hb => (hport hb).trans (hport' hb), fun hb => (hmac hb).trans (hmac' hb),
      fun hb => (hip hb).trans (hip' hb), fun hb => (hvlan hb).trans (hvlan' hb)⟩

theorem sameHost_of_compare {a b : HostKey} {hostBitmap : HostBitmap}
    (h : hostCompare a b hostBitmap = hostBitmap) : SameHost hostBitmap a b := by
  intro k
  rw [hostCompare_iff] at h
  obtain ⟨hip, hmac⟩ := h
  simp only [hostCompare_iff]
  constructor
  · rintro ⟨hip', hmac'⟩
    exact ⟨fun hb => (hip hb).symm.trans (hip' hb), fun hb => (hmac hb).symm.trans (hmac' hb)⟩
  · rintro ⟨hip', hmac'⟩
    exact ⟨fun hb => (hip hb).trans (hip' hb), fun hb => (hmac hb).trans (hmac' hb)⟩

/-! ### Searches -/

theorem groupMatches_iff {bitmap : Bitmap} {k : GroupKey} {g : Group} :
    groupMatches bitmap k g = true ↔ groupCompare g.toGroupKey k bitmap = bitmap := by
  simp [groupMatches]

theorem hostMatches_iff {hostBitmap : HostBitmap} {k : HostKey} {h : Host} :
    hostMatches hostBitmap k h = true ↔ hostCompare h.toHostKey k hostBitmap = hostBitmap := by
  simp [hostMatches]

theorem SameGroup.matches_eq {bitmap : Bitmap} {g g' : Group}
    (h : SameGroup bitmap g'.toGroupKey g.toGroupKey) (k : GroupKey) :
    groupMatches bitmap k g' = groupMatches bitmap k g := by
  rw [Bool.eq_iff_iff, groupMatches_iff, groupMatches_iff]
  exact h k

theorem SameHost.matches_eq {hostBitmap : HostBitmap} {h h' : Host}
    (hsame : SameHost hostBitmap h'.toHostKey h.toHostKey) (k : HostKey) :
    hostMatches hostBitmap k h' = hostMatches hostBitmap k h := by
  rw [Bool.eq_iff_iff, hostMatches_iff, hostMatches_iff]
  exact hsame k

/-- Searches for keys that stand for each other are the same search. -/
theorem SameGroup.search_eq {bitmap : Bitmap} {a b : GroupKey} (h : SameGroup bitmap a b) :
    groupMatches bitmap a = groupMatches bitmap b := by
  funext g
  rw [Bool.eq_iff_iff, groupMatches_iff, groupMatches_iff, groupCompare_symm, h, groupCompare_symm]

theorem SameHost.search_eq {hostBitmap : HostBitmap} {a b : HostKey}
    (h : SameHost hostBitmap a b) : hostMatches hostBitmap a = hostMatches hostBitmap b := by
  funext g
  rw [Bool.eq_iff_iff, hostMatches_iff, hostMatches_iff, hostCompare_symm, h, hostCompare_symm]

theorem search_eq_of_groupMatches {bitmap : Bitmap} {k : GroupKey} {g : Group}
    (h : groupMatches bitmap k g = true) :
    groupMatches bitmap g.toGroupKey = groupMatches bitmap k :=
  (sameGroup_of_compare (groupMatches_iff.mp h)).search_eq

theorem search_eq_of_hostMatches {hostBitmap : HostBitmap} {k : HostKey} {h : Host}
    (hm : hostMatches hostBitmap k h = true) :
    hostMatches hostBitmap h.toHostKey = hostMatches hostBitmap k :=
  (sameHost_of_compare (hostMatches_iff.mp hm)).search_eq

/-- Two searches are the same, or no group answers to both. -/
theorem groupMatches_dichotomy (bitmap : Bitmap) (a b : GroupKey) :
    groupMatches bitmap a = groupMatches bitmap b ∨
      ∀ g, groupMatches bitmap a g = true → groupMatches bitmap b g = false := by
  apply eq_or_disjoint
  intro g ha hb
  exact (search_eq_of_groupMatches ha).symm.trans (search_eq_of_groupMatches hb)

theorem hostMatches_dichotomy (hostBitmap : HostBitmap) (a b : HostKey) :
    hostMatches hostBitmap a = hostMatches hostBitmap b ∨
      ∀ h, hostMatches hostBitmap a h = true → hostMatches hostBitmap b h = false := by
  apply eq_or_disjoint
  intro h ha hb
  exact (search_eq_of_hostMatches ha).symm.trans (search_eq_of_hostMatches hb)

/-! ### One match at most -/

def UniqueHosts (hostBitmap : HostBitmap) (hosts : List Host) : Prop :=
  hosts.Pairwise fun a b => hostMatches hostBitmap a.toHostKey b = false

instance (hostBitmap : HostBitmap) (hosts : List Host) : Decidable (UniqueHosts hostBitmap hosts) :=
  inferInstanceAs (Decidable (List.Pairwise _ _))

/-- No two groups answer to the same key, and no two hosts of a group. -/
structure Keyed (t : Tables) : Prop where
  groups : t.mcGroupList.Pairwise fun a b =>
    groupMatches t.control.bitmap a.toGroupKey b = false
  hosts : ∀ g ∈ t.mcGroupList, UniqueHosts t.control.hostBitmap g.hostList

theorem keyed_of_nil {t : Tables} (h : t.mcGroupList = []) : Keyed t := by
  constructor
  · rw [h]
    exact List.Pairwise.nil
  · intro g hg
    rw [h] at hg
    cases hg

theorem Keyed.single {t : Tables} (h : Keyed t) (k : GroupKey) :
    Single (groupMatches t.control.bitmap k) t.mcGroupList := by
  refine h.groups.imp ?_
  intro a b hab ha
  rwa [search_eq_of_groupMatches ha] at hab

theorem UniqueHosts.single {hostBitmap : HostBitmap} {hosts : List Host}
    (h : UniqueHosts hostBitmap hosts) (k : HostKey) :
    Single (hostMatches hostBitmap k) hosts := by
  refine List.Pairwise.imp ?_ h
  intro a b hab ha
  rwa [search_eq_of_hostMatches ha] at hab

theorem Keyed.get_of_mem {t : Tables} (h : Keyed t) {k : GroupKey} {g : Group}
    (hg : g ∈ t.mcGroupList) (hm : groupMatches t.control.bitmap k g = true) :
    mcGroupListGet t k = some g :=
  find?_eq_some_of_single (h.single k) hg hm

theorem matches_of_get {t : Tables} {k : GroupKey} {g : Group} (h : mcGroupListGet t k = some g) :
    groupMatches t.control.bitmap k g = true := List.find?_some h

theorem mem_of_get {t : Tables} {k : GroupKey} {g : Group} (h : mcGroupListGet t k = some g) :
    g ∈ t.mcGroupList := List.mem_of_find?_eq_some h

end Opconn.Multicast
