import Opconn.Lib.Runs
import Opconn.Multicast.LeaveTargets

/-!
# Groups and their entries in the switch

A group is listed under its address, the switch knows its MAC; thirty-two addresses share
a MAC.  The entries of a group are programmed when it is added and withdrawn when it is
deleted, for the multicast VLANs that its port has then.  Another group of the port with
the same MAC loses its entries with it; when no such group is listed, every listed group
of the snooping mode keeps its entries.
-/

namespace Opconn.Multicast

open FirstMatch Runs

variable {board : Board}

/-! ### What a group needs -/

/-- The multicast VLANs of a port. -/
def mcVlans (vlans : VlanState) (portId : Nat) : List Nat :=
  (List.range' 1 4095).filter fun j => mcVlanMapExist vlans portId j

/-- The entries that forward a group: one for each multicast VLAN of its port, on the
AR8228 one for its MAC. -/
def neededEntries (board : Board) (vlans : VlanState) (k : GroupKey) : List SwitchEntry :=
  match board with
  | .onu1Port | .onu4PortAr8327 => (mcVlans vlans k.hostPortId).map
      fun v => ⟨k.hostPortId, .mac (clMcMacGetByMcIp k.groupAddress), v⟩
  | .onu4PortAr8228 => [⟨k.hostPortId, .mac (clMcMacGetByMcIp k.groupAddress), 0⟩]

/-- **What is to hold of the switch**: in snooping mode it has the entries of every listed
group. -/
def Forwarded (board : Board) (s : McState) : Prop :=
  s.tables.control.mcMode = .snooping → ∀ g ∈ s.tables.mcGroupList,
    ∀ e ∈ neededEntries board s.tables.vlans g.toGroupKey, s.tables.switch e = true

instance (board : Board) (s : McState) : Decidable (Forwarded board s) :=
  inferInstanceAs (Decidable (s.tables.control.mcMode = .snooping → _))

/-! ### The condition -/

/-- The two groups are on one port and share a MAC. -/
def sharesEntry (a b : GroupKey) : Bool :=
  decide (a.hostPortId = b.hostPortId) &&
    decide (clMcMacGetByMcIp a.groupAddress = clMcMacGetByMcIp b.groupAddress)

/-- The group that goes with what leaves: its last host, or in CTC mode the group itself
when it has no host. -/
def removedGroup (kind : LeaveKind) (t : Tables) (desc : PacketDesc) : Option Group :=
  match mcGroupListGet t desc.groupKey with
  | none => none
  | some group =>
    match kind with
    | .ctc => if group.hostList.isEmpty then some group else none
    | .snooping =>
      match mcHostListGet t.control.hostBitmap group desc.hostKey with
      | none => none
      | some host =>
        if (mcHostListDel t.control.hostBitmap host.toHostKey group).hostList.isEmpty then
          some group
        else none

/-- The last hosts of the group are a second too old. -/
def agesOut (hostBitmap : HostBitmap) (group : Group) : Bool :=
  group.hostList.any (·.hostAgingTime = 0) &&
    (group.hostList.foldl (ageHost hostBitmap) group).hostList.isEmpty

/-- The groups that the step deletes one by one. -/
def groupsDeleted (board : Board) (s : McState) : McEvent → List Group
  | .packet _ desc =>
    match s.tables.control.mcMode.leaveKind with
    | none => []
    | some kind =>
      if leavesFast board desc s then (removedGroup kind s.tables desc).toList else []
  | .handle _ =>
    match s.queue with
    | [] => []
    | (kind, d) :: _ =>
      match s.descs d with
      | none => []
      | some ld =>
        if (leaveTarget kind s.tables ld.desc).any (!·.isLastReportRecevied) &&
            decide (nextCount s kind = queryLimit s) then
          (removedGroup kind s.tables ld.desc).toList
        else []
  | .age _ =>
    if s.tables.control.hostAgingTime = 0 then []
    else s.tables.mcGroupList.filter (agesOut s.tables.control.hostBitmap)
  | .entryDeleteByVlan _ vlanId => s.tables.mcGroupList.filter (·.mcVlan = vlanId)
  | .maxGroupNumSet _ portId maxGroup =>
    if isHostPort board portId then
      (s.tables.mcGroupList.filter (·.hostPortId = portId)).take
        (mcGroupNumPerPort s.tables portId - maxGroup)
    else []
  | _ => []

/-- The switch takes the entries of a group that is added, and they are the ones it needs. -/
def addsProgrammed (board : Board) (s : McState) (e : McEvent) : Bool :=
  (addsGroup board s e).all fun k =>
    (decide (board = .onu1Port) || decide (s.tables.control.ctcControlType ≠ .gdaSaMac)) &&
      (decide (board = .onu4PortAr8228) ||
        decide ((mcVlans s.tables.vlans k.hostPortId).length < 2 ^ 8)) &&
      match e with
      | .packet env _ => (neededEntries board s.tables.vlans k).all env.takes
      | _ => true

/-- The groups deleted are found by their key, and those that stay share no entry with
them. -/
def deletesApart (board : Board) (s : McState) (e : McEvent) : Bool :=
  (groupsDeleted board s e).all fun d =>
    !s.tables.control.bitmap.saMac && s.tables.mcGroupList.all fun g =>
      decide (g ∈ groupsDeleted board s e) || !sharesEntry d.toGroupKey g.toGroupKey

/-- The message handled finds its descriptor on the heap. -/
def messageLive (s : McState) : McEvent → Bool
  | .handle _ => s.queue.head?.all fun msg => (s.descs msg.2).isSome
  | _ => true

/-- **The condition on a step.**  In snooping mode, the switch takes the entries of a new
group, and no group is deleted while another one with the same MAC stays on its port. -/
def entriesApart (board : Board) (s : McState) (e : McEvent) : Bool :=
  messageLive s e && (decide (s.tables.control.mcMode ≠ .snooping) ||
    (addsProgrammed board s e && deletesApart board s e))

/-! ### What a deletion withdraws -/

/-- The groups with the keys `dels` were deleted, and only their entries went. -/
structure Withdraws (board : Board) (dels : List GroupKey) (t' t : Tables) : Prop where
  mcMode : t'.control.mcMode = t.control.mcMode
  ctcControlType : t'.control.ctcControlType = t.control.ctcControlType
  vlans : t'.vlans = t.vlans
  kept : ∀ g' ∈ t'.mcGroupList, g'.toGroupKey ∉ dels ∧
    ∃ g ∈ t.mcGroupList, g.toGroupKey = g'.toGroupKey
  listed : ∀ k ∈ dels, ∃ g ∈ t.mcGroupList, g.toGroupKey = k
  lost : ∀ e, t.switch e = true → t'.switch e = false →
    ∃ k ∈ dels, e ∈ dalMcGroupEntries board t k

theorem dalMcGroupEntries_congr {t' t : Tables} (hmode : t'.control.mcMode = t.control.mcMode)
    (htype : t'.control.ctcControlType = t.control.ctcControlType) (hvlans : t'.vlans = t.vlans)
    (k : GroupKey) : dalMcGroupEntries board t' k = dalMcGroupEntries board t k := by
  unfold dalMcGroupEntries
  rw [hmode, htype, hvlans]

theorem Withdraws.trans {dels₁ dels₂ : List GroupKey} {t'' t' t : Tables}
    (h₂ : Withdraws board dels₂ t'' t') (h₁ : Withdraws board dels₁ t' t) :
    Withdraws board (dels₁ ++ dels₂) t'' t where
  mcMode := h₂.mcMode.trans h₁.mcMode
  ctcControlType := h₂.ctcControlType.trans h₁.ctcControlType
  vlans := h₂.vlans.trans h₁.vlans
  kept := by
    intro g'' hg''
    obtain ⟨hnot₂, g', hg', hkey'⟩ := h₂.kept g'' hg''
    obtain ⟨hnot₁, g, hg, hkey⟩ := h₁.kept g' hg'
    refine ⟨?_, g, hg, hkey.trans hkey'⟩
    rw [List.mem_append, not_or]
    exact ⟨hkey' ▸ hnot₁, hnot₂⟩
  listed := by
    intro k hk
    rcases List.mem_append.mp hk with hk₁ | hk₂
    · exact h₁.listed k hk₁
    · obtain ⟨g', hg', rfl⟩ := h₂.listed k hk₂
      obtain ⟨-, g, hg, hkey⟩ := h₁.kept g' hg'
      exact ⟨g, hg, hkey⟩
  lost := by
    intro e hold hnew
    cases hmid : t'.switch e with
    | false =>
      obtain ⟨k, hk, he⟩ := h₁.lost e hold hmid
      exact ⟨k, List.mem_append_left _ hk, he⟩
    | true =>
      obtain ⟨k, hk, he⟩ := h₂.lost e hmid hnew
      rw [dalMcGroupEntries_congr h₁.mcMode h₁.ctcControlType h₁.vlans] at he
      exact ⟨k, List.mem_append_right _ hk, he⟩

/-- Writes that leave keys, VLANs and switch alone. -/
theorem withdraws_nil {t' t : Tables} (hmode : t'.control.mcMode = t.control.mcMode)
    (htype : t'.control.ctcControlType = t.control.ctcControlType) (hvlans : t'.vlans = t.vlans)
    (hswitch : t'.switch = t.switch)
    (hkept : ∀ g' ∈ t'.mcGroupList, ∃ g ∈ t.mcGroupList, g.toGroupKey = g'.toGroupKey) :
    Withdraws board [] t' t where
  mcMode := hmode
  ctcControlType := htype
  vlans := hvlans
  kept := fun g' hg' => ⟨List.not_mem_nil, hkept g' hg'⟩
  listed := by
    intro k hk
    cases hk
  lost := by
    intro e hold hnew
    rw [hswitch, hold] at hnew
    cases hnew

theorem Withdraws.refl (t : Tables) : Withdraws board [] t t :=
  withdraws_nil rfl rfl rfl rfl (fun g hg => ⟨g, hg, rfl⟩)

theorem groupMatches_self {bitmap : Bitmap} (hsa : bitmap.saMac = false) (g : Group) :
    groupMatches bitmap g.toGroupKey g = true := by
  rw [groupMatches_iff, groupCompare_iff]
  exact ⟨hsa, fun _ => rfl, fun _ => rfl, fun _ => rfl, fun _ => rfl⟩

theorem saMac_of_matches {bitmap : Bitmap} {k : GroupKey} {g : Group}
    (h : groupMatches bitmap k g = true) : bitmap.saMac = false :=
  (groupCompare_iff.mp (groupMatches_iff.mp h)).1

/-- Deleting a listed group by its key. -/
theorem odmMcGroupDel_of_mem {t : Tables} (h : Keyed t) (hsa : t.control.bitmap.saMac = false)
    (takes : SwitchEntry → Bool) {g : Group} (hg : g ∈ t.mcGroupList) :
    odmMcGroupDel board takes t g.toGroupKey =
      (.ok, { dalMcGroupDel board takes t g.toGroupKey with
        mcGroupList := t.mcGroupList.eraseP (groupMatches t.control.bitmap g.toGroupKey) }) := by
  have hget : mcGroupListGet (dalMcGroupDel board takes t g.toGroupKey) g.toGroupKey = some g :=
    h.get_of_mem hg (groupMatches_self hsa g)
  simp only [odmMcGroupDel, mcGroupListDel, hget]
  rfl

theorem withdraws_odmMcGroupDel {t : Tables} (h : Keyed t) (hsa : t.control.bitmap.saMac = false)
    (takes : SwitchEntry → Bool) {g : Group} (hg : g ∈ t.mcGroupList) :
    Withdraws board [g.toGroupKey] (odmMcGroupDel board takes t g.toGroupKey).2 t := by
  rw [odmMcGroupDel_of_mem h hsa takes hg]
  refine ⟨rfl, rfl, rfl, ?_, ?_, ?_⟩
  · intro g' hg'
    refine ⟨?_, g', List.mem_of_mem_eraseP hg', rfl⟩
    intro hkey
    have hnot := not_of_mem_eraseP (h.single g.toGroupKey) hg'
    rw [(SameGroup.of_eq (List.mem_singleton.mp hkey)).matches_eq, groupMatches_self hsa] at hnot
    cases hnot
  · intro k hk
    exact ⟨g, hg, (List.mem_singleton.mp hk).symm⟩
  · intro e hold hnew
    refine ⟨g.toGroupKey, List.mem_singleton.mpr rfl, ?_⟩
    simp only [dalMcGroupDel, hold, Bool.true_and, Bool.not_eq_false', Bool.and_eq_true,
      decide_eq_true_eq] at hnew
    exact hnew.1

theorem withdraws_groupModify (t : Tables) (k : GroupKey) {f : Group → Group}
    (hkey : ∀ g, (f g).toGroupKey = g.toGroupKey) :
    Withdraws board [] (groupModify t k f) t := by
  refine withdraws_nil rfl rfl rfl rfl ?_
  intro g' hg'
  rcases mem_updateFirst hg' with hold | ⟨g, hfound, rfl⟩
  · exact ⟨g', hold, rfl⟩
  · exact ⟨g, List.mem_of_find?_eq_some hfound, (hkey g).symm⟩

/-- A listed group is deleted when it has no host. -/
theorem withdraws_deleteIfEmpty {t : Tables} (h : Keyed t) (takes : SwitchEntry → Bool)
    {k : GroupKey} {g : Group} (hget : mcGroupListGet t k = some g) :
    Withdraws board (if g.hostList.isEmpty then [g.toGroupKey] else [])
      (deleteIfEmpty board takes t g.toGroupKey) t := by
  have hsa := saMac_of_matches (matches_of_get hget)
  have hself : mcGroupListGet t g.toGroupKey = some g :=
    h.get_of_mem (mem_of_get hget) (groupMatches_self hsa g)
  simp only [deleteIfEmpty, mcGroupListHostListEmpty, hself]
  cases g.hostList.isEmpty with
  | true => exact withdraws_odmMcGroupDel h hsa takes (mem_of_get hget)
  | false => exact Withdraws.refl t

/-- What leaves takes its group with it when it was the last. -/
theorem withdraws_removeTarget {t : Tables} (h : Keyed t) (takes : SwitchEntry → Bool)
    (kind : LeaveKind) (desc : PacketDesc) :
    Withdraws board ((removedGroup kind t desc).toList.map (·.toGroupKey))
      (removeTarget board takes kind t desc) t := by
  unfold removedGroup removeTarget
  cases hget : mcGroupListGet t desc.groupKey with
  | none => exact Withdraws.refl t
  | some g =>
    cases kind with
    | ctc =>
      have hdel : Withdraws board _ (deleteIfEmpty board takes t g.toGroupKey) t :=
        withdraws_deleteIfEmpty h takes hget
      cases hempty : g.hostList.isEmpty with
      | true => simpa [hempty] using hdel
      | false => simpa [hempty] using hdel
    | snooping =>
      cases hhost : mcHostListGet t.control.hostBitmap g desc.hostKey with
      | none =>
        simp only [hhost]
        exact Withdraws.refl t
      | some host =>
        have hmodify : Withdraws board [] (groupModify t desc.groupKey
            (mcHostListDel t.control.hostBitmap host.toHostKey)) t :=
          withdraws_groupModify t desc.groupKey (fun _ => rfl)
        have hkeyed := (shrinks_groupModify (kept_mcHostListDel t.control.hostBitmap host.toHostKey)
          t desc.groupKey).evolves.keyed h
        have hget' := get_groupModify_self t desc.groupKey
          (mcHostListDel t.control.hostBitmap host.toHostKey) (fun _ => rfl)
        rw [hget, Option.map_some] at hget'
        have hkey : (mcHostListDel t.control.hostBitmap host.toHostKey g).toGroupKey =
          g.toGroupKey := rfl
        have hdel : Withdraws board _ (deleteIfEmpty board takes (groupModify t desc.groupKey
            (mcHostListDel t.control.hostBitmap host.toHostKey)) g.toGroupKey) t :=
          (withdraws_deleteIfEmpty hkeyed takes hget').trans hmodify
        simp only [hhost]
        cases hempty : (mcHostListDel t.control.hostBitmap host.toHostKey g).hostList.isEmpty with
        | true => simpa [hempty, hkey] using hdel
        | false => simpa [hempty] using hdel

/-- The loop that deletes the first groups that meet `p`. -/
theorem withdraws_deleteGroups (takes : SwitchEntry → Bool) (p : Group → Bool) (n : Nat)
    {t : Tables} (h : Keyed t)
    (hsa : ∀ d ∈ (t.mcGroupList.filter p).take n, t.control.bitmap.saMac = false) :
    Withdraws board (((t.mcGroupList.filter p).take n).map (·.toGroupKey))
      (deleteGroups board takes p n t).2 t := by
  induction n generalizing t with
  | zero => exact Withdraws.refl t
  | succ n ih =>
    unfold deleteGroups
    cases hfind : t.mcGroupList.find? p with
    | none =>
      have hnone : t.mcGroupList.filter p = [] := by
        rw [List.filter_eq_nil_iff]
        exact List.find?_eq_none.mp hfind
      rw [hnone]
      exact Withdraws.refl t
    | some g =>
      have hg := List.mem_of_find?_eq_some hfind
      obtain ⟨rest, hhead⟩ := List.head?_eq_some_iff.mp (List.head?_filter.trans hfind)
      have hbitmap : t.control.bitmap.saMac = false := by
        apply hsa g
        rw [hhead]
        exact List.mem_cons_self ..
      have hfilter := filter_eq_cons_of_find? (h.single g.toGroupKey) hfind
        (groupMatches_self hbitmap g)
      have hdel : Withdraws board [g.toGroupKey] (odmMcGroupDel board takes t g.toGroupKey).2 t :=
        withdraws_odmMcGroupDel h hbitmap takes hg
      have hshrinks : Shrinks (odmMcGroupDel board takes t g.toGroupKey).2 t :=
        shrinks_odmMcGroupDel takes t g.toGroupKey
      have hkeyed := hshrinks.evolves.keyed h
      simp only [odmMcGroupDel_of_mem h hbitmap takes hg] at hdel hkeyed ⊢
      have hrest := (ih hkeyed ?_).trans hdel
      · rw [hfilter]
        exact hrest
      · intro _ _
        exact hbitmap

/-! ### Aging -/

theorem find?_eq_self {l : List Group} {node : Group} (h : node ∈ l) :
    l.find? (· = node) = some node := by
  cases hfind : l.find? (· = node) with
  | none =>
    have hnot := List.find?_eq_none.mp hfind node h
    simp at hnot
  | some g =>
    have heq := List.find?_some hfind
    rw [of_decide_eq_true heq]

/-- A group whose hosts only get older stays. -/
theorem withdraws_aged (t : Tables) (node : Group) :
    Withdraws board [] { t with
      mcGroupList := updateFirst (· = node)
        (fun _ => node.hostList.foldl (ageHost t.control.hostBitmap) node) t.mcGroupList } t := by
  refine withdraws_nil rfl rfl rfl rfl ?_
  intro g' hg'
  rcases mem_updateFirst hg' with hold | ⟨g, hfound, rfl⟩
  · exact ⟨g', hold, rfl⟩
  · have heq := List.find?_some hfound
    rw [of_decide_eq_true heq] at hfound
    exact ⟨node, List.mem_of_find?_eq_some hfound, (kept_foldl_ageHost ..).key.symm⟩

theorem withdraws_ageGroup_of_not {t : Tables} (takes : SwitchEntry → Bool) {node : Group}
    (hstays : agesOut t.control.hostBitmap node = false) :
    Withdraws board [] (ageGroup board takes t node) t := by
  unfold ageGroup
  unfold agesOut at hstays
  simp only [hstays, Bool.false_eq_true, if_false]
  exact withdraws_aged t node

theorem withdraws_ageGroup {t : Tables} (h : Keyed t) (hsa : t.control.bitmap.saMac = false)
    (takes : SwitchEntry → Bool) {node : Group} (hnode : node ∈ t.mcGroupList)
    (hout : agesOut t.control.hostBitmap node = true) :
    Withdraws board [node.toGroupKey] (ageGroup board takes t node) t := by
  have hkey : (node.hostList.foldl (ageHost t.control.hostBitmap) node).toGroupKey =
      node.toGroupKey := (kept_foldl_ageHost ..).key
  have hmem : node.hostList.foldl (ageHost t.control.hostBitmap) node ∈
      updateFirst (· = node) (fun _ => node.hostList.foldl (ageHost t.control.hostBitmap) node)
        t.mcGroupList :=
    mem_updateFirst_of_find? (f := fun _ => _) (find?_eq_self hnode)
  have hdel : Withdraws board _ _ _ :=
    withdraws_odmMcGroupDel ((shrinks_aged t node).evolves.keyed h) hsa takes hmem
  rw [hkey] at hdel
  unfold ageGroup
  unfold agesOut at hout
  simp only [hout, if_true]
  exact hdel.trans (withdraws_aged t node)

/-- Another group is not touched. -/
theorem mem_ageGroup {t : Tables} (takes : SwitchEntry → Bool) {node g : Group}
    (hg : g ∈ t.mcGroupList) (hne : g ≠ node)
    (hnot : groupMatches t.control.bitmap node.toGroupKey g = false) :
    g ∈ (ageGroup board takes t node).mcGroupList := by
  have hold : g ∈ updateFirst (· = node)
      (fun _ => node.hostList.foldl (ageHost t.control.hostBitmap) node) t.mcGroupList :=
    mem_updateFirst_of_not hg (by simpa using hne)
  unfold ageGroup
  simp only
  split
  · simp only [odmMcGroupDel, mcGroupListDel]
    split
    · exact hold
    · refine (List.mem_eraseP_of_neg ?_).mpr hold
      change ¬groupMatches t.control.bitmap node.toGroupKey g = true
      simp [hnot]
  · exact hold

/-- The groups are aged one by one. -/
theorem withdraws_foldl_ageGroup (takes : SwitchEntry → Bool) (nodes : List Group) {t : Tables}
    (h : Keyed t) (hsa : t.control.bitmap.saMac = false) (hmem : ∀ node ∈ nodes, node ∈ t.mcGroupList)
    (hapart : nodes.Pairwise fun a b => groupMatches t.control.bitmap a.toGroupKey b = false) :
    Withdraws board ((nodes.filter (agesOut t.control.hostBitmap)).map (·.toGroupKey))
      (nodes.foldl (ageGroup board takes) t) t := by
  induction nodes generalizing t with
  | nil => exact Withdraws.refl t
  | cons node nodes ih =>
    obtain ⟨hhead, htail⟩ := List.pairwise_cons.mp hapart
    have hnode := hmem node (List.mem_cons_self ..)
    have hshrinks : Shrinks (ageGroup board takes t node) t := shrinks_ageGroup takes t node
    have hthere : ∀ g ∈ nodes, g ∈ (ageGroup board takes t node).mcGroupList := by
      intro g hg
      have hnot := hhead g hg
      refine mem_ageGroup takes (hmem g (List.mem_cons_of_mem _ hg)) ?_ hnot
      rintro rfl
      rw [groupMatches_self hsa] at hnot
      cases hnot
    have hrest := ih (hshrinks.evolves.keyed h) (hshrinks.bitmap ▸ hsa) hthere
      (by rw [hshrinks.bitmap]; exact htail)
    rw [hshrinks.hostBitmap] at hrest
    rw [List.foldl_cons]
    cases hout : agesOut t.control.hostBitmap node with
    | true =>
      rw [List.filter_cons_of_pos hout]
      exact hrest.trans (withdraws_ageGroup h hsa takes hnode hout)
    | false =>
      rw [List.filter_cons_of_neg (by simp [hout])]
      exact hrest.trans (withdraws_ageGroup_of_not takes hout)

theorem withdraws_foldl_ageGroup_of_not (takes : SwitchEntry → Bool) (nodes : List Group)
    {t : Tables} (hstays : ∀ node ∈ nodes, agesOut t.control.hostBitmap node = false) :
    Withdraws board [] (nodes.foldl (ageGroup board takes) t) t := by
  induction nodes generalizing t with
  | nil => exact Withdraws.refl t
  | cons node nodes ih =>
    have hshrinks : Shrinks (ageGroup board takes t node) t := shrinks_ageGroup takes t node
    rw [List.foldl_cons]
    refine (ih ?_).trans (withdraws_ageGroup_of_not takes (hstays node (List.mem_cons_self ..)))
    intro g hg
    rw [hshrinks.hostBitmap]
    exact hstays g (List.mem_cons_of_mem _ hg)

/-- A second passes. -/
theorem withdraws_age {t : Tables} (h : Keyed t) (takes : SwitchEntry → Bool)
    (hsa : ∀ d ∈ t.mcGroupList.filter (agesOut t.control.hostBitmap),
      t.control.bitmap.saMac = false) :
    Withdraws board ((t.mcGroupList.filter (agesOut t.control.hostBitmap)).map (·.toGroupKey))
      (t.mcGroupList.foldl (ageGroup board takes) t) t := by
  cases hfilter : t.mcGroupList.filter (agesOut t.control.hostBitmap) with
  | nil =>
    apply withdraws_foldl_ageGroup_of_not
    intro node hnode
    simpa using List.filter_eq_nil_iff.mp hfilter node hnode
  | cons d rest =>
    have hbitmap := hsa d (by rw [hfilter]; exact List.mem_cons_self ..)
    rw [← hfilter]
    exact withdraws_foldl_ageGroup takes _ h hbitmap (fun _ hmem => hmem) h.groups

/-! ### The invariant -/

/-- What `Forwarded` rests on: searches find one group, and the MAC that is stored with a
group is the one of its address, or none. -/
structure Programmed (board : Board) (t : Tables) : Prop where
  keyed : Keyed t
  macs : t.control.mcMode = .snooping → ∀ g ∈ t.mcGroupList,
    g.groupMac = clMcMacGetByMcIp g.groupAddress ∨ g.groupMac = zeroMac
  entries : t.control.mcMode = .snooping → ∀ g ∈ t.mcGroupList,
    ∀ e ∈ neededEntries board t.vlans g.toGroupKey, t.switch e = true

theorem programmed_of_nil {t : Tables} (h : t.mcGroupList = []) : Programmed board t where
  keyed := keyed_of_nil h
  macs := by
    intro _ g hg
    rw [h] at hg
    cases hg
  entries := by
    intro _ g hg
    rw [h] at hg
    cases hg

theorem programmed_of_mode {t : Tables} (hkeyed : Keyed t) (h : t.control.mcMode ≠ .snooping) :
    Programmed board t where
  keyed := hkeyed
  macs := fun hmode => absurd hmode h
  entries := fun hmode => absurd hmode h

theorem neededEntries_addr {vlans : VlanState} {k : GroupKey} {e : SwitchEntry}
    (h : e ∈ neededEntries board vlans k) :
    e.port = k.hostPortId ∧ e.addr = .mac (clMcMacGetByMcIp k.groupAddress) := by
  cases board with
  | onu1Port | onu4PortAr8327 =>
    obtain ⟨v, -, rfl⟩ := List.mem_map.mp h
    exact ⟨rfl, rfl⟩
  | onu4PortAr8228 =>
    rw [List.mem_singleton.mp h]
    exact ⟨rfl, rfl⟩

theorem tempGroupMac_cases {ctcControlType : CtcControlType} {k : GroupKey}
    (h : k.groupMac = clMcMacGetByMcIp k.groupAddress ∨ k.groupMac = zeroMac) :
    tempGroupMac ctcControlType k = clMcMacGetByMcIp k.groupAddress ∨
      tempGroupMac ctcControlType k = zeroMac := by
  cases ctcControlType with
  | gdaMac | gdaMacVid => exact h
  | gdaIpVid => exact Or.inl rfl
  | gdaSaMac => exact Or.inr rfl

/-- The entries that go with a group in snooping mode. -/
theorem dalMcGroupEntries_addr {t : Tables} (hmode : t.control.mcMode = .snooping) {k : GroupKey}
    (hmac : k.groupMac = clMcMacGetByMcIp k.groupAddress ∨ k.groupMac = zeroMac) {e : SwitchEntry}
    (h : e ∈ dalMcGroupEntries board t k) :
    e.port = k.hostPortId ∧
      (e.addr = .mac (clMcMacGetByMcIp k.groupAddress) ∨ e.addr = .mac zeroMac) := by
  have htemp : ∀ ctcControlType,
      SwitchAddr.mac (tempGroupMac ctcControlType k) = .mac (clMcMacGetByMcIp k.groupAddress) ∨
        SwitchAddr.mac (tempGroupMac ctcControlType k) = .mac zeroMac := by
    intro ctcControlType
    rcases tempGroupMac_cases hmac with hown | hzero
    · exact Or.inl (congrArg _ hown)
    · exact Or.inr (congrArg _ hzero)
  cases board with
  | onu1Port =>
    simp only [dalMcGroupEntries, hmode] at h
    obtain ⟨v, -, rfl⟩ := List.mem_map.mp h
    exact ⟨rfl, Or.inl rfl⟩
  | onu4PortAr8327 =>
    obtain ⟨v, -, rfl⟩ := List.mem_map.mp h
    exact ⟨rfl, htemp _⟩
  | onu4PortAr8228 =>
    rw [List.mem_singleton.mp h]
    exact ⟨rfl, htemp _⟩

theorem clMcMacGetByMcIp_ne_zero (mcip : Nat) : clMcMacGetByMcIp mcip ≠ zeroMac := by
  intro h
  have hhead := congrArg List.head? h
  simp [clMcMacGetByMcIp, zeroMac] at hhead

/-- Deletions keep the entries of the groups that share none with those deleted. -/
theorem Programmed.withdraws {dels : List GroupKey} {t' t : Tables} (h : Programmed board t)
    (hw : Withdraws board dels t' t) (hkeyed : Keyed t')
    (hapart : t.control.mcMode = .snooping → ∀ k ∈ dels, ∀ g ∈ t.mcGroupList,
      g.toGroupKey ∉ dels → sharesEntry k g.toGroupKey = false) : Programmed board t' where
  keyed := hkeyed
  macs := by
    intro hmode g' hg'
    obtain ⟨-, g, hg, hkey⟩ := hw.kept g' hg'
    have hmac := h.macs (hw.mcMode ▸ hmode) g hg
    rwa [hkey] at hmac
  entries := by
    intro hmode g' hg' e he
    rw [hw.mcMode] at hmode
    obtain ⟨hstays, g, hg, hkey⟩ := hw.kept g' hg'
    rw [hw.vlans] at he
    rw [← Bool.not_eq_false]
    intro hgone
    have hold := h.entries hmode g hg e (hkey ▸ he)
    obtain ⟨k, hk, hentry⟩ := hw.lost e hold hgone
    obtain ⟨d, hd, rfl⟩ := hw.listed k hk
    have hother := hapart hmode _ hk g hg (hkey ▸ hstays)
    obtain ⟨hport, haddr⟩ := dalMcGroupEntries_addr hmode (h.macs hmode d hd) hentry
    obtain ⟨hport', haddr'⟩ := neededEntries_addr he
    rw [← hkey] at hport' haddr'
    rcases haddr with hsame | hzero
    · rw [haddr', SwitchAddr.mac.injEq] at hsame
      simp [sharesEntry, ← hport, ← hport', hsame] at hother
    · rw [haddr', SwitchAddr.mac.injEq] at hzero
      exact clMcMacGetByMcIp_ne_zero _ hzero

theorem Programmed.same {t' t : Tables} (h : Programmed board t) (hw : Withdraws board [] t' t)
    (hkeyed : Keyed t') : Programmed board t' := by
  apply h.withdraws hw hkeyed
  intro _ k hk
  cases hk

/-! ### Multicast VLANs -/

theorem exist_of_vlanMapDel {vlans : VlanState} {portId vlanId p v : Nat}
    (h : mcVlanMapExist (odmMcVlanMapDel vlans portId vlanId).2 p v = true) :
    mcVlanMapExist vlans p v = true ∧ ¬(v = vlanId ∧ p = portId) := by
  have hmap : (odmMcVlanMapDel vlans portId vlanId).2.mcVlanMap v p =
      (mcVlanMapDel vlans portId vlanId).mcVlanMap v p := by
    unfold odmMcVlanMapDel
    simp only
    split
    · rfl
    · split
      · rfl
      · rfl
  rw [mcVlanMapExist, hmap] at h
  simp only [mcVlanMapDel, mcVlanMapSet] at h
  split at h
  · cases h
  · rename_i hne
    exact ⟨h, hne⟩

/-- The entries a group needs after a VLAN was taken from a port. -/
theorem neededEntries_vlanMapDel {vlans : VlanState} {portId vlanId : Nat} {k : GroupKey}
    {e : SwitchEntry} (h : e ∈ neededEntries board (odmMcVlanMapDel vlans portId vlanId).2 k) :
    e ∈ neededEntries board vlans k ∧
      (board = .onu1Port → ¬(e.vlanId = vlanId ∧ e.port = portId)) := by
  cases board with
  | onu1Port | onu4PortAr8327 =>
    obtain ⟨v, hv, rfl⟩ := List.mem_map.mp h
    obtain ⟨hrange, hexist⟩ := List.mem_filter.mp hv
    obtain ⟨hold, hne⟩ := exist_of_vlanMapDel hexist
    exact ⟨List.mem_map.mpr ⟨v, List.mem_filter.mpr ⟨hrange, hold⟩, rfl⟩, fun _ => hne⟩
  | onu4PortAr8228 =>
    refine ⟨h, ?_⟩
    intro hboard
    cases hboard

theorem list_vlanDelete (takes : SwitchEntry → Bool) (t : Tables) (portId vlanId : Nat) :
    (odmMulticastVlanDelete board takes t portId vlanId).mcGroupList = t.mcGroupList := by
  rw [odmMulticastVlanDelete]
  split <;> rfl

theorem Programmed.vlanDelete {t : Tables} (h : Programmed board t) (takes : SwitchEntry → Bool)
    (portId vlanId : Nat) : Programmed board (odmMulticastVlanDelete board takes t portId vlanId) := by
  have hshrinks : Shrinks (odmMulticastVlanDelete board takes t portId vlanId) t :=
    shrinks_odmMulticastVlanDelete takes t portId vlanId
  have hkeyed := hshrinks.evolves.keyed h.keyed
  unfold odmMulticastVlanDelete at hkeyed ⊢
  simp only at hkeyed ⊢
  split at hkeyed
  · rename_i hexist
    rw [if_pos hexist]
    refine ⟨hkeyed, h.macs, ?_⟩
    intro hmode g hg e he
    obtain ⟨hneeded, hother⟩ := neededEntries_vlanMapDel he
    have hkept : ¬(board = .onu1Port ∧ e ∈ t.mcGroupList.map fun group =>
        (⟨portId, .mac (entryMac t.control group), vlanId⟩ : SwitchEntry)) := by
      rintro ⟨hboard, hdropped⟩
      obtain ⟨d, -, rfl⟩ := List.mem_map.mp hdropped
      exact hother hboard ⟨rfl, rfl⟩
    simp only [h.entries hmode g hg e hneeded, Bool.true_and, Bool.not_eq_true', Bool.and_eq_false_iff]
    by_cases hboard : board = .onu1Port
    · have hnot : e ∉ t.mcGroupList.map fun group =>
          (⟨portId, .mac (entryMac t.control group), vlanId⟩ : SwitchEntry) :=
        fun hdropped => hkept ⟨hboard, hdropped⟩
      simp [hnot]
    · simp [hboard]
  · rename_i hexist
    rw [if_neg hexist]
    exact h

theorem Programmed.foldl_vlanDelete {t : Tables} (h : Programmed board t)
    (takes : SwitchEntry → Bool) (ports : List Nat) (vlanId : Nat) :
    Programmed board (ports.foldl (fun t i => odmMulticastVlanDelete board takes t i vlanId) t) := by
  induction ports generalizing t with
  | nil => exact h
  | cons i ports ih => exact ih (h.vlanDelete takes i vlanId)

/-! ### Adding a group -/

/-- What the condition makes of the entries that are programmed for a group. -/
theorem dalMcGroupEntries_eq {t : Tables} (hmode : t.control.mcMode = .snooping) {k : GroupKey}
    (hmac : k.groupMac = clMcMacGetByMcIp k.groupAddress)
    (htype : board = .onu1Port ∨ t.control.ctcControlType ≠ .gdaSaMac)
    (hvlans : board = .onu4PortAr8228 ∨ (mcVlans t.vlans k.hostPortId).length < 2 ^ 8) :
    dalMcGroupEntries board t k = neededEntries board t.vlans k := by
  have hget : (mcVlans t.vlans k.hostPortId).length < 2 ^ 8 →
      odmMulticastVlanGet t.vlans k.hostPortId = mcVlans t.vlans k.hostPortId := by
    intro hlt
    change (mcVlans t.vlans k.hostPortId).take ((mcVlans t.vlans k.hostPortId).length % 2 ^ 8) = _
    rw [Nat.mod_eq_of_lt hlt, List.take_length]
  have htemp : t.control.ctcControlType ≠ .gdaSaMac →
      tempGroupMac t.control.ctcControlType k = clMcMacGetByMcIp k.groupAddress := by
    intro hne
    unfold tempGroupMac
    cases hctc : t.control.ctcControlType with
    | gdaMac | gdaMacVid => exact hmac
    | gdaIpVid => rfl
    | gdaSaMac => exact absurd hctc hne
  cases board with
  | onu1Port =>
    simp only [dalMcGroupEntries, neededEntries, hmode]
    rw [hget (hvlans.resolve_left (by decide))]
  | onu4PortAr8327 =>
    simp only [dalMcGroupEntries, neededEntries]
    rw [hget (hvlans.resolve_left (by decide)), htemp (htype.resolve_left (by decide))]
  | onu4PortAr8228 =>
    simp only [dalMcGroupEntries, neededEntries]
    rw [htemp (htype.resolve_left (by decide))]

/-- A group that is added has its entries. -/
theorem Programmed.add {t : Tables} (h : Programmed board t) {takes : SwitchEntry → Bool}
    {alloc : Bool} {k : GroupKey} {state : NodeState}
    (hmac : k.groupMac = clMcMacGetByMcIp k.groupAddress) (hnone : mcGroupListGet t k = none)
    (hentries : alloc = true → dalMcGroupEntries board t k = neededEntries board t.vlans k ∧
      ∀ e ∈ neededEntries board t.vlans k, takes e = true) :
    Programmed board (odmMcGroupAdd board takes alloc t k state).2 := by
  have hev : Evolves (odmMcGroupAdd board takes alloc t k state).2 t := evolves_odmMcGroupAdd ..
  have hkeyed := hev.keyed h.keyed
  have hgrown : ∀ e, t.switch e = true → (dalMcGroupAdd board takes t k).switch e = true := by
    intro e he
    simp [dalMcGroupAdd, he]
  have hget : mcGroupListGet (dalMcGroupAdd board takes t k) k = none := hnone
  cases alloc with
  | false =>
    simp only [odmMcGroupAdd, mcGroupListAdd, hget, Bool.false_eq_true, if_false] at hkeyed ⊢
    refine ⟨hkeyed, h.macs, ?_⟩
    intro hmode g hg e he
    exact hgrown e (h.entries hmode g hg e he)
  | true =>
    obtain ⟨hdal, htakes⟩ := hentries rfl
    simp only [odmMcGroupAdd, mcGroupListAdd, hget, if_true] at hkeyed ⊢
    refine ⟨hkeyed, ?_, ?_⟩
    · intro hmode g hg
      rcases List.mem_cons.mp hg with rfl | hold
      · simp only [groupWrite]
        split
        · exact Or.inl hmac
        · exact Or.inr rfl
      · exact h.macs hmode g hold
    · intro hmode g hg e he
      rcases List.mem_cons.mp hg with rfl | hold
      · have hneeded : e ∈ neededEntries board t.vlans k := he
        simp [dalMcGroupAdd, hdal, hneeded, htakes e hneeded]
      · exact hgrown e (h.entries hmode g hold e he)

/-! ### Steps -/

/-- What a step can do to the tables. -/
theorem tables_step (s : McState) (e : McEvent) :
    Evolves (mcStep board s e).tables s.tables ∨
      (∃ env kind desc, (mcStep board s e).tables = (openLeave env kind desc s).tables) ∨
      (mcStep board s e).tables.mcGroupList = [] := by
  have hquiet : ∀ e : McEvent, e.quiet = true → Evolves (mcStep board s e).tables s.tables ∨
      (∃ env kind desc, (mcStep board s e).tables = (openLeave env kind desc s).tables) ∨
      (mcStep board s e).tables.mcGroupList = [] := by
    intro e hquiet
    rcases shrinks_step hquiet with hshrinks | hnil
    · exact Or.inl hshrinks.evolves
    · exact Or.inr (Or.inr hnil)
  cases e with
  | packet env desc =>
    change Evolves (mcInput board env desc s).tables s.tables ∨
      (∃ env' kind desc', (mcInput board env desc s).tables = (openLeave env' kind desc' s).tables) ∨
      (mcInput board env desc s).tables.mcGroupList = []
    have heffect := mcInput_effect board env desc s
    generalize mcInput board env desc s = s' at heffect ⊢
    cases heffect with
    | opened kind => exact Or.inr (Or.inl ⟨env, kind, desc, rfl⟩)
    | report kind hkind _ _ => exact Or.inl (evolves_joinTables env desc hkind)
    | fast => exact Or.inl (shrinks_removeTarget ..).evolves
    | nothing => exact Or.inl (Shrinks.refl _).evolves
  | handle takes =>
    left
    change Evolves (mcTimerMsgThread board takes s).tables s.tables
    cases hqueue : s.queue with
    | nil =>
      rw [mcTimerMsgThread_nil takes hqueue]
      exact (Shrinks.refl _).evolves
    | cons msg queue =>
      obtain ⟨kind, d⟩ := msg
      cases hld : s.descs d with
      | none =>
        rw [mcTimerMsgThread_stale takes hqueue hld]
        exact (Shrinks.refl _).evolves
      | some ld =>
        have heffect : MessageEffect board takes { s with queue := queue } kind d ld.desc
            (mcTimerMsgThread board takes s) := mcTimerMsgThread_effect takes hqueue hld
        generalize mcTimerMsgThread board takes s = s' at heffect ⊢
        cases heffect with
        | query => exact (Shrinks.refl _).evolves
        | last t hlast => exact hlast.evolves
  | entryAdd => exact Or.inl (evolves_entryAdd ..)
  | fire | send | age | entryDelete | entryDeleteByVlan | entryClear | maxGroupNumSet | switchSet
  | controlTypeSet | leaveModeSet | hostAgingTimeSet | lastQueryIntervalSet | lastQueryCountSet =>
    exact hquiet _ rfl

theorem tables_openLeave (env : Env) (kind : LeaveKind) (desc : PacketDesc) (s : McState) :
    (∃ f, (openLeave env kind desc s).tables = targetModify kind s.tables desc f) ∨
      ∃ f f', (openLeave env kind desc s).tables =
        targetModify kind (targetModify kind s.tables desc f) desc f' := by
  unfold openLeave
  cases env.leaveDesc with
  | false => exact Or.inl ⟨fun target => { target with isNonFastLeaveTimerStart := true }, rfl⟩
  | true => exact Or.inr ⟨fun target => { target with isNonFastLeaveTimerStart := true },
      fun target => { target with isLastReportRecevied := false }, rfl⟩

theorem openLeave_tables (env : Env) (kind : LeaveKind) (desc : PacketDesc) (s : McState) :
    Withdraws board [] (openLeave env kind desc s).tables s.tables ∧
      (Keyed s.tables → Keyed (openLeave env kind desc s).tables) := by
  have hmodify : ∀ (t : Tables) (f : LeaveTarget → LeaveTarget),
      Withdraws board [] (targetModify kind t desc f) t := by
    intro t f
    cases kind with
    | snooping => exact withdraws_groupModify t desc.groupKey (fun _ => rfl)
    | ctc => exact withdraws_groupModify t desc.groupKey (fun _ => rfl)
  rcases tables_openLeave env kind desc s with ⟨f, hone⟩ | ⟨f, f', htwo⟩
  · rw [hone]
    exact ⟨hmodify _ f, fun h => keyed_targetModify h kind desc f⟩
  · rw [htwo]
    exact ⟨(hmodify _ f').trans (hmodify _ f),
      fun h => keyed_targetModify (keyed_targetModify h kind desc f) kind desc f'⟩

/-- Outside snooping mode there is nothing to keep. -/
theorem Programmed.other {s : McState} (h : Programmed board s.tables)
    (hmode : s.tables.control.mcMode ≠ .snooping) (e : McEvent) :
    Programmed board (mcStep board s e).tables := by
  have hcases : Evolves (mcStep board s e).tables s.tables ∨ _ ∨ _ := tables_step s e
  rcases hcases with hev | ⟨env, kind, desc, hopen⟩ | hnil
  · exact programmed_of_mode (hev.keyed h.keyed) (hev.mcMode ▸ hmode)
  · rw [hopen]
    have hleave : Withdraws board [] (openLeave env kind desc s).tables s.tables ∧ _ :=
      openLeave_tables env kind desc s
    exact h.same hleave.1 (hleave.2 h.keyed)
  · exact programmed_of_nil hnil

/-- What the condition says of the groups a step deletes. -/
theorem apart_of_deletesApart {s : McState} {e : McEvent} (h : deletesApart board s e = true) :
    (∀ d ∈ groupsDeleted board s e, s.tables.control.bitmap.saMac = false) ∧
      ∀ k ∈ (groupsDeleted board s e).map (·.toGroupKey), ∀ g ∈ s.tables.mcGroupList,
        g.toGroupKey ∉ (groupsDeleted board s e).map (·.toGroupKey) →
          sharesEntry k g.toGroupKey = false := by
  simp only [deletesApart, List.all_eq_true, Bool.and_eq_true, Bool.not_eq_true', Bool.or_eq_true,
    decide_eq_true_eq] at h
  constructor
  · intro d hd
    exact (h d hd).1
  · intro k hk g hg hstays
    obtain ⟨d, hd, rfl⟩ := List.mem_map.mp hk
    refine ((h d hd).2 g hg).resolve_left ?_
    intro hdel
    exact hstays (List.mem_map.mpr ⟨g, hdel, rfl⟩)

section Snooping

variable {s : McState} (h : Programmed board s.tables)

include h

theorem Programmed.deletions {e : McEvent} {t : Tables} (hok : deletesApart board s e = true)
    (hw : Withdraws board ((groupsDeleted board s e).map (·.toGroupKey)) t s.tables)
    (hkeyed : Keyed t) : Programmed board t :=
  h.withdraws hw hkeyed (fun _ => (apart_of_deletesApart hok).2)

theorem Programmed.report (hmode : s.tables.control.mcMode = .snooping) {env : Env}
    {desc : PacketDesc} (hreport : isReport desc = true) (hchecks : joinChecks board desc = true)
    (hok : addsProgrammed board s (.packet env desc) = true) :
    Programmed board (joinTables board env .snooping desc s.tables) := by
  have hev : Evolves (joinTables board env .snooping desc s.tables) s.tables :=
    evolves_joinTables env desc (by rw [hmode]; rfl)
  have hkeyed := hev.keyed h.keyed
  have hjoined : ∀ t : Tables, Withdraws board [] (groupModify t desc.groupKey
      (joinHost t.control env.hostNode desc.hostKey)) t :=
    fun t => withdraws_groupModify t desc.groupKey (joinHost_key _ _ _)
  change Keyed (mcSnoopingJoinAction board env desc s.tables) at hkeyed
  change Programmed board (mcSnoopingJoinAction board env desc s.tables)
  unfold mcSnoopingJoinAction at hkeyed ⊢
  simp only [hchecks, if_true] at hkeyed ⊢
  cases hget : mcGroupListGet s.tables desc.groupKey with
  | some g =>
    simp only [hget] at hkeyed ⊢
    exact h.same (hjoined _) hkeyed
  | none =>
    simp only [hget] at hkeyed ⊢
    split at hkeyed
    · rename_i hfull
      rw [if_pos hfull]
      exact h
    · rename_i hroom
      rw [if_neg hroom]
      refine Programmed.same (h.add rfl hget ?_) (hjoined _) hkeyed
      intro hnode
      have hadds : addsGroup board s (.packet env desc) = some desc.groupKey := by
        simp [addsGroup, hmode, hreport, hchecks, hnode, hget, hroom]
      simp only [addsProgrammed, hadds, Option.all_some, Bool.and_eq_true, Bool.or_eq_true,
        decide_eq_true_eq, List.all_eq_true] at hok
      exact ⟨dalMcGroupEntries_eq hmode rfl hok.1.1 hok.1.2, hok.2⟩

theorem Programmed.packet (hmode : s.tables.control.mcMode = .snooping) {env : Env}
    {desc : PacketDesc} (hadds : addsProgrammed board s (.packet env desc) = true)
    (hdels : deletesApart board s (.packet env desc) = true) :
    Programmed board (mcInput board env desc s).tables := by
  have heffect := mcInput_effect board env desc s
  generalize mcInput board env desc s = s' at heffect ⊢
  cases heffect with
  | opened kind =>
    have hleave : Withdraws board [] (openLeave env kind desc s).tables s.tables ∧ _ :=
      openLeave_tables env kind desc s
    exact h.same hleave.1 (hleave.2 h.keyed)
  | report kind hkind hreport hchecks =>
    rw [hmode] at hkind
    cases hkind
    exact h.report hmode hreport hchecks hadds
  | fast kind hkind hfast =>
    have hw : Withdraws board ((groupsDeleted board s (.packet env desc)).map (·.toGroupKey))
        (removeTarget board env.takes kind s.tables desc) s.tables := by
      simp only [groupsDeleted, hkind, hfast, if_true]
      exact withdraws_removeTarget h.keyed env.takes kind desc
    exact h.deletions hdels hw ((shrinks_removeTarget ..).evolves.keyed h.keyed)
  | nothing => exact h

theorem Programmed.handle {takes : SwitchEntry → Bool} (hlive : messageLive s (.handle takes) = true)
    (hdels : deletesApart board s (.handle takes) = true) :
    Programmed board (mcTimerMsgThread board takes s).tables := by
  cases hqueue : s.queue with
  | nil =>
    rw [mcTimerMsgThread_nil takes hqueue]
    exact h
  | cons msg queue =>
    obtain ⟨kind, d⟩ := msg
    simp only [messageLive, hqueue, List.head?_cons, Option.all_some,
      Option.isSome_iff_exists] at hlive
    obtain ⟨ld, hld⟩ := hlive
    have heffect : MessageEffect board takes { s with queue := queue } kind d ld.desc
        (mcTimerMsgThread board takes s) := mcTimerMsgThread_effect takes hqueue hld
    generalize mcTimerMsgThread board takes s = s' at heffect ⊢
    cases heffect with
    | query => exact h
    | last t hlast =>
      have hkeyed := hlast.evolves.keyed h.keyed
      cases hlast with
      | gone | overrun => exact h
      | reported =>
        refine h.same ?_ hkeyed
        cases kind with
        | snooping => exact withdraws_groupModify s.tables ld.desc.groupKey (fun _ => rfl)
        | ctc => exact withdraws_groupModify s.tables ld.desc.groupKey (fun _ => rfl)
      | removed target htarget hreported hcount =>
        change leaveTarget kind s.tables ld.desc = some target at htarget
        change nextCount s kind = queryLimit s at hcount
        have hw : Withdraws board ((groupsDeleted board s (.handle takes)).map (·.toGroupKey))
            (removeTarget board takes kind s.tables ld.desc) s.tables := by
          simp only [groupsDeleted, hqueue, hld, htarget, hcount, Option.any_some, hreported,
            Bool.not_false, decide_true, Bool.and_self, if_true]
          exact withdraws_removeTarget h.keyed takes kind ld.desc
        exact h.deletions hdels hw hkeyed

theorem Programmed.age {takes : SwitchEntry → Bool}
    (hdels : deletesApart board s (.age takes) = true) :
    Programmed board (mcHostAgingTimerSnoopingHandler board takes s.tables) := by
  have hshrinks : Shrinks (mcHostAgingTimerSnoopingHandler board takes s.tables) s.tables :=
    shrinks_age takes s.tables
  have hkeyed := hshrinks.evolves.keyed h.keyed
  have hsa := (apart_of_deletesApart hdels).1
  have hw : Withdraws board ((groupsDeleted board s (.age takes)).map (·.toGroupKey))
      (mcHostAgingTimerSnoopingHandler board takes s.tables) s.tables := by
    simp only [groupsDeleted] at hsa ⊢
    unfold mcHostAgingTimerSnoopingHandler
    split
    · exact Withdraws.refl _
    · rename_i hon
      rw [if_neg hon] at hsa
      exact withdraws_age h.keyed takes hsa
  exact h.deletions hdels hw hkeyed

theorem Programmed.entryDeleteByVlan {takes : SwitchEntry → Bool} {vlanId : Nat}
    (hdels : deletesApart board s (.entryDeleteByVlan takes vlanId) = true) :
    Programmed board
      (odmMulticastControlEntryDeleteByVlan board takes s.tables vlanId).2 := by
  have hsa := (apart_of_deletesApart hdels).1
  have hall : (s.tables.mcGroupList.filter (·.mcVlan = vlanId)).take s.tables.mcGroupList.length =
      s.tables.mcGroupList.filter (·.mcVlan = vlanId) :=
    List.take_of_length_le (List.length_filter_le ..)
  have hw : Withdraws board _ (deleteGroups board takes (·.mcVlan = vlanId)
      s.tables.mcGroupList.length s.tables).2 s.tables :=
    withdraws_deleteGroups takes _ _ h.keyed (by rw [hall]; exact hsa)
  rw [hall] at hw
  have hshrinks : Shrinks (deleteGroups board takes (·.mcVlan = vlanId)
      s.tables.mcGroupList.length s.tables).2 s.tables := shrinks_deleteGroups takes _ _ _
  have hdeleted := h.deletions hdels hw (hshrinks.evolves.keyed h.keyed)
  unfold odmMulticastControlEntryDeleteByVlan
  split
  · rename_i t heq
    rw [heq] at hdeleted
    split
    · exact hdeleted.foldl_vlanDelete takes _ vlanId
    · exact hdeleted
  · exact hdeleted

theorem Programmed.maxGroupNumSet {takes : SwitchEntry → Bool} {portId maxGroup : Nat}
    (hdels : deletesApart board s (.maxGroupNumSet takes portId maxGroup) = true) :
    Programmed board (odmMcControlBlockMaxGroupNumSet board takes s.tables portId maxGroup) := by
  have hshrinks : Shrinks (odmMcControlBlockMaxGroupNumSet board takes s.tables portId maxGroup)
      s.tables := shrinks_maxGroupNumSet takes s.tables portId maxGroup
  have hkeyed := hshrinks.evolves.keyed h.keyed
  have hsa := (apart_of_deletesApart hdels).1
  have hw : Withdraws board
      ((groupsDeleted board s (.maxGroupNumSet takes portId maxGroup)).map (·.toGroupKey))
      (odmMcControlBlockMaxGroupNumSet board takes s.tables portId maxGroup) s.tables := by
    have hset : Withdraws board [] { s.tables with control := { s.tables.control with
        maxGroupNum := Function.update s.tables.control.maxGroupNum portId maxGroup } } s.tables :=
      withdraws_nil rfl rfl rfl rfl (fun g hg => ⟨g, hg, rfl⟩)
    have hset_keyed : Keyed { s.tables with control := { s.tables.control with
        maxGroupNum := Function.update s.tables.control.maxGroupNum portId maxGroup } } :=
      ⟨h.keyed.groups, h.keyed.hosts⟩
    simp only [groupsDeleted] at hsa ⊢
    unfold odmMcControlBlockMaxGroupNumSet odmMulticastControlEntryNumSet
    simp only
    split
    · rename_i hport
      rw [if_pos hport] at hsa
      exact (withdraws_deleteGroups takes _ _ hset_keyed hsa).trans hset
    · exact hset
  exact h.deletions hdels hw hkeyed

theorem Programmed.hostAgingTimeSet (hostAgingTime : Nat) :
    Programmed board (odmMulticastHostAgingTimeSet s.tables hostAgingTime) := by
  have hkeyed := (shrinks_hostAgingTimeSet s.tables hostAgingTime).evolves.keyed h.keyed
  refine h.same ?_ hkeyed
  unfold odmMulticastHostAgingTimeSet
  split
  · exact Withdraws.refl _
  · refine withdraws_nil rfl rfl rfl rfl ?_
    intro g' hg'
    obtain ⟨g, hg, rfl⟩ := List.mem_map.mp hg'
    exact ⟨g, hg, rfl⟩

/-- Settings that the groups do not depend on. -/
theorem Programmed.onControl {f : McControl → McControl}
    (hmode : (f s.tables.control).mcMode = s.tables.control.mcMode)
    (hbitmap : (f s.tables.control).bitmap = s.tables.control.bitmap)
    (hhost : (f s.tables.control).hostBitmap = s.tables.control.hostBitmap) :
    Programmed board (onControl f s).tables where
  keyed := by
    constructor
    · change List.Pairwise (fun a b => groupMatches (f s.tables.control).bitmap a.toGroupKey b = false)
        s.tables.mcGroupList
      rw [hbitmap]
      exact h.keyed.groups
    · intro g hg
      change UniqueHosts (f s.tables.control).hostBitmap g.hostList
      rw [hhost]
      exact h.keyed.hosts g hg
  macs := fun hsnooping => h.macs (hmode.symm.trans hsnooping)
  entries := fun hsnooping => h.entries (hmode.symm.trans hsnooping)

/-- Every step that meets the condition keeps the entries of the listed groups. -/
theorem Programmed.step {e : McEvent} (hok : entriesApart board s e = true) :
    Programmed board (mcStep board s e).tables := by
  by_cases hmode : s.tables.control.mcMode = .snooping
  · have hctc : s.tables.control.mcMode ≠ .ctc := by
      rw [hmode]
      decide
    simp only [entriesApart, hmode, ne_eq, not_true_eq_false, decide_false, Bool.false_or,
      Bool.and_eq_true] at hok
    obtain ⟨hlive, hadds, hdels⟩ := hok
    cases e with
    | packet env desc => exact h.packet hmode hadds hdels
    | handle takes => exact h.handle hlive hdels
    | age takes => exact h.age hdels
    | entryDeleteByVlan takes vlanId => exact h.entryDeleteByVlan hdels
    | maxGroupNumSet takes portId maxGroup => exact h.maxGroupNumSet hdels
    | hostAgingTimeSet hostAgingTime => exact h.hostAgingTimeSet _
    | fire d =>
      obtain ⟨callback, hfire⟩ := fireTimer_frame d s
      change Programmed board (fireTimer d s).tables
      rw [hfire]
      exact h
    | send =>
      obtain ⟨callback, queue, hsend⟩ := mcTimerMsgSend_frame s
      change Programmed board (mcTimerMsgSend s).tables
      rw [hsend]
      exact h
    | entryAdd env portId vlanId mac =>
      simp only [mcStep, onTables, odmMulticastControlEntryAdd, if_pos hctc]
      exact h
    | entryDelete takes portId vlanId mac =>
      simp only [mcStep, onTables, odmMulticastControlEntryDelete, if_pos hctc]
      exact h
    | entryClear takes => exact programmed_of_nil rfl
    | switchSet takes mcMode =>
      simp only [mcStep, onTables, odmMulticastSwitchSet]
      split
      · exact h
      · exact programmed_of_nil rfl
    | controlTypeSet takes ctcControlType =>
      simp only [mcStep, onTables, odmMcControlBlockCtcControlTypeSet]
      split
      · exact h
      · exact programmed_of_nil rfl
    | leaveModeSet | lastQueryIntervalSet | lastQueryCountSet => exact h.onControl rfl rfl rfl
  · exact h.other hmode e

end Snooping

/-- **Every listed group of the snooping mode keeps its entries in the switch**, in every
run that deletes no group next to one with the same MAC. -/
theorem groups_forwarded (board : Board) (c : McConfig) (vlans : VlanState) (es : List McEvent)
    (hok : AllSteps (mcStep board) (fun s e => entriesApart board s e = true) (mcInit c vlans) es) :
    AllStates (mcStep board) (Forwarded board) (mcInit c vlans) es := by
  have hinv := allStates_of_allSteps (mcStep board) (fun s => Programmed board s.tables)
    (fun _ _ hs he => hs.step he) (programmed_of_nil rfl) hok
  refine hinv.mono ?_
  intro s hs
  exact hs.entries

/-- Two groups with different MACs are joined in VLAN 100, and the first is left. -/
theorem groups_forwarded_two_groups :
    ∃ es, AllSteps (mcStep .onu1Port) (fun s e => entriesApart .onu1Port s e = true)
        (mcInit mcConfigDefault (odmMcVlanMapAdd vlanInit 1 100).2) es ∧
      (run (mcStep .onu1Port) (mcInit mcConfigDefault (odmMcVlanMapAdd vlanInit 1 100).2)
        es).tables.mcGroupList.map (·.groupAddress) = [0xe0010102] ∧
      AllStates (mcStep .onu1Port) (Forwarded .onu1Port)
        (mcInit mcConfigDefault (odmMcVlanMapAdd vlanInit 1 100).2) es := by
  refine ⟨[.packet .granting (reportFrom 1 7 0xe0010101),
    .packet .granting (reportFrom 1 7 0xe0010102),
    .packet .granting (leaveFrom 1 7 0xe0010101)], ?_, ?_, ?_⟩
  · decide +kernel
  · decide +kernel
  · exact groups_forwarded .onu1Port _ _ _ (by decide +kernel)

/-- 224.1.1.1 and 225.1.1.1 share a MAC: leaving the one takes the entry of the other. -/
theorem shared_entry_withdrawn :
    ¬AllStates (mcStep .onu1Port) (Forwarded .onu1Port)
      (mcInit mcConfigDefault (odmMcVlanMapAdd vlanInit 1 100).2)
      [.packet .granting (reportFrom 1 7 0xe0010101),
        .packet .granting (reportFrom 1 7 0xe1010101),
        .packet .granting (leaveFrom 1 7 0xe0010101)] := by
  intro hall
  have hlast := hall.last
  revert hlast
  decide +kernel

end Opconn.Multicast
