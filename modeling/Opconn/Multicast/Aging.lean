import Opconn.Lib.Loop
import Opconn.Multicast.ForwardingTable
import Opconn.Multicast.GroupLimit

/-!
# One run of the aging timer

`mcHostAgingTimerSnoopingHandler` walks over the groups and in each over its hosts, and
deletes the node it stands on; the pointer to the next one is saved before.  A group that
has lost its last host is deleted inside the inner walk, so that nothing of it may be
looked at afterwards.  The walks are embedded here pointer by pointer, and are the folds
over the lists that `System` has for them.
-/

namespace Opconn.Multicast

open FirstMatch

variable {board : Board} {takes : SwitchEntry → Bool}

/-! ### The walks -/

/-- A second less to live. -/
def Host.older (host : Host) : Host := { host with hostAgingTime := host.hostAgingTime - 1 }

/-- The inner walk: `hlist`, `node` (NULL once the group is deleted) and the tables. -/
structure HostWalk where
  hlist : Option Host
  node : Option Group
  tables : Tables

/-- A write to a node of the list. -/
def writeNode (t : Tables) (node group : Group) : Tables :=
  { t with mcGroupList := updateFirst (· = node) (fun _ => group) t.mcGroupList }

/-- One round of the inner walk.  It leaves without tables where it would use a group that is
freed. -/
def hostWalkStep (board : Board) (takes : SwitchEntry → Bool) (s : HostWalk) :
    HostWalk ⊕ Option Tables :=
  match s.hlist, s.node with
  | none, _ => .inr (some s.tables)
  | some _, none => .inr none
  | some hnode, some node =>
    let hlistNext := next hnode node.hostList
    let group := ageHost s.tables.control.hostBitmap node hnode
    let t := writeNode s.tables node group
    if hnode.hostAgingTime = 0 ∧ group.hostList = [] then
      .inl ⟨hlistNext, none, (odmMcGroupDel board takes t node.toGroupKey).2⟩
    else .inl ⟨hlistNext, some group, t⟩

/-- The inner walk over a group: a round for each host, and one to leave. -/
def hostWalk (board : Board) (takes : SwitchEntry → Bool) (t : Tables) (node : Group) :
    Option Tables :=
  (Loop.run (hostWalkStep board takes) (node.hostList.length + 1)
    ⟨node.hostList.head?, some node, t⟩).join

/-- One round of the outer walk, from `list` and the tables. -/
def groupWalkStep (board : Board) (takes : SwitchEntry → Bool) (s : Option Group × Tables) :
    (Option Group × Tables) ⊕ Option Tables :=
  match s.1 with
  | none => .inr (some s.2)
  | some node =>
    let listNext := next node s.2.mcGroupList
    match hostWalk board takes s.2 node with
    | none => .inr none
    | some t => .inl (listNext, t)

/-- `mcHostAgingTimerSnoopingHandler`, walk by walk. -/
def agingWalk (board : Board) (takes : SwitchEntry → Bool) (t : Tables) : Option Tables :=
  if t.control.hostAgingTime = 0 then some t
  else
    (Loop.run (groupWalkStep board takes) (t.mcGroupList.length + 1)
      (t.mcGroupList.head?, t)).join

/-! ### What is left -/

/-- The hosts that are not at zero, each a second older. -/
def agedHosts (hosts : List Host) : List Host :=
  (hosts.filter fun host => host.hostAgingTime ≠ 0).map Host.older

/-- A group after the run; it is gone when it had hosts and none is left. -/
def agedGroup (group : Group) : Option Group :=
  if group.hostList ≠ [] ∧ agedHosts group.hostList = [] then none
  else some { group with hostList := agedHosts group.hostList }

/-! ### A group ages -/

theorem hostMatches_self (hostBitmap : HostBitmap) (h : Host) :
    hostMatches hostBitmap h.toHostKey h = true :=
  hostMatches_iff.mpr (hostCompare_iff.mpr ⟨fun _ => rfl, fun _ => rfl⟩)

theorem hostMatches_comm (hostBitmap : HostBitmap) (a b : Host) :
    hostMatches hostBitmap a.toHostKey b = hostMatches hostBitmap b.toHostKey a := by
  rw [Bool.eq_iff_iff, hostMatches_iff, hostMatches_iff, hostCompare_symm]

theorem agedHosts_cons (host : Host) (hosts : List Host) :
    agedHosts (host :: hosts) = agedHosts [host] ++ agedHosts hosts := by
  unfold agedHosts
  by_cases hzero : host.hostAgingTime = 0 <;> simp [hzero]

theorem agedHosts_singleton_eq_nil_iff (host : Host) :
    agedHosts [host] = [] ↔ host.hostAgingTime = 0 := by
  simp [agedHosts]

/-- The hosts in front of a place in the list do not answer to the keys behind it. -/
def Passed (hostBitmap : HostBitmap) (done todo : List Host) : Prop :=
  ∀ h ∈ todo, ∀ d ∈ done, hostMatches hostBitmap h.toHostKey d = false

theorem passed_nil (hostBitmap : HostBitmap) (todo : List Host) : Passed hostBitmap [] todo :=
  fun _ _ _ hd => (List.not_mem_nil hd).elim

theorem Passed.not_mem {hostBitmap : HostBitmap} {done rest : List Host} {hnode : Host}
    (h : Passed hostBitmap done (hnode :: rest)) : hnode ∉ done := by
  intro hmem
  have hfalse := h hnode (List.mem_cons_self ..) hnode hmem
  rw [hostMatches_self] at hfalse
  cases hfalse

theorem Passed.next {hostBitmap : HostBitmap} {done rest : List Host} {hnode : Host}
    (h : Passed hostBitmap done (hnode :: rest)) (hunique : UniqueHosts hostBitmap (hnode :: rest)) :
    Passed hostBitmap (done ++ agedHosts [hnode]) rest := by
  intro host hhost d hd
  rcases List.mem_append.mp hd with hold | hnew
  · exact h host (List.mem_cons_of_mem _ hhost) d hold
  · obtain ⟨host', hmem, rfl⟩ := List.mem_map.mp hnew
    have heq : host' = hnode := List.mem_singleton.mp (List.mem_filter.mp hmem).1
    rw [heq]
    change hostMatches hostBitmap host.toHostKey hnode = false
    rw [hostMatches_comm]
    exact (List.pairwise_cons.mp hunique).1 host hhost

/-- The host that the walk stands on is removed or a second older, and nothing else. -/
theorem ageHost_append {hostBitmap : HostBitmap} {group : Group} {done rest : List Host}
    {hnode : Host} (hlist : group.hostList = done ++ hnode :: rest)
    (h : Passed hostBitmap done (hnode :: rest)) :
    ageHost hostBitmap group hnode =
      { group with hostList := done ++ agedHosts [hnode] ++ rest } := by
  unfold ageHost
  split
  · next hzero =>
    rw [mcHostListDel, hlist, eraseP_append (h hnode (List.mem_cons_self ..)) (hostMatches_self ..),
      (agedHosts_singleton_eq_nil_iff hnode).mpr hzero, List.append_nil]
  · next hne =>
    have hbefore : ∀ d ∈ done, decide (d = hnode) = false := by
      intro d hd
      rw [decide_eq_false_iff_not]
      rintro rfl
      exact h.not_mem hd
    rw [hlist, updateFirst_append hbefore (decide_eq_true rfl)]
    simp [agedHosts, hne, Host.older]

theorem foldl_ageHost {hostBitmap : HostBitmap} {done todo : List Host} {group : Group}
    (hlist : group.hostList = done ++ todo) (h : Passed hostBitmap done todo)
    (hunique : UniqueHosts hostBitmap todo) :
    todo.foldl (ageHost hostBitmap) group = { group with hostList := done ++ agedHosts todo } := by
  induction todo generalizing done group with
  | nil =>
    rw [List.append_nil] at hlist
    simp [agedHosts, ← hlist]
  | cons hnode rest ih =>
    rw [List.foldl_cons, ageHost_append hlist h, ih rfl (h.next hunique)
      (List.pairwise_cons.mp hunique).2, agedHosts_cons hnode rest, ← List.append_assoc]

/-- What is left of a group is nothing only when the host that goes was the last. -/
theorem emptied_cons_iff {done rest : List Host} {hnode : Host}
    (hstays : ¬(hnode.hostAgingTime = 0 ∧ done ++ agedHosts [hnode] ++ rest = [])) :
    (rest ≠ [] ∧ done ++ agedHosts [hnode] ++ agedHosts rest = []) ↔
      (hnode :: rest ≠ [] ∧ done ++ agedHosts (hnode :: rest) = []) := by
  rw [agedHosts_cons hnode rest, ← List.append_assoc]
  constructor
  · rintro ⟨-, hempty⟩
    exact ⟨List.cons_ne_nil _ _, hempty⟩
  · rintro ⟨-, hempty⟩
    refine ⟨?_, hempty⟩
    rintro rfl
    rw [List.append_eq_nil_iff] at hempty
    have hzero := (List.append_eq_nil_iff.mp hempty.1).2
    exact hstays ⟨(agedHosts_singleton_eq_nil_iff hnode).mp hzero, by rw [hempty.1]; rfl⟩

/-! ### The inner walk -/

/-- The tables once the walk over a group is done; the group that was `emptied` is deleted. -/
def settle (board : Board) (takes : SwitchEntry → Bool) (emptied : Bool) (t : Tables)
    (k : GroupKey) : Tables :=
  if emptied then (odmMcGroupDel board takes t k).2 else t

/-- The node the walk stands on is written where it is. -/
theorem writeNode_append {t : Tables} (hsa : t.control.bitmap.saMac = false)
    {pre post : List Group} {node : Group} (hgroups : t.mcGroupList = pre ++ node :: post)
    (hpre : ∀ g ∈ pre, groupMatches t.control.bitmap node.toGroupKey g = false) (group : Group) :
    writeNode t node group = { t with mcGroupList := pre ++ group :: post } := by
  have hbefore : ∀ g ∈ pre, decide (g = node) = false := by
    intro g hg
    rw [decide_eq_false_iff_not]
    rintro rfl
    have hfalse := hpre g hg
    rw [groupMatches_self hsa] at hfalse
    cases hfalse
  rw [writeNode, hgroups, updateFirst_append hbefore (decide_eq_true rfl)]

/-- The group once its host `hnode` has aged, where it is cut there. -/
def passOver (group : Group) (done : List Host) (hnode : Host) (rest : List Host) : Group :=
  { group with hostList := done ++ agedHosts [hnode] ++ rest }

variable (board takes) in
theorem hostWalkStep_some {t : Tables} {group : Group} {done rest : List Host} {hnode : Host}
    (hlist : group.hostList = done ++ hnode :: rest)
    (h : Passed t.control.hostBitmap done (hnode :: rest)) :
    hostWalkStep board takes ⟨some hnode, some group, t⟩ =
      if hnode.hostAgingTime = 0 ∧ done ++ agedHosts [hnode] ++ rest = [] then
        .inl ⟨rest.head?, none, (odmMcGroupDel board takes
          (writeNode t group (passOver group done hnode rest)) group.toGroupKey).2⟩
      else
        .inl ⟨rest.head?, some (passOver group done hnode rest),
          writeNode t group (passOver group done hnode rest)⟩ := by
  have hnext : next hnode group.hostList = rest.head? := by
    rw [hlist, next_append h.not_mem]
  have haged : ageHost t.control.hostBitmap group hnode = passOver group done hnode rest :=
    ageHost_append hlist h
  simp only [hostWalkStep, haged, hnext]
  rfl

/-- The inner walk, from any host on. -/
theorem run_hostWalk {t : Tables} (hsa : t.control.bitmap.saMac = false) {pre post : List Group}
    {group : Group} (hgroups : t.mcGroupList = pre ++ group :: post)
    (hpre : ∀ g ∈ pre, groupMatches t.control.bitmap group.toGroupKey g = false)
    {done todo : List Host} (hlist : group.hostList = done ++ todo)
    (h : Passed t.control.hostBitmap done todo) (hunique : UniqueHosts t.control.hostBitmap todo) :
    Loop.run (hostWalkStep board takes) (todo.length + 1) ⟨todo.head?, some group, t⟩ =
      some (some (settle board takes (decide (todo ≠ [] ∧ done ++ agedHosts todo = []))
        { t with mcGroupList := pre ++ { group with hostList := done ++ agedHosts todo } :: post }
        group.toGroupKey)) := by
  induction todo generalizing done group t with
  | nil =>
    have hsame : { group with hostList := done ++ agedHosts [] } = group := by
      rw [agedHosts, List.filter_nil, List.map_nil, ← hlist]
    rw [hsame, ← hgroups]
    exact Loop.run_succ_inr rfl 0
  | cons hnode rest ih =>
    have hwrite := writeNode_append hsa hgroups hpre (passOver group done hnode rest)
    have hstep := hostWalkStep_some board takes hlist h
    by_cases hlast : hnode.hostAgingTime = 0 ∧ done ++ agedHosts [hnode] ++ rest = []
    · -- the group goes with its last host, and there is no next one
      rw [if_pos hlast, hwrite] at hstep
      obtain ⟨hdone, hrest⟩ := List.append_eq_nil_iff.mp hlast.2
      obtain ⟨hbefore, hgone⟩ := List.append_eq_nil_iff.mp hdone
      subst hbefore
      subst hrest
      rw [List.length_singleton, List.head?_cons, Loop.run_succ_inl hstep]
      refine (Loop.run_succ_inr rfl 0).trans ?_
      have htrue : decide ([hnode] ≠ [] ∧ [] ++ agedHosts [hnode] = []) = true := by
        rw [hgone]
        exact decide_eq_true ⟨List.cons_ne_nil _ _, rfl⟩
      rw [htrue, settle, if_pos rfl]
      simp only [passOver, List.append_nil]
    · rw [if_neg hlast] at hstep
      have hwritten : (writeNode t group (passOver group done hnode rest)).mcGroupList =
          pre ++ passOver group done hnode rest :: post := by rw [hwrite]
      have hrest := ih (t := writeNode t group (passOver group done hnode rest)) hsa hwritten hpre
        rfl (h.next hunique) (List.pairwise_cons.mp hunique).2
      have haged : done ++ agedHosts (hnode :: rest) =
          done ++ agedHosts [hnode] ++ agedHosts rest := by
        rw [agedHosts_cons hnode rest, ← List.append_assoc]
      have hemptied : decide (rest ≠ [] ∧ done ++ agedHosts [hnode] ++ agedHosts rest = []) =
          decide (hnode :: rest ≠ [] ∧ done ++ agedHosts (hnode :: rest) = []) :=
        decide_eq_decide.mpr (emptied_cons_iff hlast)
      rw [List.length_cons, List.head?_cons, Loop.run_succ_inl hstep, hrest, hemptied]
      simp only [haged]
      rfl

/-! ### One group -/

/-- The fold of `ageGroup`, where the list of groups is cut at the group. -/
theorem ageGroup_append {t : Tables} (hsa : t.control.bitmap.saMac = false)
    {pre post : List Group} {node : Group} (hgroups : t.mcGroupList = pre ++ node :: post)
    (hpre : ∀ g ∈ pre, groupMatches t.control.bitmap node.toGroupKey g = false)
    (hunique : UniqueHosts t.control.hostBitmap node.hostList) :
    ageGroup board takes t node =
      settle board takes (decide (node.hostList ≠ [] ∧ agedHosts node.hostList = []))
        { t with mcGroupList := pre ++ { node with hostList := agedHosts node.hostList } :: post }
        node.toGroupKey := by
  have haged : node.hostList.foldl (ageHost t.control.hostBitmap) node =
      { node with hostList := agedHosts node.hostList } :=
    foldl_ageHost rfl (passed_nil _ _) hunique
  have hemptied : (node.hostList.any (·.hostAgingTime = 0) && (agedHosts node.hostList).isEmpty) =
      decide (node.hostList ≠ [] ∧ agedHosts node.hostList = []) := by
    cases hlist : node.hostList with
    | nil => rfl
    | cons hnode rest =>
      rw [Bool.eq_iff_iff, Bool.and_eq_true, List.isEmpty_iff, decide_eq_true_eq,
        agedHosts_cons, List.append_eq_nil_iff, agedHosts_singleton_eq_nil_iff]
      constructor
      · rintro ⟨-, hempty⟩
        exact ⟨List.cons_ne_nil _ _, hempty⟩
      · rintro ⟨-, hempty⟩
        exact ⟨by simp [hempty.1], hempty⟩
  have hwrite := writeNode_append hsa hgroups hpre
    { node with hostList := agedHosts node.hostList }
  unfold writeNode at hwrite
  simp only [ageGroup, haged, hemptied, hwrite, settle]

theorem hostWalk_eq {t : Tables} (hsa : t.control.bitmap.saMac = false)
    {pre post : List Group} {node : Group} (hgroups : t.mcGroupList = pre ++ node :: post)
    (hpre : ∀ g ∈ pre, groupMatches t.control.bitmap node.toGroupKey g = false)
    (hunique : UniqueHosts t.control.hostBitmap node.hostList) :
    hostWalk board takes t node = some (ageGroup board takes t node) := by
  rw [hostWalk, ageGroup_append hsa hgroups hpre hunique,
    run_hostWalk hsa hgroups hpre (List.nil_append _).symm (passed_nil _ _) hunique]
  rfl

/-- A group ages where it is listed, and nothing else does. -/
theorem list_ageGroup {t : Tables} (hsa : t.control.bitmap.saMac = false)
    {pre post : List Group} {node : Group} (hgroups : t.mcGroupList = pre ++ node :: post)
    (hpre : ∀ g ∈ pre, groupMatches t.control.bitmap node.toGroupKey g = false)
    (hunique : UniqueHosts t.control.hostBitmap node.hostList) :
    (ageGroup board takes t node).mcGroupList = pre ++ (agedGroup node).toList ++ post := by
  rw [ageGroup_append hsa hgroups hpre hunique, settle]
  by_cases hemptied : node.hostList ≠ [] ∧ agedHosts node.hostList = []
  · rw [if_pos (decide_eq_true hemptied), agedGroup, if_pos hemptied]
    have hself : groupMatches t.control.bitmap node.toGroupKey
        { node with hostList := agedHosts node.hostList } = true := groupMatches_self hsa _
    have hget : (pre ++ { node with hostList := agedHosts node.hostList } :: post).find?
        (groupMatches t.control.bitmap node.toGroupKey) =
        some { node with hostList := agedHosts node.hostList } := by
      rw [List.find?_append, List.find?_eq_none.mpr (fun g hg => by simp [hpre g hg]),
        List.find?_cons_of_pos hself]
      rfl
    simp only [odmMcGroupDel, mcGroupListDel, mcGroupListGet, dalMcGroupDel, hget,
      eraseP_append hpre hself, Option.toList_none, List.append_nil]
  · rw [if_neg (by simpa using hemptied), agedGroup, if_neg hemptied, Option.toList_some,
      List.append_assoc]
    rfl

theorem control_ageGroup (t : Tables) (node : Group) :
    (ageGroup board takes t node).control = t.control := by
  unfold ageGroup
  dsimp only
  split
  · exact control_odmMcGroupDel takes _ _
  · rfl

/-! ### The outer walk -/

/-- The groups in front of a place in the list do not answer to the keys behind it. -/
def GroupsPassed (bitmap : Bitmap) (done todo : List Group) : Prop :=
  ∀ g ∈ todo, ∀ d ∈ done, groupMatches bitmap g.toGroupKey d = false

theorem groupsPassed_nil (bitmap : Bitmap) (todo : List Group) : GroupsPassed bitmap [] todo :=
  fun _ _ _ hd => (List.not_mem_nil hd).elim

theorem groupMatches_comm (bitmap : Bitmap) (a b : Group) :
    groupMatches bitmap a.toGroupKey b = groupMatches bitmap b.toGroupKey a := by
  rw [Bool.eq_iff_iff, groupMatches_iff, groupMatches_iff, groupCompare_symm]

theorem GroupsPassed.next {bitmap : Bitmap} {done rest : List Group} {node : Group}
    (h : GroupsPassed bitmap done (node :: rest))
    (hkeys : (node :: rest).Pairwise fun a b => groupMatches bitmap a.toGroupKey b = false) :
    GroupsPassed bitmap (done ++ (agedGroup node).toList) rest := by
  intro g hg d hd
  rcases List.mem_append.mp hd with hold | hnew
  · exact h g (List.mem_cons_of_mem _ hg) d hold
  · have hkey : groupMatches bitmap d.toGroupKey g = false := by
      unfold agedGroup at hnew
      split at hnew
      · cases hnew
      · rw [Option.toList_some, List.mem_singleton] at hnew
        rw [hnew]
        exact (List.pairwise_cons.mp hkeys).1 g hg
    rw [groupMatches_comm]
    exact hkey

variable (board takes) in
/-- The outer walk, from any group on. -/
theorem run_groupWalk {t : Tables} (hsa : t.control.bitmap.saMac = false) {done todo : List Group}
    (hgroups : t.mcGroupList = done ++ todo) (h : GroupsPassed t.control.bitmap done todo)
    (hkeys : todo.Pairwise fun a b => groupMatches t.control.bitmap a.toGroupKey b = false)
    (hunique : ∀ g ∈ todo, UniqueHosts t.control.hostBitmap g.hostList) :
    Loop.run (groupWalkStep board takes) (todo.length + 1) (todo.head?, t) =
        some (some (todo.foldl (ageGroup board takes) t)) ∧
      (todo.foldl (ageGroup board takes) t).mcGroupList = done ++ todo.filterMap agedGroup := by
  induction todo generalizing done t with
  | nil =>
    exact ⟨Loop.run_succ_inr rfl 0, by simpa using hgroups⟩
  | cons node rest ih =>
    have hpre := h node (List.mem_cons_self ..)
    have hhosts := hunique node (List.mem_cons_self ..)
    have hnot : node ∉ done := by
      intro hmem
      have hfalse := hpre node hmem
      rw [groupMatches_self hsa] at hfalse
      cases hfalse
    have hstep : groupWalkStep board takes ((node :: rest).head?, t) =
        .inl (rest.head?, ageGroup board takes t node) := by
      simp only [groupWalkStep, List.head?_cons, hostWalk_eq hsa hgroups hpre hhosts]
      rw [hgroups, next_append hnot]
    have hcontrol : (ageGroup board takes t node).control = t.control := control_ageGroup t node
    have hlist : (ageGroup board takes t node).mcGroupList =
        (done ++ (agedGroup node).toList) ++ rest := list_ageGroup hsa hgroups hpre hhosts
    obtain ⟨hrun, hrest⟩ := ih (by rw [hcontrol]; exact hsa) hlist
      (by rw [hcontrol]; exact h.next hkeys)
      (by rw [hcontrol]; exact (List.pairwise_cons.mp hkeys).2)
      (by rw [hcontrol]; exact fun g hg => hunique g (List.mem_cons_of_mem _ hg))
    refine ⟨(Loop.run_succ_inl hstep _).trans hrun, ?_⟩
    rw [List.foldl_cons, hrest, List.append_assoc]
    cases haged : agedGroup node with
    | none => rw [List.filterMap_cons_none haged]; rfl
    | some group => rw [List.filterMap_cons_some haged]; rfl

theorem vlans_ageGroup (t : Tables) (node : Group) :
    (ageGroup board takes t node).vlans = t.vlans := by
  unfold ageGroup
  dsimp only
  split
  · rw [odmMcGroupDel, mcGroupListDel]
    split <;> rfl
  · rfl

/-- The walks are the folds over the lists that they were entered with. -/
theorem agingWalk_eq {t : Tables} (h : Keyed t) (hsa : t.control.bitmap.saMac = false) :
    agingWalk board takes t = some (mcHostAgingTimerSnoopingHandler board takes t) := by
  unfold agingWalk mcHostAgingTimerSnoopingHandler
  split
  · rfl
  · obtain ⟨hrun, -⟩ := run_groupWalk board takes hsa
      (List.nil_append t.mcGroupList).symm (groupsPassed_nil _ _) h.groups h.hosts
    rw [hrun]
    rfl

/-- **A run of the aging timer never uses a node it has freed; where hosts age at all, it
removes the hosts that are at zero, makes the others a second older, and removes the groups
that have lost their last host by it.  No other group is touched.** -/
theorem aging_walk_exact {t : Tables} (h : Keyed t) (hsa : t.control.bitmap.saMac = false) :
    ∃ t', agingWalk board takes t = some t' ∧ t'.control = t.control ∧ t'.vlans = t.vlans ∧
      t'.mcGroupList = if t.control.hostAgingTime = 0 then t.mcGroupList
        else t.mcGroupList.filterMap agedGroup := by
  refine ⟨_, agingWalk_eq h hsa, control_age takes t, ?_, ?_⟩
  · unfold mcHostAgingTimerSnoopingHandler
    split
    · rfl
    · exact foldl_keeps (·.vlans) (fun t node => vlans_ageGroup t node) _ t
  · unfold mcHostAgingTimerSnoopingHandler
    split
    · rfl
    · exact (run_groupWalk board takes hsa (List.nil_append t.mcGroupList).symm (groupsPassed_nil _ _)
        h.groups h.hosts).2

/-- A group on port 1 with hosts of these ages. -/
def agingGroup (groupAddress : Nat) (ages : List Nat) : Group where
  hostPortId := 1
  groupMac := clMcMacGetByMcIp groupAddress
  groupAddress := groupAddress
  mcVlan := 0
  state := .learning
  hostList := ages.zipIdx.map fun a => ⟨⟨zeroMac, a.2⟩, .learning, a.1, false, false⟩
  hostAgingTime := 0
  isLastReportRecevied := false
  isNonFastLeaveTimerStart := false

/-- The tables at start with these groups. -/
def agingTables (c : McConfig) (groups : List Group) : Tables :=
  { (mcInit c vlanInit).tables with mcGroupList := groups }

/-- Two of three hosts go, and a group with its only host. -/
theorem aging_walk_three_groups :
    let t := agingTables mcConfigDefault
      [agingGroup 0xe0010101 [0, 5, 0], agingGroup 0xe0010102 [0], agingGroup 0xe0010103 []]
    ∃ t', agingWalk .onu1Port (fun _ => true) t = some t' ∧ t'.control = t.control ∧
      t'.vlans = t.vlans ∧ t'.mcGroupList =
        if t.control.hostAgingTime = 0 then t.mcGroupList
        else t.mcGroupList.filterMap agedGroup :=
  aging_walk_exact ⟨by decide, by decide⟩ rfl

/-- With the aging time zero nothing ages, and a group that is searched by the source MAC
outlives its hosts. -/
theorem aging_walk_keeps_expired :
    (∃ t, Keyed t ∧ t.control.bitmap.saMac = false ∧
      (agingWalk .onu1Port (fun _ => true) t).map (·.mcGroupList) ≠
        some (t.mcGroupList.filterMap agedGroup)) ∧
    ∃ t, Keyed t ∧ t.control.hostAgingTime ≠ 0 ∧
      (agingWalk .onu1Port (fun _ => true) t).map (·.mcGroupList) ≠
        some (t.mcGroupList.filterMap agedGroup) := by
  constructor
  · exact ⟨agingTables { mcConfigDefault with hostAgingTime := 0 } [agingGroup 0xe0010101 [0]],
      ⟨by decide, by decide⟩, by decide, by decide⟩
  · exact ⟨{ odmMcControlBlockCtcControlTypeSet .onu1Port (fun _ => true)
        (agingTables mcConfigDefault []) .gdaSaMac with mcGroupList := [agingGroup 0xe0010101 [0]] },
      ⟨by decide, by decide⟩, by decide, by decide⟩

end Opconn.Multicast
