import Opconn.Multicast.GroupEntries
import Opconn.Multicast.LeaveTargets

/-!
# The number of groups on a port

A report adds a group unless the port has exactly as many as it may have, so the bound
rests on whoever lowers the limit: the groups that are too many are deleted by their key
until a deletion fails.  It fails when groups are searched by the source MAC, which
snooping comes by when the control type is set outside CTC mode.
-/

namespace Opconn.Multicast

open FirstMatch List Runs

variable {board : Board}

/-! ### Calls -/

/-- `ODM_MAX_GRUP_NUM_PER_PORT`. -/
def odmMaxGrupNumPerPort : Nat := 64

inductive MaxNumStatus where
  | ok
  | badPara
  | invalidParameters
deriving DecidableEq, Repr

/-- `odmMulticastGroupMaxNumSet`.  `respin` is the chip revision on which port 0 is let
pass without effect; 255 stands for all ports. -/
def odmMulticastGroupMaxNumSet (board : Board) (respin : Bool) (takes : SwitchEntry → Bool)
    (t : Tables) (portId num : Nat) : MaxNumStatus × Tables :=
  if respin && decide (portId = 0) then (.ok, t)
  else if !isHostPort board portId && decide (portId ≠ 255) then (.badPara, t)
  else if odmMaxGrupNumPerPort < num ∨ num = 0 then (.invalidParameters, t)
  else if portId = 255 then
    (.ok, (hostPorts board).foldl
      (fun t i => odmMcControlBlockMaxGroupNumSet board takes t i num) t)
  else (.ok, odmMcControlBlockMaxGroupNumSet board takes t portId num)

/-- A step of the module, or a change of the limits. -/
inductive LimitEvent where
  | mc (e : McEvent)
  | groupMaxNumSet (respin : Bool) (takes : SwitchEntry → Bool) (portId num : Nat)
  | entryNumSet (takes : SwitchEntry → Bool) (portId num : Nat)

def limitStep (board : Board) (s : McState) : LimitEvent → McState
  | .mc e => mcStep board s e
  | .groupMaxNumSet respin takes portId num =>
    onTables (fun t => (odmMulticastGroupMaxNumSet board respin takes t portId num).2) s
  | .entryNumSet takes portId num =>
    onTables (fun t => (odmMulticastControlEntryNumSet board takes t portId num).2) s

/-! ### What is to hold -/

def Bounded (t : Tables) : Prop :=
  ∀ portId, mcGroupNumPerPort t portId ≤ t.control.maxGroupNum portId

/-- **The bound in a state**: in snooping mode no port has more groups than it may have.
Nothing is said once a freed descriptor was used. -/
def WithinLimits (s : McState) : Prop :=
  s.stale = false → s.tables.control.mcMode = .snooping → Bounded s.tables

/-- Lowering the limit of the port to `num` finds the groups that are too many. -/
def CanLower (board : Board) (t : Tables) (portId num : Nat) : Prop :=
  mcGroupNumPerPort t portId ≤ num ∨
    (isHostPort board portId = true ∧ t.control.bitmap.saMac = false)

/-- The ports whose limit a call of `odmMulticastGroupMaxNumSet` sets. -/
def limitPorts (board : Board) (portId num : Nat) : List Nat :=
  if odmMaxGrupNumPerPort < num ∨ num = 0 then []
  else if portId = 255 then hostPorts board
  else if isHostPort board portId then [portId]
  else []

/-- **The condition on a step.**  In snooping mode a limit is lowered below the number of
groups of the port only while groups are not searched by the source MAC. -/
def lowersFound (board : Board) (s : McState) : LimitEvent → Prop
  | .mc (.maxGroupNumSet _ portId maxGroup) =>
    s.stale = false → s.tables.control.mcMode = .snooping →
      CanLower board s.tables portId maxGroup
  | .groupMaxNumSet _ _ portId num =>
    s.stale = false → s.tables.control.mcMode = .snooping →
      ∀ i ∈ limitPorts board portId num, CanLower board s.tables i num
  | _ => True

/-! ### The control block -/

theorem control_odmMcGroupDel (takes : SwitchEntry → Bool) (t : Tables) (k : GroupKey) :
    (odmMcGroupDel board takes t k).2.control = t.control :=
  control_mcGroupListDel _ k

theorem control_deleteIfEmpty (takes : SwitchEntry → Bool) (t : Tables) (k : GroupKey) :
    (deleteIfEmpty board takes t k).control = t.control := by
  unfold deleteIfEmpty
  split
  · exact control_odmMcGroupDel takes t k
  · rfl

theorem control_removeTarget (takes : SwitchEntry → Bool) (kind : LeaveKind) (t : Tables)
    (desc : PacketDesc) : (removeTarget board takes kind t desc).control = t.control := by
  unfold removeTarget
  split
  · rfl
  · split
    · split
      · rfl
      · rw [control_deleteIfEmpty]
        rfl
    · exact control_deleteIfEmpty takes t _

theorem control_deleteGroups (takes : SwitchEntry → Bool) (p : Group → Bool) (n : Nat)
    (t : Tables) : (deleteGroups board takes p n t).2.control = t.control := by
  induction n generalizing t with
  | zero => rfl
  | succ n ih =>
    unfold deleteGroups
    split
    · rfl
    · rename_i group _
      have hdel : (odmMcGroupDel board takes t group.toGroupKey).2.control = t.control :=
        control_odmMcGroupDel takes t _
      split
      · rename_i t' heq
        rw [heq] at hdel
        rw [ih t', hdel]
      · exact hdel

theorem control_vlanDelete (takes : SwitchEntry → Bool) (t : Tables) (portId vlanId : Nat) :
    (odmMulticastVlanDelete board takes t portId vlanId).control = t.control := by
  unfold odmMulticastVlanDelete
  dsimp only
  split
  · rfl
  · rfl

/-- What every round leaves alone, the fold does. -/
theorem foldl_keeps {α β : Type} (f : Tables → β) {g : Tables → α → Tables}
    (hg : ∀ t a, f (g t a) = f t) (l : List α) (t : Tables) : f (l.foldl g t) = f t := by
  induction l generalizing t with
  | nil => rfl
  | cons a l ih => exact (ih (g t a)).trans (hg t a)

theorem control_entryDeleteByVlan (takes : SwitchEntry → Bool) (t : Tables) (vlanId : Nat) :
    (odmMulticastControlEntryDeleteByVlan board takes t vlanId).2.control = t.control := by
  unfold odmMulticastControlEntryDeleteByVlan
  have hdel : (deleteGroups board takes (·.mcVlan = vlanId) t.mcGroupList.length t).2.control =
      t.control := control_deleteGroups takes _ _ t
  split
  · rename_i t' heq
    rw [heq] at hdel
    split
    · exact (foldl_keeps (·.control) (fun t i => control_vlanDelete takes t i vlanId) _ t').trans hdel
    · exact hdel
  · exact hdel

theorem control_entryDelete (takes : SwitchEntry → Bool) (t : Tables) (portId vlanId : Nat)
    (mac : Mac) :
    (odmMulticastControlEntryDelete board takes t portId vlanId mac).2.control = t.control := by
  unfold odmMulticastControlEntryDelete
  split
  · rfl
  · split
    · rfl
    · dsimp only
      split
      · exact (control_vlanDelete takes _ _ _).trans (control_deleteIfEmpty takes t _)
      · exact control_deleteIfEmpty takes t _

theorem control_age (takes : SwitchEntry → Bool) (t : Tables) :
    (mcHostAgingTimerSnoopingHandler board takes t).control = t.control := by
  unfold mcHostAgingTimerSnoopingHandler
  split
  · rfl
  · refine foldl_keeps (·.control) ?_ _ t
    intro t node
    unfold ageGroup
    dsimp only
    split
    · exact control_odmMcGroupDel takes _ _
    · rfl

/-! ### Counting -/

theorem numPerPort_eq_count (t : Tables) (portId : Nat) :
    mcGroupNumPerPort t portId = (t.mcGroupList.map (·.hostPortId)).count portId := by
  rw [mcGroupNumPerPort, List.count, List.countP_map]
  congr 1

theorem countP_le_of_shrunk {α : Type} {R : α → α → Prop} {p : α → Bool} {l' l : List α}
    (h : SublistForall₂ R l' l) (hp : ∀ a b, R a b → p a = true → p b = true) :
    l'.countP p ≤ l.countP p := by
  induction h with
  | nil => exact Nat.zero_le _
  | cons hR _ ih =>
    rename_i a b _ _ _
    rw [List.countP_cons, List.countP_cons]
    have hab := hp a b hR
    split
    · rename_i ha
      rw [if_pos (hab ha)]
      omega
    · split <;> omega
  | cons_right _ ih =>
    rw [List.countP_cons]
    omega

theorem Shrinks.numPerPort_le {t' t : Tables} (h : Shrinks t' t) (portId : Nat) :
    mcGroupNumPerPort t' portId ≤ mcGroupNumPerPort t portId := by
  refine countP_le_of_shrunk h.groups ?_
  intro g' g hkept
  have hport : g'.hostPortId = g.hostPortId := congrArg GroupKey.hostPortId hkept.key
  rw [hport]
  exact id

/-- A change of groups that leaves their ports alone. -/
theorem ports_updateFirst {p : Group → Bool} {f : Group → Group}
    (hf : ∀ g, p g = true → (f g).hostPortId = g.hostPortId) (l : List Group) :
    (updateFirst p f l).map (·.hostPortId) = l.map (·.hostPortId) := by
  induction l with
  | nil => rfl
  | cons g l ih =>
    simp only [updateFirst]
    split
    · rename_i hg
      rw [List.map_cons, List.map_cons, hf g hg]
    · rw [List.map_cons, List.map_cons, ih]

theorem numPerPort_groupModify {f : Group → Group} (hf : ∀ g, (f g).hostPortId = g.hostPortId)
    (t : Tables) (k : GroupKey) (portId : Nat) :
    mcGroupNumPerPort (groupModify t k f) portId = mcGroupNumPerPort t portId := by
  rw [numPerPort_eq_count, numPerPort_eq_count, groupModify,
    ports_updateFirst (fun g _ => hf g)]

theorem numPerPort_targetModify (kind : LeaveKind) (t : Tables) (desc : PacketDesc)
    (f : LeaveTarget → LeaveTarget) (portId : Nat) :
    mcGroupNumPerPort (targetModify kind t desc f) portId = mcGroupNumPerPort t portId := by
  cases kind with
  | snooping =>
    apply numPerPort_groupModify
    intro g
    rfl
  | ctc =>
    apply numPerPort_groupModify
    intro g
    rfl

/-! ### Reports -/

theorem joinHost_port (control : McControl) (hostNode : Bool) (k : HostKey) (g : Group) :
    (joinHost control hostNode k g).hostPortId = g.hostPortId := by
  unfold joinHost
  dsimp only
  split
  · rfl
  · split
    · rfl
    · rfl

/-- An addition puts at most one more group on its port. -/
theorem numPerPort_mcGroupListAdd {alloc : Bool} {t t' : Tables} {k : GroupKey}
    {state : NodeState} (hbit : t.control.bitmap.hostPortId = true)
    (h : mcGroupListAdd alloc t k state = some t') (portId : Nat) :
    mcGroupNumPerPort t' portId ≤
      mcGroupNumPerPort t portId + if portId = k.hostPortId then 1 else 0 := by
  unfold mcGroupListAdd at h
  split at h
  · cases h
    rw [numPerPort_eq_count, numPerPort_eq_count, ports_updateFirst]
    · exact Nat.le_add_right ..
    · intro g hg
      exact ((groupMatches_iff_sameFields.mp hg).2.1 hbit).symm
  · split at h
    · cases h
      rw [mcGroupNumPerPort, List.countP_cons, mcGroupNumPerPort]
      have hport : (groupWrite t.control.bitmap k state zeroGroup).hostPortId = k.hostPortId := rfl
      rw [hport]
      by_cases hp : portId = k.hostPortId
      · simp [hp]
      · have hp' : ¬k.hostPortId = portId := fun heq => hp heq.symm
        simp [hp, hp']
    · cases h

theorem Bounded.join {t : Tables} (h : Bounded t) (hbit : t.control.bitmap.hostPortId = true)
    (env : Env) (desc : PacketDesc) : Bounded (mcSnoopingJoinAction board env desc t) := by
  have hjoined : ∀ t : Tables, Bounded t → Bounded
      (groupModify t desc.groupKey (joinHost t.control env.hostNode desc.hostKey)) := by
    intro t h portId
    rw [numPerPort_groupModify (joinHost_port _ _ _)]
    exact h portId
  unfold mcSnoopingJoinAction
  dsimp only
  split
  · split
    · exact hjoined t h
    · split
      · exact h
      · rename_i hfull
        apply hjoined
        unfold odmMcGroupAdd
        dsimp only
        split
        · exact h
        · rename_i t' hadd
          intro portId
          have hmore := numPerPort_mcGroupListAdd (by exact hbit) hadd portId
          rw [control_mcGroupListAdd hadd]
          have hcount : mcGroupNumPerPort (dalMcGroupAdd board env.takes t desc.groupKey) portId =
              mcGroupNumPerPort t portId := rfl
          have hold : mcGroupNumPerPort t portId ≤ t.control.maxGroupNum portId := h portId
          rw [hcount] at hmore
          change mcGroupNumPerPort t' portId ≤ t.control.maxGroupNum portId
          split at hmore
          · rename_i hport
            subst hport
            have hne : mcGroupNumPerPort t desc.groupKey.hostPortId ≠
                t.control.maxGroupNum desc.groupKey.hostPortId := hfull
            omega
          · omega
  · exact h

/-! ### Lowering a limit -/

/-- Deleting by key takes one group off its port, where keys are compared at all. -/
theorem numPerPort_odmMcGroupDel {t : Tables} (hbit : t.control.bitmap.hostPortId = true)
    (hsa : t.control.bitmap.saMac = false) (takes : SwitchEntry → Bool) {g : Group}
    (hg : g ∈ t.mcGroupList) :
    (odmMcGroupDel board takes t g.toGroupKey).1 = .ok ∧
      mcGroupNumPerPort (odmMcGroupDel board takes t g.toGroupKey).2 g.hostPortId + 1 =
        mcGroupNumPerPort t g.hostPortId := by
  have hself : groupMatches t.control.bitmap g.toGroupKey g = true :=
    groupMatches_iff_sameFields.mpr ⟨hsa, fun _ => rfl, fun _ => rfl, fun _ => rfl, fun _ => rfl⟩
  have hsome : ∃ g₀, mcGroupListGet (dalMcGroupDel board takes t g.toGroupKey) g.toGroupKey =
      some g₀ := by
    rw [← Option.isSome_iff_exists, mcGroupListGet, List.find?_isSome]
    exact ⟨g, hg, hself⟩
  obtain ⟨g₀, hget⟩ := hsome
  simp only [odmMcGroupDel, mcGroupListDel, hget, true_and]
  obtain ⟨a, l₁, l₂, -, ha, hsplit, herase⟩ := List.exists_of_eraseP hg hself
  have hport : a.hostPortId = g.hostPortId := (groupMatches_iff_sameFields.mp ha).2.1 hbit
  change (t.mcGroupList.eraseP (groupMatches t.control.bitmap g.toGroupKey)).countP
    (·.hostPortId = g.hostPortId) + 1 = t.mcGroupList.countP (·.hostPortId = g.hostPortId)
  rw [herase, hsplit, List.countP_append, List.countP_append, List.countP_cons,
    if_pos (by simp [hport])]
  omega

/-- The loop takes as many groups off the port as it is told to. -/
theorem numPerPort_deleteGroups (takes : SwitchEntry → Bool) (portId n : Nat) {t : Tables}
    (hbit : t.control.bitmap.hostPortId = true) (hsa : t.control.bitmap.saMac = false)
    (hn : n ≤ mcGroupNumPerPort t portId) :
    mcGroupNumPerPort (deleteGroups board takes (·.hostPortId = portId) n t).2 portId + n =
      mcGroupNumPerPort t portId := by
  induction n generalizing t with
  | zero => rfl
  | succ n ih =>
    unfold deleteGroups
    split
    · rename_i hnone
      have hzero : mcGroupNumPerPort t portId = 0 := by
        rw [mcGroupNumPerPort, List.countP_eq_zero]
        exact fun g hg => List.find?_eq_none.mp hnone g hg
      omega
    · rename_i g hfound
      have hport : g.hostPortId = portId := by simpa using List.find?_some hfound
      have hcontrol : (odmMcGroupDel board takes t g.toGroupKey).2.control = t.control :=
        control_odmMcGroupDel takes t _
      obtain ⟨hok, hcount⟩ : (odmMcGroupDel board takes t g.toGroupKey).1 = .ok ∧ _ :=
        numPerPort_odmMcGroupDel hbit hsa takes (List.mem_of_find?_eq_some hfound)
      rw [hport] at hcount
      split
      · rename_i t' heq
        rw [heq] at hcontrol hcount
        dsimp only at hcount
        have hrest := ih (t := t') (by rw [hcontrol]; exact hbit) (by rw [hcontrol]; exact hsa)
          (by omega)
        omega
      · rename_i hfailed
        exact (hfailed (odmMcGroupDel board takes t g.toGroupKey).2 (Prod.ext hok rfl)).elim

/-- Where groups are searched by the source MAC, none is deleted. -/
theorem list_deleteGroups_of_saMac (takes : SwitchEntry → Bool) (p : Group → Bool) (n : Nat)
    {t : Tables} (hsa : t.control.bitmap.saMac = true) :
    (deleteGroups board takes p n t).2.mcGroupList = t.mcGroupList := by
  cases n with
  | zero => rfl
  | succ n =>
    unfold deleteGroups
    split
    · rfl
    · rename_i g _
      have hget : mcGroupListGet (dalMcGroupDel board takes t g.toGroupKey) g.toGroupKey = none :=
        get_of_saMac hsa _
      have hdel : odmMcGroupDel board takes t g.toGroupKey =
          (.notExist, dalMcGroupDel board takes t g.toGroupKey) := by
        simp only [odmMcGroupDel, mcGroupListDel, hget]
      rw [hdel]
      rfl

theorem maxGroupNum_set (takes : SwitchEntry → Bool) (t : Tables) (portId maxGroup : Nat) :
    (odmMcControlBlockMaxGroupNumSet board takes t portId maxGroup).control.maxGroupNum =
      Function.update t.control.maxGroupNum portId maxGroup := by
  unfold odmMcControlBlockMaxGroupNumSet odmMulticastControlEntryNumSet
  dsimp only
  split
  · rw [control_deleteGroups]
  · rfl

/-- The groups of the port that are too many are deleted, where they are found. -/
theorem numPerPort_entryNumSet (takes : SwitchEntry → Bool) {t : Tables} {portId num : Nat}
    (hbit : t.control.bitmap.hostPortId = true) (hport : isHostPort board portId = true)
    (hsa : t.control.bitmap.saMac = false) :
    mcGroupNumPerPort (odmMulticastControlEntryNumSet board takes t portId num).2 portId ≤ num := by
  rw [odmMulticastControlEntryNumSet, if_pos hport]
  have hloop : mcGroupNumPerPort (deleteGroups board takes (·.hostPortId = portId)
      (mcGroupNumPerPort t portId - num) t).2 portId + (mcGroupNumPerPort t portId - num) =
        mcGroupNumPerPort t portId :=
    numPerPort_deleteGroups takes portId _ hbit hsa (Nat.sub_le ..)
  omega

/-- Elsewhere none is. -/
theorem list_entryNumSet (takes : SwitchEntry → Bool) {t : Tables} {portId : Nat} (num : Nat)
    (hcannot : ¬(isHostPort board portId = true ∧ t.control.bitmap.saMac = false)) :
    (odmMulticastControlEntryNumSet board takes t portId num).2.mcGroupList = t.mcGroupList := by
  unfold odmMulticastControlEntryNumSet
  split
  · rename_i hport
    apply list_deleteGroups_of_saMac
    rw [← Bool.not_eq_false]
    exact fun hsa => hcannot ⟨hport, hsa⟩
  · rfl

/-- One limit is set: the bound survives exactly when the groups too many are found. -/
theorem bounded_maxGroupNumSet_iff (takes : SwitchEntry → Bool) {t : Tables} (h : Bounded t)
    (hbit : t.control.bitmap.hostPortId = true) (portId num : Nat) :
    Bounded (odmMcControlBlockMaxGroupNumSet board takes t portId num) ↔
      CanLower board t portId num := by
  constructor
  · intro hbounded
    by_cases hfound : isHostPort board portId = true ∧ t.control.bitmap.saMac = false
    · exact Or.inr hfound
    · left
      have hlist : (odmMcControlBlockMaxGroupNumSet board takes t portId num).mcGroupList =
          t.mcGroupList := list_entryNumSet takes num hfound
      have hle := hbounded portId
      rw [maxGroupNum_set, Function.update_self, mcGroupNumPerPort, hlist] at hle
      exact hle
  · intro hcan i
    have hshrinks : mcGroupNumPerPort (odmMcControlBlockMaxGroupNumSet board takes t portId num) i ≤
        mcGroupNumPerPort t i := (shrinks_maxGroupNumSet takes t portId num).numPerPort_le i
    rw [maxGroupNum_set]
    by_cases hi : i = portId
    · subst hi
      rw [Function.update_self]
      rcases hcan with hle | ⟨hport, hsa⟩
      · exact hshrinks.trans hle
      · exact numPerPort_entryNumSet takes (by exact hbit) hport hsa
    · rw [Function.update_of_ne hi]
      exact hshrinks.trans (h i)

/-- A later limit is found as before. -/
theorem CanLower.after {t : Tables} {i num : Nat} (h : CanLower board t i num)
    (takes : SwitchEntry → Bool) (portId : Nat) :
    CanLower board (odmMcControlBlockMaxGroupNumSet board takes t portId num) i num := by
  have hshrinks : Shrinks (odmMcControlBlockMaxGroupNumSet board takes t portId num) t :=
    shrinks_maxGroupNumSet takes t portId num
  rcases h with hle | ⟨hport, hsa⟩
  · exact Or.inl ((hshrinks.numPerPort_le i).trans hle)
  · right
    rw [hshrinks.bitmap]
    exact ⟨hport, hsa⟩

/-- With the source MAC the limits go down and the groups stay. -/
theorem foldl_maxGroupNumSet_of_saMac (takes : SwitchEntry → Bool) (num : Nat) (ports : List Nat)
    {t : Tables} (hsa : t.control.bitmap.saMac = true) :
    (ports.foldl (fun t i => odmMcControlBlockMaxGroupNumSet board takes t i num)
        t).mcGroupList = t.mcGroupList ∧
      ∀ i, i ∈ ports ∨ t.control.maxGroupNum i = num →
        (ports.foldl (fun t i => odmMcControlBlockMaxGroupNumSet board takes t i num)
          t).control.maxGroupNum i = num := by
  induction ports generalizing t with
  | nil => exact ⟨rfl, fun i hi => hi.resolve_left List.not_mem_nil⟩
  | cons portId ports ih =>
    have hsa' : (odmMcControlBlockMaxGroupNumSet board takes t portId num).control.bitmap.saMac =
        true := by
      rw [(shrinks_maxGroupNumSet takes t portId num).bitmap]
      exact hsa
    have hlist : (odmMcControlBlockMaxGroupNumSet board takes t portId num).mcGroupList =
        t.mcGroupList := list_entryNumSet takes num (fun hno => by
          have hfalse : t.control.bitmap.saMac = false := hno.2
          rw [hsa] at hfalse
          cases hfalse)
    obtain ⟨hsame, hmax⟩ := ih hsa'
    refine ⟨hsame.trans hlist, ?_⟩
    intro i hi
    apply hmax
    rw [maxGroupNum_set]
    by_cases heq : i = portId
    · right
      rw [heq, Function.update_self]
    · rw [Function.update_of_ne heq]
      rcases hi with hmem | hnum
      · exact Or.inl ((List.mem_cons.mp hmem).resolve_left heq)
      · exact Or.inr hnum

/-- The limits of several host ports are set one after the other. -/
theorem bounded_foldl_iff (takes : SwitchEntry → Bool) (num : Nat) {ports : List Nat}
    (hports : ∀ i ∈ ports, isHostPort board i = true) {t : Tables} (h : Bounded t)
    (hbit : t.control.bitmap.hostPortId = true) :
    Bounded (ports.foldl (fun t i => odmMcControlBlockMaxGroupNumSet board takes t i num) t) ↔
      ∀ i ∈ ports, CanLower board t i num := by
  constructor
  · intro hbounded i hi
    cases hsa : t.control.bitmap.saMac with
    | false => exact Or.inr ⟨hports i hi, hsa⟩
    | true =>
      left
      obtain ⟨hlist, hmax⟩ : _ ∧ _ := foldl_maxGroupNumSet_of_saMac takes num ports hsa
      have hle := hbounded i
      rw [hmax i (Or.inl hi), mcGroupNumPerPort, hlist] at hle
      exact hle
  · intro hcan
    clear hports
    induction ports generalizing t with
    | nil => exact h
    | cons portId ports ih =>
      apply ih
      · exact (bounded_maxGroupNumSet_iff takes h hbit portId num).mpr
          (hcan portId (List.mem_cons_self ..))
      · rw [(shrinks_maxGroupNumSet takes t portId num).bitmap]
        exact hbit
      · intro i hi
        exact (hcan i (List.mem_cons_of_mem _ hi)).after takes portId

theorem isHostPort_of_mem_limitPorts {portId num i : Nat} (h : i ∈ limitPorts board portId num) :
    isHostPort board i = true := by
  have hhost : ∀ j ∈ hostPorts board, isHostPort board j = true := by
    intro j hj
    have hrange := List.mem_range'_1.mp hj
    simp only [isHostPort, Bool.and_eq_true, decide_eq_true_eq]
    omega
  unfold limitPorts at h
  split at h
  · cases h
  · split at h
    · exact hhost i h
    · split at h
      · rw [List.mem_singleton.mp h]
        assumption
      · cases h

/-- The call sets the limits of its ports. -/
theorem groupMaxNumSet_eq (respin : Bool) (takes : SwitchEntry → Bool) (t : Tables)
    (portId num : Nat) :
    (odmMulticastGroupMaxNumSet board respin takes t portId num).2 =
      (limitPorts board portId num).foldl
        (fun t i => odmMcControlBlockMaxGroupNumSet board takes t i num) t := by
  unfold odmMulticastGroupMaxNumSet limitPorts
  by_cases hnum : odmMaxGrupNumPerPort < num ∨ num = 0
  · simp only [if_pos hnum]
    split
    · rfl
    · split <;> rfl
  · simp only [if_neg hnum]
    by_cases hall : portId = 255
    · subst hall
      simp
    · simp only [if_neg hall]
      cases hport : isHostPort board portId with
      | true =>
        have hzero : portId ≠ 0 := by
          rintro rfl
          simp [isHostPort] at hport
        simp [hzero]
      | false =>
        simp [hall]
        split <;> rfl

/-! ### Steps -/

theorem Bounded.shrinks {t' t : Tables} (h : Bounded t) (hshrinks : Shrinks t' t)
    (hmax : t'.control.maxGroupNum = t.control.maxGroupNum) : Bounded t' := by
  intro portId
  rw [hmax]
  exact (hshrinks.numPerPort_le portId).trans (h portId)

theorem bounded_of_nil {t : Tables} (h : t.mcGroupList = []) : Bounded t := by
  intro portId
  rw [mcGroupNumPerPort, h]
  exact Nat.zero_le _

theorem Bounded.targetModify {t : Tables} (h : Bounded t) (kind : LeaveKind) (desc : PacketDesc)
    (f : LeaveTarget → LeaveTarget) : Bounded (targetModify kind t desc f) := by
  intro portId
  rw [numPerPort_targetModify, targetModify_control]
  exact h portId

theorem Bounded.removeTarget {t : Tables} (h : Bounded t) (takes : SwitchEntry → Bool)
    (kind : LeaveKind) (desc : PacketDesc) : Bounded (removeTarget board takes kind t desc) :=
  h.shrinks (shrinks_removeTarget takes kind t desc) (by rw [control_removeTarget])

/-- No packet makes up for the use of a freed descriptor, and none changes the mode or the
keys. -/
theorem packet_frame (board : Board) (env : Env) (desc : PacketDesc) (s : McState) :
    (mcInput board env desc s).stale = s.stale ∧
      (mcInput board env desc s).tables.control.mcMode = s.tables.control.mcMode ∧
      (mcInput board env desc s).tables.control.bitmap = s.tables.control.bitmap := by
  have heffect := mcInput_effect board env desc s
  generalize mcInput board env desc s = s' at heffect
  cases heffect with
  | opened kind hkind hopens target htarget hfree =>
    unfold openLeave
    dsimp only
    split <;> simp [targetModify_control]
  | report kind hkind _ _ =>
    have hevolves : Evolves (joinTables board env kind desc s.tables) s.tables :=
      evolves_joinTables env desc hkind
    exact ⟨rfl, hevolves.mcMode, hevolves.bitmap⟩
  | fast kind hkind hfast => exact ⟨rfl, by rw [control_removeTarget], by rw [control_removeTarget]⟩
  | nothing => exact ⟨rfl, rfl, rfl⟩

theorem Bounded.packet {s : McState} (h : Bounded s.tables)
    (hbit : s.tables.control.bitmap.hostPortId = true) (hmode : s.tables.control.mcMode = .snooping)
    (env : Env) (desc : PacketDesc) : Bounded (mcInput board env desc s).tables := by
  have heffect := mcInput_effect board env desc s
  generalize mcInput board env desc s = s' at heffect
  cases heffect with
  | opened kind hkind hopens target htarget hfree =>
    unfold openLeave
    dsimp only
    split
    · exact (h.targetModify kind desc _).targetModify kind desc _
    · exact h.targetModify kind desc _
  | report kind hkind _ _ =>
    rw [hmode] at hkind
    cases hkind
    exact h.join hbit env desc
  | fast kind hkind hfast => exact h.removeTarget env.takes kind desc
  | nothing => exact h

theorem handle_frame (board : Board) (takes : SwitchEntry → Bool) (s : McState) :
    ((mcTimerMsgThread board takes s).stale = false → s.stale = false) ∧
      (mcTimerMsgThread board takes s).tables.control = s.tables.control ∧
      (Bounded s.tables → Bounded (mcTimerMsgThread board takes s).tables) := by
  cases hqueue : s.queue with
  | nil =>
    rw [mcTimerMsgThread_nil takes hqueue]
    exact ⟨id, rfl, id⟩
  | cons msg queue =>
    obtain ⟨kind, d⟩ := msg
    cases hld : s.descs d with
    | none =>
      rw [mcTimerMsgThread_stale takes hqueue hld]
      exact ⟨fun hfalse => (Bool.noConfusion hfalse), rfl, id⟩
    | some ld =>
      have heffect : MessageEffect board takes { s with queue := queue } kind d ld.desc
          (mcTimerMsgThread board takes s) := mcTimerMsgThread_effect takes hqueue hld
      generalize mcTimerMsgThread board takes s = s' at heffect
      cases heffect with
      | query => exact ⟨id, rfl, id⟩
      | last t hlast =>
        refine ⟨id, ?_, ?_⟩
        · cases hlast with
          | gone | overrun => rfl
          | reported => exact targetModify_control ..
          | removed => exact control_removeTarget ..
        · intro h
          cases hlast with
          | gone | overrun => exact h
          | reported => exact h.targetModify kind ld.desc _
          | removed => exact h.removeTarget takes kind ld.desc

/-- Steps that take groups away. -/
theorem WithinLimits.shrinks {s : McState} (h : WithinLimits s) {t' : Tables}
    (hshrinks : Shrinks t' s.tables)
    (hmax : t'.control.maxGroupNum = s.tables.control.maxGroupNum) :
    WithinLimits { s with tables := t' } := by
  intro hstale hmode
  refine (h hstale ?_).shrinks hshrinks hmax
  rw [← hshrinks.mcMode]
  exact hmode

theorem withinLimits_of_nil {s : McState} (h : s.tables.mcGroupList = []) : WithinLimits s :=
  fun _ _ => bounded_of_nil h

/-- Every step but the setting of a limit keeps the bound. -/
theorem WithinLimits.step {s : McState} (h : WithinLimits s)
    (hbit : s.tables.control.bitmap.hostPortId = true) {e : McEvent}
    (hother : ∀ takes portId maxGroup, e ≠ .maxGroupNumSet takes portId maxGroup) :
    WithinLimits (mcStep board s e) := by
  cases e with
  | packet env desc =>
    obtain ⟨hstale, hmode, -⟩ := packet_frame board env desc s
    intro hstale' hmode'
    have hold : s.tables.control.mcMode = .snooping := hmode.symm.trans hmode'
    exact (h (hstale.symm.trans hstale') hold).packet hbit hold env desc
  | handle takes =>
    obtain ⟨hstale, hcontrol, hkeeps⟩ := handle_frame board takes s
    intro hstale' hmode'
    refine hkeeps (h (hstale hstale') ?_)
    rw [← hcontrol]
    exact hmode'
  | fire d =>
    obtain ⟨callback, hfire⟩ := fireTimer_frame d s
    have hstep : mcStep board s (.fire d) = { s with callback := callback } := hfire
    rw [hstep]
    exact h
  | send =>
    obtain ⟨callback, queue, hsend⟩ := mcTimerMsgSend_frame s
    have hstep : mcStep board s .send = { s with callback := callback, queue := queue } := hsend
    rw [hstep]
    exact h
  | age takes => exact h.shrinks (shrinks_age takes s.tables) (by rw [control_age])
  | entryAdd env portId vlanId mac =>
    intro hstale hmode
    -- entries are added in CTC mode only, and the mode stays
    by_cases hctc : s.tables.control.mcMode = .ctc
    · have hsame : (mcStep board s (.entryAdd env portId vlanId mac)).tables.control.mcMode =
          s.tables.control.mcMode := (evolves_entryAdd env s.tables portId vlanId mac).mcMode
      rw [hsame, hctc] at hmode
      cases hmode
    · have hsame : (mcStep board s (.entryAdd env portId vlanId mac)).tables = s.tables := by
        simp only [mcStep, onTables, odmMulticastControlEntryAdd, if_pos hctc]
      rw [hsame] at hmode ⊢
      exact h hstale hmode
  | entryDelete takes portId vlanId mac =>
    exact h.shrinks (shrinks_entryDelete ..) (by rw [control_entryDelete])
  | entryDeleteByVlan takes vlanId =>
    exact h.shrinks (shrinks_entryDeleteByVlan ..) (by rw [control_entryDeleteByVlan])
  | entryClear takes => exact withinLimits_of_nil rfl
  | maxGroupNumSet takes portId maxGroup => exact absurd rfl (hother takes portId maxGroup)
  | switchSet takes mcMode =>
    simp only [mcStep, onTables, odmMulticastSwitchSet]
    split
    · exact h
    · exact withinLimits_of_nil rfl
  | controlTypeSet takes ctcControlType =>
    simp only [mcStep, onTables, odmMcControlBlockCtcControlTypeSet]
    split
    · exact h
    · exact withinLimits_of_nil rfl
  | hostAgingTimeSet hostAgingTime =>
    refine h.shrinks (shrinks_hostAgingTimeSet ..) ?_
    dsimp only [odmMulticastHostAgingTimeSet]
    split <;> rfl
  | leaveModeSet leaveMode => exact h
  | lastQueryIntervalSet lastQueryInterval => exact h
  | lastQueryCountSet lastQueryCount => exact h

/-- Groups are always searched by their port. -/
def ByPort (s : McState) : Prop := s.tables.control.bitmap.hostPortId = true

theorem hostPortId_bitmap (type : CtcControlType) : type.bitmap.hostPortId = true := by
  cases type <;> rfl

theorem ByPort.mcStep {s : McState} (h : ByPort s) (e : McEvent) :
    ByPort (Multicast.mcStep board s e) := by
  unfold ByPort at h ⊢
  cases e with
  | packet env desc =>
    change (mcInput board env desc s).tables.control.bitmap.hostPortId = true
    rw [(packet_frame board env desc s).2.2]
    exact h
  | handle takes =>
    change (mcTimerMsgThread board takes s).tables.control.bitmap.hostPortId = true
    rw [(handle_frame board takes s).2.1]
    exact h
  | fire d =>
    obtain ⟨callback, hfire⟩ := fireTimer_frame d s
    change (fireTimer d s).tables.control.bitmap.hostPortId = true
    rw [hfire]
    exact h
  | send =>
    obtain ⟨callback, queue, hsend⟩ := mcTimerMsgSend_frame s
    change (mcTimerMsgSend s).tables.control.bitmap.hostPortId = true
    rw [hsend]
    exact h
  | entryAdd env portId vlanId mac =>
    simp only [Multicast.mcStep, onTables, (evolves_entryAdd ..).bitmap]
    exact h
  | age takes =>
    simp only [Multicast.mcStep, onTables, control_age]
    exact h
  | entryDelete takes portId vlanId mac =>
    simp only [Multicast.mcStep, onTables, control_entryDelete]
    exact h
  | entryDeleteByVlan takes vlanId =>
    simp only [Multicast.mcStep, onTables, control_entryDeleteByVlan]
    exact h
  | entryClear takes =>
    simp only [Multicast.mcStep, onTables, control_entryClear]
    exact h
  | maxGroupNumSet takes portId maxGroup =>
    simp only [Multicast.mcStep, onTables, (shrinks_maxGroupNumSet ..).bitmap]
    exact h
  | switchSet takes mcMode =>
    simp only [Multicast.mcStep, onTables, odmMulticastSwitchSet]
    split
    · exact h
    · rw [control_entryClear]
      exact h
  | controlTypeSet takes ctcControlType =>
    simp only [Multicast.mcStep, onTables, odmMcControlBlockCtcControlTypeSet]
    split
    · exact h
    · exact hostPortId_bitmap ctcControlType
  | hostAgingTimeSet hostAgingTime =>
    simp only [Multicast.mcStep, onTables, (shrinks_hostAgingTimeSet ..).bitmap]
    exact h
  | leaveModeSet leaveMode => exact h
  | lastQueryIntervalSet lastQueryInterval => exact h
  | lastQueryCountSet lastQueryCount => exact h

theorem shrinks_groupMaxNumSet (respin : Bool) (takes : SwitchEntry → Bool) (t : Tables)
    (portId num : Nat) :
    Shrinks (odmMulticastGroupMaxNumSet board respin takes t portId num).2 t := by
  rw [groupMaxNumSet_eq]
  exact shrinks_foldl (fun t i => shrinks_maxGroupNumSet takes t i num) _ t

theorem shrinks_entryNumSet (takes : SwitchEntry → Bool) (t : Tables) (portId num : Nat) :
    Shrinks (odmMulticastControlEntryNumSet board takes t portId num).2 t := by
  unfold odmMulticastControlEntryNumSet
  split
  · exact shrinks_deleteGroups takes _ _ t
  · exact Shrinks.refl t

theorem ByPort.step {s : McState} (h : ByPort s) (e : LimitEvent) :
    ByPort (limitStep board s e) := by
  cases e with
  | mc e => exact h.mcStep e
  | groupMaxNumSet respin takes portId num =>
    unfold ByPort at h ⊢
    simp only [limitStep, onTables, (shrinks_groupMaxNumSet ..).bitmap]
    exact h
  | entryNumSet takes portId num =>
    unfold ByPort at h ⊢
    simp only [limitStep, onTables, (shrinks_entryNumSet ..).bitmap]
    exact h

/-- A limit that is set in a state where the bound says nothing leaves it so. -/
theorem withinLimits_iff_of_mode {s : McState} {t' : Tables}
    (hmode : t'.control.mcMode = s.tables.control.mcMode) {G : Prop}
    (hiff : s.stale = false → s.tables.control.mcMode = .snooping → (Bounded t' ↔ G)) :
    WithinLimits { s with tables := t' } ↔
      (s.stale = false → s.tables.control.mcMode = .snooping → G) := by
  constructor
  · intro h hstale hsnoop
    exact (hiff hstale hsnoop).mp (h hstale (hmode.trans hsnoop))
  · intro h hstale hsnoop
    have hold := hmode.symm.trans hsnoop
    exact (hiff hstale hold).mpr (h hstale hold)

/-- One step keeps the bound exactly when it meets the condition. -/
theorem withinLimits_step_iff {s : McState} (hport : ByPort s) (h : WithinLimits s)
    (e : LimitEvent) : WithinLimits (limitStep board s e) ↔ lowersFound board s e := by
  cases e with
  | mc e =>
    by_cases hset : ∃ takes portId maxGroup, e = .maxGroupNumSet takes portId maxGroup
    · obtain ⟨takes, portId, maxGroup, rfl⟩ := hset
      refine withinLimits_iff_of_mode (shrinks_maxGroupNumSet takes s.tables portId maxGroup).mcMode ?_
      intro hstale hsnoop
      exact bounded_maxGroupNumSet_iff takes (h hstale hsnoop) hport portId maxGroup
    · have hstep : WithinLimits (limitStep board s (.mc e)) := by
        apply h.step hport
        intro takes portId maxGroup heq
        exact hset ⟨takes, portId, maxGroup, heq⟩
      have htrue : lowersFound board s (.mc e) := by
        cases e with
        | maxGroupNumSet takes portId maxGroup => exact absurd ⟨takes, portId, maxGroup, rfl⟩ hset
        | packet | fire | send | handle | age | entryAdd | entryDelete | entryDeleteByVlan
        | entryClear | switchSet | controlTypeSet | leaveModeSet | hostAgingTimeSet
        | lastQueryIntervalSet | lastQueryCountSet => trivial
      exact ⟨fun _ => htrue, fun _ => hstep⟩
  | groupMaxNumSet respin takes portId num =>
    refine withinLimits_iff_of_mode (shrinks_groupMaxNumSet respin takes s.tables portId num).mcMode ?_
    intro hstale hsnoop
    rw [groupMaxNumSet_eq]
    exact bounded_foldl_iff takes num (fun i hi => isHostPort_of_mem_limitPorts hi)
      (h hstale hsnoop) hport
  | entryNumSet takes portId num =>
    refine ⟨fun _ => trivial, fun _ => ?_⟩
    refine h.shrinks (shrinks_entryNumSet takes s.tables portId num) ?_
    unfold odmMulticastControlEntryNumSet
    split
    · rw [control_deleteGroups]
    · rfl

/-! ### Runs -/

/-- **In snooping mode no port has more groups than its limit, in every state of a run,
exactly when every limit the run lowers finds the groups that are too many.** -/
theorem groups_within_limits (board : Board) (c : McConfig) (vlans : VlanState)
    (es : List LimitEvent) :
    AllStates (limitStep board) WithinLimits (mcInit c vlans) es ↔
      AllSteps (limitStep board) (lowersFound board) (mcInit c vlans) es := by
  have hstart : ByPort (mcInit c vlans) := by
    simp only [ByPort, mcInit, mcControlInit]
    split <;> exact hostPortId_bitmap _
  exact allStates_iff_of_step (limitStep board) ByPort (fun _ e hs => hs.step e)
    (fun _ e hs hwithin => withinLimits_step_iff hs hwithin e) hstart (withinLimits_of_nil rfl) es

/-- The control type is set to the one with the source MAC while snooping, two groups are
reported, and the limit of their port is lowered to one. -/
theorem lowered_limit_deletes_nothing :
    ¬AllStates (limitStep .onu1Port) WithinLimits (mcInit mcConfigDefault vlanInit)
      [.mc (.controlTypeSet (fun _ => true) .gdaSaMac),
        .mc (.packet .granting (reportFrom 1 7 0xe0010101)),
        .mc (.packet .granting (reportFrom 1 7 0xe0010102)),
        .groupMaxNumSet false (fun _ => true) 1 1] := by
  intro hall
  have hbound := hall.last rfl rfl 1
  revert hbound
  decide

end Opconn.Multicast
