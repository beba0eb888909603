import Mathlib.Data.List.Perm.Subperm
import Opconn.Lib.Runs
import Opconn.Multicast.TableSteps

/-!
# Who owns a descriptor

A descriptor is owned by the leave that allocated it until the message that ends the
leave frees it.  The recurring timer knows nothing of this: when it expires again before
the consumer came to the last message, a message is left behind that points to freed
memory.  With no such message, each descriptor is freed exactly once, and the more
messages of it are handled, the closer it is to that.
-/

namespace Opconn.Multicast

open Runs

variable {board : Board}

/-- The messages on their way: queued, or about to be queued by the timer task. -/
def pending (s : McState) : List (LeaveKind × Nat) := s.callback.toList ++ s.queue

/-- The next message the consumer takes belongs to descriptor `d`. -/
def handlesMessageOf (d : Nat) (s : McState) : McEvent → Bool
  | .handle _ =>
    match s.queue with
    | [] => false
    | (_, d') :: _ => d' = d
  | _ => false

/-- **The condition on a step.**  A message is handled while another one of its descriptor
is on its way only when it is not the last of its leave; a leave gets a timer of the pool,
for at least a tick. -/
def handledInTime (board : Board) (s : McState) : McEvent → Bool
  | .handle _ =>
    match s.queue with
    | [] => true
    | (kind, d) :: queue =>
      match s.descs d with
      | none => true
      | some ld =>
        !(s.callback.toList ++ queue).any (·.2 = d) || leaveGoesOn s kind ld.desc
  | .packet env desc =>
    !(opensLeave board desc s && env.leaveDesc) ||
      (env.leaveTimer && decide (Vos.timerGranularity ≤ s.tables.control.lastQueryInterval))
  | _ => true

/-- **What is to hold of the descriptors**: no message was handled after its descriptor was
freed, a descriptor is on the heap or was freed once, and those on the heap have a running
timer. -/
structure DescriptorsSafe (s : McState) : Prop where
  fresh : s.stale = false
  once : ∀ d, d < s.next → s.freed.count d = if s.descs d = none then 1 else 0
  armed : ∀ d ld, s.descs d = some ld → ld.timer = true ∧ Vos.timerGranularity ≤ ld.interval
  refers : ∀ kind d, (kind, d) ∈ pending s → s.descs d ≠ none

/-! ### What a step does to the heap -/

theorem pending_send (s : McState) : pending (mcTimerMsgSend s) ⊆ pending s := by
  unfold mcTimerMsgSend
  cases hcallback : s.callback with
  | none =>
    simp only
    exact List.Subset.refl _
  | some msg =>
    intro m hmem
    simp only [pending, hcallback, Option.toList_none, Option.toList_some, List.nil_append,
      List.mem_append, List.mem_singleton] at hmem ⊢
    exact hmem.symm

theorem pending_of_tail {s s' : McState} {msg : LeaveKind × Nat} {queue : List (LeaveKind × Nat)}
    (hqueue : s.queue = msg :: queue) (hcallback : s'.callback = s.callback)
    (htail : s'.queue = queue) : pending s' ⊆ pending s := by
  intro m hmem
  rw [pending, hcallback, htail] at hmem
  rw [pending, hqueue]
  rcases List.mem_append.mp hmem with hcall | hrest
  · exact List.mem_append_left _ hcall
  · exact List.mem_append_right _ (List.mem_cons_of_mem _ hrest)

/-- The descriptors and their counters are left alone, and no query is sent. -/
structure HeapKept (s s' : McState) : Prop where
  i : s'.i = s.i
  descs : s'.descs = s.descs
  next : s'.next = s.next
  freed : s'.freed = s.freed
  asked : ∀ d, s'.marks.count (.query d) = s.marks.count (.query d)

theorem heapKept_tables (s : McState) (t : Tables) : HeapKept s { s with tables := t } :=
  ⟨rfl, rfl, rfl, rfl, fun _ => rfl⟩

theorem heapKept_report (s : McState) (t : Tables) (kind : LeaveKind) (desc : PacketDesc) :
    HeapKept s { s with tables := t, marks := .report kind desc :: s.marks } :=
  ⟨rfl, rfl, rfl, rfl, fun _ => List.count_cons_of_ne (by simp)⟩

theorem heapKept_messages (s : McState) (callback : Option (LeaveKind × Nat))
    (queue : List (LeaveKind × Nat)) (stale : Bool) :
    HeapKept s { s with callback := callback, queue := queue, stale := stale } :=
  ⟨rfl, rfl, rfl, rfl, fun _ => rfl⟩

/-- Everything a step can do to the heap of descriptors, the counters and the messages. -/
inductive HeapEffect (board : Board) (s : McState) : McEvent → McState → Prop where
  | kept {e : McEvent} {s' : McState} (hkept : HeapKept s s') (hpending : pending s' ⊆ pending s)
      (hstale : s'.stale = s.stale) (hother : ∀ d, handlesMessageOf d s e = false) :
      HeapEffect board s e s'
  | opened {env : Env} {desc : PacketDesc} (kind : LeaveKind) (t : Tables)
      (hopens : opensLeave board desc s = true) (hdesc : env.leaveDesc = true) :
      HeapEffect board s (.packet env desc) { s with
        tables := t
        descs := Function.update s.descs s.next
          (some ⟨kind, desc, s.tables.control.lastQueryInterval, env.leaveTimer⟩)
        next := s.next + 1
        marks := .opened s.next :: s.marks }
  | fired {d : Nat} {ld : LeaveDesc} (hld : s.descs d = some ld) :
      HeapEffect board s (.fire d) { s with callback := some (ld.kind, d) }
  | handled {takes : SwitchEntry → Bool} {kind : LeaveKind} {d : Nat} {ld : LeaveDesc}
      {queue : List (LeaveKind × Nat)} {s' : McState} (hqueue : s.queue = (kind, d) :: queue)
      (hld : s.descs d = some ld)
      (heffect : MessageEffect board takes { s with queue := queue } kind d ld.desc s') :
      HeapEffect board s (.handle takes) s'
  | stale {takes : SwitchEntry → Bool} {kind : LeaveKind} {d : Nat}
      {queue : List (LeaveKind × Nat)} (hqueue : s.queue = (kind, d) :: queue)
      (hfreed : s.descs d = none) :
      HeapEffect board s (.handle takes) { s with queue := queue, stale := true }

theorem mcInput_heap (env : Env) (desc : PacketDesc) (s : McState) :
    HeapEffect board s (.packet env desc) (mcInput board env desc s) := by
  have heffect := mcInput_effect board env desc s
  generalize mcInput board env desc s = s' at heffect ⊢
  cases heffect with
  | opened kind _ hopens _ _ _ =>
    unfold openLeave
    cases hdesc : env.leaveDesc with
    | true => exact .opened kind _ hopens hdesc
    | false => exact .kept (heapKept_tables s _) (List.Subset.refl _) rfl fun _ => rfl
  | report kind => exact .kept (heapKept_report s _ kind desc) (List.Subset.refl _) rfl fun _ => rfl
  | fast kind => exact .kept (heapKept_tables s _) (List.Subset.refl _) rfl fun _ => rfl
  | nothing => exact .kept (heapKept_tables s _) (List.Subset.refl _) rfl fun _ => rfl

theorem fireTimer_heap (d : Nat) (s : McState) :
    HeapEffect board s (.fire d) (fireTimer d s) := by
  have hidle : HeapEffect board s (.fire d) s :=
    .kept (heapKept_tables s _) (List.Subset.refl _) rfl fun _ => rfl
  unfold fireTimer
  split
  · rename_i hld
    split
    · exact .fired hld
    · exact hidle
  · exact hidle

theorem mcTimerMsgSend_heap (s : McState) : HeapEffect board s .send (mcTimerMsgSend s) := by
  obtain ⟨callback, queue, hsend⟩ := mcTimerMsgSend_frame s
  have hpending := pending_send s
  rw [hsend] at hpending ⊢
  exact .kept (heapKept_messages s callback queue s.stale) hpending rfl fun _ => rfl

theorem mcTimerMsgThread_heap (takes : SwitchEntry → Bool) (s : McState) :
    HeapEffect board s (.handle takes) (mcTimerMsgThread board takes s) := by
  cases hqueue : s.queue with
  | nil =>
    rw [mcTimerMsgThread_nil takes hqueue]
    refine .kept (heapKept_tables s _) (List.Subset.refl _) rfl ?_
    intro d
    simp [handlesMessageOf, hqueue]
  | cons msg queue =>
    obtain ⟨kind, d⟩ := msg
    cases hld : s.descs d with
    | none =>
      rw [mcTimerMsgThread_stale takes hqueue hld]
      exact .stale hqueue hld
    | some ld => exact .handled hqueue hld (mcTimerMsgThread_effect takes hqueue hld)

theorem mcStep_heap (s : McState) (e : McEvent) : HeapEffect board s e (mcStep board s e) := by
  cases e with
  | packet env desc => exact mcInput_heap env desc s
  | fire d => exact fireTimer_heap d s
  | send => exact mcTimerMsgSend_heap s
  | handle takes => exact mcTimerMsgThread_heap takes s
  | age | entryAdd | entryDelete | entryDeleteByVlan | entryClear | maxGroupNumSet | switchSet
  | controlTypeSet | leaveModeSet | hostAgingTimeSet | lastQueryIntervalSet | lastQueryCountSet =>
    exact .kept (heapKept_tables s _) (List.Subset.refl _) rfl fun _ => rfl

/-- The timer task and the configuration leave the heap alone. -/
theorem heapKept_step {s : McState} {e : McEvent} (hquiet : e.quiet = true) :
    HeapKept s (mcStep board s e) := by
  have hheap : HeapEffect board s e (mcStep board s e) := mcStep_heap s e
  generalize mcStep board s e = s' at hheap ⊢
  cases hheap with
  | kept hkept _ _ _ => exact hkept
  | fired => exact heapKept_messages s _ s.queue s.stale
  | opened | handled | stale => cases hquiet

/-! ### The books of the heap -/

/-- Whatever is handled when: a descriptor that was allocated is on the heap or was freed
once, a message refers to one that was allocated, and the counters do not wrap. -/
structure Accounted (s : McState) : Prop where
  nodup : s.freed.Nodup
  freed_lt : ∀ d ∈ s.freed, d < s.next
  live_lt : ∀ d ld, s.descs d = some ld → d < s.next
  accounted : ∀ d, d < s.next → (d ∈ s.freed ↔ s.descs d = none)
  sent_lt : ∀ kind d, (kind, d) ∈ pending s → d < s.next
  kinds : ∀ kind d ld, (kind, d) ∈ pending s → s.descs d = some ld → ld.kind = kind
  counter : ∀ kind, s.i kind < 2 ^ 32 - 1

theorem accounted_init (c : McConfig) (vlans : VlanState) : Accounted (mcInit c vlans) where
  nodup := List.nodup_nil
  freed_lt := by
    intro d hd
    cases hd
  live_lt := by
    intro d ld hd
    cases hd
  accounted := by
    intro d hd
    exact absurd hd (Nat.not_lt_zero d)
  sent_lt := by
    intro kind d hd
    cases hd
  kinds := by
    intro kind d ld hd
    cases hd
  counter := by
    intro kind
    change 0 < 2 ^ 32 - 1
    decide

theorem Accounted.frame {s s' : McState} (h : Accounted s) (hkept : HeapKept s s')
    (hpending : pending s' ⊆ pending s) : Accounted s' where
  nodup := hkept.freed ▸ h.nodup
  freed_lt := by
    rw [hkept.freed, hkept.next]
    exact h.freed_lt
  live_lt := by
    rw [hkept.descs, hkept.next]
    exact h.live_lt
  accounted := by
    rw [hkept.freed, hkept.descs, hkept.next]
    exact h.accounted
  sent_lt := by
    intro kind d hd
    rw [hkept.next]
    exact h.sent_lt kind d (hpending hd)
  kinds := by
    intro kind d ld hd
    rw [hkept.descs]
    exact h.kinds kind d ld (hpending hd)
  counter := hkept.i ▸ h.counter

/-- Allocating the descriptor of a leave. -/
theorem Accounted.opening {s : McState} (h : Accounted s) (ld : LeaveDesc) (t : Tables) :
    Accounted { s with
      tables := t
      descs := Function.update s.descs s.next (some ld)
      next := s.next + 1
      marks := .opened s.next :: s.marks } := by
  refine ⟨h.nodup, ?_, ?_, ?_, ?_, ?_, h.counter⟩
  · intro d hd
    exact Nat.lt_succ_of_lt (h.freed_lt d hd)
  · intro d ld' hd
    by_cases heq : d = s.next
    · subst heq
      exact Nat.lt_succ_self _
    · simp only [Function.update_of_ne heq] at hd
      exact Nat.lt_succ_of_lt (h.live_lt d ld' hd)
  · intro d hd
    by_cases heq : d = s.next
    · subst heq
      simp only [Function.update_self, reduceCtorEq, iff_false]
      intro hmem
      exact absurd (h.freed_lt s.next hmem) (lt_irrefl _)
    · simp only [Function.update_of_ne heq]
      exact h.accounted d (lt_of_le_of_ne (Nat.le_of_lt_succ hd) heq)
  · intro k d hd
    exact Nat.lt_succ_of_lt (h.sent_lt k d hd)
  · intro k d ld' hd hld'
    have hne : d ≠ s.next := ne_of_lt (h.sent_lt k d hd)
    simp only [Function.update_of_ne hne] at hld'
    exact h.kinds k d ld' hd hld'

/-- The messages on their way after the timer task picked a timer. -/
theorem pending_fired {s : McState} {ld : LeaveDesc} {d : Nat} {kind : LeaveKind} {d' : Nat}
    (hmem : (kind, d') ∈ pending { s with callback := some (ld.kind, d) }) :
    (kind = ld.kind ∧ d' = d) ∨ (kind, d') ∈ pending s := by
  rcases List.mem_append.mp hmem with hnew | hold
  · simp only [Option.toList_some, List.mem_singleton, Prod.mk.injEq] at hnew
    exact Or.inl hnew
  · exact Or.inr (List.mem_append_right _ hold)

/-- The timer task picks a timer. -/
theorem Accounted.fire {s : McState} (h : Accounted s) {d : Nat} {ld : LeaveDesc}
    (hld : s.descs d = some ld) : Accounted { s with callback := some (ld.kind, d) } := by
  refine ⟨h.nodup, h.freed_lt, h.live_lt, h.accounted, ?_, ?_, h.counter⟩
  · intro kind d' hmem
    rcases pending_fired hmem with ⟨-, rfl⟩ | hold
    · exact h.live_lt d' ld hld
    · exact h.sent_lt kind d' hold
  · intro kind d' ld' hmem hld'
    rcases pending_fired hmem with ⟨rfl, rfl⟩ | hold
    · rw [hld, Option.some.injEq] at hld'
      rw [hld']
    · exact h.kinds kind d' ld' hold hld'

/-- A query: nothing is freed. -/
theorem Accounted.query {s : McState} (h : Accounted s) {kind : LeaveKind} {d : Nat}
    {queue : List (LeaveKind × Nat)} (hqueue : s.queue = (kind, d) :: queue)
    (hcount : nextCount s kind < queryLimit s) :
    Accounted { s with
      queue := queue
      i := Function.update s.i kind (nextCount s kind)
      marks := .query d :: s.marks } := by
  have htail : Accounted { s with queue := queue } :=
    h.frame (heapKept_messages s s.callback queue s.stale) (pending_of_tail hqueue rfl rfl)
  refine ⟨h.nodup, h.freed_lt, h.live_lt, h.accounted, htail.sent_lt, htail.kinds, ?_⟩
  intro k
  by_cases heq : k = kind
  · subst heq
    simp only [Function.update_self]
    have hlimit : queryLimit s < 2 ^ 32 := Nat.mod_lt _ (by decide)
    omega
  · simp only [Function.update_of_ne heq]
    exact h.counter k

theorem descs_of_update {descs : Nat → Option LeaveDesc} {d d' : Nat} {ld : LeaveDesc}
    (h : Function.update descs d none d' = some ld) : d' ≠ d ∧ descs d' = some ld := by
  by_cases heq : d' = d
  · subst heq
    simp at h
  · exact ⟨heq, by rwa [Function.update_of_ne heq] at h⟩

/-- The last message of a leave: its descriptor is freed. -/
theorem Accounted.last {s : McState} (h : Accounted s) {kind : LeaveKind} {d : Nat}
    {ld : LeaveDesc} {queue : List (LeaveKind × Nat)} (hqueue : s.queue = (kind, d) :: queue)
    (hld : s.descs d = some ld) (t : Tables) :
    Accounted { s with
      queue := queue
      tables := t
      i := Function.update s.i kind 0
      descs := Function.update s.descs d none
      freed := d :: s.freed } := by
  have htail : Accounted { s with queue := queue } :=
    h.frame (heapKept_messages s s.callback queue s.stale) (pending_of_tail hqueue rfl rfl)
  have hlt := h.live_lt d ld hld
  have hlive : d ∉ s.freed := by
    intro hmem
    rw [(h.accounted d hlt).mp hmem] at hld
    cases hld
  refine ⟨List.nodup_cons.mpr ⟨hlive, h.nodup⟩, ?_, ?_, ?_, htail.sent_lt, ?_, ?_⟩
  · intro d' hd'
    rcases List.mem_cons.mp hd' with rfl | hmem
    · exact hlt
    · exact h.freed_lt d' hmem
  · intro d' ld' hd'
    exact h.live_lt d' ld' (descs_of_update hd').2
  · intro d' hd'
    by_cases heq : d' = d
    · subst heq
      simp
    · simp only [List.mem_cons, heq, false_or, Function.update_of_ne heq]
      exact h.accounted d' hd'
  · intro k d' ld' hmem hd'
    exact htail.kinds k d' ld' hmem (descs_of_update hd').2
  · intro k
    by_cases heq : k = kind
    · subst heq
      simp
    · simp only [Function.update_of_ne heq]
      exact h.counter k

/-- The books are right after every step. -/
theorem Accounted.step {s : McState} (h : Accounted s) (e : McEvent) :
    Accounted (mcStep board s e) := by
  have hheap : HeapEffect board s e (mcStep board s e) := mcStep_heap s e
  generalize mcStep board s e = s' at hheap ⊢
  cases hheap with
  | kept hkept hpending _ _ => exact h.frame hkept hpending
  | opened kind t _ _ => exact h.opening _ t
  | fired hld => exact h.fire hld
  | stale hqueue _ =>
    exact h.frame (heapKept_messages s s.callback _ true) (pending_of_tail hqueue rfl rfl)
  | handled hqueue hld heffect =>
    cases heffect with
    | query target _ _ hcount => exact h.query hqueue hcount
    | last t hlast => exact h.last hqueue hld t

/-! ### The invariant -/

structure Owned (s : McState) : Prop extends Accounted s where
  fresh : s.stale = false
  armed : ∀ d ld, s.descs d = some ld → ld.timer = true ∧ Vos.timerGranularity ≤ ld.interval
  refers : ∀ kind d, (kind, d) ∈ pending s → s.descs d ≠ none

theorem owned_init (c : McConfig) (vlans : VlanState) : Owned (mcInit c vlans) where
  toAccounted := accounted_init c vlans
  fresh := rfl
  armed := by
    intro d ld hd
    cases hd
  refers := by
    intro kind d hd
    cases hd

theorem Owned.safe {s : McState} (h : Owned s) : DescriptorsSafe s where
  fresh := h.fresh
  once := by
    intro d hd
    rw [h.nodup.count]
    simp only [h.accounted d hd]
  armed := h.armed
  refers := h.refers

theorem Owned.frame {s s' : McState} (h : Owned s) (haccounted : Accounted s')
    (hdescs : s'.descs = s.descs) (hpending : pending s' ⊆ pending s)
    (hstale : s'.stale = s.stale) : Owned s' where
  toAccounted := haccounted
  fresh := hstale.trans h.fresh
  armed := hdescs ▸ h.armed
  refers := by
    intro kind d hd
    rw [hdescs]
    exact h.refers kind d (hpending hd)

theorem Owned.opening {s : McState} (h : Owned s) {ld : LeaveDesc} (t : Tables)
    (htimer : ld.timer = true ∧ Vos.timerGranularity ≤ ld.interval) :
    Owned { s with
      tables := t
      descs := Function.update s.descs s.next (some ld)
      next := s.next + 1
      marks := .opened s.next :: s.marks } := by
  refine ⟨h.toAccounted.opening ld t, h.fresh, ?_, ?_⟩
  · intro d ld' hd
    by_cases heq : d = s.next
    · subst heq
      simp only [Function.update_self, Option.some.injEq] at hd
      subst hd
      exact htimer
    · simp only [Function.update_of_ne heq] at hd
      exact h.armed d ld' hd
  · intro k d hd
    have hne : d ≠ s.next := ne_of_lt (h.sent_lt k d hd)
    simp only [Function.update_of_ne hne]
    exact h.refers k d hd

theorem Owned.fire {s : McState} (h : Owned s) {d : Nat} {ld : LeaveDesc}
    (hld : s.descs d = some ld) : Owned { s with callback := some (ld.kind, d) } := by
  refine ⟨h.toAccounted.fire hld, h.fresh, h.armed, ?_⟩
  intro kind d' hmem
  change s.descs d' ≠ none
  rcases pending_fired hmem with ⟨-, rfl⟩ | hold
  · simp [hld]
  · exact h.refers kind d' hold

/-- The message the consumer takes next belongs to a descriptor on the heap. -/
theorem Owned.head {s : McState} (h : Owned s) {kind : LeaveKind} {d : Nat}
    {queue : List (LeaveKind × Nat)} (hqueue : s.queue = (kind, d) :: queue) :
    ∃ ld, s.descs d = some ld := by
  apply Option.ne_none_iff_exists'.mp
  apply h.refers kind d
  rw [pending, hqueue]
  exact List.mem_append_right _ (List.mem_cons_self ..)

theorem Accounted.kind_head {s : McState} (h : Accounted s) {kind : LeaveKind} {d : Nat}
    {ld : LeaveDesc} {queue : List (LeaveKind × Nat)} (hqueue : s.queue = (kind, d) :: queue)
    (hld : s.descs d = some ld) : ld.kind = kind := by
  refine h.kinds kind d ld ?_ hld
  rw [pending, hqueue]
  exact List.mem_append_right _ (List.mem_cons_self ..)

theorem leaveGoesOn_iff {s : McState} {kind : LeaveKind} {desc : PacketDesc} :
    leaveGoesOn s kind desc = true ↔ ∃ target, leaveTarget kind s.tables desc = some target ∧
      target.isLastReportRecevied = false ∧ nextCount s kind < queryLimit s := by
  unfold leaveGoesOn
  cases leaveTarget kind s.tables desc with
  | none => simp
  | some target => simp

/-- A message that goes on is not the last one. -/
theorem LastMessage.not_goesOn {takes : SwitchEntry → Bool} {s : McState} {kind : LeaveKind}
    {desc : PacketDesc} {t : Tables} (h : LastMessage board takes s kind desc t) :
    leaveGoesOn s kind desc ≠ true := by
  intro hgoes
  obtain ⟨target, htarget, hreported, hcount⟩ := leaveGoesOn_iff.mp hgoes
  cases h with
  | gone hgone =>
    rw [htarget] at hgone
    cases hgone
  | reported target' htarget' hreported' _ =>
    rw [htarget] at htarget'
    cases htarget'
    rw [hreported] at hreported'
    cases hreported'
  | removed target' _ _ hcount' => exact absurd hcount (by rw [hcount']; exact lt_irrefl _)
  | overrun hcount' => exact absurd hcount (not_lt.mpr hcount'.le)

/-- The last message of a leave, with no other one of its descriptor on the way. -/
theorem Owned.last {s : McState} (h : Owned s) {takes : SwitchEntry → Bool} {kind : LeaveKind}
    {d : Nat} {ld : LeaveDesc} {queue : List (LeaveKind × Nat)} {t : Tables}
    (hqueue : s.queue = (kind, d) :: queue) (hld : s.descs d = some ld)
    (hlast : LastMessage board takes { s with queue := queue } kind ld.desc t)
    (hok : handledInTime board s (.handle takes) = true) :
    Owned { s with
      queue := queue
      tables := t
      i := Function.update s.i kind 0
      descs := Function.update s.descs d none
      freed := d :: s.freed } := by
  refine ⟨h.toAccounted.last hqueue hld t, h.fresh, ?_, ?_⟩
  · intro d' ld' hd'
    exact h.armed d' ld' (descs_of_update hd').2
  · intro k d' hmem
    have hne : d' ≠ d := by
      intro heq
      simp only [handledInTime, hqueue, hld, Bool.or_eq_true, Bool.not_eq_true'] at hok
      rcases hok with halone | hgoes
      · rw [List.any_eq_false] at halone
        exact halone (k, d') hmem (by simpa using heq)
      · exact hlast.not_goesOn hgoes
    simp only [Function.update_of_ne hne]
    have htail : pending { s with queue := queue } ⊆ pending s := pending_of_tail hqueue rfl rfl
    exact h.refers k d' (htail hmem)

/-- Every step that meets the condition keeps the invariant. -/
theorem Owned.step {s : McState} {e : McEvent} (h : Owned s)
    (hok : handledInTime board s e = true) : Owned (mcStep board s e) := by
  have haccounted : Accounted (mcStep board s e) := h.toAccounted.step e
  have hheap : HeapEffect board s e (mcStep board s e) := mcStep_heap s e
  generalize mcStep board s e = s' at hheap haccounted ⊢
  cases hheap with
  | kept hkept hpending hstale _ => exact h.frame haccounted hkept.descs hpending hstale
  | opened kind t hopens hdesc =>
    apply h.opening t
    simpa [handledInTime, hopens, hdesc] using hok
  | fired hld => exact h.fire hld
  | stale hqueue hfreed =>
    obtain ⟨ld, hld⟩ := h.head hqueue
    rw [hfreed] at hld
    cases hld
  | handled hqueue hld heffect =>
    cases heffect with
    | query target _ _ hcount =>
      exact h.frame haccounted rfl (pending_of_tail hqueue rfl rfl) rfl
    | last t hlast => exact h.last hqueue hld hlast hok

/-! ### How long a leave lasts -/

theorem next_le_step (s : McState) (e : McEvent) : s.next ≤ (mcStep board s e).next := by
  have hheap : HeapEffect board s e (mcStep board s e) := mcStep_heap s e
  generalize mcStep board s e = s' at hheap ⊢
  cases hheap with
  | kept hkept _ _ _ => exact hkept.next.ge
  | opened => exact Nat.le_succ _
  | fired | stale => exact le_rfl
  | handled _ _ heffect =>
    cases heffect with
    | query | last => exact le_rfl

theorem next_le_run (s : McState) (es : List McEvent) :
    s.next ≤ (run (mcStep board) s es).next := by
  induction es generalizing s with
  | nil => exact le_rfl
  | cons e es ih => exact (next_le_step s e).trans (ih (mcStep board s e))

/-- A descriptor that was freed does not come back. -/
theorem descs_step_of_freed {s : McState} {d : Nat} (hlt : d < s.next) (hnone : s.descs d = none)
    (e : McEvent) : (mcStep board s e).descs d = none := by
  have hheap : HeapEffect board s e (mcStep board s e) := mcStep_heap s e
  generalize mcStep board s e = s' at hheap ⊢
  cases hheap with
  | kept hkept _ _ _ => rwa [hkept.descs]
  | opened => simp only [Function.update_of_ne (ne_of_lt hlt), hnone]
  | fired | stale => exact hnone
  | @handled _ _ d' _ _ _ _ _ heffect =>
    cases heffect with
    | query => exact hnone
    | last =>
      by_cases heq : d = d'
      · subst heq
        simp
      · simpa only [Function.update_of_ne heq] using hnone

theorem descs_run_of_freed {s : McState} {d : Nat} (hlt : d < s.next) (hnone : s.descs d = none)
    (es : List McEvent) : (run (mcStep board) s es).descs d = none := by
  induction es generalizing s with
  | nil => exact hnone
  | cons e es ih =>
    exact ih (hlt.trans_le (next_le_step s e)) (descs_step_of_freed hlt hnone e)

theorem Accounted.freed_le {s : McState} (h : Accounted s) : s.freed.length ≤ s.next := by
  have hsub : s.freed ⊆ List.range s.next := by
    intro d hd
    exact List.mem_range.mpr (h.freed_lt d hd)
  have hle := (List.subperm_of_subset h.nodup hsub).length_le
  rwa [List.length_range] at hle

/-- What a leave of the kind may still have of messages, when `M` bounds the query count
and `N` descriptors are allocated in the end: each descriptor that is freed starts the
counter over. -/
def messageBudget (M N : Nat) (kind : LeaveKind) (s : McState) : Nat :=
  M * (N - s.freed.length) + (M - s.i kind)

theorem messageBudget_congr {s s' : McState} (M N : Nat) (kind : LeaveKind)
    (hfreed : s'.freed = s.freed) (hi : s'.i = s.i) :
    messageBudget M N kind s' = messageBudget M N kind s := by
  rw [messageBudget, messageBudget, hfreed, hi]

theorem Accounted.nextCount_eq {s : McState} (h : Accounted s) (kind : LeaveKind) :
    nextCount s kind = s.i kind + 1 := by
  have hcounter := h.counter kind
  exact Nat.mod_eq_of_lt (by omega)

theorem queryLimit_le (s : McState) : queryLimit s ≤ s.tables.control.lastQueryCount + 1 :=
  Nat.mod_le ..

/-- A query uses up some of the budget of its kind. -/
theorem Accounted.budget_query {s : McState} (h : Accounted s) {M N : Nat} {kind : LeaveKind}
    (hlt : nextCount s kind < queryLimit s) (hcount : s.tables.control.lastQueryCount ≤ M)
    {s' : McState} (hi : s'.i = Function.update s.i kind (nextCount s kind))
    (hfreed : s'.freed = s.freed) :
    1 + messageBudget M N kind s' = messageBudget M N kind s := by
  have hcounted := h.nextCount_eq kind
  have hlimit := queryLimit_le s
  have hstep : M - s'.i kind + 1 = M - s.i kind := by
    rw [hi, Function.update_self]
    omega
  rw [messageBudget, messageBudget, hfreed]
  omega

/-- The leave of another descriptor ends: a counter starts over, and a descriptor less is
left to be freed. -/
theorem budget_last {s s' : McState} {M N : Nat} {kind other : LeaveKind} {d : Nat}
    (hi : s'.i = Function.update s.i other 0) (hfreed : s'.freed = d :: s.freed)
    (hle : s'.freed.length ≤ N) : messageBudget M N kind s' ≤ messageBudget M N kind s := by
  have hroom : s.freed.length + 1 ≤ N := by rwa [hfreed, List.length_cons] at hle
  have hsplit : M * (N - s.freed.length) = M * (N - (s.freed.length + 1)) + M := by
    rw [← Nat.mul_succ]
    congr 1
    omega
  rw [messageBudget, messageBudget, hfreed, List.length_cons, hi]
  by_cases hsame : kind = other
  · rw [hsame, Function.update_self]
    omega
  · rw [Function.update_of_ne hsame]
    omega

/-- Handling a message of a leave uses up some of its budget, unless it ends the leave. -/
theorem Accounted.budget_step {s : McState} (h : Accounted s) {e : McEvent} {d : Nat}
    {ld : LeaveDesc} {M N : Nat} (hld : s.descs d = some ld)
    (hlive : (mcStep board s e).descs d ≠ none) (hnext : (mcStep board s e).next ≤ N)
    (hcount : s.tables.control.lastQueryCount ≤ M) :
    (if handlesMessageOf d s e then 1 else 0) + messageBudget M N ld.kind (mcStep board s e) ≤
      messageBudget M N ld.kind s := by
  have haccounted : Accounted (mcStep board s e) := h.step e
  have hheap : HeapEffect board s e (mcStep board s e) := mcStep_heap s e
  generalize mcStep board s e = s' at hheap haccounted hlive hnext ⊢
  cases hheap with
  | kept hkept _ _ hother => simp [hother, messageBudget_congr M N ld.kind hkept.freed hkept.i]
  | opened | fired => simp [handlesMessageOf, messageBudget]
  | @stale _ _ d' _ hqueue hfreed =>
    have hother : d' ≠ d := by
      rintro rfl
      rw [hld] at hfreed
      cases hfreed
    simp [handlesMessageOf, hqueue, hother, messageBudget]
  | @handled takes kind d' ld' queue _ hqueue hld' heffect =>
    have hkind := h.kind_head hqueue hld'
    cases heffect with
    | query target _ _ hlt =>
      by_cases hsame : ld.kind = kind
      · subst hsame
        have hone : (if handlesMessageOf d s (.handle takes) then 1 else 0) ≤ 1 := by
          split <;> omega
        refine (Nat.add_le_add_right hone _).trans (le_of_eq ?_)
        exact h.budget_query hlt hcount rfl rfl
      · have hother : d' ≠ d := by
          rintro rfl
          rw [hld] at hld'
          cases hld'
          exact hsame hkind
        simp [handlesMessageOf, hqueue, hother, messageBudget, Function.update_of_ne hsame]
    | last t hlast =>
      have hother : d' ≠ d := by
        rintro rfl
        simp at hlive
      have hnot : handlesMessageOf d s (.handle takes) = false := by
        simp [handlesMessageOf, hqueue, hother]
      rw [hnot, if_neg Bool.false_ne_true, Nat.zero_add]
      exact budget_last rfl rfl (haccounted.freed_le.trans hnext)

/-- The step handles the last message of descriptor `d`. -/
structure EndsLeave (board : Board) (s : McState) (e : McEvent) (d : Nat) (ld : LeaveDesc) :
    Prop where
  freed : (mcStep board s e).descs d = none
  last : ∃ takes queue, e = .handle takes ∧ s.queue = (ld.kind, d) :: queue ∧
    LastMessage board takes { s with queue := queue } ld.kind ld.desc (mcStep board s e).tables

/-- A descriptor stays as it is on the heap until its last message is handled. -/
theorem Accounted.descs_step {s : McState} (h : Accounted s) {d : Nat} {ld : LeaveDesc}
    (hld : s.descs d = some ld) (e : McEvent) :
    (mcStep board s e).descs d = some ld ∨ EndsLeave board s e d ld := by
  have hheap : HeapEffect board s e (mcStep board s e) := mcStep_heap s e
  generalize hstep : mcStep board s e = s' at hheap ⊢
  cases hheap with
  | kept hkept _ _ _ => exact Or.inl (by rw [hkept.descs, hld])
  | opened =>
    have hne : d ≠ s.next := ne_of_lt (h.live_lt d ld hld)
    exact Or.inl (by simp only [Function.update_of_ne hne, hld])
  | fired | stale => exact Or.inl hld
  | @handled takes kind d' ld' queue _ hqueue hld' heffect =>
    have hkind := h.kind_head hqueue hld'
    cases heffect with
    | query => exact Or.inl hld
    | last t hlast =>
      by_cases heq : d = d'
      · subst heq
        rw [hld, Option.some.injEq] at hld'
        subst hld' hkind
        right
        refine ⟨?_, takes, queue, rfl, hqueue, ?_⟩
        · rw [hstep]
          exact Function.update_self ..
        · rw [hstep]
          exact hlast
      · exact Or.inl (by simpa only [Function.update_of_ne heq] using hld)

/-- While the descriptor is on the heap, its messages stay within the budget. -/
theorem Accounted.messages_le {s : McState} (h : Accounted s) {d : Nat} {ld : LeaveDesc} {M : Nat}
    {es : List McEvent} (hld : s.descs d = some ld)
    (hcount : AllStates (mcStep board) (fun s => s.tables.control.lastQueryCount ≤ M) s es)
    (hlive : (run (mcStep board) s es).descs d ≠ none) :
    countSteps (mcStep board) (handlesMessageOf d) s es ≤
      messageBudget M (run (mcStep board) s es).next ld.kind s := by
  induction es generalizing s with
  | nil => exact Nat.zero_le _
  | cons e es ih =>
    have hlt := h.live_lt d ld hld
    have hcases : (mcStep board s e).descs d = some ld ∨ EndsLeave board s e d ld :=
      h.descs_step hld e
    rcases hcases with hkept | hends
    · have hbudget := h.budget_step (N := (run (mcStep board) s (e :: es)).next) hld
        (by simp [hkept]) (next_le_run (mcStep board s e) es) hcount.1
      have htail := ih (h.step e) hkept hcount.2 hlive
      simp only [countSteps, run_cons] at hbudget htail ⊢
      omega
    · exact absurd (descs_run_of_freed (hlt.trans_le (next_le_step s e)) hends.freed es) hlive

theorem Accounted.freed_of_many {s : McState} (h : Accounted s) {d : Nat} {ld : LeaveDesc}
    {es : List McEvent} {M : Nat} (hld : s.descs d = some ld)
    (hcount : AllStates (mcStep board) (fun s => s.tables.control.lastQueryCount ≤ M) s es)
    (hmany : M * ((run (mcStep board) s es).next - s.freed.length + 1) <
      countSteps (mcStep board) (handlesMessageOf d) s es) :
    (run (mcStep board) s es).descs d = none := by
  by_contra hlive
  have hle := h.messages_le hld hcount hlive
  have hbudget : messageBudget M (run (mcStep board) s es).next ld.kind s ≤
      M * ((run (mcStep board) s es).next - s.freed.length + 1) := by
    rw [messageBudget, Nat.mul_add, Nat.mul_one]
    omega
  omega

/-- **The leave of a descriptor comes to its end**: in any continuation in which enough of
its messages are handled, for the queries and for the leaves that share the counter, the
descriptor is freed. -/
def ComesToEnd (board : Board) (s : McState) (d : Nat) : Prop :=
  ∀ (es : List McEvent) (M : Nat),
    AllSteps (mcStep board) (fun s e => handledInTime board s e = true) s es →
    AllStates (mcStep board) (fun s => s.tables.control.lastQueryCount ≤ M) s es →
    M * ((run (mcStep board) s es).next - s.freed.length + 1) <
      countSteps (mcStep board) (handlesMessageOf d) s es →
    (run (mcStep board) s es).descs d = none

/-- **No message outlives its descriptor and each descriptor is freed exactly once**, in
every run whose messages are handled in time. -/
theorem descriptors_freed_once (board : Board) (c : McConfig) (vlans : VlanState)
    (es : List McEvent)
    (hok : AllSteps (mcStep board) (fun s e => handledInTime board s e = true)
      (mcInit c vlans) es) :
    AllStates (mcStep board)
      (fun s => DescriptorsSafe s ∧ ∀ d, s.descs d ≠ none → ComesToEnd board s d)
      (mcInit c vlans) es := by
  have howned := allStates_of_allSteps (mcStep board) Owned (fun _ _ hs he => hs.step he)
    (owned_init c vlans) hok
  refine howned.mono ?_
  intro s hs
  refine ⟨hs.safe, ?_⟩
  intro d hd
  obtain ⟨ld, hld⟩ := Option.ne_none_iff_exists'.mp hd
  intro es M _ hcount hmany
  exact hs.freed_of_many hld hcount hmany

/-- Leave of one host, its messages handled one by one. -/
theorem descriptors_freed_once_one_leave :
    ∃ es, AllSteps (mcStep .onu1Port) (fun s e => handledInTime .onu1Port s e = true)
        (mcInit { mcConfigDefault with leaveMode := .nonFastLeave } vlanInit) es ∧
      (run (mcStep .onu1Port)
        (mcInit { mcConfigDefault with leaveMode := .nonFastLeave } vlanInit) es).freed = [0] ∧
      AllStates (mcStep .onu1Port)
        (fun s => DescriptorsSafe s ∧ ∀ d, s.descs d ≠ none → ComesToEnd .onu1Port s d)
        (mcInit { mcConfigDefault with leaveMode := .nonFastLeave } vlanInit) es := by
  refine ⟨[.packet .granting (reportFrom 1 7 0xe0010101),
    .packet .granting (leaveFrom 1 7 0xe0010101), .fire 0, .send, .handle fun _ => true,
    .fire 0, .send, .handle fun _ => true, .fire 0, .send, .handle fun _ => true], ?_, ?_, ?_⟩
  · decide +kernel
  · decide +kernel
  · exact descriptors_freed_once .onu1Port _ vlanInit _ (by decide +kernel)

/-- The timer expires twice before the consumer runs, and the host reports meanwhile: the
first message frees the descriptor, the second one still points to it. -/
theorem second_message_after_free :
    ¬AllStates (mcStep .onu1Port) DescriptorsSafe
      (mcInit { mcConfigDefault with leaveMode := .nonFastLeave } vlanInit)
      [.packet .granting (reportFrom 1 7 0xe0010101),
        .packet .granting (leaveFrom 1 7 0xe0010101), .fire 0, .send, .fire 0, .send,
        .packet .granting (reportFrom 1 7 0xe0010101), .handle fun _ => true,
        .handle fun _ => true] := by
  intro hall
  have hfresh := hall.last.fresh
  revert hfresh
  decide +kernel

end Opconn.Multicast
