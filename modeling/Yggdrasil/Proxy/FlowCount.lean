import Yggdrasil.Proxy.UdpFlows

/-!
# Counting flows

The tables of all workers share one counter that keeps a rule at its cap.  A
flow is counted before it is inserted and given back after it was removed, and
other tasks act in between: every access to the counter and to one piece of a
table is a step of its own here.

A plain reading of the counter, and what a failed exchange returns, may be out
of date and is any number at all.  Only a successful exchange and `fetch_sub`
are about the counter as it is.  The contents of a flow play no part; a table
is the set of its clients.
-/

namespace Yggdrasil.Proxy

open Foundation Ratatoskr

def fetchSub (count amount : Nat) : Nat := (UInt64.ofNat count - UInt64.ofNat amount).toNat

structure CappedRule extends UdpRule where
  maxFlows_lt : maxFlows < UInt64.size

theorem fetchSub_of_le {count amount : Nat} (hcount : count < UInt64.size)
    (hamount : amount ≤ count) : fetchSub count amount = count - amount := by
  have hword : (UInt64.ofNat count).toNat = count := UInt64.toNat_ofNat_of_lt' hcount
  have hword' : (UInt64.ofNat amount).toNat = amount :=
    UInt64.toNat_ofNat_of_lt' (hamount.trans_lt hcount)
  have hle : UInt64.ofNat amount ≤ UInt64.ofNat count := by
    rw [UInt64.le_iff_toNat_le, hword, hword']
    exact hamount
  rw [fetchSub, UInt64.toNat_sub_of_le _ _ hle, hword, hword']

inductive FlowTask where
  /-- `create_flow` in front of a vacant slot, with the count it has read. -/
  | reserving (worker : Nat) (client : SocketAddr) (current : Nat)
  | inserting (worker : Nat) (client : SocketAddr)
  /-- `reap_idle` with the flows it has yet to remove. -/
  | reaping (victims : List (Nat × SocketAddr))
  /-- `drain_all_flows` in front of one piece of a table. -/
  | draining (worker piece drained : Nat)
  /-- Flows were removed and are yet to be subtracted; a reaper then goes on. -/
  | releasing (amount : Nat) (victims : Option (List (Nat × SocketAddr)))
  deriving DecidableEq, Repr

namespace FlowTask

def owed : FlowTask → Nat
  | .inserting _ _ => 1
  | .draining _ _ drained => drained
  | .releasing amount _ => amount
  | _ => 0

def slot : FlowTask → Option (Nat × SocketAddr)
  | .reserving worker client _ => some (worker, client)
  | .inserting worker client => some (worker, client)
  | _ => none

end FlowTask

structure FlowState where
  tables : List (Finset SocketAddr)
  flowCount : Nat
  tasks : List FlowTask

inductive FlowEvent where
  /-- `entry` locks the client's piece, and the count is read where the slot is vacant. -/
  | enter (worker : Nat) (client : SocketAddr) (loaded : Nat)
  /-- One turn of the loop of `try_reserve_flow`; a weak exchange may fail for no reason. -/
  | exchange (worker : Nat) (client : SocketAddr) (current : Nat) (spurious : Bool) (seen : Nat)
  | insert (worker : Nat) (client : SocketAddr)
  /-- A walk over a table is not atomic: what it finds idle may be any flows. -/
  | scan (victims : List (Nat × SocketAddr))
  | reap (victims : List (Nat × SocketAddr))
  | beginDrain (worker : Nat)
  | drain (worker piece drained : Nat)
  | release (amount : Nat) (victims : Option (List (Nat × SocketAddr)))
  /-- The task of a flow ends on an error of its socket. -/
  | upstreamFailed (worker : Nat) (client : SocketAddr)
  deriving DecidableEq, Repr

namespace FlowState

def start (workers : Nat) : FlowState := ⟨List.replicate workers ∅, 0, []⟩

def table (state : FlowState) (worker : Nat) : Finset SocketAddr := state.tables.getD worker ∅

def setTable (state : FlowState) (worker : Nat) (table : Finset SocketAddr) : FlowState :=
  { state with tables := state.tables.set worker table }

def spawn (task : FlowTask) (state : FlowState) : FlowState :=
  { state with tasks := task :: state.tasks }

def take (state : FlowState) (task : FlowTask) : Option FlowState :=
  if task ∈ state.tasks then some { state with tasks := state.tasks.erase task } else none

def entries (state : FlowState) : Nat := (state.tables.map Finset.card).sum

def owed (state : FlowState) : Nat := (state.tasks.map FlowTask.owed).sum

section

variable (rule : CappedRule)

def locks (state : FlowState) : List (Nat × Nat) :=
  state.tasks.filterMap (fun task =>
    task.slot.map (fun slot => (slot.1, rule.pieceOf slot.2)))

def isLocked (state : FlowState) (worker piece : Nat) : Bool :=
  (state.locks rule).contains (worker, piece)

def tryReserveFlow (worker : Nat) (client : SocketAddr) (current : Nat) (spurious : Bool)
    (seen : Nat) (state : FlowState) : FlowState :=
  if rule.maxFlows ≤ current then state
  else if state.flowCount = current ∧ !spurious then
    { state.spawn (.inserting worker client) with flowCount := current + 1 }
  else state.spawn (.reserving worker client seen)

def resume (victims : Option (List (Nat × SocketAddr))) (state : FlowState) : FlowState :=
  match victims with
  | some victims => state.spawn (.reaping victims)
  | none => state

def removeFlow (state : FlowState) (worker : Nat) (client : SocketAddr)
    (victims : Option (List (Nat × SocketAddr))) : FlowState :=
  if client ∈ state.table worker then
    (state.setTable worker ((state.table worker).erase client)).spawn (.releasing 1 victims)
  else state.resume victims

def drainPiece (state : FlowState) (worker piece drained : Nat) : FlowState :=
  let kept := (state.table worker).filter (fun client => rule.pieceOf client ≠ piece)
  (state.setTable worker kept).spawn
    (.draining worker (piece + 1) (drained + ((state.table worker).card - kept.card)))

def step (state : FlowState) : FlowEvent → Option FlowState
  | .enter worker client loaded =>
      if state.tables.length ≤ worker ∨ state.isLocked rule worker (rule.pieceOf client) then none
      else if client ∈ state.table worker then some state
      else some (state.spawn (.reserving worker client loaded))
  | .exchange worker client current spurious seen =>
      (state.take (.reserving worker client current)).map
        (tryReserveFlow rule worker client current spurious seen)
  | .insert worker client =>
      (state.take (.inserting worker client)).map (fun state =>
        state.setTable worker (insert client (state.table worker)))
  | .scan victims => some (state.spawn (.reaping victims))
  | .reap [] => state.take (.reaping [])
  | .reap ((worker, client) :: rest) =>
      if state.isLocked rule worker (rule.pieceOf client) then none
      else
        (state.take (.reaping ((worker, client) :: rest))).map (fun state =>
          state.removeFlow worker client (some rest))
  | .beginDrain worker => some (state.spawn (.draining worker 0 0))
  | .drain worker piece drained =>
      if piece < rule.pieces then
        if state.isLocked rule worker piece then none
        else
          (state.take (.draining worker piece drained)).map (fun state =>
            state.drainPiece rule worker piece drained)
      else
        (state.take (.draining worker piece drained)).map (fun state =>
          if 0 < drained then state.spawn (.releasing drained none) else state)
  | .release amount victims =>
      (state.take (.releasing amount victims)).map (fun state =>
        { state with flowCount := fetchSub state.flowCount amount }.resume victims)
  | .upstreamFailed worker client =>
      if state.isLocked rule worker (rule.pieceOf client) then none
      else some (state.removeFlow worker client none)

end

/-! ## Every counted flow is in a table or owed by a task -/

/-- Slots that tasks hold are vacant, and no two tasks hold one piece. -/
structure Accounted (rule : CappedRule) (state : FlowState) : Prop where
  count : state.flowCount = state.entries + state.owed
  cap : state.flowCount ≤ rule.maxFlows
  vacant : ∀ task ∈ state.tasks, ∀ slot ∈ task.slot,
    slot.1 < state.tables.length ∧ slot.2 ∉ state.table slot.1
  apart : (state.locks rule).Nodup

@[simp] theorem entries_spawn (state : FlowState) (task : FlowTask) :
    (state.spawn task).entries = state.entries := rfl

@[simp] theorem owed_spawn (state : FlowState) (task : FlowTask) :
    (state.spawn task).owed = task.owed + state.owed := rfl

@[simp] theorem owed_setTable (state : FlowState) (worker : Nat) (table : Finset SocketAddr) :
    (state.setTable worker table).owed = state.owed := rfl

variable {rule : CappedRule} {state next : FlowState} {task : FlowTask} {worker : Nat}
  {client : SocketAddr}

theorem locks_spawn_of_slot (state : FlowState) {slot : Nat × SocketAddr} (h : task.slot = some slot) :
    (state.spawn task).locks rule = (slot.1, rule.pieceOf slot.2) :: state.locks rule := by
  simp [locks, spawn, h]

theorem locks_spawn_of_none (state : FlowState) (h : task.slot = none) :
    (state.spawn task).locks rule = state.locks rule := by
  simp [locks, spawn, h]

variable {table : Finset SocketAddr}

theorem sum_card_set {tables : List (Finset SocketAddr)} {old : Finset SocketAddr}
    (h : tables[worker]? = some old) :
    ((tables.set worker table).map Finset.card).sum + old.card =
      (tables.map Finset.card).sum + table.card := by
  induction tables generalizing worker with
  | nil => cases h
  | cons first rest ih =>
      cases worker with
      | zero =>
          obtain rfl : first = old := Option.some.inj h
          simp only [List.set_cons_zero, List.map_cons, List.sum_cons]
          omega
      | succ worker =>
          have hrest := ih (show rest[worker]? = some old from h)
          simp only [List.set_cons_succ, List.map_cons, List.sum_cons]
          omega

theorem entries_setTable (table : Finset SocketAddr) (h : worker < state.tables.length) :
    (state.setTable worker table).entries + (state.table worker).card =
      state.entries + table.card := by
  refine sum_card_set ?_
  simp [FlowState.table, List.getD_eq_getElem?_getD, List.getElem?_eq_getElem h]

theorem table_setTable_self (h : worker < state.tables.length) :
    (state.setTable worker table).table worker = table := by
  simp [FlowState.table, setTable, List.getD_eq_getElem?_getD, h]

theorem table_setTable_ne {other : Nat} (h : other ≠ worker) :
    (state.setTable worker table).table other = state.table other := by
  simp [FlowState.table, setTable, List.getD_eq_getElem?_getD, List.getElem?_set_ne h.symm]

theorem table_of_length_le (h : state.tables.length ≤ worker) : state.table worker = ∅ := by
  simp [FlowState.table, List.getD_eq_getElem?_getD, List.getElem?_eq_none h]

theorem setTable_of_length_le (h : state.tables.length ≤ worker) :
    state.setTable worker table = state := by
  rw [setTable, List.set_eq_of_length_le h]

theorem entries_shrink {kept : Finset SocketAddr} (hkept : kept ⊆ state.table worker) :
    (state.setTable worker kept).entries + ((state.table worker).card - kept.card) =
      state.entries := by
  by_cases hworker : worker < state.tables.length
  · have hentries := entries_setTable kept hworker
    have hcard := Finset.card_le_card hkept
    omega
  · have hempty := table_of_length_le (Nat.not_lt.1 hworker)
    rw [setTable_of_length_le (Nat.not_lt.1 hworker), hempty, Finset.card_empty, Nat.zero_sub,
      Nat.add_zero]

theorem table_shrink_subset {kept : Finset SocketAddr} (hkept : kept ⊆ state.table worker)
    (other : Nat) : (state.setTable worker kept).table other ⊆ state.table other := by
  by_cases hworker : worker < state.tables.length
  · by_cases hsame : other = worker
    · rw [hsame, table_setTable_self hworker]
      exact hkept
    · rw [table_setTable_ne hsame]
  · rw [setTable_of_length_le (Nat.not_lt.1 hworker)]

theorem take_eq_some (h : state.take task = some next) :
    next.tables = state.tables ∧ next.flowCount = state.flowCount ∧
      List.Perm state.tasks (task :: next.tasks) := by
  unfold take at h
  split at h
  next hmem =>
    cases h
    exact ⟨rfl, rfl, List.perm_cons_erase hmem⟩
  next => cases h

namespace Accounted

theorem of_take (h : Accounted rule state) (htake : state.take task = some next) :
    Accounted rule (next.spawn task) := by
  obtain ⟨htables, hcount, hperm⟩ := take_eq_some htake
  have hentries : next.entries = state.entries := by rw [entries, htables, entries]
  have howed : (next.spawn task).owed = state.owed := (hperm.map FlowTask.owed).sum_eq.symm
  have hlocks : List.Perm (state.locks rule) ((next.spawn task).locks rule) :=
    hperm.filterMap _
  refine ⟨?_, ?_, ?_, hlocks.nodup_iff.1 h.apart⟩
  · change next.flowCount = next.entries + (next.spawn task).owed
    rw [hcount, hentries, howed, h.count]
  · exact hcount.trans_le h.cap
  · intro other hother slot hslot
    have hheld := h.vacant other (hperm.mem_iff.2 hother) slot hslot
    change slot.1 < next.tables.length ∧ slot.2 ∉ next.tables.getD slot.1 ∅
    rw [htables]
    exact hheld

theorem drop (h : Accounted rule (state.spawn task)) (howed : task.owed = 0) :
    Accounted rule state := by
  refine ⟨?_, h.cap, fun other hother => h.vacant other (List.mem_cons_of_mem _ hother), ?_⟩
  · have hcount := h.count
    rw [owed_spawn, howed, Nat.zero_add] at hcount
    exact hcount
  · cases hslot : task.slot with
    | none => exact locks_spawn_of_none _ hslot ▸ h.apart
    | some slot => exact (List.nodup_cons.1 (locks_spawn_of_slot _ hslot ▸ h.apart)).2

theorem add (h : Accounted rule state) (howed : task.owed = 0) (hslot : task.slot = none) :
    Accounted rule (state.spawn task) := by
  refine ⟨?_, h.cap, ?_, (locks_spawn_of_none _ hslot).symm ▸ h.apart⟩
  · rw [owed_spawn, howed, Nat.zero_add]
    exact h.count
  · intro other hother slot hheld
    rcases List.mem_cons.1 hother with rfl | hmem
    · cases hslot.symm.trans hheld
    · exact h.vacant other hmem slot hheld

theorem swap {task' : FlowTask} (h : Accounted rule (state.spawn task))
    (howed : task'.owed = task.owed) (hslot : task'.slot = task.slot) :
    Accounted rule (state.spawn task') := by
  have hlocks : (state.spawn task').locks rule = (state.spawn task).locks rule := by
    simp only [locks, spawn, List.filterMap_cons, hslot]
  refine ⟨?_, h.cap, ?_, hlocks ▸ h.apart⟩
  · rw [owed_spawn, howed, ← owed_spawn]
    exact h.count
  · intro other hother slot hheld
    rcases List.mem_cons.1 hother with rfl | hmem
    · exact h.vacant task List.mem_cons_self slot (hslot ▸ hheld)
    · exact h.vacant other (List.mem_cons_of_mem _ hmem) slot hheld

theorem enter (h : Accounted rule state) {loaded : Nat} (hworker : worker < state.tables.length)
    (hfree : state.isLocked rule worker (rule.pieceOf client) = false)
    (hvacant : client ∉ state.table worker) :
    Accounted rule (state.spawn (.reserving worker client loaded)) := by
  have hnot : (worker, rule.pieceOf client) ∉ state.locks rule := by
    rw [isLocked, List.contains_eq_mem] at hfree
    exact of_decide_eq_false hfree
  refine ⟨?_, h.cap, ?_, ?_⟩
  · rw [owed_spawn]
    exact h.count.trans (by simp [FlowTask.owed])
  · intro other hother slot hheld
    rcases List.mem_cons.1 hother with rfl | hmem
    · cases hheld
      exact ⟨hworker, hvacant⟩
    · exact h.vacant other hmem slot hheld
  · have hlocks : (state.spawn (.reserving worker client loaded)).locks rule =
        (worker, rule.pieceOf client) :: state.locks rule := rfl
    rw [hlocks, List.nodup_cons]
    exact ⟨hnot, h.apart⟩

theorem tryReserveFlow {current : Nat} {spurious : Bool} {seen : Nat}
    (h : Accounted rule (state.spawn (.reserving worker client current))) :
    Accounted rule (state.tryReserveFlow rule worker client current spurious seen) := by
  unfold FlowState.tryReserveFlow
  split
  next => exact h.drop rfl
  next hcap =>
    split
    next hsame =>
      have hcount : state.flowCount = state.entries + (0 + state.owed) := h.count
      refine ⟨?_, by change current + 1 ≤ rule.maxFlows; omega, ?_, h.apart⟩
      · change current + 1 = state.entries + (1 + state.owed)
        omega
      · intro other hother slot hheld
        rcases List.mem_cons.1 hother with rfl | hmem
        · exact h.vacant _ List.mem_cons_self slot hheld
        · exact h.vacant other (List.mem_cons_of_mem _ hmem) slot hheld
    next => exact h.swap rfl rfl

theorem insert (h : Accounted rule (state.spawn (.inserting worker client))) :
    Accounted rule (state.setTable worker (insert client (state.table worker))) := by
  have hheld := h.vacant _ List.mem_cons_self (worker, client) rfl
  have hworker : worker < state.tables.length := hheld.1
  have hvacant : client ∉ state.table worker := hheld.2
  have hlocks : (state.spawn (.inserting worker client)).locks rule =
      (worker, rule.pieceOf client) :: state.locks rule := rfl
  have hapart := h.apart
  rw [hlocks, List.nodup_cons] at hapart
  refine ⟨?_, h.cap, ?_, hapart.2⟩
  · have hentries := entries_setTable (Insert.insert client (state.table worker)) hworker
    have hcount : state.flowCount = state.entries + (1 + state.owed) := h.count
    rw [Finset.card_insert_of_notMem hvacant] at hentries
    rw [owed_setTable]
    change state.flowCount = _
    omega
  · intro other hother slot hslot
    have hother' := h.vacant other (List.mem_cons_of_mem _ hother) slot hslot
    have hout : slot.2 ∉ state.table slot.1 := hother'.2
    refine ⟨(List.length_set).symm ▸ hother'.1, ?_⟩
    by_cases hsame : slot.1 = worker
    · have hne : slot.2 ≠ client := by
        intro heq
        refine hapart.1 (List.mem_filterMap.2 ⟨other, hother, ?_⟩)
        rw [hslot, Option.map_some, hsame, heq]
      rw [hsame, table_setTable_self hworker, Finset.mem_insert, not_or]
      exact ⟨hne, hsame ▸ hout⟩
    · rw [table_setTable_ne hsame]
      exact hout

theorem shrink {kept : Finset SocketAddr} (h : Accounted rule (state.spawn task))
    (hkept : kept ⊆ state.table worker) {task' : FlowTask}
    (howed : task'.owed = task.owed + ((state.table worker).card - kept.card))
    (hslot : task'.slot = none) :
    Accounted rule ((state.setTable worker kept).spawn task') := by
  have hentries := entries_shrink hkept
  have hcount : state.flowCount = state.entries + (task.owed + state.owed) := h.count
  refine ⟨?_, h.cap, ?_, ?_⟩
  · rw [entries_spawn, owed_spawn, owed_setTable]
    change state.flowCount = _
    omega
  · intro other hother slot hheld
    rcases List.mem_cons.1 hother with rfl | hmem
    · cases hslot.symm.trans hheld
    · have hother' := h.vacant other (List.mem_cons_of_mem _ hmem) slot hheld
      exact ⟨(List.length_set).symm ▸ hother'.1,
        fun hmem => hother'.2 (table_shrink_subset hkept slot.1 hmem)⟩
  · rw [locks_spawn_of_none _ hslot]
    cases hold : task.slot with
    | none => exact locks_spawn_of_none state hold ▸ h.apart
    | some slot =>
        exact (List.nodup_cons.1 (locks_spawn_of_slot state hold ▸ h.apart)).2

theorem release {amount : Nat} {victims : Option (List (Nat × SocketAddr))}
    (h : Accounted rule (state.spawn (.releasing amount victims))) :
    Accounted rule { state with flowCount := fetchSub state.flowCount amount } := by
  have hcount : state.flowCount = state.entries + (amount + state.owed) := h.count
  have hcap : state.flowCount ≤ rule.maxFlows := h.cap
  have hsub : fetchSub state.flowCount amount = state.flowCount - amount :=
    fetchSub_of_le (hcap.trans_lt rule.maxFlows_lt) (by omega)
  refine ⟨?_, ?_, fun other hother => h.vacant other (List.mem_cons_of_mem _ hother), ?_⟩
  · change fetchSub state.flowCount amount = state.entries + state.owed
    omega
  · change fetchSub state.flowCount amount ≤ rule.maxFlows
    omega
  · exact h.apart

theorem resume (h : Accounted rule state) (victims : Option (List (Nat × SocketAddr))) :
    Accounted rule (state.resume victims) := by
  cases victims with
  | none => exact h
  | some victims => exact h.add rfl rfl

theorem removeFlow (h : Accounted rule state) (victims : Option (List (Nat × SocketAddr))) :
    Accounted rule (state.removeFlow worker client victims) := by
  unfold FlowState.removeFlow
  split
  next hmem =>
    have hidle : Accounted rule (state.spawn (.reaping [])) := h.add rfl rfl
    have hcard := Finset.card_erase_add_one hmem
    exact hidle.shrink (Finset.erase_subset _ _) (by simp only [FlowTask.owed]; omega) rfl
  next => exact h.resume victims

end Accounted

theorem accounted_step {event : FlowEvent} (h : Accounted rule state)
    (hstep : state.step rule event = some next) : Accounted rule next := by
  -- a task is taken out, acts, and is put back in its next phase
  have htake : ∀ {task : FlowTask} {act : FlowState → FlowState},
      (∀ rest, Accounted rule (rest.spawn task) → Accounted rule (act rest)) →
      (state.take task).map act = some next → Accounted rule next := by
    intro task act hact hnext
    obtain ⟨rest, hrest, rfl⟩ := Option.map_eq_some_iff.1 hnext
    exact hact rest (h.of_take hrest)
  cases event with
  | enter worker client loaded =>
      rw [step] at hstep
      split at hstep
      next => cases hstep
      next hopen =>
        rw [not_or, Bool.not_eq_true] at hopen
        split at hstep
        next => exact Option.some.inj hstep ▸ h
        next hvacant =>
          exact Option.some.inj hstep ▸ h.enter (Nat.not_le.1 hopen.1) hopen.2 hvacant
  | exchange worker client current spurious seen =>
      exact htake (fun rest hrest => hrest.tryReserveFlow) hstep
  | insert worker client => exact htake (fun rest hrest => hrest.insert) hstep
  | scan victims => exact Option.some.inj hstep ▸ h.add rfl rfl
  | reap victims =>
      cases victims with
      | nil => exact (h.of_take hstep).drop rfl
      | cons victim victims =>
          rw [step] at hstep
          split at hstep
          next => cases hstep
          next => exact htake (fun rest hrest => (hrest.drop rfl).removeFlow _) hstep
  | beginDrain worker => exact Option.some.inj hstep ▸ h.add rfl rfl
  | drain worker piece drained =>
      rw [step] at hstep
      split at hstep
      next =>
        split at hstep
        next => cases hstep
        next =>
          refine htake (fun rest hrest => ?_) hstep
          exact hrest.shrink (Finset.filter_subset _ _) rfl rfl
      next =>
        refine htake (fun rest hrest => ?_) hstep
        split
        next => exact hrest.swap rfl rfl
        next hzero => exact hrest.drop (Nat.eq_zero_of_not_pos hzero)
  | release amount victims => exact htake (fun rest hrest => hrest.release.resume victims) hstep
  | upstreamFailed worker client =>
      rw [step] at hstep
      split at hstep
      next => cases hstep
      next => exact Option.some.inj hstep ▸ h.removeFlow none

theorem accounted_start (workers : Nat) : Accounted rule (start workers) := by
  refine ⟨?_, Nat.zero_le _, fun _ htask => absurd htask List.not_mem_nil, List.nodup_nil⟩
  simp [start, entries, owed]

theorem le_owed_of_mem (h : task ∈ state.tasks) : task.owed ≤ state.owed :=
  List.single_le_sum (by simp) _ (List.mem_map_of_mem h)

/--
Whatever the tasks of all workers do in whatever order, the tables never hold
more flows than are counted, the count stays at or below the cap, what is about
to be subtracted from it is there, and between calls it is the number of flows.
-/
theorem flow_count_accounts_for_tables (rule : CappedRule) (workers : Nat)
    (events : List FlowEvent) (state : FlowState)
    (hrun : run (step rule) (start workers) events = some state) :
    state.entries ≤ state.flowCount ∧ state.flowCount ≤ rule.maxFlows ∧
      (∀ amount victims, FlowTask.releasing amount victims ∈ state.tasks →
        amount ≤ state.flowCount) ∧
      (state.tasks = [] → state.flowCount = state.entries) := by
  have h : Accounted rule state :=
    run_invariant (step rule) (fun _ _ _ hstate hstep => accounted_step hstate hstep)
      (accounted_start workers) hrun
  have hcount := h.count
  refine ⟨by omega, h.cap, ?_, ?_⟩
  · intro amount victims htask
    have howed : amount ≤ state.owed := le_owed_of_mem htask
    omega
  · intro hidle
    have howed : state.owed = 0 := by simp [owed, hidle]
    omega

def oneFlowRule : CappedRule where
  port := 4000
  localAddr := ⟨.v4 0, 4000⟩
  emitsProxyV2 := false
  expectInboundProxy := false
  maxFlows := 1
  idleTimeoutMs := 1000
  pieces := 1
  pieceOf _ := 0
  pieceOf_lt _ := Nat.one_pos
  maxFlows_lt := by decide

def raceForLastFlow : List FlowEvent :=
  let first : SocketAddr := ⟨.v4 1, 5000⟩
  let second : SocketAddr := ⟨.v4 2, 5000⟩
  [.enter 0 first 0, .enter 1 second 0, .exchange 1 second 0 false 0, .exchange 0 first 0 false 1,
    .exchange 0 first 1 false 0, .insert 1 second, .upstreamFailed 1 second]

theorem flow_count_accounts_in_race :
    ∃ state, run (step oneFlowRule) (start 2) raceForLastFlow = some state ∧
      state.entries = 0 ∧ state.flowCount = 1 ∧ state.flowCount ≤ oneFlowRule.maxFlows ∧
        state.entries ≤ state.flowCount := by
  refine ⟨_, rfl, by decide, by decide, ?_, ?_⟩
  · exact (flow_count_accounts_for_tables oneFlowRule 2 raceForLastFlow _ rfl).2.1
  · exact (flow_count_accounts_for_tables oneFlowRule 2 raceForLastFlow _ rfl).1

end FlowState

end Yggdrasil.Proxy
