import Yggdrasil.Foundation.Refcount
import Yggdrasil.Proxy.Certs

/-!
# Directory watches behind the certificate watcher

The watcher watches parent directories, one watch for all hosts that have a
path in a directory.  Its refcount is that of `Foundation.Slot`: a host whose
attempt to watch a directory fails keeps its paths and is not counted.
-/

namespace Yggdrasil.Proxy

open Yggdrasil.Foundation Yggdrasil.Ratatoskr

structure WatcherState where
  hostPaths : CertWatcher
  watchedDirs : AList (fun _ : Path => Nat)
  watching : Finset Path

inductive WatcherCall where
  | register (hostname : String) (paths : List Path) (watch : Path → Bool)
  | unregister (hostname : String)

def WatcherCall.watches (dir : Path) : WatcherCall → Bool
  | .register _ _ watch => watch dir
  | .unregister _ => true

namespace WatcherState

-- `Path::parent`; two spellings of one directory have one parent value
variable (parent : Path → Option Path)

def dirsOf (paths : List Path) : List Path :=
  (paths.filterMap parent).dedup

def addWatchedDir (watch : Path → Bool) (state : WatcherState) (dir : Path) : WatcherState :=
  let count := (state.watchedDirs.lookup dir).getD 0 + 1
  if count = 1 then
    if watch dir then
      { state with
        watchedDirs := state.watchedDirs.insert dir count
        watching := insert dir state.watching }
    else
      -- the refcount is rolled back to zero and its slot removed
      { state with watchedDirs := state.watchedDirs.erase dir }
  else
    { state with watchedDirs := state.watchedDirs.insert dir count }

def decrementWatchedDir (state : WatcherState) (dir : Path) : WatcherState :=
  match state.watchedDirs.lookup dir with
  | none => state
  | some count =>
      if count - 1 = 0 then
        { state with
          watchedDirs := state.watchedDirs.erase dir
          watching := state.watching.erase dir }
      else
        { state with watchedDirs := state.watchedDirs.insert dir (count - 1) }

def register (watch : Path → Bool) (state : WatcherState) (hostname : String)
    (paths : List Path) : WatcherState :=
  if paths = [] then state
  else
    let key := toAsciiLowercase hostname
    let prevDirs := dirsOf parent ((state.hostPaths.lookup key).getD [])
    let newDirs := dirsOf parent paths
    let added := (newDirs.filter (fun dir => dir ∉ prevDirs)).foldl (addWatchedDir watch) state
    let dropped := (prevDirs.filter (fun dir => dir ∉ newDirs)).foldl decrementWatchedDir added
    { dropped with hostPaths := dropped.hostPaths.insert key paths }

def unregister (state : WatcherState) (hostname : String) : WatcherState :=
  let key := toAsciiLowercase hostname
  match state.hostPaths.lookup key with
  | none => state
  | some paths =>
      (dirsOf parent paths).foldl decrementWatchedDir
        { state with hostPaths := state.hostPaths.erase key }

def apply (state : WatcherState) : WatcherCall → WatcherState
  | .register hostname paths watch => register parent watch state hostname paths
  | .unregister hostname => unregister parent state hostname

def start : WatcherState := ⟨∅, ∅, ∅⟩

def after (state : WatcherState) (calls : List WatcherCall) : WatcherState :=
  calls.foldl (apply parent) state

theorem hostPaths_foldl {op : WatcherState → Path → WatcherState}
    (hop : ∀ state dir, (op state dir).hostPaths = state.hostPaths) (dirs : List Path)
    (state : WatcherState) : (dirs.foldl op state).hostPaths = state.hostPaths := by
  induction dirs generalizing state with
  | nil => rfl
  | cons dir dirs ih => rw [List.foldl_cons, ih, hop]

theorem hostPaths_addWatchedDir (watch : Path → Bool) (state : WatcherState) (dir : Path) :
    (addWatchedDir watch state dir).hostPaths = state.hostPaths := by
  unfold addWatchedDir
  dsimp only
  split
  · split <;> rfl
  · rfl

theorem hostPaths_decrementWatchedDir (state : WatcherState) (dir : Path) :
    (decrementWatchedDir state dir).hostPaths = state.hostPaths := by
  unfold decrementWatchedDir
  split
  · rfl
  · split <;> rfl

theorem hostPaths_register (watch : Path → Bool) (state : WatcherState) (hostname : String)
    (paths : List Path) :
    (register parent watch state hostname paths).hostPaths =
      CertWatcher.register state.hostPaths hostname paths := by
  unfold register CertWatcher.register
  split
  · rfl
  · dsimp only
    rw [hostPaths_foldl hostPaths_decrementWatchedDir,
      hostPaths_foldl (hostPaths_addWatchedDir watch)]

theorem hostPaths_unregister (state : WatcherState) (hostname : String) :
    (unregister parent state hostname).hostPaths =
      CertWatcher.unregister state.hostPaths hostname := by
  unfold unregister CertWatcher.unregister
  dsimp only
  split
  · rename_i hnone
    exact (AList.ext (List.kerase_of_notMem_keys (AList.lookup_eq_none.1 hnone))).symm
  · rw [hostPaths_foldl hostPaths_decrementWatchedDir]

def HasPathIn (dir : Path) (state : WatcherState) : Prop :=
  ∃ host paths, state.hostPaths.lookup host = some paths ∧ ∃ path ∈ paths, parent path = some dir

def inDir (dir : Path) (paths : List Path) : Bool :=
  (dirsOf parent paths).contains dir

def holders (dir : Path) (state : WatcherState) : Nat :=
  countValues (inDir parent dir) state.hostPaths

variable {paths : List Path} {watch : Path → Bool}

theorem inDir_iff {dir : Path} :
    inDir parent dir paths = true ↔ ∃ path ∈ paths, parent path = some dir := by
  simp [inDir, dirsOf]

theorem holders_pos_iff {dir : Path} {state : WatcherState} :
    0 < holders parent dir state ↔ HasPathIn parent dir state := by
  simp only [holders, countValues_pos_iff, inDir_iff]
  rfl

structure Counted (dir : Path) (state : WatcherState) (count : Nat) : Prop where
  lookup : state.watchedDirs.lookup dir = if count = 0 then none else some count
  watching : dir ∈ state.watching ↔ count ≠ 0

variable {parent} {dir : Path} {state : WatcherState} {count : Nat}

theorem Counted.getD (h : Counted dir state count) :
    (state.watchedDirs.lookup dir).getD 0 = count := by
  rw [h.lookup]
  split
  · exact Eq.symm ‹count = 0›
  · rfl

theorem Counted.addWatchedDir (h : Counted dir state count) :
    Counted dir (addWatchedDir watch state dir)
      (if count = 0 ∧ watch dir = false then 0 else count + 1) := by
  unfold WatcherState.addWatchedDir
  rw [h.getD]
  dsimp only
  by_cases hzero : count = 0
  · subst hzero
    cases hwatch : watch dir with
    | false =>
        refine ⟨by simp, ?_⟩
        simpa [hwatch] using h.watching
    | true => exact ⟨by simp, by simp⟩
  · have hone : count + 1 ≠ 1 := by omega
    rw [if_neg hone]
    refine ⟨by simp [hzero], ?_⟩
    simpa [hzero] using h.watching

theorem Counted.addWatchedDir_ne {other : Path} (hne : other ≠ dir) (h : Counted dir state count) :
    Counted dir (WatcherState.addWatchedDir watch state other) count := by
  unfold WatcherState.addWatchedDir
  dsimp only
  split
  · split
    · exact ⟨(AList.lookup_insert_ne (Ne.symm hne)).trans h.lookup,
        by simpa [Ne.symm hne] using h.watching⟩
    · exact ⟨(AList.lookup_erase_ne (Ne.symm hne)).trans h.lookup, h.watching⟩
  · exact ⟨(AList.lookup_insert_ne (Ne.symm hne)).trans h.lookup, h.watching⟩

theorem Counted.decrementWatchedDir (h : Counted dir state count) :
    Counted dir (decrementWatchedDir state dir) (count - 1) := by
  unfold WatcherState.decrementWatchedDir
  rw [h.lookup]
  by_cases hzero : count = 0
  · subst hzero
    exact h
  · rw [if_neg hzero]
    dsimp only
    by_cases hlast : count - 1 = 0
    · rw [if_pos hlast]
      exact ⟨by simp [hlast], by simp [hlast]⟩
    · rw [if_neg hlast]
      refine ⟨by simp [hlast], ?_⟩
      simpa [hzero, hlast] using h.watching

theorem Counted.decrementWatchedDir_ne {other : Path} (hne : other ≠ dir)
    (h : Counted dir state count) :
    Counted dir (WatcherState.decrementWatchedDir state other) count := by
  unfold WatcherState.decrementWatchedDir
  split
  · exact h
  · split
    · exact ⟨(AList.lookup_erase_ne (Ne.symm hne)).trans h.lookup,
        by simpa [Ne.symm hne] using h.watching⟩
    · exact ⟨(AList.lookup_insert_ne (Ne.symm hne)).trans h.lookup, h.watching⟩

theorem Counted.withHostPaths (h : Counted dir state count) (hostPaths : CertWatcher) :
    Counted dir { state with hostPaths := hostPaths } count :=
  ⟨h.lookup, h.watching⟩

theorem counted_foldl_decrementWatchedDir {dirs : List Path} (hnodup : dirs.Nodup)
    (h : Counted dir state count) :
    Counted dir (dirs.foldl decrementWatchedDir state)
      (if dir ∈ dirs then count - 1 else count) :=
  foldl_at (fun _ _ h => h.decrementWatchedDir) (fun _ _ _ hne h => h.decrementWatchedDir_ne hne)
    hnodup h

theorem counted_foldl_addWatchedDir (watch : Path → Bool) {dirs : List Path}
    (hnodup : dirs.Nodup) (h : Counted dir state count) :
    Counted dir (dirs.foldl (addWatchedDir watch) state)
      (if dir ∈ dirs then if count = 0 ∧ watch dir = false then 0 else count + 1 else count) :=
  foldl_at (f := fun count => if count = 0 ∧ watch dir = false then 0 else count + 1)
    (fun _ _ h => h.addWatchedDir) (fun _ _ _ hne h => h.addWatchedDir_ne hne) hnodup h

variable (parent) in
theorem nodup_dirsOf (paths : List Path) : (dirsOf parent paths).Nodup :=
  List.nodup_dedup _

theorem mem_filter_dirsOf {others : List Path} :
    dir ∈ (dirsOf parent paths).filter (fun dir => dir ∉ dirsOf parent others) ↔
      inDir parent dir paths = true ∧ inDir parent dir others = false := by
  simp [inDir]

variable (parent) in
theorem counted_register (watch : Path → Bool) (hostname : String) (hpaths : paths ≠ [])
    (h : Counted dir state count) :
    Counted dir (register parent watch state hostname paths)
      (match inDir parent dir ((state.hostPaths.lookup (toAsciiLowercase hostname)).getD []),
          inDir parent dir paths with
        | false, true => if count = 0 ∧ watch dir = false then 0 else count + 1
        | true, false => count - 1
        | _, _ => count) := by
  rw [register, if_neg hpaths]
  refine Counted.withHostPaths ?_ _
  have hadded := counted_foldl_addWatchedDir watch
    ((nodup_dirsOf parent paths).filter (fun dir => dir ∉ dirsOf parent
      ((state.hostPaths.lookup (toAsciiLowercase hostname)).getD []))) h
  have hdropped := counted_foldl_decrementWatchedDir
    ((nodup_dirsOf parent
      ((state.hostPaths.lookup (toAsciiLowercase hostname)).getD [])).filter
        (fun dir => dir ∉ dirsOf parent paths)) hadded
  simp only [mem_filter_dirsOf] at hdropped
  revert hdropped
  cases inDir parent dir ((state.hostPaths.lookup (toAsciiLowercase hostname)).getD []) <;>
    cases inDir parent dir paths <;> simp

/-! ## A directory's slot -/

variable (parent)

structure Shows (dir : Path) (state : WatcherState) (slot : Slot) : Prop where
  holders : holders parent dir state = slot.holders
  counted : Counted dir state slot.counted

variable {parent} {slot : Slot}

theorem any_inDir (held : Option (List Path)) :
    held.any (inDir parent dir) = inDir parent dir (held.getD []) := by
  cases held <;> rfl

theorem shows_register {hostname : String} (h : Shows parent dir state slot) :
    ∃ next, Slot.Move (watch dir) slot next ∧
      Shows parent dir (register parent watch state hostname paths) next := by
  by_cases hpaths : paths = []
  · rw [register, if_pos hpaths]
    exact ⟨slot, .stay slot, h⟩
  have hheld := countValues_insert (inDir parent dir) state.hostPaths (toAsciiLowercase hostname)
    paths
  have hholders : holders parent dir (register parent watch state hostname paths) =
      countValues (inDir parent dir)
        (state.hostPaths.insert (toAsciiLowercase hostname) paths) := by
    rw [holders, hostPaths_register, CertWatcher.register, if_neg hpaths]
  have hbefore : countValues (inDir parent dir) state.hostPaths = slot.holders := h.holders
  rw [any_inDir, ← hholders, hbefore] at hheld
  have hcounted := counted_register parent watch hostname hpaths h.counted
  revert hheld hcounted
  cases inDir parent dir ((state.hostPaths.lookup (toAsciiLowercase hostname)).getD []) <;>
    cases inDir parent dir paths <;> intro hheld hcounted
  · exact ⟨slot, .stay slot, hheld, hcounted⟩
  · exact ⟨_, .join slot, hheld, hcounted⟩
  · simp only [Bool.toNat_true, Bool.toNat_false] at hheld
    exact ⟨_, .leave slot (by omega), by simp only [Slot.leave]; omega, hcounted⟩
  · simp only [Bool.toNat_true] at hheld
    exact ⟨slot, .stay slot, by omega, hcounted⟩

theorem shows_unregister {hostname : String} (h : Shows parent dir state slot) :
    Shows parent dir (unregister parent state hostname)
      (if inDir parent dir ((state.hostPaths.lookup (toAsciiLowercase hostname)).getD []) then
        slot.leave else slot) := by
  have hheld := countValues_erase (inDir parent dir) state.hostPaths (toAsciiLowercase hostname)
  have hholders : holders parent dir (unregister parent state hostname) =
      countValues (inDir parent dir) (state.hostPaths.erase (toAsciiLowercase hostname)) := by
    rw [holders, hostPaths_unregister, CertWatcher.unregister]
  have hbefore : countValues (inDir parent dir) state.hostPaths = slot.holders := h.holders
  rw [any_inDir, ← hholders, hbefore] at hheld
  have hcounted : Counted dir (unregister parent state hostname)
      (if inDir parent dir ((state.hostPaths.lookup (toAsciiLowercase hostname)).getD []) then
        slot.counted - 1 else slot.counted) := by
    simp only [unregister]
    cases state.hostPaths.lookup (toAsciiLowercase hostname) with
    | none => exact h.counted
    | some paths =>
        have hdropped := counted_foldl_decrementWatchedDir (nodup_dirsOf parent paths)
          (h.counted.withHostPaths (state.hostPaths.erase (toAsciiLowercase hostname)))
        simpa [inDir] using hdropped
  revert hheld hcounted
  cases inDir parent dir ((state.hostPaths.lookup (toAsciiLowercase hostname)).getD []) <;>
    intro hheld hcounted
  · exact ⟨hheld, hcounted⟩
  · rw [Bool.toNat_true] at hheld
    exact ⟨by simp only [Slot.leave, if_true]; omega, hcounted⟩

theorem shows_apply (h : Shows parent dir state slot) (call : WatcherCall) :
    ∃ next, Slot.Move (call.watches dir) slot next ∧
      Shows parent dir (apply parent state call) next := by
  cases call with
  | register hostname paths watch => exact shows_register h
  | unregister hostname =>
      refine ⟨_, ?_, shows_unregister h⟩
      cases hin : inDir parent dir ((state.hostPaths.lookup (toAsciiLowercase hostname)).getD [])
      · exact .stay slot
      · refine .leave slot ?_
        rw [← h.holders, holders, countValues_pos_iff]
        cases hlookup : state.hostPaths.lookup (toAsciiLowercase hostname) with
        | none => simp [hlookup, inDir, dirsOf] at hin
        | some paths => exact ⟨_, paths, hlookup, by simpa [hlookup] using hin⟩

theorem Shows.watching_iff (h : Shows parent dir state slot) :
    dir ∈ state.watching ↔ 0 < slot.counted :=
  h.counted.watching.trans Nat.pos_iff_ne_zero.symm

theorem Shows.hasPathIn_iff (h : Shows parent dir state slot) :
    HasPathIn parent dir state ↔ 0 < slot.holders := by
  rw [← holders_pos_iff, h.holders]

theorem Shows.lookup_eq_holders_iff (h : Shows parent dir state slot)
    (hwatching : dir ∈ state.watching) :
    state.watchedDirs.lookup dir = some (WatcherState.holders parent dir state) ↔
      slot.counted = slot.holders := by
  have hpos := h.watching_iff.1 hwatching
  rw [h.holders, h.counted.lookup, if_neg (by omega), Option.some.injEq]

theorem shows_after (calls : List WatcherCall) (h : Shows parent dir state slot)
    (hle : slot.counted ≤ slot.holders) :
    ∃ next, next.counted ≤ next.holders ∧ Shows parent dir (after parent state calls) next := by
  induction calls generalizing state slot with
  | nil => exact ⟨slot, hle, h⟩
  | cons call calls ih =>
      obtain ⟨next, hmove, hnext⟩ := shows_apply h call
      exact ih hnext (hmove.counted_le hle)

theorem shows_start : Shows parent dir start ⟨0, 0⟩ :=
  ⟨rfl, rfl, by simp [start]⟩

theorem exact_after (calls : List WatcherCall) (h : Shows parent dir state slot)
    (hexact : slot.counted = slot.holders)
    (hattempt : ∀ before call, before ++ [call] <+: calls →
      call.watches dir = true ∨ HasPathIn parent dir (after parent state before)) :
    ∃ next, next.counted = next.holders ∧ Shows parent dir (after parent state calls) next := by
  induction calls generalizing state slot with
  | nil => exact ⟨slot, hexact, h⟩
  | cons call calls ih =>
      obtain ⟨next, hmove, hnext⟩ := shows_apply h call
      have hfirst := hattempt [] call ((List.prefix_cons_inj call).2 List.nil_prefix)
      have hfirst' : call.watches dir = true ∨ 0 < slot.holders :=
        hfirst.imp_right h.hasPathIn_iff.1
      refine ih hnext (hmove.exact hexact hfirst') ?_
      intro before later hbefore
      exact hattempt (call :: before) later ((List.prefix_cons_inj call).2 hbefore)

def KeysLowered (state : WatcherState) : Prop :=
  ∀ host ∈ state.hostPaths, toAsciiLowercase host = host

theorem keysLowered_apply (h : KeysLowered state) (call : WatcherCall) :
    KeysLowered (apply parent state call) := by
  intro host hhost
  cases call with
  | register hostname paths watch =>
      rw [apply, hostPaths_register, CertWatcher.register] at hhost
      split at hhost
      · exact h host hhost
      · rcases AList.mem_insert _ |>.1 hhost with rfl | hold
        · exact toAsciiLowercase_idem hostname
        · exact h host hold
  | unregister hostname =>
      rw [apply, hostPaths_unregister, CertWatcher.unregister] at hhost
      exact h host (AList.mem_erase.1 hhost).2

theorem keysLowered_after (calls : List WatcherCall) (h : KeysLowered state) :
    KeysLowered (after parent state calls) := by
  induction calls generalizing state with
  | nil => exact h
  | cons call calls ih => exact ih (keysLowered_apply h call)

theorem exists_leaving (hkeys : KeysLowered state) (h : Shows parent dir state slot)
    (hheld : HasPathIn parent dir state) :
    ∃ host, Shows parent dir (apply parent state (.unregister host)) slot.leave := by
  obtain ⟨host, paths, hlookup, hpath⟩ := hheld
  have hleft : Shows parent dir (unregister parent state host) _ := shows_unregister h
  rw [hkeys host (mem_iff_lookup.2 ⟨paths, hlookup⟩), hlookup, Option.getD_some,
    if_pos ((inDir_iff parent).2 hpath)] at hleft
  exact ⟨host, hleft⟩

theorem exists_unwatched_while_held (hkeys : KeysLowered state) (h : Shows parent dir state slot)
    (hless : slot.counted < slot.holders) :
    ∃ later, (∀ before, before <+: later → HasPathIn parent dir (after parent state before)) ∧
      dir ∉ (after parent state later).watching := by
  have hheld : HasPathIn parent dir state := h.hasPathIn_iff.2 (by omega)
  -- the induction is on the count; each holder that leaves takes one of both
  induction hcount : slot.counted generalizing state slot with
  | zero =>
      refine ⟨[], fun before hbefore => ?_, fun hwatching => ?_⟩
      · rw [List.prefix_nil.1 hbefore]
        exact hheld
      · have hpos := h.watching_iff.1 hwatching
        omega
  | succ n ih =>
      obtain ⟨host, hleft⟩ := exists_leaving hkeys h hheld
      have hless' : slot.leave.counted < slot.leave.holders := by
        simp only [Slot.leave]
        omega
      have hcount' : slot.leave.counted = n := by
        simp only [Slot.leave]
        omega
      obtain ⟨later, hlater, hunwatched⟩ := ih (keysLowered_apply hkeys (.unregister host)) hleft
        hless' (hleft.hasPathIn_iff.2 (by omega)) hcount'
      refine ⟨.unregister host :: later, fun before hbefore => ?_, hunwatched⟩
      cases before with
      | nil => exact hheld
      | cons first before =>
          obtain ⟨rfl, hrest⟩ := List.cons_prefix_cons.1 hbefore
          exact hlater before hrest

/-! ## When a watch is kept -/

/--
A directory no registered host has a path in is neither counted nor watched.
A watched one stays watched as long as some host has a path in it exactly when
its refcount is the number of such hosts, and so it is if no attempt to watch
it has failed.
-/
theorem watch_kept_while_held_iff (parent : Path → Option Path) (calls : List WatcherCall)
    (dir : Path) :
    (¬ HasPathIn parent dir (after parent start calls) →
        dir ∉ (after parent start calls).watching ∧
          dir ∉ (after parent start calls).watchedDirs) ∧
      (dir ∈ (after parent start calls).watching →
        ((∀ later,
            (∀ before, before <+: later →
              HasPathIn parent dir (after parent start (calls ++ before))) →
            dir ∈ (after parent start (calls ++ later)).watching) ↔
          (after parent start calls).watchedDirs.lookup dir =
            some (holders parent dir (after parent start calls)))) ∧
      ((∀ call ∈ calls, call.watches dir = true) →
        HasPathIn parent dir (after parent start calls) →
        (after parent start calls).watchedDirs.lookup dir =
          some (holders parent dir (after parent start calls)) ∧
        dir ∈ (after parent start calls).watching) := by
  have hkeys : KeysLowered (after parent start calls) :=
    keysLowered_after calls (fun host hhost => by cases hhost)
  have hstart : Shows parent dir start ⟨0, 0⟩ := shows_start
  obtain ⟨slot, hle, hslot⟩ := shows_after calls hstart (Nat.le_refl 0)
  have hafter : ∀ later, after parent start (calls ++ later) =
      after parent (after parent start calls) later :=
    fun later => List.foldl_append
  simp only [hafter]
  refine ⟨fun hnone => ?_, fun hwatching => ?_, fun hattempts hheld => ?_⟩
  · rw [hslot.hasPathIn_iff] at hnone
    have hzero : slot.counted = 0 := by omega
    refine ⟨fun hwatching => absurd (hslot.watching_iff.1 hwatching) (by omega), ?_⟩
    rw [← AList.lookup_eq_none, hslot.counted.lookup, if_pos hzero]
  · rw [hslot.lookup_eq_holders_iff hwatching]
    constructor
    · intro hkept
      by_contra hne
      obtain ⟨later, hheld, hunwatched⟩ := exists_unwatched_while_held hkeys hslot (by omega)
      exact hunwatched (hkept later hheld)
    · intro hexact later hheld
      obtain ⟨next, hexact', hnext⟩ := exact_after later hslot hexact
        (fun before call hbefore => .inr (hheld before ((List.prefix_append _ _).trans hbefore)))
      rw [hnext.watching_iff, hexact', ← hnext.hasPathIn_iff]
      exact hheld later (List.prefix_refl later)
  · obtain ⟨next, hexact, hnext⟩ := exact_after calls hstart rfl
      (fun before call hbefore => .inl (hattempts call
        (hbefore.subset (List.mem_append_right before List.mem_cons_self))))
    have hwatching : dir ∈ (after parent start calls).watching := by
      rw [hnext.watching_iff, hexact, ← hnext.hasPathIn_iff]
      exact hheld
    exact ⟨(hnext.lookup_eq_holders_iff hwatching).2 hexact, hwatching⟩

def textParent (path : Path) : Option Path :=
  match path.toList.reverse.dropWhile (fun c => c != '/') with
  | [] => none
  | _ :: dir => some (String.ofList dir.reverse)

def sharedDir (first : Bool) : List WatcherCall :=
  [.register "a.test" ["/certs/a.pem"] (fun _ => first),
    .register "b.test" ["/certs/b.pem"] (fun _ => true)]

theorem unwatched_under_remaining_host :
    "/certs" ∈ (after textParent start (sharedDir false)).watching ∧
      HasPathIn textParent "/certs"
        (after textParent start (sharedDir false ++ [.unregister "a.test"])) ∧
      "/certs" ∉ (after textParent start (sharedDir false ++ [.unregister "a.test"])).watching :=
  ⟨by decide, ⟨"b.test", ["/certs/b.pem"], by decide, "/certs/b.pem", by decide, by decide⟩,
    by decide⟩

theorem watch_kept_after_first_leaves :
    "/certs" ∈ (after textParent start (sharedDir true ++ [.unregister "a.test"])).watching := by
  have hkept := watch_kept_while_held_iff textParent (sharedDir true) "/certs"
  refine (hkept.2.1 (by decide)).2 (by decide) [.unregister "a.test"] ?_
  intro before hbefore
  refine ⟨"b.test", ["/certs/b.pem"], ?_, "/certs/b.pem", by decide, by decide⟩
  rcases List.prefix_cons_iff.1 hbefore with rfl | ⟨rest, rfl, hrest⟩
  · decide
  · rw [List.prefix_nil.1 hrest]
    decide

end WatcherState

end Yggdrasil.Proxy
