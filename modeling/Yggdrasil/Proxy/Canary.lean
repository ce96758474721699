import Yggdrasil.Foundation.Keyed
import Yggdrasil.Foundation.Run
import Yggdrasil.Ratatoskr.ChainQuery

/-!
# Canary arms

A canary arms a listener with a token for some time; traffic that begins with
the token is echoed and does not reach the backend.  The table of arms is
shared by everything that runs: operators arm and disarm while the listeners
look tokens up.  A disarm holds the lock of its key only while it drops its
token, and removes a list it found empty after it let go of the lock.
-/

namespace Yggdrasil.Proxy

open Foundation Ratatoskr

structure ArmEntry where
  token : CanaryToken
  expiresAt : Nat
  deriving DecidableEq

abbrev CanaryArmTable := AList (fun _ : Claim => List ArmEntry)

namespace CanaryArmTable

variable (table : CanaryArmTable)

def entriesAt (claim : Claim) : List ArmEntry := (table.lookup claim).getD []

def isArmed (claim : Claim) (now : Nat) : Bool :=
  (table.entriesAt claim).any (fun entry => now < entry.expiresAt)

def matchToken (claim : Claim) (candidate : Bytes) (now : Nat) : Bool :=
  (table.entriesAt claim).any (fun entry => now < entry.expiresAt && entry.token.val == candidate)

def refresh (token : CanaryToken) (expiresAt : Nat) : List ArmEntry → Option (List ArmEntry)
  | [] => none
  | entry :: rest =>
      if entry.token = token then some (⟨token, expiresAt⟩ :: rest)
      else (refresh token expiresAt rest).map (entry :: ·)

/-- The expiry is taken before the clock is read again to drop what is stale. -/
def arm (claim : Claim) (token : CanaryToken) (expiresAt now : Nat) : CanaryArmTable :=
  let entries := (table.entriesAt claim).filter (fun entry => now < entry.expiresAt)
  table.insert claim ((refresh token expiresAt entries).getD (entries ++ [⟨token, expiresAt⟩]))

def retainOthers (claim : Claim) (token : CanaryToken) : CanaryArmTable × Bool :=
  match table.lookup claim with
  | none => (table, false)
  | some entries =>
      let entries := entries.filter (fun entry => entry.token ≠ token)
      (table.insert claim entries, entries.isEmpty)

def purgeAt (claim : Claim) (now : Nat) : CanaryArmTable :=
  match table.lookup claim with
  | none => table
  | some entries =>
      let entries := entries.filter (fun entry => now < entry.expiresAt)
      if entries.isEmpty then table.erase claim else table.insert claim entries

end CanaryArmTable

/-- `none` where the peek fails or times out; it never returns more than a token's length. -/
def peekAndMatchCanaryToken (table : CanaryArmTable) (localAddr : SocketAddr) (now : Nat)
    (peeked : Option Bytes) : Option Bytes := do
  let bytes ← peeked
  if bytes.length < 32 then none
  else if table.matchToken (localAddr, .tcp) bytes now then some bytes
  else none

inductive Routing where
  | echo
  | forward
  deriving DecidableEq, Repr

/-- One accepted connection; the clock is read for the guard and again for the match. -/
def routeConnection (table : CanaryArmTable) (localAddr : SocketAddr) (armedAt matchedAt : Nat)
    (peeked : Option Bytes) : Routing :=
  if table.isArmed (localAddr, .tcp) armedAt then
    match peekAndMatchCanaryToken table localAddr matchedAt peeked with
    | some _ => .echo
    | none => .forward
  else .forward

def routeDatagram (table : CanaryArmTable) (localAddr : SocketAddr) (armedAt matchedAt : Nat)
    (payload : Bytes) : Routing :=
  if table.isArmed (localAddr, .udp) armedAt && 32 ≤ payload.length &&
      table.matchToken (localAddr, .udp) (payload.take 32) matchedAt then .echo
  else .forward

structure ArmTasks where
  arms : CanaryArmTable
  removing : List Claim

inductive TableOp where
  | arm (claim : Claim) (token : CanaryToken) (expiresAt now : Nat)
  | retainOthers (claim : Claim) (token : CanaryToken)
  | remove (claim : Claim)
  | purgeAt (claim : Claim) (now : Nat)

namespace ArmTasks

def arm (tasks : ArmTasks) (claim : Claim) (token : CanaryToken) (expiresAt now : Nat) : ArmTasks :=
  { tasks with arms := CanaryArmTable.arm tasks.arms claim token expiresAt now }

def step (tasks : ArmTasks) : TableOp → Option ArmTasks
  | .arm claim token expiresAt now => some (tasks.arm claim token expiresAt now)
  | .retainOthers claim token =>
      let (arms, emptied) := CanaryArmTable.retainOthers tasks.arms claim token
      some ⟨arms, if emptied then claim :: tasks.removing else tasks.removing⟩
  | .remove claim =>
      if tasks.removing.contains claim then some ⟨tasks.arms.erase claim, tasks.removing.erase claim⟩
      else none
  | .purgeAt claim now =>
      some { tasks with arms := CanaryArmTable.purgeAt tasks.arms claim now }

end ArmTasks

/-- Neither ends nor renews the arm, and is done before the arm expires. -/
def TableOp.Spares (claim : Claim) (token : CanaryToken) (expiresAt : Nat) : TableOp → Prop
  | .arm claim' token' _ now => (claim', token') ≠ (claim, token) ∧ now < expiresAt
  | .retainOthers claim' token' => (claim', token') ≠ (claim, token)
  | .remove _ => True
  | .purgeAt _ now => now < expiresAt

structure Intercepts (table : CanaryArmTable) (claim : Claim) (token : CanaryToken)
    (expiresAt : Nat) : Prop where
  matched : ∀ now < expiresAt, table.matchToken claim token.val now = true
  datagram : claim.2 = .udp → ∀ armedAt < expiresAt, ∀ matchedAt < expiresAt, ∀ payload,
    routeDatagram table claim.1 armedAt matchedAt (token.val ++ payload) = .echo
  /-- A connection whose peek sees less than the token is forwarded. -/
  connection : claim.2 = .tcp → ∀ armedAt < expiresAt, ∀ matchedAt < expiresAt, ∀ payload,
    ∀ seen ≤ 32,
    (routeConnection table claim.1 armedAt matchedAt (some ((token.val ++ payload).take seen)) =
      .echo ↔ seen = 32)

/-- The arm does what it is for until it expires or is disarmed. -/
def Effective (tasks : ArmTasks) (claim : Claim) (token : CanaryToken) (expiresAt : Nat) : Prop :=
  ∀ ops reached, (∀ op ∈ ops, op.Spares claim token expiresAt) →
    run ArmTasks.step tasks ops = some reached → Intercepts reached.arms claim token expiresAt

/-! ## Entries of a key -/

namespace CanaryArmTable

variable {table table' : CanaryArmTable} {claim claim' : Claim} {token token' : CanaryToken}
  {expiresAt expiresAt' now : Nat}

@[simp] theorem entriesAt_insert_self (entries : List ArmEntry) :
    entriesAt (table.insert claim entries) claim = entries := by
  rw [entriesAt, AList.lookup_insert, Option.getD_some]

theorem entriesAt_insert_ne (entries : List ArmEntry) (h : claim' ≠ claim) :
    entriesAt (table.insert claim entries) claim' = table.entriesAt claim' := by
  rw [entriesAt, AList.lookup_insert_ne h, entriesAt]

@[simp] theorem entriesAt_erase_self : entriesAt (table.erase claim) claim = [] := by
  rw [entriesAt, AList.lookup_erase, Option.getD_none]

theorem entriesAt_erase_ne (h : claim' ≠ claim) :
    entriesAt (table.erase claim) claim' = table.entriesAt claim' := by
  rw [entriesAt, AList.lookup_erase_ne h, entriesAt]

def Live (table : CanaryArmTable) (claim : Claim) (token : CanaryToken) (expiresAt : Nat) : Prop :=
  ∃ entry ∈ table.entriesAt claim, entry.token = token ∧ expiresAt ≤ entry.expiresAt

theorem live_congr (h : table.entriesAt claim = entriesAt table' claim) :
    Live table claim token expiresAt ↔ Live table' claim token expiresAt := by
  rw [Live, Live, h]

theorem mem_refresh {entries refreshed : List ArmEntry}
    (h : refresh token expiresAt entries = some refreshed) :
    ⟨token, expiresAt⟩ ∈ refreshed ∧
      ∀ entry ∈ entries, entry.token ≠ token → entry ∈ refreshed := by
  induction entries generalizing refreshed with
  | nil => cases h
  | cons first rest ih =>
      unfold refresh at h
      split_ifs at h with htoken
      · cases h
        refine ⟨List.mem_cons_self, fun entry hentry hother => ?_⟩
        rcases List.mem_cons.1 hentry with rfl | hrest
        · exact absurd htoken hother
        · exact List.mem_cons_of_mem _ hrest
      · obtain ⟨others, hothers, rfl⟩ := Option.map_eq_some_iff.1 h
        obtain ⟨hnew, hkept⟩ := ih hothers
        refine ⟨List.mem_cons_of_mem _ hnew, fun entry hentry hother => ?_⟩
        rcases List.mem_cons.1 hentry with rfl | hrest
        · exact List.mem_cons_self
        · exact List.mem_cons_of_mem _ (hkept entry hrest hother)

theorem live_arm_self (table : CanaryArmTable) (claim : Claim) (token : CanaryToken)
    (expiresAt now : Nat) :
    Live (table.arm claim token expiresAt now) claim token expiresAt := by
  refine ⟨⟨token, expiresAt⟩, ?_, rfl, le_rfl⟩
  rw [arm, entriesAt_insert_self]
  cases hrefresh : refresh token expiresAt
      ((table.entriesAt claim).filter (fun entry => now < entry.expiresAt)) with
  | none => simp
  | some entries => exact (mem_refresh hrefresh).1

theorem entriesAt_arm_ne (h : claim' ≠ claim) :
    entriesAt (table.arm claim token expiresAt now) claim' = table.entriesAt claim' :=
  entriesAt_insert_ne _ h

theorem Live.arm (h : Live table claim token expiresAt) (hne : (claim', token') ≠ (claim, token))
    (hnow : now < expiresAt) :
    Live (table.arm claim' token' expiresAt' now) claim token expiresAt := by
  by_cases hclaim : claim = claim'
  · subst hclaim
    have htoken : token ≠ token' := fun heq => hne (by rw [heq])
    obtain ⟨entry, hentry, hsame, hlasts⟩ := h
    refine ⟨entry, ?_, hsame, hlasts⟩
    have hkept : entry ∈ (table.entriesAt claim).filter (fun entry => now < entry.expiresAt) :=
      List.mem_filter.2 ⟨hentry, by simpa using Nat.lt_of_lt_of_le hnow hlasts⟩
    rw [CanaryArmTable.arm, entriesAt_insert_self]
    cases hrefresh : refresh token' expiresAt'
        ((table.entriesAt claim).filter (fun entry => now < entry.expiresAt)) with
    | none => exact List.mem_append_left _ hkept
    | some entries => exact (mem_refresh hrefresh).2 entry hkept (hsame ▸ htoken)
  · exact (live_congr (entriesAt_arm_ne hclaim)).2 h

theorem Live.retainOthers (h : Live table claim token expiresAt)
    (hne : (claim', token') ≠ (claim, token)) :
    Live (table.retainOthers claim' token').1 claim token expiresAt ∧
      ((table.retainOthers claim' token').2 = true → claim' ≠ claim) := by
  unfold CanaryArmTable.retainOthers
  split
  next => exact ⟨h, fun hempty => by cases hempty⟩
  next entries hlookup =>
    by_cases hclaim : claim = claim'
    · subst hclaim
      have htoken : token ≠ token' := fun heq => hne (by rw [heq])
      obtain ⟨entry, hentry, hsame, hlasts⟩ := h
      rw [entriesAt, hlookup, Option.getD_some] at hentry
      have hkept : entry ∈ entries.filter (fun entry => entry.token ≠ token') :=
        List.mem_filter.2 ⟨hentry, by simpa [hsame] using htoken⟩
      refine ⟨⟨entry, ?_, hsame, hlasts⟩, fun hempty => ?_⟩
      · rw [entriesAt_insert_self]
        exact hkept
      · dsimp only at hempty
        rw [List.isEmpty_iff] at hempty
        rw [hempty] at hkept
        cases hkept
    · exact ⟨(live_congr (entriesAt_insert_ne _ hclaim)).2 h, fun _ => Ne.symm hclaim⟩

theorem Live.purgeAt (h : Live table claim token expiresAt) (hnow : now < expiresAt) :
    Live (table.purgeAt claim' now) claim token expiresAt := by
  unfold CanaryArmTable.purgeAt
  split
  next => exact h
  next entries hlookup =>
    by_cases hclaim : claim = claim'
    · subst hclaim
      obtain ⟨entry, hentry, hsame, hlasts⟩ := h
      rw [entriesAt, hlookup, Option.getD_some] at hentry
      have hkept : entry ∈ entries.filter (fun entry => now < entry.expiresAt) :=
        List.mem_filter.2 ⟨hentry, by simpa using Nat.lt_of_lt_of_le hnow hlasts⟩
      have hsome : ¬ (entries.filter (fun entry => now < entry.expiresAt)).isEmpty = true := by
        rw [List.isEmpty_iff]
        exact List.ne_nil_of_mem hkept
      refine ⟨entry, ?_, hsame, hlasts⟩
      dsimp only
      rw [if_neg hsome, entriesAt_insert_self]
      exact hkept
    · dsimp only
      split
      · exact (live_congr (entriesAt_erase_ne hclaim)).2 h
      · exact (live_congr (entriesAt_insert_ne _ hclaim)).2 h

theorem matched_iff_live (hpos : 0 < expiresAt) :
    (∀ now < expiresAt, table.matchToken claim token.val now = true) ↔
      Live table claim token expiresAt := by
  simp only [matchToken, List.any_eq_true, Bool.and_eq_true, decide_eq_true_eq, beq_iff_eq]
  constructor
  · intro h
    obtain ⟨entry, hentry, hlives, hsame⟩ := h (expiresAt - 1) (by omega)
    exact ⟨entry, hentry, Subtype.ext hsame, by omega⟩
  · rintro ⟨entry, hentry, rfl, hlasts⟩ now hnow
    exact ⟨entry, hentry, by omega, rfl⟩

theorem intercepts_iff_live (hpos : 0 < expiresAt) :
    Intercepts table claim token expiresAt ↔ Live table claim token expiresAt := by
  constructor
  · exact fun h => (matched_iff_live hpos).1 h.matched
  · intro hlive
    have hmatched := (matched_iff_live hpos).2 hlive
    obtain ⟨entry, hentry, rfl, hlasts⟩ := hlive
    have harmed : ∀ now < expiresAt, table.isArmed claim now = true := by
      intro now hnow
      simp only [isArmed, List.any_eq_true, decide_eq_true_eq]
      exact ⟨entry, hentry, by omega⟩
    obtain ⟨address, protocol⟩ := claim
    refine ⟨hmatched, ?_, ?_⟩
    · rintro rfl armedAt harmedAt matchedAt hmatchedAt payload
      have htake : (entry.token.val ++ payload).take 32 = entry.token.val :=
        List.take_left' entry.token.2
      have hlength : 32 ≤ (entry.token.val ++ payload).length := by
        rw [List.length_append, entry.token.2]
        omega
      rw [routeDatagram, htake, harmed armedAt harmedAt, hmatched matchedAt hmatchedAt]
      simp only [decide_eq_true hlength, Bool.and_self, if_true]
    · rintro rfl armedAt harmedAt matchedAt hmatchedAt payload seen hseen
      rw [routeConnection, if_pos (harmed armedAt harmedAt)]
      have hlength : ((entry.token.val ++ payload).take seen).length = seen := by
        rw [List.length_take, List.length_append, entry.token.2]
        omega
      by_cases hwhole : seen = 32
      · subst hwhole
        have htake : (entry.token.val ++ payload).take 32 = entry.token.val :=
          List.take_left' entry.token.2
        simp [peekAndMatchCanaryToken, htake, entry.token.2, hmatched matchedAt hmatchedAt]
      · have hshort : seen < 32 := by omega
        simp [peekAndMatchCanaryToken, hlength, hshort, hwhole]

end CanaryArmTable

/-! ## Arms along a run -/

open CanaryArmTable

variable {claim : Claim} {token : CanaryToken} {expiresAt : Nat} {tasks : ArmTasks}

theorem live_step {next : ArmTasks} {op : TableOp} (hlive : Live tasks.arms claim token expiresAt)
    (hkey : claim ∉ tasks.removing) (hspares : op.Spares claim token expiresAt)
    (hstep : tasks.step op = some next) :
    Live next.arms claim token expiresAt ∧ claim ∉ next.removing := by
  cases op with
  | arm claim' token' expiresAt' now =>
      cases hstep
      exact ⟨hlive.arm hspares.1 hspares.2, hkey⟩
  | retainOthers claim' token' =>
      cases hstep
      obtain ⟨hkept, hother⟩ := hlive.retainOthers hspares
      refine ⟨hkept, ?_⟩
      change claim ∉ (if (tasks.arms.retainOthers claim' token').2 = true then
        claim' :: tasks.removing else tasks.removing)
      by_cases hempty : (tasks.arms.retainOthers claim' token').2 = true
      · rw [if_pos hempty, List.mem_cons, not_or]
        exact ⟨Ne.symm (hother hempty), hkey⟩
      · rw [if_neg hempty]
        exact hkey
  | remove claim' =>
      simp only [ArmTasks.step] at hstep
      split_ifs at hstep with hmem
      cases hstep
      have hne : claim ≠ claim' := fun heq => hkey (heq ▸ List.contains_iff_mem.1 hmem)
      exact ⟨(live_congr (entriesAt_erase_ne hne)).2 hlive,
        fun hleft => hkey (List.mem_of_mem_erase hleft)⟩
  | purgeAt claim' now =>
      cases hstep
      exact ⟨hlive.purgeAt hspares, hkey⟩

theorem live_run {reached : ArmTasks} {ops : List TableOp}
    (hlive : Live tasks.arms claim token expiresAt) (hkey : claim ∉ tasks.removing)
    (hspares : ∀ op ∈ ops, op.Spares claim token expiresAt)
    (hrun : run ArmTasks.step tasks ops = some reached) :
    Live reached.arms claim token expiresAt := by
  induction ops generalizing tasks with
  | nil =>
      cases hrun
      exact hlive
  | cons op ops ih =>
      obtain ⟨next, hstep, hrest⟩ := Option.bind_eq_some_iff.1 hrun
      obtain ⟨hlive, hkey⟩ := live_step hlive hkey (hspares op List.mem_cons_self) hstep
      exact ih hlive hkey (fun op hop => hspares op (List.mem_cons_of_mem _ hop)) hrest

theorem run_remove (hkey : claim ∈ tasks.removing) (token : CanaryToken) (expiresAt : Nat) :
    ∃ reached, run ArmTasks.step tasks [.remove claim] = some reached ∧
      ¬ Live reached.arms claim token expiresAt := by
  refine ⟨⟨tasks.arms.erase claim, tasks.removing.erase claim⟩, ?_, ?_⟩
  · simp [run, ArmTasks.step, hkey]
  · rintro ⟨entry, hentry, -⟩
    rw [entriesAt_erase_self] at hentry
    cases hentry

theorem effective_iff (hpos : 0 < expiresAt) :
    Effective tasks claim token expiresAt ↔
      Live tasks.arms claim token expiresAt ∧ claim ∉ tasks.removing := by
  constructor
  · intro h
    refine ⟨(intercepts_iff_live hpos).1 (h [] tasks (by simp) rfl), fun hkey => ?_⟩
    obtain ⟨reached, hrun, hlost⟩ := run_remove hkey token expiresAt
    exact hlost ((intercepts_iff_live hpos).1
      (h [.remove claim] reached (by simp [TableOp.Spares]) hrun))
  · rintro ⟨hlive, hkey⟩ ops reached hspares hrun
    exact (intercepts_iff_live hpos).2 (live_run hlive hkey hspares hrun)

theorem effective_arm_iff {claim' : Claim} {now : Nat} (hpos : 0 < expiresAt) :
    Effective (tasks.arm claim token expiresAt now) claim' token expiresAt ↔
      (claim' = claim ∧ claim ∉ tasks.removing) ∨ Effective tasks claim' token expiresAt := by
  rw [effective_iff hpos, effective_iff hpos]
  by_cases hclaim : claim' = claim
  · subst hclaim
    have hlive := live_arm_self tasks.arms claim' token expiresAt now
    constructor
    · exact fun h => .inl ⟨rfl, h.2⟩
    · rintro (h | h)
      · exact ⟨hlive, h.2⟩
      · exact ⟨hlive, h.2⟩
  · rw [ArmTasks.arm, live_congr (entriesAt_arm_ne hclaim)]
    constructor
    · exact .inr
    · rintro (h | h)
      · exact absurd h.1 hclaim
      · exact h

/--
Whatever else happens to the table, an armed token is matched until it expires
exactly if no disarm was about to remove the list of its listener when it was
armed.
-/
theorem armed_token_matched_iff (tasks : ArmTasks) (claim : Claim) (token : CanaryToken)
    (expiresAt now : Nat) (hpos : 0 < expiresAt) :
    (∀ ops reached, (∀ op ∈ ops, op.Spares claim token expiresAt) →
      run ArmTasks.step (tasks.arm claim token expiresAt now) ops = some reached →
        ∀ time < expiresAt, reached.arms.matchToken claim token.val time = true) ↔
      claim ∉ tasks.removing := by
  have hsame : (tasks.arm claim token expiresAt now).removing = tasks.removing := rfl
  rw [← hsame]
  constructor
  · intro h hkey
    obtain ⟨reached, hrun, hlost⟩ := run_remove hkey token expiresAt
    exact hlost ((matched_iff_live hpos).1
      (h [.remove claim] reached (by simp [TableOp.Spares]) hrun))
  · intro hkey ops reached hspares hrun
    have hlive := live_arm_self tasks.arms claim token expiresAt now
    exact (matched_iff_live hpos).2 (live_run hlive hkey hspares hrun)

def toyToken (byte : UInt8) : CanaryToken := List.Vector.replicate 32 byte

/-- One canary is over while another on the same listener goes on. -/
theorem armed_token_outlives_disarm :
    ∃ before reached,
      run ArmTasks.step ⟨∅, []⟩ [.arm (⟨.v4 0, 22⟩, .tcp) (toyToken 1) 100 0] = some before ∧
      run ArmTasks.step (before.arm (⟨.v4 0, 22⟩, .tcp) (toyToken 2) 100 1)
        [.retainOthers (⟨.v4 0, 22⟩, .tcp) (toyToken 1), .purgeAt (⟨.v4 0, 22⟩, .tcp) 50] =
        some reached ∧
      reached.arms.matchToken (⟨.v4 0, 22⟩, .tcp) (toyToken 2).val 99 = true := by
  refine ⟨_, _, rfl, rfl, (armed_token_matched_iff _ (⟨.v4 0, 22⟩, .tcp) (toyToken 2) 100 1
    (by decide)).2 ?_ [.retainOthers (⟨.v4 0, 22⟩, .tcp) (toyToken 1),
      .purgeAt (⟨.v4 0, 22⟩, .tcp) 50] _ ?_ rfl 99 (by decide)⟩
  · exact List.not_mem_nil
  · have hne : toyToken 1 ≠ toyToken 2 := by decide
    simp [TableOp.Spares, hne]

/-- The second canary is armed after the disarm of the first let go of the lock. -/
theorem disarm_removes_other_token :
    ∃ before reached,
      run ArmTasks.step ⟨∅, []⟩
        [.arm (⟨.v4 0, 22⟩, .tcp) (toyToken 1) 100 0,
          .retainOthers (⟨.v4 0, 22⟩, .tcp) (toyToken 1)] = some before ∧
      run ArmTasks.step (before.arm (⟨.v4 0, 22⟩, .tcp) (toyToken 2) 100 1)
        [.remove (⟨.v4 0, 22⟩, .tcp)] = some reached ∧
      TableOp.Spares (⟨.v4 0, 22⟩, .tcp) (toyToken 2) 100 (.remove (⟨.v4 0, 22⟩, .tcp)) ∧
      reached.arms.matchToken (⟨.v4 0, 22⟩, .tcp) (toyToken 2).val 2 = false := by
  refine ⟨_, _, rfl, rfl, trivial, ?_⟩
  decide

end Yggdrasil.Proxy
