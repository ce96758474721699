import Yggdrasil.Foundation.Run
import Yggdrasil.Proxy.Certs

/-!
# Issued certificates on disk

`write_atomic` replaces the two files of a host by renames, the chain first and
the key after it; the loader reads the chain first and the key after it.  Each
file is always whole, but nothing ties the two files together: the directory
holds a chain without its key from the first rename to the second, and stays so
if the call fails or the daemon stops in between.

Every system call is a step of its own, and any number of loads may be under
way.  A load checks that both files exist before it reads them; as files are
replaced and never removed, the check is taken together with the first read.
-/

namespace Yggdrasil.Acme

open Foundation Ratatoskr
open Yggdrasil.Proxy (Path CertError CertFiles CertContext loadRouteCert)

structure IssuedCert where
  fullchainPem : Bytes
  privkeyPem : Bytes
  deriving DecidableEq, Repr

inductive PemFile where
  | fullchain
  | privkey
  deriving DecidableEq, Repr

def PemFile.name : PemFile → String
  | fullchain => "fullchain.pem"
  | privkey => "privkey.pem"

def IssuedCert.pem (cert : IssuedCert) : PemFile → Bytes
  | .fullchain => cert.fullchainPem
  | .privkey => cert.privkeyPem

structure Stored where
  issuance : Nat
  pem : Bytes
  deriving DecidableEq, Repr

inductive Call where
  | openTmp
  | write
  | setPermissions
  | sync
  | rename
  deriving DecidableEq, Repr

structure Writer where
  issuance : Nat
  cert : IssuedCert
  file : PemFile
  call : Call
  deriving DecidableEq, Repr

structure Storage where
  final : PemFile → Option Stored
  tmp : PemFile → Option Stored
  writer : Option Writer
  loads : List Stored
  issued : Nat
  lastRename : Option PemFile
  installed : List (Stored × Stored)

inductive StorageEvent where
  | writeAtomic (cert : IssuedCert)
  | call
  /-- It fails, and a failed `write` leaves a part of the bytes. -/
  | callFails (written : Nat)
  /-- The daemon stops at any point and is started again. -/
  | crash (written : Nat)
  | readChain
  /-- The load with this chain reads the key; both are installed if they parse. -/
  | readKey (chain : Stored) (parses : Bool)
  deriving DecidableEq, Repr

namespace Storage

def start : Storage := ⟨fun _ => none, fun _ => none, none, [], 0, none, []⟩

def setTmp (storage : Storage) (file : PemFile) (stored : Option Stored) : Storage :=
  { storage with tmp := Function.update storage.tmp file stored }

def perform (storage : Storage) (writer : Writer) : Storage :=
  match writer.call with
  | .openTmp =>
      { storage.setTmp writer.file (some ⟨writer.issuance, []⟩) with
        writer := some { writer with call := .write } }
  | .write =>
      { storage.setTmp writer.file (some ⟨writer.issuance, writer.cert.pem writer.file⟩) with
        writer := some { writer with call := .setPermissions } }
  | .setPermissions => { storage with writer := some { writer with call := .sync } }
  | .sync => { storage with writer := some { writer with call := .rename } }
  | .rename =>
      { storage.setTmp writer.file none with
        final := Function.update storage.final writer.file (storage.tmp writer.file)
        lastRename := some writer.file
        writer :=
          match writer.file with
          | .fullchain => some { writer with file := .privkey, call := .openTmp }
          | .privkey => none }

def abandon (storage : Storage) (written : Nat) : Storage :=
  match storage.writer with
  | none => storage
  | some writer =>
      match writer.call with
      | .write =>
          { storage.setTmp writer.file
              (some ⟨writer.issuance, (writer.cert.pem writer.file).take written⟩) with
            writer := none }
      | _ => { storage with writer := none }

def step (storage : Storage) : StorageEvent → Option Storage
  | .writeAtomic cert =>
      match storage.writer with
      | some _ => none
      | none =>
          some { storage with
            writer := some ⟨storage.issued, cert, .fullchain, .openTmp⟩
            issued := storage.issued + 1 }
  | .call => storage.writer.map storage.perform
  | .callFails written => if storage.writer.isSome then some (storage.abandon written) else none
  | .crash written => some { storage.abandon written with loads := [] }
  | .readChain =>
      match storage.final .fullchain, storage.final .privkey with
      | some chain, some _ => some { storage with loads := chain :: storage.loads }
      -- with one of the files missing the load looks elsewhere
      | _, _ => some storage
  | .readKey chain parses =>
      if chain ∈ storage.loads then
        match storage.final .privkey, parses with
        | some key, true =>
            some { storage with
              loads := storage.loads.erase chain
              installed := (chain, key) :: storage.installed }
        -- a pair that does not parse is not installed
        | _, _ => some { storage with loads := storage.loads.erase chain }
      else none

def Settled (final : PemFile → Option Stored) : Prop :=
  ∀ chain key, final .fullchain = some chain → final .privkey = some key →
    chain.issuance = key.issuance

structure DiskCoherent (final : PemFile → Option Stored) (lastRename : Option PemFile)
    (issued : Nat) : Prop where
  older : ∀ file stored, final file = some stored → stored.issuance < issued
  bare : lastRename = none → ∀ file, final file = none
  torn : lastRename = some .fullchain → ∀ chain key, final .fullchain = some chain →
    final .privkey = some key → chain.issuance ≠ key.issuance
  settled : lastRename = some .privkey → Settled final

/-- The temporary file is complete from the end of `write` to the rename. -/
def Written (call : Call) : Prop := call = .setPermissions ∨ call = .sync ∨ call = .rename

structure WriterCoherent (final tmp : PemFile → Option Stored) (issued : Nat) (writer : Writer) :
    Prop where
  issued : writer.issuance < issued
  /-- A chain that is being written is newer than all there is. -/
  newest : writer.file = .fullchain → ∀ file stored, final file = some stored →
    stored.issuance < writer.issuance
  /-- A key is written after its chain. -/
  chainFirst : writer.file = .privkey →
    ∃ chain, final .fullchain = some chain ∧ chain.issuance = writer.issuance
  written : Written writer.call →
    tmp writer.file = some ⟨writer.issuance, writer.cert.pem writer.file⟩

structure Coherent (storage : Storage) : Prop where
  disk : DiskCoherent storage.final storage.lastRename storage.issued
  writing : ∀ writer, storage.writer = some writer →
    WriterCoherent storage.final storage.tmp storage.issued writer

theorem coherent_start : Coherent start where
  disk :=
    { older := fun _ _ h => by cases h
      bare := fun _ _ => rfl
      torn := fun h => by cases h
      settled := fun h => by cases h }
  writing _ h := by cases h

variable {storage next : Storage} {writer : Writer}

theorem Coherent.abandoned (h : Coherent storage) (written : Nat) :
    Coherent (storage.abandon written) ∧ (storage.abandon written).final = storage.final ∧
      (storage.abandon written).lastRename = storage.lastRename ∧
      (storage.abandon written).installed = storage.installed ∧
      (storage.abandon written).loads = storage.loads := by
  unfold abandon
  split
  · exact ⟨h, rfl, rfl, rfl, rfl⟩
  · split
    all_goals exact ⟨⟨h.disk, fun _ hnone => by cases hnone⟩, rfl, rfl, rfl, rfl⟩

section

variable {issuance : Nat} {cert : IssuedCert} {file : PemFile}

theorem final_rename (h : Coherent storage)
    (hwriter : storage.writer = some ⟨issuance, cert, file, .rename⟩) :
    (storage.perform ⟨issuance, cert, file, .rename⟩).final =
      Function.update storage.final file (some ⟨issuance, cert.pem file⟩) :=
  congrArg (Function.update storage.final file) ((h.writing _ hwriter).written (.inr (.inr rfl)))

theorem older_rename (h : Coherent storage)
    (hwriter : storage.writer = some ⟨issuance, cert, file, .rename⟩) (other : PemFile)
    (stored : Stored)
    (hstored : (storage.perform ⟨issuance, cert, file, .rename⟩).final other = some stored) :
    stored.issuance < storage.issued := by
  rw [final_rename h hwriter] at hstored
  by_cases hother : other = file
  · subst hother
    rw [Function.update_self] at hstored
    cases hstored
    exact (h.writing _ hwriter).issued
  · rw [Function.update_of_ne hother] at hstored
    exact h.disk.older other stored hstored

theorem coherent_rename_chain (h : Coherent storage)
    (hwriter : storage.writer = some ⟨issuance, cert, .fullchain, .rename⟩) :
    Coherent (storage.perform ⟨issuance, cert, .fullchain, .rename⟩) := by
  have hw := h.writing _ hwriter
  have hfinal := final_rename h hwriter
  refine ⟨⟨older_rename h hwriter, nofun, fun _ chain key hchain hkey => ?_, nofun⟩, ?_⟩
  · rw [hfinal, Function.update_self] at hchain
    rw [hfinal, Function.update_of_ne (by decide)] at hkey
    -- the new chain is of the newest issuance, and no key of that one is there yet
    cases hchain
    exact (hw.newest rfl .privkey key hkey).ne'
  · intro writer hnext
    cases hnext
    refine ⟨hw.issued, nofun, fun _ => ⟨⟨issuance, cert.fullchainPem⟩, ?_, rfl⟩, fun hdone => ?_⟩
    · rw [hfinal, Function.update_self]
      rfl
    · rcases hdone with hdone | hdone | hdone <;> cases hdone

theorem coherent_rename_key (h : Coherent storage)
    (hwriter : storage.writer = some ⟨issuance, cert, .privkey, .rename⟩) :
    Coherent (storage.perform ⟨issuance, cert, .privkey, .rename⟩) := by
  have hfinal := final_rename h hwriter
  obtain ⟨newest, hnewest, hissuance⟩ := (h.writing _ hwriter).chainFirst rfl
  refine ⟨⟨older_rename h hwriter, nofun, nofun, fun _ chain key hchain hkey => ?_⟩, nofun⟩
  rw [hfinal, Function.update_of_ne (by decide), hnewest] at hchain
  rw [hfinal, Function.update_self] at hkey
  rw [← Option.some.inj hchain, ← Option.some.inj hkey]
  exact hissuance

end

theorem coherent_perform (h : Coherent storage) (hwriter : storage.writer = some writer) :
    Coherent (storage.perform writer) := by
  have hw := h.writing writer hwriter
  obtain ⟨issuance, cert, file, call⟩ := writer
  cases call with
  | openTmp =>
      refine ⟨h.disk, fun writer hnext => ?_⟩
      cases hnext
      refine ⟨hw.issued, hw.newest, hw.chainFirst, fun hdone => ?_⟩
      rcases hdone with hdone | hdone | hdone <;> cases hdone
  | write =>
      refine ⟨h.disk, fun writer hnext => ?_⟩
      cases hnext
      exact ⟨hw.issued, hw.newest, hw.chainFirst, fun _ => by simp [perform, setTmp]⟩
  | setPermissions =>
      refine ⟨h.disk, fun writer hnext => ?_⟩
      cases hnext
      exact ⟨hw.issued, hw.newest, hw.chainFirst, fun _ => hw.written (.inl rfl)⟩
  | sync =>
      refine ⟨h.disk, fun writer hnext => ?_⟩
      cases hnext
      exact ⟨hw.issued, hw.newest, hw.chainFirst, fun _ => hw.written (.inr (.inl rfl))⟩
  | rename =>
      cases file with
      | fullchain => exact coherent_rename_chain h hwriter
      | privkey => exact coherent_rename_key h hwriter

variable {event : StorageEvent}

theorem coherent_step (h : Coherent storage)
    (hstep : storage.step event = some next) : Coherent next := by
  cases event with
  | writeAtomic cert =>
      simp only [step] at hstep
      split at hstep
      · cases hstep
      · cases hstep
        refine ⟨⟨fun file stored hfile => ?_, h.disk.bare, h.disk.torn, h.disk.settled⟩, ?_⟩
        · exact Nat.lt_succ_of_lt (h.disk.older file stored hfile)
        · rintro writer hwriter
          cases hwriter
          refine ⟨Nat.lt_succ_self _, fun _ => h.disk.older, fun hkey => ?_, fun hdone => ?_⟩
          · cases hkey
          · rcases hdone with hdone | hdone | hdone <;> cases hdone
  | call =>
      obtain ⟨writer, hwriter, rfl⟩ := Option.map_eq_some_iff.1 hstep
      exact coherent_perform h hwriter
  | callFails written =>
      simp only [step] at hstep
      split at hstep
      · cases hstep
        exact (h.abandoned written).1
      · cases hstep
  | crash written =>
      cases hstep
      exact ⟨(h.abandoned written).1.disk, (h.abandoned written).1.writing⟩
  | readChain =>
      simp only [step] at hstep
      split at hstep
      all_goals
        cases hstep
        exact ⟨h.disk, h.writing⟩
  | readKey chain parses =>
      simp only [step] at hstep
      split at hstep
      · split at hstep
        all_goals
          cases hstep
          exact ⟨h.disk, h.writing⟩
      · cases hstep

/-! ## Pairs that are installed -/

def Renames (storage : Storage) (event : StorageEvent) : Prop :=
  event = .call ∧ ∃ writer, storage.writer = some writer ∧ writer.call = .rename

instance (storage : Storage) (event : StorageEvent) : Decidable (Renames storage event) :=
  inferInstanceAs (Decidable (_ ∧ ∃ writer ∈ storage.writer, writer.call = .rename))

def Installs (storage : Storage) (event : StorageEvent) : Prop :=
  ∃ chain ∈ storage.loads, event = .readKey chain true

instance (storage : Storage) (event : StorageEvent) : Decidable (Installs storage event) :=
  inferInstanceAs (Decidable (∃ chain ∈ storage.loads, _))

def Single (storage : Storage) : Prop :=
  ∀ pair ∈ storage.installed, pair.1.issuance = pair.2.issuance

def Current (storage : Storage) : Prop :=
  ∀ chain ∈ storage.loads, storage.final .fullchain = some chain ∧
    ∃ key, storage.final .privkey = some key

structure Intact (storage : Storage) : Prop where
  coherent : Coherent storage
  current : Current storage
  single : Single storage

theorem perform_frame (storage : Storage) (writer : Writer) :
    (storage.perform writer).loads = storage.loads ∧
      (storage.perform writer).installed = storage.installed ∧
      (writer.call ≠ .rename → (storage.perform writer).final = storage.final) := by
  unfold perform
  split
  all_goals simp_all [setTmp]

theorem intact_call (h : Intact storage) (hwriter : storage.writer = some writer)
    (hcalm : writer.call = .rename → storage.loads = []) : Intact (storage.perform writer) := by
  obtain ⟨hloads, hinstalled, hfinal⟩ := perform_frame storage writer
  refine ⟨coherent_perform h.coherent hwriter, ?_, ?_⟩
  · intro chain hchain
    rw [hloads] at hchain
    by_cases hrename : writer.call = .rename
    · rw [hcalm hrename] at hchain
      cases hchain
    · rw [hfinal hrename]
      exact h.current chain hchain
  · intro pair hpair
    rw [hinstalled] at hpair
    exact h.single pair hpair

theorem intact_step (h : Intact storage) (hcalm : Renames storage event → storage.loads = [])
    (hguard : Installs storage event → storage.lastRename = some .privkey)
    (hstep : storage.step event = some next) : Intact next := by
  have hcoherent := coherent_step h.coherent hstep
  cases event with
  | writeAtomic cert =>
      simp only [step] at hstep
      split at hstep
      · cases hstep
      · cases hstep
        exact ⟨hcoherent, h.current, h.single⟩
  | call =>
      obtain ⟨writer, hwriter, rfl⟩ := Option.map_eq_some_iff.1 hstep
      exact intact_call h hwriter fun hrename => hcalm ⟨rfl, writer, hwriter, hrename⟩
  | callFails written =>
      obtain ⟨-, hfinal, -, hinstalled, hloads⟩ := h.coherent.abandoned written
      simp only [step] at hstep
      split at hstep
      · cases hstep
        refine ⟨hcoherent, ?_, ?_⟩
        · simpa only [Current, hfinal, hloads] using h.current
        · simpa only [Single, hinstalled] using h.single
      · cases hstep
  | crash written =>
      obtain ⟨-, -, -, hinstalled, -⟩ := h.coherent.abandoned written
      cases hstep
      refine ⟨hcoherent, fun _ hload => absurd hload List.not_mem_nil, ?_⟩
      simpa only [Single, hinstalled] using h.single
  | readChain =>
      simp only [step] at hstep
      split at hstep
      next chain key hchain hkey =>
        cases hstep
        refine ⟨hcoherent, ?_, h.single⟩
        intro read hread
        rcases List.mem_cons.1 hread with rfl | hold
        · exact ⟨hchain, key, hkey⟩
        · exact h.current read hold
      next =>
        cases hstep
        exact h
  | readKey chain parses =>
      have hcurrent : ∀ read ∈ storage.loads.erase chain, storage.final .fullchain = some read ∧
          ∃ key, storage.final .privkey = some key := fun read hread =>
        h.current read (List.mem_of_mem_erase hread)
      simp only [step] at hstep
      split at hstep
      next hload =>
        split at hstep
        next key hkey =>
          cases hstep
          refine ⟨hcoherent, hcurrent, ?_⟩
          intro pair hpair
          rcases List.mem_cons.1 hpair with rfl | hold
          · have hlast := hguard ⟨chain, hload, rfl⟩
            exact h.coherent.disk.settled hlast chain key (h.current chain hload).1 hkey
          · exact h.single pair hold
        next =>
          cases hstep
          exact ⟨hcoherent, hcurrent, h.single⟩
      next => cases hstep

theorem lastRename_of_single (h : Intact storage)
    (hnext : ∀ next, storage.step event = some next → Single next)
    (hinstalls : Installs storage event) : storage.lastRename = some .privkey := by
  obtain ⟨chain, hload, rfl⟩ := hinstalls
  obtain ⟨hchain, key, hkey⟩ := h.current chain hload
  have hsame : chain.issuance = key.issuance :=
    hnext { storage with
      loads := storage.loads.erase chain
      installed := (chain, key) :: storage.installed } (by simp [step, hload, hkey])
      (chain, key) List.mem_cons_self
  cases hlast : storage.lastRename with
  | none =>
      rw [h.coherent.disk.bare hlast .privkey] at hkey
      cases hkey
  | some file =>
      cases file with
      | fullchain => exact absurd hsame (h.coherent.disk.torn hlast chain key hchain hkey)
      | privkey => rfl

/--
As long as no file is renamed while a load is between its two reads, every
installed pair comes from one issuance exactly when no pair is installed
between the rename of a chain and the next rename of a key.
-/
theorem installed_pairs_single_iff (events : List StorageEvent)
    (hcalm : Along step (fun storage event => Renames storage event → storage.loads = [])
      start events) :
    (∀ before reached, before <+: events → run step start before = some reached →
        Single reached) ↔
      Along step (fun storage event => Installs storage event →
        storage.lastRename = some .privkey) start events := by
  refine reached_iff_along_within step (I := Intact)
    (fun _ _ _ h hcalm hguard hstep => intact_step h hcalm hguard hstep)
    (fun _ h => h.single) (fun _ _ h _ hnext => lastRename_of_single h hnext)
    ⟨coherent_start, ?_, ?_⟩ events hcalm
  · intro chain hchain
    cases hchain
  · intro pair hpair
    cases hpair

def firstCert : IssuedCert := ⟨[1], [2]⟩

def renewedCert : IssuedCert := ⟨[3], [4]⟩

def writeOne : List StorageEvent := [.call, .call, .call, .call, .call]

/-- An issuance and a load of what it wrote. -/
def issueAndLoad (cert : IssuedCert) (chain : Stored) : List StorageEvent :=
  .writeAtomic cert :: (writeOne ++ writeOne) ++ [.readChain, .readKey chain true]

def renewal : List StorageEvent :=
  issueAndLoad firstCert ⟨0, [1]⟩ ++ issueAndLoad renewedCert ⟨1, [3]⟩

theorem installed_pairs_single_renewal :
    ∃ reached, run step start renewal = some reached ∧
      reached.installed = [(⟨1, [3]⟩, ⟨1, [4]⟩), (⟨0, [1]⟩, ⟨0, [2]⟩)] ∧ Single reached := by
  refine ⟨_, rfl, rfl, ?_⟩
  exact (installed_pairs_single_iff renewal (by decide +kernel)).2 (by decide +kernel) renewal _
    (List.prefix_refl _) rfl

/--
The chain of a renewal with the key before it: a load between the two renames,
a load after the second file could not be written, and a load whose two reads
have both renames between them.
-/
theorem mixed_pairs_installed :
    let first : List StorageEvent := .writeAtomic firstCert :: (writeOne ++ writeOne)
    (∃ reached, run step start (first ++ .writeAtomic renewedCert :: writeOne ++
        [.readChain, .readKey ⟨1, [3]⟩ true]) = some reached ∧
      reached.installed = [(⟨1, [3]⟩, ⟨0, [2]⟩)]) ∧
    (∃ reached, run step start (first ++ .writeAtomic renewedCert :: writeOne ++
        [.call, .callFails 0, .crash 0, .readChain, .readKey ⟨1, [3]⟩ true]) = some reached ∧
      reached.installed = [(⟨1, [3]⟩, ⟨0, [2]⟩)]) ∧
    (∃ reached, run step start (first ++ .readChain :: .writeAtomic renewedCert ::
        (writeOne ++ writeOne) ++ [.readKey ⟨0, [1]⟩ true]) = some reached ∧
      reached.installed = [(⟨0, [1]⟩, ⟨1, [4]⟩)]) :=
  ⟨⟨_, rfl, rfl⟩, ⟨_, rfl, rfl⟩, ⟨_, rfl, rfl⟩⟩

/-! ## Loads with nothing between their reads

Elsewhere a load is one step with the files as a parameter.  That is the load
whose two reads follow each other.
-/

section

variable (storageDir host : String)

def path (file : PemFile) : Path := storageDir ++ "/" ++ host ++ "/" ++ file.name

theorem path_ne : path storageDir host .privkey ≠ path storageDir host .fullchain := by
  intro h
  have hlength := congrArg String.length h
  simp only [path, PemFile.name, String.length_append] at hlength
  exact absurd (Nat.add_left_cancel hlength) (by decide)

def certFiles (storage : Storage) (parse : Bytes → Bytes → Except CertError Bytes)
    (others : CertFiles) : CertFiles where
  isFile file :=
    if file = path storageDir host .fullchain then (storage.final .fullchain).isSome
    else if file = path storageDir host .privkey then (storage.final .privkey).isSome
    else others.isFile file
  loadPemPair ruleName route cert key :=
    if cert = path storageDir host .fullchain ∧ key = path storageDir host .privkey then
      match storage.final .fullchain, storage.final .privkey with
      | some chain, some key => parse chain.pem key.pem
      | _, _ => .error ⟨"read"⟩
    else others.loadPemPair ruleName route cert key
  readDefaultCertSans := others.readDefaultCertSans

theorem loadRouteCert_eq_reads {chain key : Stored} (hchain : storage.final .fullchain = some chain)
    (hkey : storage.final .privkey = some key)
    (parse : Bytes → Bytes → Except CertError Bytes) (others : CertFiles) (route : HttpRoute)
    (ctx : CertContext) (hhost : route.hostname = host) (hdir : ctx.serverCertDir = storageDir) :
    loadRouteCert (certFiles storageDir host storage parse others) route ctx =
        (parse chain.pem key.pem).map (fun pair =>
          some ⟨pair, .convention (path storageDir host .fullchain)
            (path storageDir host .privkey)⟩) ∧
      (run step storage [.readChain, .readKey chain true]).map Storage.installed =
        some ((chain, key) :: storage.installed) := by
  have hcert : ctx.serverCertDir ++ "/" ++ route.hostname ++ "/fullchain.pem" =
      path storageDir host .fullchain := by
    simp [path, PemFile.name, hhost, hdir, String.append_assoc]
  have hprivkey : ctx.serverCertDir ++ "/" ++ route.hostname ++ "/privkey.pem" =
      path storageDir host .privkey := by
    simp [path, PemFile.name, hhost, hdir, String.append_assoc]
  constructor
  · simp only [loadRouteCert, hcert, hprivkey]
    rw [if_pos (by simp [certFiles, path_ne, hchain, hkey])]
    simp only [certFiles, hchain, hkey, and_self, if_true]
    cases parse chain.pem key.pem with
    | error e => rfl
    | ok pair => rfl
  · simp [run, step, hchain, hkey]

end

end Storage

end Yggdrasil.Acme
