import Runewarp.Lib.Disk
import Runewarp.Lib.Program

/-!
# The committed certificate store

The owner of the certificate directory keeps its ACME account and certificate in
*generations*.  A generation is one immutable file whose name is its digest; the manifest
`current.json` names the current generation and the one before it.  A publication writes
a candidate, syncs it, renames it into place and syncs the directory, first for the
generation, then for its certificate export, then for the manifest, and removes what the
manifest no longer names.

The functions of the store are programs over filesystem calls.  The calls that go
through `CertificateStoreIo` are `readFile`, `syncFile`, `rename` and `syncDirectory`;
the others go to the filesystem directly.

What is written to a file is a document: a generation, a manifest or a certificate.  A
`StoreConfig` says how documents are written and read back, and what the policy, the
contact and the directory URL are.
-/

namespace Runewarp.ServerCertificate

/-- `Generation`, with accounts `α` and certificates `κ`. -/
structure Generation (α κ : Type) where
  hostname : String
  contact : String
  directoryUrl : String
  account : Option α := none
  certificate : Option κ := none
deriving DecidableEq

inductive Directory where
  | committed
  | generations
deriving DecidableEq

/-- The files of the store, with digests `η`. -/
inductive Path (η : Type) where
  /-- `candidate.json`. -/
  | candidateManifest
  /-- `current.json`. -/
  | current
  /-- `generations/candidate`. -/
  | candidate
  /-- `generations/{id}`. -/
  | blob (id : η)
  /-- `generations/{id}.pem`. -/
  | exported (id : η)
deriving DecidableEq

def Path.directory {η : Type} : Path η → Directory
  | .candidateManifest | .current => .committed
  | .candidate | .blob _ | .exported _ => .generations

inductive ErrorKind where
  | notFound
  | invalidData
  | other
deriving DecidableEq

/-- `io::Error`. -/
structure StoreError where
  kind : ErrorKind
  message : String
deriving DecidableEq

def invalidState : StoreError := ⟨.invalidData, "invalid committed Server certificate state"⟩

/-- What a missing file is answered with. -/
def notFound : StoreError := ⟨.notFound, "entity not found"⟩

def maxStateBytes : Nat := 1024 * 1024

/-- The limit for the manifest. -/
def maxManifestBytes : Nat := 512

/-- How documents are written and read back, and what a store is opened with. -/
structure StoreConfig (η α κ γ : Type) where
  /-- `hex_digest`. -/
  digest : γ → η
  /-- Sixty-four hexadecimal digits. -/
  isDigest : η → Bool
  isDigest_digest : ∀ c, isDigest (digest c) = true
  generation : Generation α κ → γ
  readGeneration : γ → Option (Generation α κ)
  readGeneration_generation : ∀ g, readGeneration (generation g) = some g
  manifest : List η → γ
  readManifest : γ → Option (List η)
  readManifest_manifest : ∀ ids, readManifest (manifest ids) = some ids
  pem : κ → γ
  /-- The number of bytes. -/
  size : γ → Nat
  size_manifest : ∀ ids, ids.length ≤ 2 → (∀ id ∈ ids, isDigest id = true) →
    size (manifest ids) ≤ maxManifestBytes
  /-- `validate_account`. -/
  accountOk : α → Bool
  /-- The hostname of the policy. -/
  hostname : String
  contact : String
  directoryUrl : String

/-! ## Filesystem calls -/

inductive StoreCall (η γ : Type) where
  | readFile (path : Path η) (limit : Nat)
  | syncFile (path : Path η)
  | rename (source target : Path η)
  | syncDirectory (directory : Directory)
  /-- `read_private`. -/
  | readPrivate (path : Path η) (limit : Nat)
  | tryExists (path : Path η)
  /-- `File::open`. -/
  | openFile (path : Path η)
  | removeFile (path : Path η)
  /-- The rest of `write_private`, for a file that does not exist. -/
  | create (path : Path η) (content : γ)
  /-- `read_dir` of the generations. -/
  | readDir

def StoreCall.Reply {η γ : Type} : StoreCall η γ → Type
  | .readFile _ _ | .readPrivate _ _ => Except StoreError γ
  | .syncFile _ | .rename _ _ | .syncDirectory _ | .openFile _ | .removeFile _ | .create _ _ =>
    Except StoreError Unit
  | .tryExists _ => Bool
  | .readDir => List (Path η)

abbrev StoreDisk (η γ : Type) : Type := Disk (Path η) γ

/-- A function of the store. -/
abbrev StoreM (η γ α : Type) : Type := Program (StoreCall η γ) StoreCall.Reply StoreError α

section

variable {η α κ γ : Type} [DecidableEq η] [DecidableEq γ]

/-- What is in a file, up to a limit on its size. -/
def readUpTo (size : γ → Nat) (d : StoreDisk η γ) (path : Path η) (limit : Nat) :
    Except StoreError γ :=
  match d.entries path with
  | none => .error notFound
  | some file => if limit < size file.content then .error invalidState else .ok file.content

/-- A call that needs the file to exist. -/
def withFile (d : StoreDisk η γ) (path : Path η) (next : StoreDisk η γ) :
    Except StoreError Unit × StoreDisk η γ :=
  if (d.entries path).isSome then (.ok (), next) else (.error notFound, d)

/-- What a call does when it does not fail of itself. -/
def perform (size : γ → Nat) :
    (call : StoreCall η γ) → StoreDisk η γ → call.Reply × StoreDisk η γ
  | .readFile path limit, d => (readUpTo size d path limit, d)
  | .syncFile path, d => (.ok (), d.sync path)
  | .rename source target, d => withFile d source (d.rename source target)
  | .syncDirectory directory, d => (.ok (), d.syncDirectory Path.directory directory)
  | .readPrivate path limit, d => (readUpTo size d path limit, d)
  | .tryExists path, d => ((d.entries path).isSome, d)
  | .openFile path, d => withFile d path d
  | .removeFile path, d => withFile d path (d.remove path)
  | .create path content, d => (.ok (), d.write path content)
  | .readDir, d => (d.list Path.directory .generations, d)

/-- How a call of `CertificateStoreIo` fails: with an error, and with its effect or
without it. -/
structure Fault where
  error : StoreError
  effect : Bool

/-- What a call is answered when it fails, for the calls of `CertificateStoreIo`. -/
def StoreCall.failure (e : StoreError) : (call : StoreCall η γ) → Option call.Reply
  | .readFile _ _ | .syncFile _ | .rename _ _ | .syncDirectory _ => some (.error e)
  | .readPrivate _ _ | .tryExists _ | .openFile _ | .removeFile _ | .create _ _ | .readDir => none

/-- What a call does that may fail. -/
def performFaulty (size : γ → Nat) (fault : Option Fault) (call : StoreCall η γ)
    (d : StoreDisk η γ) : Option (call.Reply × StoreDisk η γ) :=
  match fault with
  | none => some (perform size call d)
  | some f =>
    (call.failure f.error).map fun reply =>
      (reply, if f.effect then (perform size call d).2 else d)

/-! ## The functions of the store -/

namespace StoreM

def readFile (path : Path η) (limit : Nat) : StoreM η γ γ :=
  .call (.readFile path limit) .ofExcept

def readPrivate (path : Path η) (limit : Nat) : StoreM η γ γ :=
  .call (.readPrivate path limit) .ofExcept

def syncFile (path : Path η) : StoreM η γ Unit := .call (.syncFile path) .ofExcept

def rename (source target : Path η) : StoreM η γ Unit :=
  .call (.rename source target) .ofExcept

def syncDirectory (directory : Directory) : StoreM η γ Unit :=
  .call (.syncDirectory directory) .ofExcept

def openFile (path : Path η) : StoreM η γ Unit := .call (.openFile path) .ofExcept

def removeFile (path : Path η) : StoreM η γ Unit := .call (.removeFile path) .ofExcept

def create (path : Path η) (content : γ) : StoreM η γ Unit := .call (.create path content) .ofExcept

def tryExists (path : Path η) : StoreM η γ Bool := .call (.tryExists path) .ok

def readDir : StoreM η γ (List (Path η)) := .call .readDir .ok

end StoreM

open StoreM

def writePrivate (path : Path η) (content : γ) : StoreM η γ Unit := do
  Program.onlyIf (← tryExists path) (removeFile path)
  create path content

/-- The steps of a publication: a candidate is written, synced and renamed into place. -/
def publishFile (source target : Path η) (directory : Directory) (content : γ) :
    StoreM η γ Unit := do
  writePrivate source content
  syncFile source
  rename source target
  syncDirectory directory

def publishBlob (target : Path η) (content : γ) : StoreM η γ Unit :=
  publishFile .candidate target .generations content

variable (cfg : StoreConfig η α κ γ)

/-- What `read_manifest_with_io` accepts. -/
def StoreConfig.validManifest (ids : List η) : Bool :=
  !ids.isEmpty && decide (ids.length ≤ 2) && ids.all cfg.isDigest

/-- `read_manifest_with_io`; no generations when there is no manifest. -/
def readManifestWithIo : StoreM η γ (List η) :=
  .call (.readFile .current maxManifestBytes) fun
    | .ok content =>
      match cfg.readManifest content with
      | some ids => if cfg.validManifest ids then .ok ids else .fail invalidState
      | none => .fail invalidState
    | .error e => if e.kind = .notFound then .ok [] else .fail e

def readGenerationWithIo (id : η) : StoreM η γ (Generation α κ) := do
  let content ← readFile (.blob id) maxStateBytes
  if cfg.digest content ≠ id then .fail invalidState
  else
    match cfg.readGeneration content with
    | some g => .ok g
    | none => .fail invalidState

def publishManifest (ids : List η) : StoreM η γ Unit :=
  publishFile .candidateManifest .current .committed (cfg.manifest ids)

/-- The generation of a store that has none. -/
def StoreConfig.empty : Generation α κ where
  hostname := cfg.hostname
  contact := cfg.contact
  directoryUrl := cfg.directoryUrl

/-- A generation of this policy, contact and URL, with a valid account. -/
def StoreConfig.accepts (g : Generation α κ) : Bool :=
  decide (g.hostname = cfg.hostname) && decide (g.contact = cfg.contact) &&
    decide (g.directoryUrl = cfg.directoryUrl) && g.account.all cfg.accountOk

/-- The loop of `load`: the first generation that can be read. -/
def loadFirst : List η → StoreM η γ (Generation α κ)
  | [] => .fail invalidState
  | id :: ids => do
      match ← (readGenerationWithIo cfg id).attempt with
      | .ok g => if cfg.accepts g then .ok g else .fail invalidState
      | .error _ => loadFirst ids

/-- `load`. -/
def load : StoreM η γ (Generation α κ) := do
  let ids ← readManifestWithIo cfg
  if ids = [] then .ok cfg.empty else loadFirst cfg ids

/-- One round of the second loop of `recover_manifest`: the export of a certificate that
`valid` accepts is published again when it is not what it should be. -/
def restoreExport (valid : η → κ → Bool) (id : η) : StoreM η γ Unit := do
  let g ← readGenerationWithIo cfg id
  match g.certificate with
  | none => .ok ()
  | some certificate =>
    if valid id certificate then
      match ← (readPrivate (.exported id) maxStateBytes).attempt with
      | .ok content =>
        if content = cfg.pem certificate then .ok ()
        else publishBlob (.exported id) (cfg.pem certificate)
      | .error _ => publishBlob (.exported id) (cfg.pem certificate)
    else .ok ()

/-- `File::open` and `sync_file`. -/
def syncExisting (path : Path η) : StoreM η γ Unit := do
  openFile path
  syncFile path

def recoverManifest (valid : η → κ → Bool) : StoreM η γ Unit := do
  let ids ← readManifestWithIo cfg
  let retained ← Program.filterOk (readGenerationWithIo cfg) ids
  Program.forEach (restoreExport cfg valid) retained
  if retained = ids then .ok ()
  else if retained = [] then .fail invalidState
  else do
    Program.forEach (fun id => syncExisting (.blob id)) retained
    syncDirectory .generations
    publishManifest cfg retained

/-- `sync_file` of a file that may not exist. -/
def syncIfExists (path : Path η) : StoreM η γ Unit := do
  Program.onlyIf (← tryExists path) (syncExisting path)

/-- One round of the loop of `sync_committed`. -/
def syncGeneration (id : η) : StoreM η γ Unit := do
  syncExisting (.blob id)
  syncIfExists (.exported id)

def syncCommitted : StoreM η γ Unit := do
  let ids ← readManifestWithIo cfg
  Program.forEach syncGeneration ids
  syncDirectory .generations
  syncIfExists .current
  syncDirectory .committed

/-- A file that the manifest stands for. -/
def referenced (ids : List η) : Path η → Bool
  | .blob id | .exported id => decide (id ∈ ids)
  | .candidateManifest | .current | .candidate => false

/-- `prune`. -/
def prune : StoreM η γ Unit := do
  let ids ← readManifestWithIo cfg
  let paths ← readDir
  let removed := paths.filter fun path => !referenced ids path
  Program.forEach removeFile removed
  Program.onlyIf (!removed.isEmpty) (syncDirectory .generations)

/-- The search of `publish` for the previous generation. -/
def findPrevious (id : η) : List η → StoreM η γ (Option η)
  | [] => .ok none
  | other :: ids =>
    if other = id then findPrevious id ids
    else do
      match ← (readGenerationWithIo cfg other).attempt with
      | .ok _ => .ok (some other)
      | .error _ => findPrevious id ids

/-- The export of a generation, when it has a certificate. -/
def publishExport (id : η) (g : Generation α κ) : StoreM η γ Unit :=
  match g.certificate with
  | some certificate => publishBlob (.exported id) (cfg.pem certificate)
  | none => .ok ()

/-- `publish`. -/
def publish (g : Generation α κ) : StoreM η γ Unit :=
  let content := cfg.generation g
  if maxStateBytes < cfg.size content then .fail invalidState
  else do
    let id := cfg.digest content
    prune cfg
    publishBlob (.blob id) content
    publishExport cfg id g
    let previous ← findPrevious cfg id (← readManifestWithIo cfg)
    publishManifest cfg (id :: previous.toList)
    prune cfg

/-- `open_with_io` after its `load`. -/
def recover (valid : η → κ → Bool) : StoreM η γ Unit := do
  recoverManifest cfg valid
  syncCommitted cfg
  prune cfg

def openWithIo (valid : η → κ → Bool) : StoreM η γ Unit := do
  let _ ← load cfg
  recover cfg valid

/-- What is stored by `store_account` and `store_cert`. -/
inductive Update (α κ : Type) where
  | account (a : α)
  | certificate (c : κ)
deriving DecidableEq

def Update.apply : Update α κ → Generation α κ → Generation α κ
  | .account a, g => { g with account := some a }
  | .certificate c, g => { g with certificate := some c }

/-- `store_account` and `store_cert` under the mutex: the generation that is published,
and the result of `publish`. -/
def store (update : Update α κ) : StoreM η γ (Generation α κ × Except StoreError Unit) := do
  let g ← load cfg
  let result ← (publish cfg (update.apply g)).attempt
  .ok (update.apply g, result)

end

/-! ## Documents that are written as they are -/

inductive Document where
  | generation (g : Generation Nat Nat)
  | manifest (ids : List Nat)
  | pem (certificate : Nat)
deriving DecidableEq

/-- A store of such documents, with numbers for accounts, certificates and digests. -/
def documentConfig : StoreConfig Nat Nat Nat Document where
  digest
    | .generation g => 1 + g.account.getD 0 + 100 * g.certificate.getD 0
    | .manifest _ | .pem _ => 0
  isDigest _ := true
  isDigest_digest _ := rfl
  generation := .generation
  readGeneration
    | .generation g => some g
    | .manifest _ | .pem _ => none
  readGeneration_generation _ := rfl
  manifest := .manifest
  readManifest
    | .manifest ids => some ids
    | .generation _ | .pem _ => none
  readManifest_manifest _ := rfl
  pem := .pem
  size _ := 0
  size_manifest _ _ _ := Nat.zero_le _
  accountOk _ := true
  hostname := "edge.example.test"
  contact := "contact"
  directoryUrl := "directory"

end Runewarp.ServerCertificate
