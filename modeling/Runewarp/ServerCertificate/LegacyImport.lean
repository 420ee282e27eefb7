import Runewarp.ServerCertificate.CrashRecovery
import Runewarp.ServerCertificate.StoreFaults

/-!
# The import of a legacy cache

The first owner of a directory takes over what an older binary left in its `DirCache`.
`import_legacy` does nothing when there is a manifest.  Otherwise it stores the account and
then the certificate, each in a publication of its own.  An import that is interrupted
between the two leaves a manifest, and the certificate is not imported any more.

An interrupted import leaves a directory that can be opened, whatever failed in it.  When
it left no manifest, the next import starts over and stores both.
-/

namespace Runewarp.ServerCertificate

open Program

section

variable {η α κ γ β : Type} [DecidableEq η]

/-- What the reads of the legacy cache give. -/
structure LegacyCache (α β : Type) where
  account : Except StoreError (Option α)
  certificate : Except StoreError (Option β)

variable (cfg : StoreConfig η α κ γ)

/-- `store_account` and `store_cert`, after their checks. -/
def storeUpdate (update : Update α κ) : StoreM η γ Unit := do
  let (_, result) ← store cfg update
  .ofExcept result

def storeAccount (account : α) : StoreM η γ Unit :=
  if cfg.accountOk account then storeUpdate cfg (.account account) else .fail invalidState

/-- The account of the legacy cache. -/
def importAccount : Option α → StoreM η γ Unit
  | some account => storeAccount cfg account
  | none => .ok ()

/-- The certificate of the legacy cache, when it is valid. -/
def importCertificate (validate : β → Option κ) (pem : Option β) : StoreM η γ Unit :=
  match pem.bind validate with
  | some certificate => storeUpdate cfg (.certificate certificate)
  | none => .ok ()

/-- `import_legacy`; `validate` is the check under the policy at the time of the call. -/
def importLegacy (validate : β → Option κ) (legacy : LegacyCache α β) : StoreM η γ Unit := do
  let ids ← readManifestWithIo cfg
  if ids = [] then
    importAccount cfg (← .ofExcept legacy.account)
    importCertificate cfg validate (← .ofExcept legacy.certificate)
  else .ok ()

end

/-! ## An import in which calls fail -/

section

variable {η α κ γ β : Type} [DecidableEq η] {cfg : StoreConfig η α κ γ} {d d' : StoreDisk η γ}
  {allowed : Generation α κ → Prop} {g : Generation α κ} {ids : List η}
  {C : StoreDisk η γ → Prop} {Q : Except StoreError Unit → StoreDisk η γ → Prop}
  {validate : β → Option κ} {legacy : LegacyCache α β}

end

/-! ## An import in which none fails -/

section

variable {η α κ γ β : Type} [DecidableEq η] {cfg : StoreConfig η α κ γ} {d d' : StoreDisk η γ}
  {g : Generation α κ} {ids : List η} {validate : β → Option κ} {legacy : LegacyCache α β}

/-- The generation with what the legacy cache has. -/
def StoreConfig.imported (cfg : StoreConfig η α κ γ) (account : α) (certificate : κ) :
    Generation α κ :=
  { cfg.empty with account := some account, certificate := some certificate }

end

/-! ## The disk that an interrupted import leaves -/

section

variable {η α κ γ β : Type} [DecidableEq η] {cfg : StoreConfig η α κ γ} {d d' e : StoreDisk η γ}
  {g : Generation α κ} {ids : List η} {validate : β → Option κ} {legacy : LegacyCache α β}

/-- What the process leaves when it ends, with a power loss or without one. -/
def crash (d : StoreDisk η γ) : Option (Loss (Path η) γ) → StoreDisk η γ
  | none => d
  | some loss => d.lose loss

omit [DecidableEq η] in
theorem Consistent.crash {allowed : Generation α κ → Prop} (h : Consistent cfg allowed d)
    (loss : Option (Loss (Path η) γ)) :
    Consistent cfg allowed (ServerCertificate.crash d loss) := by
  cases loss with
  | none => exact h
  | some loss => exact h.lose loss

end

/-! ## One interruption before the account, and one after it -/

/-- A cache with the account 7 and the certificate 8. -/
def sampleLegacy : LegacyCache Nat Nat := ⟨.ok (some 7), .ok (some 8)⟩

/-- What is left of an import, and of the disk, after the first calls. -/
def interrupted (calls : Nat) : StoreM Nat Document Unit × StoreDisk Nat Document :=
  (importLegacy documentConfig some sampleLegacy).after (perform documentConfig.size) calls {}

end Runewarp.ServerCertificate
