import Runewarp.Lib.Program
import Runewarp.Names

/-!
# Rotation of identities and certificates

Five commands replace keys and certificates: the Client identity, the leaf of a Public
hostname, the Public hostname authority with every leaf, the Server leaf, and the Server
authority.  Each replaces its files one by one, and each replacement is atomic.  A command
that fails or is killed has made some of its replacements and no others.

Run again, a command finds what the interrupted one left.  Four of them read nothing that
they replace, so they finish the work.  `rotate_client_identity` begins with a check of the
three files it replaces, and refuses a directory in which they do not agree.

A key stands for itself and its public half; a certificate is the key it is for and the key
that signed it.  The keys a command generates are parameters.
-/

namespace Runewarp.Rotation

/-- The files of the three directories; the leaf of a Public hostname is in a directory of
its own. -/
inductive CertFile where
  | clientKey
  | clientCert
  | clientIdentity
  | publicCa
  | publicCaKey
  | publicCert (hostname : List Char)
  | publicKey (hostname : List Char)
  | serverCert
  | serverKey
  | serverCa
  | serverCaKey
  | serverHostname
deriving DecidableEq

inductive Contents (κ ι : Type) where
  | key (k : κ)
  | certificate (subject issuer : κ)
  | identity (i : ι)
  | hostname (text : List Char)
deriving DecidableEq

/-- The files, and which leaf directories there are. -/
structure Material (κ ι : Type) where
  files : CertFile → Option (Contents κ ι)
  leafDirectory : List Char → Bool

/-- The errors of the three modules. -/
inductive MaterialError (ι : Type) where
  | readFile (path : CertFile)
  | writeFile (path : CertFile)
  | parseKey
  | parseCertificate (path : CertFile)
  | identityMismatch (stored derived : ι)
deriving DecidableEq

inductive FileCall (κ ι : Type) where
  | read (path : CertFile)
  /-- `replace_file_atomically_with_mode`. -/
  | replace (path : CertFile) (contents : Contents κ ι)

def FileCall.Reply {κ ι : Type} : FileCall κ ι → Type
  | .read _ => Option (Contents κ ι)
  | .replace _ _ => Bool

abbrev MaterialM (κ ι α : Type) : Type :=
  Program (FileCall κ ι) FileCall.Reply (MaterialError ι) α

section

variable {κ ι : Type}

/-- The directory of a file exists. -/
def Material.hasParent (m : Material κ ι) : CertFile → Bool
  | .publicCert hostname | .publicKey hostname => m.leafDirectory hostname
  | _ => true

def Material.set (m : Material κ ι) (path : CertFile) (contents : Contents κ ι) : Material κ ι :=
  { m with files := Function.update m.files path (some contents) }

def perform : (call : FileCall κ ι) → Material κ ι → call.Reply × Material κ ι
  | .read path, m => (m.files path, m)
  | .replace path contents, m =>
    if m.hasParent path then (true, m.set path contents) else (false, m)

/-! ## The commands -/

def read (path : CertFile) : MaterialM κ ι (Contents κ ι) :=
  .call (.read path) fun
    | some contents => .ok contents
    | none => .fail (.readFile path)

def replace (path : CertFile) (contents : Contents κ ι) : MaterialM κ ι Unit :=
  .call (.replace path contents) fun
    | true => .ok ()
    | false => .fail (.writeFile path)

/-- `KeyPair::from_pem`. -/
def parseKey : Contents κ ι → MaterialM κ ι κ
  | .key k => .ok k
  | _ => .fail .parseKey

/-- The key that a certificate is for. -/
def parseCertificate (path : CertFile) : Contents κ ι → MaterialM κ ι κ
  | .certificate subject _ => .ok subject
  | _ => .fail (.parseCertificate path)

def parseIdentity (path : CertFile) : Contents κ ι → MaterialM κ ι ι
  | .identity i => .ok i
  | _ => .fail (.parseCertificate path)

/-- The two files of a leaf. -/
def replaceLeaf (cert key : CertFile) (leaf ca : κ) : MaterialM κ ι Unit := do
  replace cert (.certificate leaf ca)
  replace key (.key leaf)

def renewManualClientPublicCert (hostname : String) (leaf : κ) : MaterialM κ ι Unit := do
  let caCert ← read .publicCa
  let ca ← parseKey (← read .publicCaKey)
  -- `Issuer::from_ca_cert_pem` parses the certificate and does not compare it with the key.
  let _ ← parseCertificate .publicCa caCert
  let hostname := normalizePublicHostname hostname
  replaceLeaf (.publicCert hostname) (.publicKey hostname) leaf ca

/-- `rotate_manual_client_public_cert_authority`, with a key for each hostname. -/
def rotateManualClientPublicCertAuthority (ca : κ) (hostnames : List (String × κ)) :
    MaterialM κ ι Unit := do
  let leaves := hostnames.map fun entry => (normalizePublicHostname entry.1, entry.2)
  replace .publicCa (.certificate ca ca)
  replace .publicCaKey (.key ca)
  Program.forEach (fun entry => replaceLeaf (.publicCert entry.1) (.publicKey entry.1) entry.2 ca)
    leaves

def renewManualServerCertificate (leaf : κ) : MaterialM κ ι Unit := do
  let _ ← read .serverHostname
  let ca ← parseKey (← read .serverCaKey)
  replaceLeaf .serverCert .serverKey leaf ca

def rotateManualServerCertificateAuthority (hostname : String) (ca leaf : κ) :
    MaterialM κ ι Unit := do
  replaceLeaf .serverCert .serverKey leaf ca
  replace .serverCa (.certificate ca ca)
  replace .serverCaKey (.key ca)
  replace .serverHostname (.hostname (normalizePublicHostname hostname))

variable (identityOf : κ → ι)

/-- `load_client_identity_material` of `identity.rs`. -/
def loadClientIdentityMaterial [DecidableEq ι] : MaterialM κ ι ι := do
  let key ← parseKey (← read .clientKey)
  let stored ← parseIdentity .clientIdentity (← read .clientIdentity)
  if stored ≠ identityOf key then .fail (.identityMismatch stored (identityOf key))
  else do
    let subject ← parseCertificate .clientCert (← read .clientCert)
    if stored ≠ identityOf subject then .fail (.identityMismatch stored (identityOf subject))
    else .ok stored

/-- `rotate_client_identity`, after its first check. -/
def replaceClientIdentity [DecidableEq ι] (fresh : κ) : MaterialM κ ι ι := do
  replace .clientKey (.key fresh)
  replace .clientCert (.certificate fresh fresh)
  replace .clientIdentity (.identity (identityOf fresh))
  loadClientIdentityMaterial identityOf

def rotateClientIdentity [DecidableEq ι] (fresh : κ) : MaterialM κ ι ι := do
  let _ ← loadClientIdentityMaterial identityOf
  replaceClientIdentity identityOf fresh

/-! ## Consistent material -/

/-- The key, the certificate and the stored identity agree. -/
structure IdentityAgrees (m : Material κ ι) (k : κ) : Prop where
  key : m.files .clientKey = some (.key k)
  cert : ∃ issuer, m.files .clientCert = some (.certificate k issuer)
  identity : m.files .clientIdentity = some (.identity (identityOf k))

/-- A leaf that is issued by `ca` and matches the key beside it. -/
def LeafAgrees (m : Material κ ι) (cert key : CertFile) (ca : κ) : Prop :=
  ∃ k, m.files cert = some (.certificate k ca) ∧ m.files key = some (.key k)

/-- The stored authority. -/
def CaAgrees (m : Material κ ι) (cert key : CertFile) (ca : κ) : Prop :=
  (∃ issuer, m.files cert = some (.certificate ca issuer)) ∧ m.files key = some (.key ca)

def PublicAgrees (m : Material κ ι) : Prop :=
  ∃ ca, CaAgrees m .publicCa .publicCaKey ca ∧
    ∀ hostname, m.leafDirectory hostname = true →
      LeafAgrees m (.publicCert hostname) (.publicKey hostname) ca

def ServerAgrees (m : Material κ ι) : Prop :=
  ∃ ca, CaAgrees m .serverCa .serverCaKey ca ∧ LeafAgrees m .serverCert .serverKey ca ∧
    ∃ text, m.files .serverHostname = some (.hostname text)

/-- The commands, without the keys they generate. -/
inductive Command where
  | clientIdentity
  | clientPublicCert (hostname : String)
  | clientPublicAuthority (hostnames : List String)
  | serverCertificate
  | serverAuthority (hostname : String)

/-- The command with the keys it generates in one run. -/
def Command.program [DecidableEq ι] (keys : Nat → κ) : Command → MaterialM κ ι Unit
  | .clientIdentity => do let _ ← rotateClientIdentity identityOf (keys 0)
  | .clientPublicCert hostname => renewManualClientPublicCert hostname (keys 0)
  | .clientPublicAuthority hostnames =>
    rotateManualClientPublicCertAuthority (keys 0)
      (hostnames.zipIdx.map fun entry => (entry.1, keys (entry.2 + 1)))
  | .serverCertificate => renewManualServerCertificate (keys 0)
  | .serverAuthority hostname => rotateManualServerCertificateAuthority hostname (keys 0) (keys 1)

/-- The material of a command is consistent.  The leaf that is renewed is there, and the
leaves that there are are the ones that an authority is rotated for. -/
def Command.Consistent (m : Material κ ι) : Command → Prop
  | .clientIdentity => ∃ k, IdentityAgrees identityOf m k
  | .clientPublicCert hostname =>
    PublicAgrees m ∧ m.leafDirectory (normalizePublicHostname hostname) = true
  | .clientPublicAuthority hostnames =>
    PublicAgrees m ∧ ∀ hostname, m.leafDirectory hostname = true ↔
      hostname ∈ hostnames.map normalizePublicHostname
  | .serverCertificate | .serverAuthority _ => ServerAgrees m

/-- The rotation of the identity is not interrupted between its first replacement and its
last; before the first there are three reads.  (It would go on, too, if the key it generates
had the identity that is stored.) -/
def Command.Unbroken (m : Material κ ι) (keys : Nat → κ) (n : Nat) : Command → Prop
  | .clientIdentity =>
    n ≤ 3 ∨ 6 ≤ n ∨ m.files .clientIdentity = some (.identity (identityOf (keys 0)))
  | _ => True

/-! ## Rules for the calls -/

open Program

variable {identityOf} {m : Material κ ι} {path : CertFile} {contents : Contents κ ι}
  {C : Material κ ι → Prop}

theorem wp_read {Q : Except (MaterialError ι) (Contents κ ι) → Material κ ι → Prop}
    (hf : m.files path = some contents) (hC : C m) (hQ : Q (.ok contents) m) :
    wp (graph perform) Q C (read path) m := by
  refine wp_call hC ?_
  simp only [perform, hf]
  exact ⟨hQ, hC⟩

theorem wp_replace {Q : Except (MaterialError ι) Unit → Material κ ι → Prop}
    (hp : m.hasParent path = true) (hC : C m) (hC' : C (m.set path contents))
    (hQ : Q (.ok ()) (m.set path contents)) :
    wp (graph perform) Q C (replace path contents) m := by
  refine wp_call hC ?_
  simp only [perform, hp, if_true]
  exact ⟨hQ, hC'⟩

@[simp] theorem Material.files_set (p : CertFile) :
    (m.set path contents).files p = if p = path then some contents else m.files p := by
  simp [Material.set, Function.update_apply]

/-- The two are the same but for the files of one leaf. -/
structure SameBut (cert key : CertFile) (m m' : Material κ ι) : Prop where
  leafDirectory : m'.leafDirectory = m.leafDirectory
  files : ∀ p, p ≠ cert → p ≠ key → m'.files p = m.files p

theorem wp_replaceLeaf {Q : Except (MaterialError ι) Unit → Material κ ι → Prop}
    {cert key : CertFile} {leaf ca : κ} (hc : m.hasParent cert = true)
    (hk : m.hasParent key = true) (hne : cert ≠ key) (hC : ∀ m', SameBut cert key m m' → C m')
    (hQ : ∀ m', SameBut cert key m m' → LeafAgrees m' cert key ca → Q (.ok ()) m') :
    wp (graph perform) Q C (replaceLeaf cert key leaf ca) m := by
  have hs : SameBut cert key m (m.set cert (.certificate leaf ca)) :=
    ⟨rfl, fun p hp _ => by simp [hp]⟩
  have hs' : SameBut cert key m ((m.set cert (.certificate leaf ca)).set key (.key leaf)) :=
    ⟨rfl, fun p hp hp' => by simp [hp, hp']⟩
  refine wp_bind (wp_replace hc (hC m ⟨rfl, fun _ _ _ => rfl⟩) (hC _ hs) ?_)
  refine wp_replace (by cases key <;> exact hk) (hC _ hs) (hC _ hs') (hQ _ hs' ⟨leaf, ?_, ?_⟩)
  · simp [hne]
  · simp

theorem SameBut.leafAgrees {cert key cert' key' : CertFile} {ca : κ} {m' : Material κ ι}
    (h : SameBut cert key m m') (hl : LeafAgrees m cert' key' ca) (hc : cert' ≠ cert)
    (hc' : cert' ≠ key) (hk : key' ≠ cert) (hk' : key' ≠ key) : LeafAgrees m' cert' key' ca := by
  obtain ⟨k, hcert, hkey⟩ := hl
  exact ⟨k, (h.files _ hc hc').trans hcert, (h.files _ hk hk').trans hkey⟩

theorem SameBut.caAgrees {cert key cert' key' : CertFile} {ca : κ} {m' : Material κ ι}
    (h : SameBut cert key m m') (hl : CaAgrees m cert' key' ca) (hc : cert' ≠ cert)
    (hc' : cert' ≠ key) (hk : key' ≠ cert) (hk' : key' ≠ key) : CaAgrees m' cert' key' ca := by
  obtain ⟨⟨issuer, hcert⟩, hkey⟩ := hl
  exact ⟨⟨issuer, (h.files _ hc hc').trans hcert⟩, (h.files _ hk hk').trans hkey⟩

/-! ## Commands that read nothing they replace -/

/-- What an interrupted command leaves, of what it needs when it is run again. -/
def Command.Recoverable (m : Material κ ι) : Command → Prop
  | .clientIdentity => False
  | .clientPublicCert hostname =>
    (∃ ca, CaAgrees m .publicCa .publicCaKey ca ∧
      ∀ other, m.leafDirectory other = true → other ≠ normalizePublicHostname hostname →
        LeafAgrees m (.publicCert other) (.publicKey other) ca) ∧
      m.leafDirectory (normalizePublicHostname hostname) = true
  | .clientPublicAuthority hostnames =>
    ∀ hostname, m.leafDirectory hostname = true ↔
      hostname ∈ hostnames.map normalizePublicHostname
  | .serverCertificate =>
    ∃ ca, CaAgrees m .serverCa .serverCaKey ca ∧
      ∃ text, m.files .serverHostname = some (.hostname text)
  | .serverAuthority _ => True

theorem wp_rotateManualClientPublicCertAuthority {ca : κ} {hostnames : List (String × κ)}
    (h : ∀ hostname, m.leafDirectory hostname = true ↔
      hostname ∈ hostnames.map fun entry => normalizePublicHostname entry.1) :
    wp (graph perform) (fun x m' => x = .ok () ∧ PublicAgrees m' ∧
        m'.leafDirectory = m.leafDirectory)
      (fun m' => m'.leafDirectory = m.leafDirectory)
      (rotateManualClientPublicCertAuthority ca hostnames) m := by
  refine wp_bind (wp_replace rfl rfl rfl (wp_bind (wp_replace rfl rfl rfl ?_)))
  -- The leaves that are still to be replaced are the only ones that may not agree.
  refine wp_forEach (I := fun todo m' => m'.leafDirectory = m.leafDirectory ∧
    (∀ entry ∈ todo, m.leafDirectory entry.1 = true) ∧
    CaAgrees m' .publicCa .publicCaKey ca ∧ ∀ hostname, m.leafDirectory hostname = true →
      hostname ∉ todo.map Prod.fst → LeafAgrees m' (.publicCert hostname) (.publicKey hostname) ca)
    ?_ ?_ ⟨rfl, ?_, ?_, ?_⟩
  · rintro ⟨hostname, k⟩ todo m' ⟨hd, ht, hca, hl⟩
    have hp : m'.leafDirectory hostname = true := hd ▸ ht _ (.head _)
    refine wp_replaceLeaf hp hp (by simp) (fun _ hs => hs.leafDirectory.trans hd) ?_
    refine fun m'' hs hleaf => ⟨hs.leafDirectory.trans hd,
      fun e he => ht e (.tail _ he),
      hs.caAgrees hca (by simp) (by simp) (by simp) (by simp), fun other ho hn => ?_⟩
    by_cases heq : other = hostname
    · exact heq ▸ hleaf
    · have hl' := hl other ho (by simpa [heq] using hn)
      exact hs.leafAgrees hl' (by simpa using heq) (by simp) (by simp) (by simpa using heq)
  · rintro m' ⟨hd, -, hca, hl⟩
    exact ⟨⟨rfl, ⟨ca, hca, fun hostname ho => hl hostname (hd ▸ ho) (by simp)⟩, hd⟩, hd⟩
  · intro entry he
    obtain ⟨e, hm, rfl⟩ := List.mem_map.mp he
    exact (h _).mpr (List.mem_map.mpr ⟨e, hm, rfl⟩)
  · exact ⟨⟨ca, by simp⟩, by simp⟩
  · intro hostname ho hn
    refine (hn ?_).elim
    simpa using (h hostname).mp ho

variable (identityOf) in
/-- The command keeps what it needs, and from there it comes to consistent material. -/
def Restores (c : Command) (p : MaterialM κ ι Unit) (m : Material κ ι) : Prop :=
  wp (graph perform) (fun x m' => x = .ok () ∧ c.Consistent identityOf m') (c.Recoverable ·) p m

theorem restores_renewManualClientPublicCert {hostname : String} {leaf : κ}
    (h : Command.Recoverable m (.clientPublicCert hostname)) :
    Restores identityOf (.clientPublicCert hostname) (renewManualClientPublicCert hostname leaf)
      m := by
  have h₀ := h
  obtain ⟨⟨ca, ⟨⟨issuer, hc⟩, hk⟩, hl⟩, hd⟩ := h
  refine wp_bind (wp_read hc h₀ (wp_bind (wp_read hk h₀ ?_)))
  change Restores identityOf (.clientPublicCert hostname)
    (replaceLeaf (.publicCert (normalizePublicHostname hostname))
      (.publicKey (normalizePublicHostname hostname)) leaf ca) m
  -- Neither replacement touches the authority or another leaf.
  have keeps : ∀ m', SameBut (.publicCert (normalizePublicHostname hostname))
      (.publicKey (normalizePublicHostname hostname)) m m' →
      CaAgrees m' .publicCa .publicCaKey ca ∧ ∀ other, m'.leafDirectory other = true →
        other ≠ normalizePublicHostname hostname →
        LeafAgrees m' (.publicCert other) (.publicKey other) ca := by
    intro m' hs
    refine ⟨hs.caAgrees ⟨⟨issuer, hc⟩, hk⟩ (by simp) (by simp) (by simp) (by simp), ?_⟩
    intro other ho hn
    exact hs.leafAgrees (hl other (hs.leafDirectory ▸ ho) hn) (by simpa using hn) (by simp)
      (by simp) (by simpa using hn)
  refine wp_replaceLeaf hd hd (by simp)
    (fun m' hs => ⟨⟨ca, keeps m' hs⟩, hs.leafDirectory ▸ hd⟩) fun m' hs hleaf => ?_
  refine ⟨rfl, ⟨ca, (keeps m' hs).1, fun other ho => ?_⟩, hs.leafDirectory ▸ hd⟩
  by_cases heq : other = normalizePublicHostname hostname
  · exact heq ▸ hleaf
  · exact (keeps m' hs).2 other ho heq

theorem restores_renewManualServerCertificate {leaf : κ}
    (h : Command.Recoverable m .serverCertificate) :
    Restores identityOf .serverCertificate (renewManualServerCertificate leaf) m := by
  have h₀ := h
  obtain ⟨ca, hca, text, ht⟩ := h
  refine wp_bind (wp_read ht h₀ (wp_bind (wp_read hca.2 h₀ ?_)))
  change Restores identityOf .serverCertificate (replaceLeaf .serverCert .serverKey leaf ca) m
  have keeps : ∀ m', SameBut .serverCert .serverKey m m' →
      CaAgrees m' .serverCa .serverCaKey ca ∧
        m'.files .serverHostname = some (.hostname text) := fun m' hs =>
    ⟨hs.caAgrees hca (by simp) (by simp) (by simp) (by simp),
      (hs.files _ (by simp) (by simp)).trans ht⟩
  exact wp_replaceLeaf rfl rfl (by simp)
    (fun m' hs => ⟨ca, (keeps m' hs).1, text, (keeps m' hs).2⟩) fun m' hs hleaf =>
      ⟨rfl, ca, (keeps m' hs).1, hleaf, text, (keeps m' hs).2⟩

theorem restores_rotateManualServerCertificateAuthority {hostname : String} {ca leaf : κ} :
    Restores identityOf (.serverAuthority hostname)
      (rotateManualServerCertificateAuthority hostname ca leaf) m := by
  refine wp_bind (wp_replaceLeaf rfl rfl (by simp) (fun _ _ => trivial) ?_)
  rintro m' - ⟨k, hc, hk⟩
  refine wp_bind (wp_replace rfl trivial trivial (wp_bind (wp_replace rfl trivial trivial ?_)))
  dsimp only [andThen]
  refine wp_replace rfl trivial trivial ⟨rfl, ca, ⟨⟨ca, ?_⟩, ?_⟩, ⟨k, ?_, ?_⟩,
    normalizePublicHostname hostname, ?_⟩
  · simp
  · simp
  · simpa using hc
  · simpa using hk
  · simp

theorem restores_program [DecidableEq ι] {c : Command} (keys : Nat → κ) (h : c.Recoverable m) :
    Restores identityOf c (c.program identityOf keys) m := by
  cases c with
  | clientIdentity => exact h.elim
  | clientPublicCert hostname => exact restores_renewManualClientPublicCert h
  | clientPublicAuthority hostnames =>
    have hn : (hostnames.zipIdx.map fun entry => (entry.1, keys (entry.2 + 1))).map
        (fun entry => normalizePublicHostname entry.1) = hostnames.map normalizePublicHostname := by
      rw [List.map_map, ← List.zipIdx_map_fst 0 hostnames, List.map_map, List.zipIdx_map_fst]
      rfl
    rw [Command.Recoverable, ← hn] at h
    refine (wp_rotateManualClientPublicCertAuthority h).mono ?_ ?_
    · rintro x m' - ⟨rfl, ha, hd⟩
      exact ⟨rfl, ha, hd ▸ hn ▸ h⟩
    · intro m' hd hostname
      exact hd ▸ hn ▸ h hostname
  | serverCertificate => exact restores_renewManualServerCertificate h
  | serverAuthority hostname => exact restores_rotateManualServerCertificateAuthority

theorem Command.Consistent.recoverable {c : Command} (h : c.Consistent identityOf m)
    (hc : c ≠ .clientIdentity) : c.Recoverable m := by
  cases c with
  | clientIdentity => exact (hc rfl).elim
  | clientPublicCert hostname =>
    obtain ⟨⟨ca, hca, hl⟩, hd⟩ := h
    exact ⟨⟨ca, hca, fun other ho _ => hl other ho⟩, hd⟩
  | clientPublicAuthority hostnames => exact h.2
  | serverCertificate =>
    obtain ⟨ca, hca, -, ht⟩ := h
    exact ⟨ca, hca, ht⟩
  | serverAuthority hostname => trivial

/-! ## The Client identity -/

variable {k fresh : κ}

variable (identityOf) in
/-- What `load_client_identity_material` accepts. -/
structure IdentityLoads (m : Material κ ι) (i : ι) : Prop where
  key : ∃ k, m.files .clientKey = some (.key k) ∧ identityOf k = i
  cert : ∃ k issuer, m.files .clientCert = some (.certificate k issuer) ∧ identityOf k = i
  identity : m.files .clientIdentity = some (.identity i)

theorem IdentityAgrees.loads (h : IdentityAgrees identityOf m k) :
    IdentityLoads identityOf m (identityOf k) := by
  obtain ⟨issuer, hc⟩ := h.cert
  exact ⟨⟨k, h.key, rfl⟩, ⟨k, issuer, hc, rfl⟩, h.identity⟩

theorem wp_loadClientIdentityMaterial [DecidableEq ι] {i : ι}
    {Q : Except (MaterialError ι) ι → Material κ ι → Prop}
    (h : IdentityLoads identityOf m i) (hC : C m) (hQ : Q (.ok i) m) :
    wp (graph perform) Q C (loadClientIdentityMaterial identityOf) m := by
  obtain ⟨⟨k, hk, rfl⟩, ⟨subject, issuer, hc, hs⟩, hi⟩ := h
  refine wp_bind (wp_read hk hC (wp_bind (p := .ok k) ⟨?_, hC⟩))
  refine wp_bind (wp_read hi hC (wp_bind (p := .ok (identityOf k)) ⟨?_, hC⟩))
  simp only [andThen, ne_eq, not_true_eq_false, if_false]
  refine wp_bind (wp_read hc hC (wp_bind (p := .ok subject) ⟨?_, hC⟩))
  simp only [andThen, hs, not_true_eq_false, if_false]
  exact ⟨hQ, hC⟩

/-- The files after so many replacements. -/
def replaced (identityOf : κ → ι) (fresh : κ) (m : Material κ ι) : Nat → Material κ ι
  | 0 => m
  | 1 => m.set .clientKey (.key fresh)
  | 2 => (m.set .clientKey (.key fresh)).set .clientCert (.certificate fresh fresh)
  | _ => ((m.set .clientKey (.key fresh)).set .clientCert (.certificate fresh fresh)).set
      .clientIdentity (.identity (identityOf fresh))

theorem identityAgrees_replaced (n : Nat) :
    IdentityAgrees identityOf (replaced identityOf fresh m (n + 3)) fresh :=
  ⟨by simp [replaced], ⟨fresh, by simp [replaced]⟩, by simp [replaced]⟩

theorem wp_rotateClientIdentity [DecidableEq ι] {i : ι} (fresh : κ)
    (h : IdentityLoads identityOf m i) :
    wp (graph perform) (fun x m' => x = .ok (identityOf fresh) ∧
      IdentityAgrees identityOf m' fresh) (fun _ => True) (rotateClientIdentity identityOf fresh)
      m := by
  refine wp_bind (wp_loadClientIdentityMaterial h trivial ?_)
  refine wp_bind (wp_replace rfl trivial trivial (wp_bind (wp_replace rfl trivial trivial ?_)))
  refine wp_bind (wp_replace rfl trivial trivial ?_)
  have ha : IdentityAgrees identityOf (replaced identityOf fresh m 3) fresh :=
    identityAgrees_replaced 0
  dsimp only [andThen]
  exact wp_loadClientIdentityMaterial ha.loads trivial ⟨rfl, ha⟩

/-- A program that only reads. -/
def IsRead : FileCall κ ι → Prop
  | .read _ => True
  | .replace _ _ => False

theorem snd_perform_of_isRead {i : FileCall κ ι} (h : IsRead i) : (perform i m).2 = m := by
  cases i with
  | read path => rfl
  | replace path contents => exact h.elim

theorem all_isRead_loadClientIdentityMaterial [DecidableEq ι] :
    (loadClientIdentityMaterial identityOf).All IsRead := by
  have hr : ∀ path, (read path : MaterialM κ ι (Contents κ ι)).All IsRead := fun path =>
    ⟨trivial, fun r => by cases r <;> trivial⟩
  refine (hr _).bind fun contents => ?_
  refine All.bind (by cases contents <;> trivial) fun key => ?_
  refine (hr _).bind fun contents => ?_
  refine All.bind (by cases contents <;> trivial) fun stored => ?_
  split
  · trivial
  · refine (hr _).bind fun contents => ?_
    refine All.bind (by cases contents <;> trivial) fun subject => ?_
    split <;> trivial

theorem after_replaceClientIdentity [DecidableEq ι] (n : Nat) :
    ((replaceClientIdentity identityOf fresh).after perform n m).2 =
      replaced identityOf fresh m n := by
  rcases n with _ | _ | _ | n
  · rfl
  · rfl
  · rfl
  · exact all_isRead_loadClientIdentityMaterial.after (fun _ _ => snd_perform_of_isRead) n

/-- What is in the files after so many calls: the first replacement follows three reads. -/
theorem after_rotateClientIdentity [DecidableEq ι] (h : IdentityAgrees identityOf m k) (n : Nat) :
    ((rotateClientIdentity identityOf fresh).after perform n m).2 =
      replaced identityOf fresh m (n - 3) := by
  obtain ⟨hk, ⟨issuer, hc⟩, hi⟩ := h
  rcases n with _ | _ | _ | n
  · rfl
  · simp [rotateClientIdentity, loadClientIdentityMaterial, read, perform, after, hk, replaced,
      bind, Program.bind]
  · simp [rotateClientIdentity, loadClientIdentityMaterial, read, perform, after, hk, hi, replaced,
      bind, Program.bind, parseKey]
  · have hr : (rotateClientIdentity identityOf fresh).after perform (n + 3) m =
        (replaceClientIdentity identityOf fresh).after perform n m := by
      simp [rotateClientIdentity, loadClientIdentityMaterial, read, perform, after, hk, hi, hc,
        bind, Program.bind, parseKey, parseIdentity, parseCertificate]
    exact hr ▸ after_replaceClientIdentity n

/-! ## Running the command again -/

/-- The files of the identity pass the check unless the rotation is inside its replacements. -/
theorem identityLoads_after [DecidableEq ι] (h : IdentityAgrees identityOf m k)
    {n : Nat} (hn : n ≤ 3 ∨ 6 ≤ n ∨ identityOf k = identityOf fresh) :
    ∃ i, IdentityLoads identityOf
      ((rotateClientIdentity identityOf fresh).after perform n m).2 i := by
  rw [after_rotateClientIdentity h]
  obtain hn | hn | heq := hn
  · rw [Nat.sub_eq_zero_of_le hn]
    exact ⟨_, h.loads⟩
  · obtain ⟨i, rfl⟩ := Nat.exists_eq_add_of_le' hn
    exact ⟨_, (identityAgrees_replaced i).loads⟩
  · -- The stored identity is the one of both keys.
    obtain ⟨issuer, hc⟩ := h.cert
    refine ⟨identityOf fresh, ?_⟩
    rcases n - 3 with _ | _ | _ | n
    · exact heq ▸ h.loads
    · exact ⟨⟨fresh, by simp [replaced]⟩, ⟨k, issuer, by simp [replaced, hc, heq]⟩,
        by simp [replaced, h.identity, heq]⟩
    · exact ⟨⟨fresh, by simp [replaced]⟩, ⟨fresh, fresh, by simp [replaced]⟩,
        by simp [replaced, h.identity, heq]⟩
    · exact (identityAgrees_replaced n).loads

/-- Inside the replacements the key is the new one and the stored identity the old one, and the
check at the beginning of the rotation fails. -/
theorem wp_rotateClientIdentity_stuck [DecidableEq ι] (h : IdentityAgrees identityOf m k)
    (fresh' : κ) {n : Nat} (hn : ¬ (n ≤ 3 ∨ 6 ≤ n ∨ identityOf k = identityOf fresh)) :
    wp (graph perform)
      (fun x _ => x = .error (.identityMismatch (identityOf k) (identityOf fresh))) (fun _ => True)
      (rotateClientIdentity identityOf fresh')
      ((rotateClientIdentity identityOf fresh).after perform n m).2 := by
  simp only [not_or, Nat.not_le] at hn
  obtain ⟨hn, hn', hne⟩ := hn
  rw [after_rotateClientIdentity h]
  have hk : (replaced identityOf fresh m (n - 3)).files .clientKey = some (.key fresh) ∧
      (replaced identityOf fresh m (n - 3)).files .clientIdentity =
        some (.identity (identityOf k)) := by
    obtain hj | hj : n - 3 = 1 ∨ n - 3 = 2 := by omega
    · simp [hj, replaced, h.identity]
    · simp [hj, replaced, h.identity]
  refine wp_bind (wp_bind (wp_read hk.1 trivial (wp_bind (p := .ok fresh) ⟨?_, trivial⟩)))
  refine wp_bind (wp_read hk.2 trivial (wp_bind (p := .ok (identityOf k)) ⟨?_, trivial⟩))
  simp only [andThen, ne_eq, hne, not_false_eq_true, if_true]
  exact ⟨rfl, trivial⟩

/-- A command that is interrupted after `n` of its calls and run again, with new keys, returns
and leaves consistent material, unless it is the rotation of the identity, interrupted inside
its replacements. -/
theorem rotation_recovers [DecidableEq ι] (identityOf : κ → ι) (c : Command) (m : Material κ ι)
    (keys keys' : Nat → κ) (n : Nat) (h : c.Consistent identityOf m) :
    (∃ m', (c.program identityOf keys').run perform
        ((c.program identityOf keys).after perform n m).2 = (.ok (), m') ∧
      c.Consistent identityOf m') ↔ c.Unbroken identityOf m keys n := by
  have recovers (hw : wp (graph perform) (fun x m' => x = .ok () ∧ c.Consistent identityOf m')
      (fun _ => True) (c.program identityOf keys')
      ((c.program identityOf keys).after perform n m).2) :
      ∃ m', (c.program identityOf keys').run perform
        ((c.program identityOf keys).after perform n m).2 = (.ok (), m') ∧
      c.Consistent identityOf m' := ⟨_, Prod.ext hw.run.1 rfl, hw.run.2⟩
  by_cases hc : c = .clientIdentity
  · subst hc
    obtain ⟨k, hk⟩ := h
    have hs : m.files .clientIdentity = some (.identity (identityOf (keys 0))) ↔
        identityOf k = identityOf (keys 0) := by simp [hk.identity]
    rw [Command.Unbroken, hs]
    constructor
    · rintro ⟨m', hr, -⟩
      by_contra hn
      have hw := wp_rotateClientIdentity_stuck hk (keys' 0) hn
      rw [← snd_after_bind_ok (g := fun _ => ())] at hw
      have hw' : wp (graph perform) (fun x _ => x ≠ .ok ()) (fun _ => True)
          (Command.clientIdentity.program identityOf keys')
          ((Command.clientIdentity.program identityOf keys).after perform n m).2 := by
        refine wp_bind (hw.mono ?_ fun _ _ => trivial)
        rintro x m' - rfl
        simp [andThen]
      exact hw'.run (congrArg Prod.fst hr)
    · intro hn
      obtain ⟨i, hi⟩ := identityLoads_after hk hn
      rw [← snd_after_bind_ok (g := fun _ => ())] at hi
      refine recovers (wp_bind ((wp_rotateClientIdentity (keys' 0) hi).mono ?_ fun _ _ => trivial))
      rintro x m' - ⟨rfl, ha⟩
      exact ⟨⟨rfl, keys' 0, ha⟩, trivial⟩
  · -- The other commands keep, at every moment, what they need to be run again.
    have hr : c.Recoverable ((c.program identityOf keys).after perform n m).2 :=
      ((restores_program keys (h.recoverable hc)).advances
        (advances_after (fun _ _ => rfl) n)).now
    have hn : c.Unbroken identityOf m keys n := by
      cases c with
      | clientIdentity => exact (hc rfl).elim
      | _ => trivial
    refine iff_of_true (recovers ?_) hn
    exact (restores_program keys' hr).mono (fun _ _ _ hQ => hQ) fun _ _ => trivial

end

/-- Keys are numbers and each is its own identity. -/
def sampleMaterial : Material Nat Nat :=
  { files := fun
      | .clientKey | .serverKey => some (.key 1)
      | .clientCert => some (.certificate 1 1)
      | .clientIdentity => some (.identity 1)
      | .serverCert => some (.certificate 1 0)
      | .serverCa => some (.certificate 0 0)
      | .serverCaKey => some (.key 0)
      | .serverHostname => some (.hostname [])
      | _ => none
    leafDirectory := fun _ => false }

theorem sampleMaterial_agrees : IdentityAgrees id sampleMaterial 1 := ⟨rfl, ⟨1, rfl⟩, rfl⟩

theorem sampleMaterial_serverAgrees : ServerAgrees sampleMaterial :=
  ⟨0, ⟨⟨0, rfl⟩, rfl⟩, ⟨1, rfl, rfl⟩, [], rfl⟩

/-- The rotation of the Server authority is interrupted when the leaf is the new one and its key
the old one, and the rotation of the identity after its last replacement. -/
theorem rotation_recovers_after_replacements :
    let authority := Command.serverAuthority "localhost"
    let left := ((authority.program id (· + 2)).after perform 1 sampleMaterial).2
    left.files .serverCert = some (.certificate 3 2) ∧ left.files .serverKey = some (.key 1) ∧
      (∃ m', (authority.program id (· + 4)).run perform left = (.ok (), m') ∧
        authority.Consistent id m') ∧
      ∃ m', (Command.clientIdentity.program id fun _ => 3).run perform
          ((Command.clientIdentity.program id fun _ => 2).after perform 6 sampleMaterial).2 =
          (.ok (), m') ∧ Command.clientIdentity.Consistent id m' :=
  ⟨rfl, rfl,
    (rotation_recovers id (.serverAuthority "localhost") _ _ _ 1 sampleMaterial_serverAgrees).mpr
      trivial,
    (rotation_recovers id .clientIdentity _ _ _ 6 ⟨1, sampleMaterial_agrees⟩).mpr
      (.inr (.inl (by decide)))⟩

/-- Interrupted after the key, or after the certificate, the rotation of the identity fails from
then on at its first check. -/
theorem identity_rotation_stuck :
    Command.clientIdentity.Consistent id sampleMaterial ∧ ∀ n ∈ [4, 5],
      ((Command.clientIdentity.program id fun _ => 3).run perform
        ((Command.clientIdentity.program id fun _ => 2).after perform n sampleMaterial).2).1 =
        .error (.identityMismatch 1 2) := by
  refine ⟨⟨1, sampleMaterial_agrees⟩, fun n hn => ?_⟩
  rw [List.mem_pair] at hn
  obtain rfl | rfl := hn <;> rfl

end Runewarp.Rotation
