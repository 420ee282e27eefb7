import Runewarp.ServerCertificate.CrashRecovery
import Runewarp.ServerCertificate.StoreFaults

/-!
# Transient I/O errors

The stores of one owner share a mutex, so their operations follow one another.  Each call
of `CertificateStoreIo` may fail and damage nothing.  When `store_account` or
`store_cert` has returned `Ok`, and nothing was published since, the next `open_with_io`
should find its generation.

It may not.  `recover_manifest` takes a generation that it could not read for one that is
gone, and `prune` takes a manifest that is reported missing for one that names nothing.
When neither happens, no generation that is named and can be read is lost.
-/

namespace Runewarp.ServerCertificate

open Program

/-- The operation that is under way. -/
inductive Operation (η α κ γ : Type) where
  | idle
  /-- `open_with_io` after its `load`. -/
  | opening (rest : StoreM η γ Unit)
  /-- `load_account` or `load_cert`, or the `load` of an `open_with_io`. -/
  | loading (opens : Option (η → κ → Bool)) (rest : StoreM η γ (Generation α κ))
  /-- `export_snapshot`, as far as its calls may fail. -/
  | exporting (rest : StoreM η γ Unit)
  /-- `store_account` or `store_cert`, loading the generation to be updated. -/
  | updating (store : Nat) (u : Update α κ) (rest : StoreM η γ (Generation α κ))
  | publishing (store : Nat) (g : Generation α κ) (rest : StoreM η γ Unit)

/-- The stores of an owner. -/
structure Stores (η α κ γ : Type) where
  disk : StoreDisk η γ := {}
  operation : Operation η α κ γ := .idle
  /-- The `failed` flag of each store. -/
  failed : List Bool := []
  /-- The generation of the last publication, if it returned `Ok`. -/
  acknowledged : Option (Generation α κ) := none

namespace Stores

section

variable {η α κ γ : Type}

inductive Action (η α κ : Type) where
  | openStore (valid : η → κ → Bool)
  | load (store : Nat)
  | exportSnapshot (store : Nat)
  | store (store : Nat) (u : Update α κ)
  /-- The next call of the operation that is under way, which may fail. -/
  | call (fault : Option Fault)
  /-- The operation returns, or goes on to its next part. -/
  | finish

/-- The operation goes on with the reply to its call. -/
def resume [DecidableEq η] (cfg : StoreConfig η α κ γ) (s : Stores η α κ γ) (fault : Option Fault)
    (i : StoreCall η γ) (next : i.Reply → Operation η α κ γ) : Option (Stores η α κ γ) :=
  (performFaulty cfg.size fault i s.disk).map fun (reply, disk) =>
    { s with disk := disk, operation := next reply }

variable [DecidableEq η] (cfg : StoreConfig η α κ γ) (s : Stores η α κ γ)

def call (fault : Option Fault) : Option (Stores η α κ γ) :=
  match s.operation with
  | .opening (.call i next) => s.resume cfg fault i fun r => .opening (next r)
  | .loading opens (.call i next) => s.resume cfg fault i fun r => .loading opens (next r)
  | .exporting (.call i next) => s.resume cfg fault i fun r => .exporting (next r)
  | .updating store u (.call i next) => s.resume cfg fault i fun r => .updating store u (next r)
  | .publishing store g (.call i next) =>
    s.resume cfg fault i fun r => .publishing store g (next r)
  | _ => none

def finish [DecidableEq γ] : Option (Stores η α κ γ) :=
  match s.operation with
  | .opening (.ok _) => some { s with operation := .idle, failed := s.failed ++ [false] }
  | .opening (.fail _) => some { s with operation := .idle }
  | .loading (some valid) (.ok _) => some { s with operation := .opening (recover cfg valid) }
  | .loading none (.ok _) | .loading _ (.fail _) => some { s with operation := .idle }
  | .exporting (.ok _) | .exporting (.fail _) => some { s with operation := .idle }
  | .updating store u (.ok g) =>
    some { s with
      operation := .publishing store (u.apply g) (publish cfg (u.apply g))
      acknowledged := none }
  | .updating _ _ (.fail _) => some { s with operation := .idle }
  | .publishing _ g (.ok _) => some { s with operation := .idle, acknowledged := some g }
  | .publishing store _ (.fail _) =>
    some { s with operation := .idle, failed := s.failed.set store true }
  | _ => none

/-- An operation begins, on a store whose `failed` flag is not set. -/
def begin (store : Nat) (operation : Operation η α κ γ) : Option (Stores η α κ γ) :=
  match s.operation with
  | .idle => if s.failed[store]? = some false then some { s with operation := operation } else none
  | _ => none

def step [DecidableEq γ] (s : Stores η α κ γ) : Action η α κ → Option (Stores η α κ γ)
  | .openStore valid =>
    match s.operation with
    | .idle => some { s with operation := .loading (some valid) (load cfg) }
    | _ => none
  | .load store => s.begin store (.loading none (load cfg))
  | .exportSnapshot store => s.begin store (.exporting (syncCommitted cfg))
  | .store store u => if u.accepted cfg then s.begin store (.updating store u (load cfg)) else none
  | .call fault => s.call cfg fault
  | .finish => s.finish cfg

def system [DecidableEq γ] : Lts (Stores η α κ γ) (Action η α κ) := ⟨step cfg⟩

/-- A manifest that is there is not reported missing. -/
def manifestTold (d : StoreDisk η γ) (f : Fault) : Bool :=
  !(decide (f.error.kind = .notFound) && (d.entries .current).isSome)

/-- How calls of an `open_with_io` may fail, if it is to go on. -/
def mayFailOpening : StoreCall η γ → StoreDisk η γ → Fault → Bool
  | .readFile (.blob _) _, _, _ => false
  | .readFile .current _, d, f => manifestTold d f
  | _, _, _ => true

/-- The read of a generation that ends the operation when it fails. -/
def endsOpening : (i : StoreCall η γ) → (i.Reply → StoreM η γ Unit) → Fault → Bool
  | .readFile (.blob _) _, next, f =>
    match next (.error f.error) with
    | .fail _ => true
    | _ => false
  | _, _, _ => false

/-- How calls of a publication may fail. -/
def mayFailPublishing : StoreCall η γ → StoreDisk η γ → Fault → Bool
  | .readFile .current _, d, f => manifestTold d f
  | _, _, _ => true

/-- No step misleads `recover_manifest` or `prune`. -/
def tolerated (s : Stores η α κ γ) : Action η α κ → Bool
  | .call (some f) =>
    match s.operation with
    | .opening (.call i next) => mayFailOpening i s.disk f || endsOpening i next f
    | .publishing _ _ (.call i _) => mayFailPublishing i s.disk f
    | _ => true
  | _ => true

end

section

variable {η α κ γ : Type} [DecidableEq η] {cfg : StoreConfig η α κ γ} {s s' : Stores η α κ γ}
  {g : Generation α κ} {d d' : StoreDisk η γ}

/-! ## What an operation keeps -/

abbrev openingSem (cfg : StoreConfig η α κ γ) :
    (i : StoreCall η γ) → StoreDisk η γ → i.Reply → StoreDisk η γ → Prop :=
  cfg.faultySem fun i d f => mayFailOpening i d f = true

abbrev publishingSem (cfg : StoreConfig η α κ γ) :
    (i : StoreCall η γ) → StoreDisk η γ → i.Reply → StoreDisk η γ → Prop :=
  cfg.faultySem fun i d f => mayFailPublishing i d f = true

omit [DecidableEq η] in
theorem notFound_of_manifestTold {f : Fault} (hd : (d.entries .current).isSome = true)
    (h : manifestTold d f = true) : f.error.kind ≠ .notFound := by
  simpa [manifestTold, hd] using h

omit [DecidableEq η] in
theorem truthful_opening :
    Truthful fun (i : StoreCall η γ) d f => mayFailOpening i d f = true where
  generation _ _ _ _ h := by cases h
  manifest _ _ _ hd h := notFound_of_manifestTold hd h

/-- The manifest names a generation, and it can be read. -/
def Refers (cfg : StoreConfig η α κ γ) (d : StoreDisk η γ) (id : η) (g : Generation α κ) : Prop :=
  ∃ ids, currentIds cfg d = some ids ∧ id ∈ ids ∧ readable cfg d id = some g

theorem refers_of_keeps {ids : List η} {id : η} {d₀ : StoreDisk η γ} (h : Keeps cfg ids d₀ d)
    (hid : id ∈ ids) (hr : readable cfg d₀ id = some g) : Refers cfg d id g := by
  have hr' := (h.readable id hid).trans hr
  rcases h.listed with heq | heq
  · exact ⟨ids, heq, hid, hr'⟩
  · exact ⟨_, heq, List.mem_filter.mpr ⟨hid, by rw [hr]; rfl⟩, hr'⟩

theorem gentle_load : (load cfg).All StoreCall.Gentle :=
  gentle_of_quiet (all_load fun _ _ => trivial)

variable [DecidableEq γ]

/-- A property of the disk that reads and syncs keep, and the rest of an `open_with_io`. -/
structure Stable (cfg : StoreConfig η α κ γ) (P : StoreDisk η γ → Prop) : Prop where
  calm : ∀ {d d'}, Calm cfg d d' → P d → P d'
  recover : ∀ valid {d}, P d → wp (openingSem cfg) (fun _ => P) P (recover cfg valid) d

theorem stable_present : Stable cfg (Present cfg g) where
  calm h hp := h.present hp
  recover valid d hp := by
    obtain ⟨ids, hl⟩ := hp.listed
    exact (wp_recover_faulty truthful_opening hl).mono (fun _ _ _ hd => hd.present hp)
      fun _ hd => hd.present hp

theorem stable_refers {id : η} : Stable cfg (Refers cfg · id g) where
  calm h := by
    rintro ⟨ids, hl, hid, hr⟩
    exact ⟨ids, h.listed.trans hl, hid, (h.readable id).trans hr⟩
  recover valid d := by
    rintro ⟨ids, hl, hid, hr⟩
    exact (wp_recover_faulty truthful_opening hl).mono (fun _ _ _ hd => refers_of_keeps hd hid hr)
      fun _ hd => refers_of_keeps hd hid hr

/-- The rest of an operation keeps such a property; `updates` if it may go on to publish. -/
def OperationKeeps (cfg : StoreConfig η α κ γ) (P : StoreDisk η γ → Prop) (updates : Prop)
    (d : StoreDisk η γ) : Operation η α κ γ → Prop
  | .idle => True
  | .opening rest => wp (openingSem cfg) (fun _ => P) P rest d
  | .loading _ rest => rest.All StoreCall.Gentle
  | .exporting rest => rest.All StoreCall.Gentle
  | .updating _ _ rest => updates ∧ rest.All StoreCall.Gentle
  | .publishing _ _ _ => False

structure Kept (cfg : StoreConfig η α κ γ) (P : StoreDisk η γ → Prop) (updates : Prop)
    (s : Stores η α κ γ) : Prop where
  now : P s.disk
  operation : OperationKeeps cfg P updates s.disk s.operation

variable {P : StoreDisk η γ → Prop} {updates : Prop} {fault : Option Fault} {a : Action η α κ}

theorem Kept.call (hP : Stable cfg P) (h : Kept cfg P updates s)
    (hok : s.tolerated (.call fault : Action η α κ) = true) (hs : s.call cfg fault = some s') :
    Kept cfg P updates s' := by
  have hop := h.operation
  have hc : ∀ {i : StoreCall η γ} {r d'}, i.Gentle →
      performFaulty cfg.size fault i s.disk = some (r, d') → P d' := by
    intro i r d' hi hp
    have hs : cfg.faultySem (fun _ _ _ => True) i s.disk r d' :=
      ⟨fault, fun _ _ => trivial, hp⟩
    exact hP.calm (hi.calm hs) h.now
  unfold Stores.call at hs
  split at hs
  case h_6 => cases hs
  all_goals obtain ⟨⟨r, d'⟩, hp, rfl⟩ := Option.map_eq_some_iff.mp hs
  case h_1 i next heq =>
    rw [heq] at hop
    suffices hr : wp (openingSem cfg) (fun _ => P) P (next r) d' from ⟨hr.now, hr⟩
    cases fault with
    | none => exact hop.2 r d' ⟨none, by rintro _ ⟨⟩, hp⟩
    | some f =>
      simp only [tolerated, heq, Bool.or_eq_true] at hok
      rcases hok with hm | he
      · exact hop.2 r d' ⟨some f, by rintro _ ⟨⟩; exact hm, hp⟩
      · -- The read of a generation has failed, and the operation with it.
        unfold endsOpening at he
        split at he
        next =>
          split at he
          next hn =>
            have hd := hc (by exact .inr trivial) hp
            cases hp
            exact hn ▸ ⟨hd, hd⟩
          next => cases he
        next => cases he
  case h_4 heq =>
    rw [heq] at hop
    exact ⟨hc hop.2.1 hp, hop.1, hop.2.2 r⟩
  case h_5 heq =>
    rw [heq] at hop
    exact hop.elim
  all_goals
    rename_i heq
    rw [heq] at hop
    exact ⟨hc hop.1 hp, hop.2 r⟩

/-- What holds of the rest of a publication and of what comes before it. -/
def OperationSound (cfg : StoreConfig η α κ γ) (acknowledged : Option (Generation α κ))
    (d : StoreDisk η γ) : Operation η α κ γ → Prop
  | .updating _ u rest => u.accepted cfg = true ∧ rest.Returns fun g => cfg.accepts g = true
  | .publishing _ g rest => acknowledged = none ∧
      wp (publishingSem cfg) (fun x d => x = .ok () → Present cfg g d) (fun _ => True) rest d
  | _ => True

/-- The generation that was acknowledged is there. -/
structure Sound (cfg : StoreConfig η α κ γ) (s : Stores η α κ γ) : Prop where
  kept : ∀ g, s.acknowledged = some g → Kept cfg (Present cfg g) True s
  operation : OperationSound cfg s.acknowledged s.disk s.operation

omit [DecidableEq γ] in
theorem sound_start : Sound cfg ({} : Stores η α κ γ) := ⟨nofun, trivial⟩

theorem Sound.call (h : Sound cfg s)
    (hok : s.tolerated (.call fault : Action η α κ) = true) (hs : s.call cfg fault = some s') :
    Sound cfg s' := by
  have hop := h.operation
  have hk := fun g hg => (h.kept g hg).call stable_present hok hs
  unfold Stores.call at hs
  split at hs
  case h_6 => cases hs
  all_goals obtain ⟨⟨r, d'⟩, hp, rfl⟩ := Option.map_eq_some_iff.mp hs
  case h_4 heq =>
    rw [heq] at hop
    exact ⟨hk, hop.1, hop.2 r⟩
  case h_5 heq =>
    rw [heq] at hop
    refine ⟨hk, hop.1, hop.2.2 r d' ⟨fault, ?_, hp⟩⟩
    rintro f rfl
    simpa only [tolerated, heq] using hok
  all_goals exact ⟨hk, trivial⟩

theorem Sound.finish (h : Sound cfg s) (hs : s.finish cfg = some s') : Sound cfg s' := by
  have hop := h.operation
  unfold Stores.finish at hs
  split at hs
  all_goals cases hs
  case h_3 => exact ⟨fun g hg => ⟨(h.kept g hg).now, stable_present.recover _ (h.kept g hg).now⟩,
    trivial⟩
  case h_8 store u g heq =>
    rw [heq] at hop
    exact ⟨nofun, rfl, wp_publish_faulty (fun _ _ _ => notFound_of_manifestTold)
      (Update.accepts_apply hop.2 hop.1)⟩
  case h_10 store g heq =>
    rw [heq] at hop
    refine ⟨?_, trivial⟩
    rintro _ ⟨⟩
    exact ⟨hop.2.1 rfl, trivial⟩
  all_goals exact ⟨fun g hg => ⟨(h.kept g hg).now, trivial⟩, trivial⟩

omit [DecidableEq γ] in
theorem Sound.begin {store : Nat} {operation : Operation η α κ γ} (h : Sound cfg s)
    (hs : s.begin store operation = some s') (hk : ∀ P d, OperationKeeps cfg P True d operation)
    (hop : OperationSound cfg s.acknowledged s.disk operation) : Sound cfg s' := by
  unfold Stores.begin at hs
  split at hs
  next =>
    split at hs
    next =>
      cases hs
      exact ⟨fun g hg => ⟨(h.kept g hg).now, hk _ _⟩, hop⟩
    next => cases hs
  next => cases hs

theorem Sound.step (h : Sound cfg s) (hok : s.tolerated a = true)
    (hs : s.step cfg a = some s') : Sound cfg s' := by
  cases a with
  | openStore valid =>
    simp only [Stores.step] at hs
    split at hs
    next =>
      cases hs
      exact ⟨fun g hg => ⟨(h.kept g hg).now, gentle_load⟩, trivial⟩
    next => cases hs
  | load store => exact h.begin hs (fun _ _ => gentle_load) trivial
  | exportSnapshot store =>
    exact h.begin hs (fun _ _ => gentle_of_quiet quiet_syncCommitted) trivial
  | store store u =>
    simp only [Stores.step] at hs
    split at hs
    next hu => exact h.begin hs (fun _ _ => ⟨trivial, gentle_load⟩) ⟨hu, returns_load⟩
    next => cases hs
  | call fault => exact h.call hok hs
  | finish => exact h.finish hs

theorem Sound.steps (h : Sound cfg s)
    (hr : (system cfg).Steps (fun s a => s.tolerated a = true) s s') : Sound cfg s' :=
  hr.invariant (I := Sound cfg) (fun _ _ _ hu hok hs => hu.step hok hs) h

/-! ## What an `open_with_io` keeps -/

/-- The steps of an operation. -/
def Action.continues : Action η α κ → Bool
  | .call _ | .finish => true
  | .openStore _ | .load _ | .exportSnapshot _ | .store _ _ => false

/-- The steps of an `open_with_io`, of which none misleads it. -/
def OpenStep (s : Stores η α κ γ) (a : Action η α κ) : Prop :=
  s.tolerated a = true ∧ a.continues = true

theorem Kept.step (hP : Stable cfg P) (h : Kept cfg P False s) (ha : OpenStep s a)
    (hs : s.step cfg a = some s') : Kept cfg P False s' := by
  cases a with
  | call fault => exact h.call hP ha.1 hs
  | finish =>
    have hop := h.operation
    simp only [Stores.step, Stores.finish] at hs
    split at hs
    all_goals cases hs
    case h_3 => exact ⟨h.now, hP.recover _ h.now⟩
    case h_8 heq =>
      rw [heq] at hop
      exact hop.1.elim
    all_goals exact ⟨h.now, trivial⟩
  | _ => cases ha.2

/-- No `open_with_io` drops or deletes a generation that is named and can be read. -/
theorem refers_opening {valid : η → κ → Bool} {t u : Stores η α κ γ}
    (ho : s.step cfg (.openStore valid) = some t) (hru : (system cfg).Steps OpenStep t u)
    {id : η} (h : Refers cfg s.disk id g) : Refers cfg u.disk id g := by
  refine (hru.invariant (I := Kept cfg (Refers cfg · id g) False)
    (fun _ _ _ hv hok hs => hv.step stable_refers hok hs) ?_).now
  simp only [Stores.step] at ho
  split at ho
  next =>
    cases ho
    exact ⟨h, gentle_load⟩
  next => cases ho

/-- An `open_with_io` whose calls do not fail succeeds, and `load` then gives a generation. -/
def Yields (cfg : StoreConfig η α κ γ) (valid : η → κ → Bool) (d : StoreDisk η γ)
    (g : Generation α κ) : Prop :=
  ((openWithIo cfg valid).run (perform cfg.size) d).1 = .ok () ∧
    ((load cfg).run (perform cfg.size)
      ((openWithIo cfg valid).run (perform cfg.size) d).2).1 = .ok g

theorem yields_of_present (h : Present cfg g d) (valid : η → κ → Bool) : Yields cfg valid d g := by
  have ho : wp cfg.sem (fun x d => x = .ok () ∧ Committed cfg g d) (Consistent cfg (· = g))
      (openWithIo cfg valid) d := by
    refine wp_openWithIo h.consistent (fun _ => id) ?_
    rintro _ d' rfl hd' -
    exact ⟨rfl, hd'⟩
  obtain ⟨hok, hc⟩ := ho.run
  exact ⟨hok, Session.load_of_committed hc⟩

theorem acknowledged_survives
    (hrun : (system cfg).Steps (fun s a => s.tolerated a = true) {} s) (valid : η → κ → Bool) :
    (∀ g, s.acknowledged = some g → Yields cfg valid s.disk g) ∧
      ∀ t u, s.step cfg (.openStore valid) = some t → (system cfg).Steps OpenStep t u →
        ∀ id g, Refers cfg s.disk id g → Refers cfg u.disk id g := by
  have hs := sound_start.steps hrun
  refine ⟨fun g hg => yields_of_present (hs.kept g hg).now valid, ?_⟩
  exact fun t u ho hst id g => refers_opening ho hst

end

instance {η α κ γ : Type} [DecidableEq η] [DecidableEq α] [DecidableEq κ] [DecidableEq γ]
    (cfg : StoreConfig η α κ γ) (valid : η → κ → Bool) (d : StoreDisk η γ) (g : Generation α κ) :
    Decidable (Yields cfg valid d g) :=
  inferInstanceAs (Decidable (_ ∧ _))

/-- The calls of an operation, none of which fails, and its return. -/
def returnsAfter (calls : Nat) : List (Action Nat Nat Nat) :=
  List.replicate calls (.call none) ++ [.finish]

/-- A store is opened, and an account and a certificate are stored. -/
def storing : List (Action Nat Nat Nat) :=
  .openStore (fun _ _ => true) :: returnsAfter 1 ++ returnsAfter 7 ++
    .store 0 (.account 7) :: returnsAfter 1 ++ returnsAfter 15 ++
    .store 0 (.certificate 8) :: returnsAfter 2 ++ returnsAfter 21

def ioError : Option Fault := some ⟨⟨.other, "input/output error"⟩, false⟩

/-- The certificate is stored, and in the next `open_with_io` its generation cannot be read by
`load`, and not after the filter of `recover_manifest`. -/
theorem acknowledged_survives_failed_open :
    ∃ s, (system documentConfig).Steps (fun s a => s.tolerated a = true) {} s ∧
      (s.acknowledged =
          some { documentConfig.empty with account := some 7, certificate := some 8 } ∧
        s.failed = [false]) ∧
      (∀ g, s.acknowledged = some g → Yields documentConfig (fun _ _ => true) s.disk g) ∧
      ∀ t u, s.step documentConfig (.openStore fun _ _ => true) = some t →
        (system documentConfig).Steps OpenStep t u →
          ∀ id g, Refers documentConfig s.disk id g → Refers documentConfig u.disk id g :=
  Lts.exists_steps_and
    (storing ++ .openStore (fun _ _ => true) :: .call none :: .call ioError :: returnsAfter 1 ++
      List.replicate 3 (.call none) ++ [.call ioError, .finish])
    (by decide) fun _ hs => acknowledged_survives hs _

/-- The certificate is stored, and in the next `open_with_io` the read of its generation
in `recover_manifest` fails: the account is left.  An account is stored, and the last read
of the manifest finds none: nothing is left. -/
theorem transient_errors_lose_generation :
    (∃ s, (system documentConfig).Reaches {} s ∧
      s.acknowledged = some { documentConfig.empty with account := some 7, certificate := some 8 } ∧
      Yields documentConfig (fun _ _ => true) s.disk
        { documentConfig.empty with account := some 7 }) ∧
    ∃ s, (system documentConfig).Reaches {} s ∧
      s.acknowledged = some { documentConfig.empty with account := some 7 } ∧
      ((openWithIo documentConfig fun _ _ => true).run (perform documentConfig.size) s.disk).1 =
        .error invalidState :=
  ⟨Lts.exists_steps
      (storing ++ .openStore (fun _ _ => true) :: returnsAfter 2 ++ [.call none] ++
        .call ioError :: returnsAfter 24)
      (by decide),
    Lts.exists_steps
      (.openStore (fun _ _ => true) :: returnsAfter 1 ++ returnsAfter 7 ++
        .store 0 (.account 7) :: returnsAfter 1 ++ List.replicate 13 (.call none) ++
        .call (some ⟨notFound, false⟩) :: returnsAfter 3)
      (by decide)⟩

end Stores

end Runewarp.ServerCertificate
