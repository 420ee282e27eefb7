import Runewarp.Lib.Lts
import Runewarp.ServerCertificate.Store

/-!
# Crash consistency of the committed store

A disk is *consistent* when every manifest it may have after a crash names, first, a
generation that is whole in every file that may be there under its name.  Everything
the store does keeps its disk consistent, whatever call it is interrupted at: a file is
synced before it gets the name it is known by, a generation is durable before a manifest
names it, and nothing is removed while a manifest that names it may come back.

Which generation that is: the one that was committed, or the one that is being
published.
-/

namespace Runewarp.ServerCertificate

section

variable {η α κ γ : Type} {cfg : StoreConfig η α κ γ} {d d' : StoreDisk η γ}
  {allowed allowed' : Generation α κ → Prop} {g g' : Generation α κ} {id : η} {ids rest : List η}
  {f : File γ} {p target : Path η}

/-- The files that recovery depends on. -/
def Path.Key : Path η → Prop
  | .current | .blob _ => True
  | .candidateManifest | .candidate | .exported _ => False

/-- A file with a generation that `load` accepts. -/
structure Stored (cfg : StoreConfig η α κ γ) (id : η) (g : Generation α κ) (f : File γ) : Prop where
  synced : f.synced = true
  size : cfg.size f.content ≤ maxStateBytes
  digest : cfg.digest f.content = id
  read : cfg.readGeneration f.content = some g
  accepted : cfg.accepts g = true

/-- A file with a manifest. -/
structure Lists (cfg : StoreConfig η α κ γ) (ids : List η) (f : File γ) : Prop where
  synced : f.synced = true
  size : cfg.size f.content ≤ maxManifestBytes
  read : cfg.readManifest f.content = some ids
  valid : cfg.validManifest ids = true

/-- Every file that may be there under the name of a generation is whole. -/
def Whole (cfg : StoreConfig η α κ γ) (allowed : Generation α κ → Prop) (d : StoreDisk η γ)
    (id : η) : Prop :=
  ∀ v ∈ d.possible (.blob id), ∃ f g, v = some f ∧ Stored cfg id g f ∧ allowed g

/-- A manifest, or that there is none, leads to an allowed generation. -/
def Leads (cfg : StoreConfig η α κ γ) (allowed : Generation α κ → Prop) (d : StoreDisk η γ) :
    Option (File γ) → Prop
  | none => allowed cfg.empty
  | some f => ∃ id rest, Lists cfg (id :: rest) f ∧ Whole cfg allowed d id

/-- Every manifest that may be there leads to an allowed generation. -/
def Consistent (cfg : StoreConfig η α κ γ) (allowed : Generation α κ → Prop)
    (d : StoreDisk η γ) : Prop :=
  ∀ v ∈ d.possible .current, Leads cfg allowed d v

/-- The manifest is durable. -/
structure Settled (cfg : StoreConfig η α κ γ) (allowed : Generation α κ → Prop)
    (d : StoreDisk η γ) : Prop where
  consistent : Consistent cfg allowed d
  current : d.old .current = []

/-- The store has come to one generation. -/
abbrev Committed (cfg : StoreConfig η α κ γ) (g : Generation α κ) : StoreDisk η γ → Prop :=
  Settled cfg (· = g)

/-! ## What keeps a disk consistent -/

theorem Whole.mono (h : Whole cfg allowed d id) (ha : ∀ g, allowed g → allowed' g)
    (hs : d'.possible (.blob id) ⊆ d.possible (.blob id)) : Whole cfg allowed' d' id := by
  intro v hv
  obtain ⟨f, g, rfl, hf, hg⟩ := h v (hs hv)
  exact ⟨f, g, rfl, hf, ha g hg⟩

theorem Leads.mono {v : Option (File γ)} (h : Leads cfg allowed d v)
    (ha : ∀ g, allowed g → allowed' g) (hs : ∀ id, d'.possible (.blob id) ⊆ d.possible (.blob id)) :
    Leads cfg allowed' d' v := by
  cases v with
  | none => exact ha _ h
  | some f =>
    obtain ⟨id, rest, hl, hw⟩ := h
    exact ⟨id, rest, hl, hw.mono ha (hs id)⟩

theorem Consistent.weaken (h : Consistent cfg allowed d)
    (ha : ∀ g, allowed g → allowed' g) : Consistent cfg allowed' d :=
  fun v hv => (h v hv).mono ha fun _ => List.Subset.refl _

/-- The key files have no values they may not have had before. -/
def Narrows (d d' : StoreDisk η γ) : Prop :=
  ∀ p : Path η, p.Key → d'.entries p = d.entries p ∧ d'.old p ⊆ d.old p

theorem Narrows.refl : Narrows d d := fun _ _ => ⟨rfl, List.Subset.refl _⟩

theorem Narrows.trans {d'' : StoreDisk η γ} (h : Narrows d d') (h' : Narrows d' d'') :
    Narrows d d'' := by
  intro p hp
  exact ⟨(h' p hp).1.trans (h p hp).1, List.Subset.trans (h' p hp).2 (h p hp).2⟩

theorem Narrows.possible (h : Narrows d d') (hp : p.Key) : d'.possible p ⊆ d.possible p :=
  Disk.possible_subset (h p hp).1 (h p hp).2

theorem Consistent.narrow (h : Consistent cfg allowed d) (hn : Narrows d d') :
    Consistent cfg allowed d' := by
  intro v hv
  refine (h v (hn.possible ?_ hv)).mono (fun _ => id) fun id => hn.possible ?_
  · trivial
  · trivial

theorem Settled.narrow (h : Settled cfg allowed d) (hn : Narrows d d') :
    Settled cfg allowed d' := by
  refine ⟨h.consistent.narrow hn, ?_⟩
  have hs := (hn .current trivial).2
  rw [h.current] at hs
  exact List.subset_nil.mp hs

/-- A crash picks one of the values a name may have. -/
theorem Consistent.lose (h : Consistent cfg allowed d) (loss : Loss (Path η) γ) :
    Consistent cfg allowed (d.lose loss) := by
  have hc : (d.lose loss).possible .current ⊆ d.possible .current := by
    refine Disk.possible_lose_subset fun f hf => ?_
    obtain ⟨id, rest, hl, -⟩ := h _ hf
    exact hl.synced
  intro v hv
  have hle := h v (hc hv)
  cases v with
  | none => exact hle
  | some f =>
    obtain ⟨id, rest, hl, hw⟩ := hle
    refine ⟨id, rest, hl, hw.mono (fun _ h => h) (Disk.possible_lose_subset ?_)⟩
    intro f' hf'
    obtain ⟨f'', g, heq, hs, -⟩ := hw _ hf'
    cases heq
    exact hs.synced

/-! ## The visible manifest -/

/-- What a read of the manifest gives. -/
def Visible (cfg : StoreConfig η α κ γ) (d : StoreDisk η γ) (ids : List η) : Prop :=
  match d.entries .current with
  | none => ids = []
  | some f => Lists cfg ids f

theorem Consistent.visible (h : Consistent cfg allowed d) :
    (Visible cfg d [] ∧ allowed cfg.empty) ∨
      ∃ id rest, Visible cfg d (id :: rest) ∧ Whole cfg allowed d id := by
  have hl := h _ (.head _)
  unfold Visible
  cases he : d.entries .current with
  | none =>
    rw [he] at hl
    exact .inl ⟨rfl, hl⟩
  | some f =>
    rw [he] at hl
    obtain ⟨id, rest, hli, hw⟩ := hl
    exact .inr ⟨id, rest, hli, hw⟩

theorem Consistent.exists_visible (h : Consistent cfg allowed d) :
    ∃ ids, Visible cfg d ids := by
  rcases h.visible with ⟨hv, -⟩ | ⟨id, rest, hv, -⟩
  · exact ⟨_, hv⟩
  · exact ⟨_, hv⟩

theorem Consistent.whole (h : Consistent cfg allowed d)
    (hv : Visible cfg d (id :: rest)) : Whole cfg allowed d id := by
  have hl := h _ (.head _)
  unfold Visible at hv
  cases he : d.entries .current with
  | none => simp [he] at hv
  | some f =>
    rw [he] at hl hv
    obtain ⟨id', rest', hli, hw⟩ := hl
    have heq := Option.some.inj (hli.read.symm.trans hv.read)
    cases heq
    exact hw

theorem Lists.ids_valid (h : Lists cfg ids f) :
    ids.length ≤ 2 ∧ ∀ id ∈ ids, cfg.isDigest id = true := by
  have hv := h.valid
  simp only [StoreConfig.validManifest, Bool.and_eq_true, decide_eq_true_eq,
    List.all_eq_true] at hv
  exact ⟨hv.1.2, hv.2⟩

theorem Visible.valid (hv : Visible cfg d ids) :
    ids.length ≤ 2 ∧ ∀ id ∈ ids, cfg.isDigest id = true := by
  unfold Visible at hv
  split at hv
  next => simp [hv]
  next => exact hv.ids_valid

theorem Narrows.visible (h : Narrows d d') (hv : Visible cfg d ids) : Visible cfg d' ids := by
  have he := (h .current trivial).1
  simpa only [Visible, he] using hv

theorem lists_manifest (hd : cfg.isDigest id = true)
    (hl : rest.length ≤ 1) (hr : ∀ i ∈ rest, cfg.isDigest i = true) :
    Lists cfg (id :: rest) ⟨cfg.manifest (id :: rest), true⟩ := by
  refine ⟨rfl, ?_, cfg.readManifest_manifest _, ?_⟩
  · refine cfg.size_manifest _ ?_ ?_
    · simp only [List.length_cons]
      omega
    · intro i hi
      rcases List.mem_cons.mp hi with rfl | hi
      · exact hd
      · exact hr i hi
  · simp only [StoreConfig.validManifest, List.isEmpty_cons, Bool.not_false, Bool.true_and,
      List.length_cons, Bool.and_eq_true, decide_eq_true_eq, List.all_cons, List.all_eq_true]
    exact ⟨by omega, hd, hr⟩

/-- The manifest of a publication names the new generation and one before it. -/
theorem lists_published {previous : Option η} (hp : ∀ i ∈ previous, cfg.isDigest i = true) :
    Lists cfg (cfg.digest (cfg.generation g) :: previous.toList)
      ⟨cfg.manifest (cfg.digest (cfg.generation g) :: previous.toList), true⟩ := by
  refine lists_manifest (cfg.isDigest_digest _) ?_ fun i hi => ?_
  · cases previous <;> simp
  · exact hp i (Option.mem_toList.mp hi)

theorem stored_generation (hg : cfg.accepts g = true)
    (hs : ¬ maxStateBytes < cfg.size (cfg.generation g)) :
    Stored cfg (cfg.digest (cfg.generation g)) g ⟨cfg.generation g, true⟩ :=
  ⟨rfl, Nat.not_lt.mp hs, rfl, cfg.readGeneration_generation g, hg⟩

theorem Stored.whole (h : Stored cfg id g f)
    (ho : d.possible (.blob id) ⊆ [some f]) : Whole cfg (· = g) d id := by
  intro v hv
  exact ⟨f, g, List.mem_singleton.mp (ho hv), h, rfl⟩

/-! ## Publications -/

theorem narrows_syncDirectory (directory : Directory) :
    Narrows d (d.syncDirectory Path.directory directory) := by
  intro q _
  refine ⟨rfl, ?_⟩
  simp only [Disk.syncDirectory]
  split
  next => exact List.nil_subset _
  next => exact List.Subset.refl _

/-- A file may have taken the place of another; the other key files are as they were. -/
structure Replaces (target : Path η) (f : File γ) (d d' : StoreDisk η γ) : Prop where
  others : ∀ q : Path η, q.Key → q ≠ target → d'.entries q = d.entries q ∧ d'.old q ⊆ d.old q
  entry : target.Key → d'.entries target = some f ∨ d'.entries target = d.entries target
  target : target.Key → d'.possible target ⊆ some f :: d.possible target

theorem Replaces.possible (h : Replaces target f d d') (q : Path η) (hq : q.Key)
    (hne : q ≠ target) : d'.possible q ⊆ d.possible q :=
  Disk.possible_subset (h.others q hq hne).1 (h.others q hq hne).2

theorem Narrows.replaces (h : Narrows d d') : Replaces target f d d' :=
  ⟨fun q hq _ => h q hq, fun hk => .inr (h target hk).1,
    fun hk => List.subset_cons_of_subset _ (h.possible hk)⟩

theorem Replaces.narrow {d'' : StoreDisk η γ} (h : Replaces target f d d')
    (hn : Narrows d' d'') : Replaces target f d d'' := by
  refine ⟨fun q hq hne => ?_, fun hk => ?_,
    fun hk => List.Subset.trans (hn.possible hk) (h.target hk)⟩
  · obtain ⟨he, hold⟩ := h.others q hq hne
    obtain ⟨he', ho'⟩ := hn q hq
    exact ⟨he'.trans he, List.Subset.trans ho' hold⟩
  · rw [(hn target hk).1]
    exact h.entry hk

/-- A manifest whose first generation is whole may take the place of another. -/
theorem Consistent.replaceManifest (h : Consistent cfg allowed d)
    (hr : Replaces .current f d d') (hl : Lists cfg (id :: rest) f)
    (hw : Whole cfg allowed d id) : Consistent cfg allowed d' := by
  have hb : ∀ i, d'.possible (.blob i) ⊆ d.possible (.blob i) :=
    fun i => hr.possible (.blob i) trivial (by simp)
  intro v hv
  rcases List.mem_cons.mp (hr.target trivial hv) with rfl | hv
  · exact ⟨id, rest, hl, hw.mono (fun _ h => h) (hb id)⟩
  · exact (h v hv).mono (fun _ h => h) hb

theorem committed_of_manifest (hr : Replaces .current f d d')
    (hc : d'.possible .current = [some f]) (hl : Lists cfg (id :: rest) f)
    (hw : Whole cfg (· = g) d id) : Committed cfg g d' := by
  refine ⟨fun v hv => ?_, (List.cons.inj hc).2⟩
  rw [hc, List.mem_singleton] at hv
  subst hv
  exact ⟨_, _, hl, hw.mono (fun _ h => h) (hr.possible (.blob _) trivial (by simp))⟩

theorem withFile_of_some (h : d.entries p = some f) (next : StoreDisk η γ) :
    withFile d p next = (.ok (), next) := by
  simp [withFile, h]

variable [DecidableEq η]

theorem narrows_set (hp : ¬ p.Key) (v : Option (File γ)) : Narrows d (d.set p v) := by
  intro q hq
  have hne : q ≠ p := fun heq => hp (heq ▸ hq)
  simp [Disk.set, hne]

theorem narrows_sync (hp : ¬ p.Key) : Narrows d (d.sync p) := by
  intro q hq
  have hne : q ≠ p := fun heq => hp (heq ▸ hq)
  simp [Disk.sync, hne]

/-- What calls do when none fails. -/
abbrev StoreConfig.sem (cfg : StoreConfig η α κ γ) :
    (call : StoreCall η γ) → StoreDisk η γ → call.Reply → StoreDisk η γ → Prop :=
  Program.graph (perform cfg.size)

/-- What calls do when they may fail as `may` says. -/
def StoreConfig.faultySem (cfg : StoreConfig η α κ γ)
    (may : StoreCall η γ → StoreDisk η γ → Fault → Prop)
    (call : StoreCall η γ) (d : StoreDisk η γ) (reply : call.Reply) (d' : StoreDisk η γ) : Prop :=
  ∃ fault : Option Fault, (∀ f, fault = some f → may call d f) ∧
    performFaulty cfg.size fault call d = some (reply, d')

open Program

variable {C : StoreDisk η γ → Prop} {Q : Except StoreError Unit → StoreDisk η γ → Prop}
  {content : γ} {may : StoreCall η γ → StoreDisk η γ → Fault → Prop}

theorem faultySem_cases {i : StoreCall η γ} {r : i.Reply} (h : cfg.faultySem may i d r d') :
    perform cfg.size i d = (r, d') ∨
      ∃ f, may i d f ∧ i.failure f.error = some r ∧ (d' = d ∨ d' = (perform cfg.size i d).2) := by
  obtain ⟨fault, hm, heq⟩ := h
  cases fault with
  | none => exact .inl (Option.some.inj heq)
  | some f =>
    obtain ⟨r', hr', heq⟩ := Option.map_eq_some_iff.mp heq
    cases heq
    refine .inr ⟨f, hm f rfl, hr', ?_⟩
    split
    next => exact .inr rfl
    next => exact .inl rfl

theorem wp_faultyCall {β : Type} {Q : Except StoreError β → StoreDisk η γ → Prop}
    {i : StoreCall η γ} {next : i.Reply → StoreM η γ β} (hC : C d)
    (hok : wp (cfg.faultySem may) Q C (next (perform cfg.size i d).1) (perform cfg.size i d).2)
    (hfa : ∀ f r d', may i d f → i.failure f.error = some r →
      (d' = d ∨ d' = (perform cfg.size i d).2) → wp (cfg.faultySem may) Q C (next r) d') :
    wp (cfg.faultySem may) Q C (.call i next) d := by
  refine ⟨hC, fun r t hr => ?_⟩
  rcases faultySem_cases hr with heq | ⟨f, hf, hr', ht⟩
  · rw [heq] at hok
    exact hok
  · exact hfa f r t hf hr' ht

theorem wp_steadyCall {β : Type} {Q : Except StoreError β → StoreDisk η γ → Prop}
    {i : StoreCall η γ} {next : i.Reply → StoreM η γ β} (hC : C d)
    (hok : wp (cfg.faultySem may) Q C (next (perform cfg.size i d).1) (perform cfg.size i d).2)
    (hn : ∀ e, i.failure e = none) : wp (cfg.faultySem may) Q C (.call i next) d := by
  refine wp_faultyCall hC hok fun f r d' _ hr => ?_
  rw [hn] at hr
  cases hr

/-- What holds when calls may fail holds when none does. -/
theorem wp_of_faulty {β : Type} {Q : Except StoreError β → StoreDisk η γ → Prop}
    {program : StoreM η γ β} (h : wp (cfg.faultySem may) Q C program d) :
    wp cfg.sem Q C program d :=
  h.of_imp fun _ _ _ _ heq => ⟨none, by simp, congrArg some heq⟩

/-- `write_private` of a file that recovery does not depend on. -/
theorem wp_writePrivate (hp : ¬ p.Key) (hC : ∀ d', Narrows d d' → C d')
    (hQ : ∀ d', Narrows d d' → d'.entries p = some ⟨content, false⟩ → Q (.ok ()) d') :
    wp (cfg.faultySem may) Q C (writePrivate p content) d := by
  -- The rest of the program, from a disk where nothing is in the way.
  have hc : ∀ d', Narrows d d' →
      wp (cfg.faultySem may) Q C (StoreM.create p content) d' := by
    intro d' hd
    have hw := hd.trans (narrows_set hp (some ⟨content, false⟩))
    exact wp_steadyCall (hC d' hd) ⟨hQ _ hw Disk.entries_set, hC _ hw⟩ fun _ => rfl
  refine wp_steadyCall (hC d .refl) ?_ fun _ => rfl
  show wp (cfg.faultySem may) Q C ((onlyIf (d.entries p).isSome _).bind _) d
  cases he : d.entries p with
  | none => exact hc d .refl
  | some f =>
    refine wp_steadyCall (hC d .refl) ?_ fun _ => rfl
    show wp (cfg.faultySem may) Q C ((ofExcept (withFile d p (d.remove p)).1).bind _)
      (withFile d p (d.remove p)).2
    rw [withFile_of_some he]
    exact hc _ (narrows_set hp none)

theorem Narrows.rename {source target : Path η} (h : Narrows d d') (hs : ¬ source.Key)
    (he : d'.entries source = some f) : Replaces target f d (d'.rename source target) := by
  unfold Disk.rename
  rw [he]
  have hse : Replaces target f d (d'.set target (some f)) := by
    refine ⟨fun q hq hne => ?_, fun _ => .inl Disk.entries_set, fun hk => ?_⟩
    · simpa [Disk.set, hne] using h q hq
    · rw [Disk.possible_set]
      exact List.cons_subset_cons _ (h.possible hk)
  exact hse.narrow (narrows_set hs none)

theorem wp_publishFile_faulty {source target : Path η} {directory : Directory}
    (hs : ¬ source.Key) (hne : source ≠ target) (hdi : target.directory = directory)
    (hC : ∀ d', Replaces target ⟨content, true⟩ d d' → C d')
    (hQ : ∀ d', Replaces target ⟨content, true⟩ d d' →
      d'.possible target = [some ⟨content, true⟩] → Q (.ok ()) d')
    (hfa : ∀ i s f, may i s f → ∀ e d', Replaces target ⟨content, true⟩ d d' →
      Q (.error e) d') :
    wp (cfg.faultySem may) Q C (publishFile source target directory content) d := by
  refine wp_bind (wp_writePrivate hs (fun d' hd => hC d' hd.replaces) ?_)
  intro d₁ hd₁ he₁
  -- A call that fails ends the publication, on the disk before it or after it.
  have hst : ∀ {i : StoreCall η γ} {s : StoreDisk η γ} {f : Fault}, may i s f →
    ∀ {u : StoreDisk η γ},
      Replaces target ⟨content, true⟩ d u → Q (.error f.error) u ∧ C u :=
    fun hf u hu => ⟨hfa _ _ _ hf _ u hu, hC u hu⟩
  have hd₂ := hd₁.trans (narrows_sync (d := d₁) hs)
  have he₂ : (d₁.sync source).entries source = some ⟨content, true⟩ := by simp [he₁]
  refine wp_faultyCall (hC d₁ hd₁.replaces) ?_ ?_
  · have hd₃ : Replaces target ⟨content, true⟩ d ((d₁.sync source).rename source target) :=
      hd₂.rename hs he₂
    refine wp_faultyCall (hC _ hd₂.replaces) ?_ ?_
    · show wp (cfg.faultySem may) Q C ((ofExcept (withFile (d₁.sync source) source _).1).bind _)
        (withFile (d₁.sync source) source _).2
      rw [withFile_of_some he₂]
      have hd₄ := hd₃.narrow (narrows_syncDirectory directory)
      refine wp_faultyCall (hC _ hd₃) ?_ ?_
      · refine ⟨hQ _ hd₄ ((Disk.possible_syncDirectory hdi).trans ?_), hC _ hd₄⟩
        rw [Disk.entries_rename hne.symm]
        exact congrArg (fun v => [v]) he₂
      · rintro f _ d' hf ⟨⟩ (rfl | rfl)
        · exact hst hf hd₃
        · exact hst hf hd₄
    · rintro f _ d' hf ⟨⟩ (rfl | rfl)
      · exact hst hf hd₂.replaces
      · simp only [perform, withFile_of_some he₂]
        exact hst hf hd₃
  · rintro f _ d' hf ⟨⟩ (rfl | rfl)
    · exact hst hf hd₁.replaces
    · exact hst hf hd₂.replaces

theorem wp_publishFile {source target : Path η} {directory : Directory} (hs : ¬ source.Key)
    (hne : source ≠ target) (hd : target.directory = directory)
    (hC : ∀ d', Replaces target ⟨content, true⟩ d d' → C d')
    (hQ : ∀ d', Replaces target ⟨content, true⟩ d d' →
      d'.possible target = [some ⟨content, true⟩] → Q (.ok ()) d') :
    wp cfg.sem Q C (publishFile source target directory content) d :=
  wp_of_faulty (wp_publishFile_faulty hs hne hd hC hQ
    (fun _ _ _ (h : False) => h.elim))

/-! ## Reads -/

theorem wp_readManifest {Q : Except StoreError (List η) → StoreDisk η γ → Prop}
    (hv : Visible cfg d ids) (hC : C d) (hQ : Q (.ok ids) d) :
    wp cfg.sem Q C (readManifestWithIo cfg) d := by
  refine wp_call hC ?_
  unfold Visible at hv
  cases he : d.entries .current with
  | none =>
    rw [he] at hv
    subst hv
    simp only [perform, readUpTo, he]
    exact ⟨hQ, hC⟩
  | some f =>
    rw [he] at hv
    simp only [perform, readUpTo, he, Nat.not_lt.mpr hv.size, if_false, hv.read, hv.valid,
      if_true]
    exact ⟨hQ, hC⟩

/-- What a read of a generation gives. -/
def readable (cfg : StoreConfig η α κ γ) (d : StoreDisk η γ) (id : η) : Option (Generation α κ) :=
  (d.entries (.blob id)).bind fun f =>
    if maxStateBytes < cfg.size f.content then none
    else if cfg.digest f.content ≠ id then none
    else cfg.readGeneration f.content

theorem Stored.readable (h : Stored cfg id g f) (hf : d.entries (.blob id) = some f) :
    readable cfg d id = some g := by
  simp [ServerCertificate.readable, hf, Nat.not_lt.mpr h.size, h.digest, h.read]

theorem Whole.readable (h : Whole cfg allowed d id) :
    ∃ g, readable cfg d id = some g ∧ allowed g ∧ cfg.accepts g = true := by
  obtain ⟨f, g, he, hs, ha⟩ := h _ (.head _)
  exact ⟨g, hs.readable he, ha, hs.accepted⟩

theorem wp_readGeneration_faulty {Q : Except StoreError (Generation α κ) → StoreDisk η γ → Prop}
    (hsu : ∀ f, ¬ may (.readFile (.blob id) maxStateBytes) d f)
    (hC : C d) (hs : ∀ g, readable cfg d id = some g → Q (.ok g) d)
    (hn : readable cfg d id = none → ∀ e, Q (.error e) d) :
    wp (cfg.faultySem may) Q C (readGenerationWithIo cfg id) d := by
  refine wp_faultyCall hC ?_ fun f _ _ hf => (hsu f hf).elim
  unfold readable at hs hn
  cases he : d.entries (.blob id) with
  | none =>
    rw [he] at hn
    simp only [perform, readUpTo, he]
    exact ⟨hn rfl _, hC⟩
  | some f =>
    simp only [he, Option.bind_some] at hs hn
    simp only [perform, readUpTo, he]
    split
    next hsi => exact ⟨hn (if_pos hsi) _, hC⟩
    next hsi =>
      rw [if_neg hsi] at hs hn
      show wp (cfg.faultySem may) Q C (if cfg.digest f.content ≠ id then _ else _) d
      split
      next hd => exact ⟨hn (if_pos hd) _, hC⟩
      next hd =>
        rw [if_neg hd] at hs hn
        split
        next g hr => exact ⟨hs g hr, hC⟩
        next hr => exact ⟨hn hr _, hC⟩

theorem wp_readGeneration {Q : Except StoreError (Generation α κ) → StoreDisk η γ → Prop}
    (hC : C d) (hs : ∀ g, readable cfg d id = some g → Q (.ok g) d)
    (hn : readable cfg d id = none → ∀ e, Q (.error e) d) :
    wp cfg.sem Q C (readGenerationWithIo cfg id) d := by
  have hr : wp (cfg.faultySem fun _ _ _ => False) Q C (readGenerationWithIo cfg id) d :=
    wp_readGeneration_faulty (fun _ h => h) hC hs hn
  exact wp_of_faulty hr

/-- What the first generation of the manifest gives, when there is a manifest. -/
def shown (cfg : StoreConfig η α κ γ) (d : StoreDisk η γ) : Option (Option (Generation α κ)) :=
  (d.entries .current).map fun f =>
    ((cfg.readManifest f.content).bind List.head?).bind (readable cfg d)

theorem Visible.shown (hv : Visible cfg d ids) :
    shown cfg d = ids.head?.map (readable cfg d) := by
  unfold Visible at hv
  cases he : d.entries .current with
  | none =>
    rw [he] at hv
    simp [ServerCertificate.shown, he, hv]
  | some f =>
    rw [he] at hv
    cases ids with
    | nil => cases hv.valid
    | cons id rest => simp [ServerCertificate.shown, he, hv.read]

/-- What `load` gives. -/
theorem Consistent.shown (h : Consistent cfg allowed d) :
    ∃ g, (shown cfg d).getD (some cfg.empty) = some g ∧ allowed g := by
  rcases h.visible with ⟨hv, ha⟩ | ⟨id, rest, hv, hw⟩
  · exact ⟨cfg.empty, by rw [hv.shown]; rfl, ha⟩
  · obtain ⟨g, hr, ha, -⟩ := hw.readable
    exact ⟨g, by rw [hv.shown, ← hr]; rfl, ha⟩

theorem wp_load {Q : Except StoreError (Generation α κ) → StoreDisk η γ → Prop}
    (h : Consistent cfg allowed d) (hC : C d)
    (hQ : ∀ g, allowed g → (ServerCertificate.shown cfg d).getD (some cfg.empty) = some g →
      Q (.ok g) d) :
    wp cfg.sem Q C (load cfg) d := by
  rcases h.visible with ⟨hv, ha⟩ | ⟨id, rest, hv, hw⟩
  · refine wp_bind (wp_readManifest hv hC ?_)
    exact ⟨hQ _ ha (by rw [hv.shown]; rfl), hC⟩
  · refine wp_bind (wp_readManifest hv hC ?_)
    obtain ⟨g, hr, ha, hac⟩ := hw.readable
    refine wp_bind (wp_attempt (wp_readGeneration hC ?_ ?_))
    · intro g' hg'
      cases hr.symm.trans hg'
      show wp cfg.sem Q C (if cfg.accepts g then _ else _) d
      rw [if_pos hac]
      exact ⟨hQ g ha (by rw [hv.shown, ← hr]; rfl), hC⟩
    · intro hn
      rw [hr] at hn
      cases hn

/-! ## Recovery -/

theorem Narrows.readable (h : Narrows d d') (id : η) : readable cfg d' id = readable cfg d id := by
  have he := (h (.blob id) trivial).1
  simp only [ServerCertificate.readable, he]

theorem readable_sync (id : η) : readable cfg (d.sync p) id = readable cfg d id := by
  by_cases hp : p = .blob id
  · subst hp
    simp only [readable, Disk.entries_sync]
    cases d.entries (.blob id) <;> rfl
  · have he : (d.sync p).entries (.blob id) = d.entries (.blob id) :=
      Function.update_of_ne (Ne.symm hp) ..
    simp only [readable, he]

theorem Narrows.shown (h : Narrows d d') : shown cfg d' = shown cfg d := by
  simp only [ServerCertificate.shown, (h .current trivial).1, funext h.readable]

theorem shown_sync (p : Path η) : shown cfg (d.sync p) = shown cfg d := by
  simp only [shown, funext readable_sync]
  by_cases hp : Path.current = p
  · subst hp
    simp [Function.comp_def]
  · simp [Disk.sync, hp]

/-- A sync changes nothing that recovery depends on: the files it depends on are synced. -/
theorem Consistent.sync (h : Consistent cfg allowed d) (p : Path η) :
    Consistent cfg allowed (d.sync p) := by
  by_cases hs : ∀ f, d.entries p = some f → f.synced = true
  · rwa [Disk.sync_of_synced hs]
  · have hc : p ≠ .current := by
      rintro rfl
      refine hs fun f hf => ?_
      obtain ⟨id, rest, hl, -⟩ := h (some f) (hf ▸ (.head _))
      exact hl.synced
    intro v hv
    rw [Disk.possible_sync_of_ne (Ne.symm hc)] at hv
    have hle := h v hv
    cases v with
    | none => exact hle
    | some f =>
      obtain ⟨id, rest, hl, hw⟩ := hle
      have hb : p ≠ .blob id := by
        rintro rfl
        refine hs fun f hf => ?_
        obtain ⟨f', g, heq, hst, -⟩ := hw (some f) (hf ▸ (.head _))
        cases heq
        exact hst.synced
      refine ⟨id, rest, hl, hw.mono (fun _ h => h) ?_⟩
      rw [Disk.possible_sync_of_ne (Ne.symm hb)]
      exact List.Subset.refl _

theorem exists_entry_of_readable (h : readable cfg d id = some g) :
    ∃ f, d.entries (.blob id) = some f := by
  obtain ⟨f, hf, -⟩ := Option.bind_eq_some_iff.mp h
  exact ⟨f, hf⟩

theorem wp_publishExport {c : κ} (hC : ∀ d', Narrows d d' → C d')
    (hQ : ∀ d', Narrows d d' → Q (.ok ()) d') :
    wp cfg.sem Q C (publishBlob (.exported id) (cfg.pem c)) d := by
  have hn : ∀ d', Replaces (.exported id) ⟨cfg.pem c, true⟩ d d' → Narrows d d' := by
    intro d' hr q hq
    exact hr.others q hq (by rintro rfl; exact hq)
  exact wp_publishFile (by exact not_false) (by simp) rfl (fun d' hr => hC d' (hn d' hr))
    fun d' hr _ => hQ d' (hn d' hr)

theorem wp_restoreExport [DecidableEq γ] {valid : η → κ → Bool} (hr : readable cfg d id = some g)
    (hC : ∀ d', Narrows d d' → C d') (hQ : ∀ d', Narrows d d' → Q (.ok ()) d') :
    wp cfg.sem Q C (restoreExport cfg valid id) d := by
  have hd : wp cfg.sem Q C (.ok ()) d := ⟨hQ d .refl, hC d .refl⟩
  refine wp_bind (wp_readGeneration (hC d .refl) ?_ ?_)
  · intro g' _
    dsimp only [andThen]
    cases g'.certificate with
    | none => exact hd
    | some c =>
      dsimp only
      split
      next =>
        refine wp_bind (wp_attempt (wp_call (hC d .refl) ?_))
        show wp cfg.sem _ C (ofExcept (readUpTo cfg.size d _ _)) d
        cases readUpTo cfg.size d (.exported id) maxStateBytes with
        | ok content =>
          refine ⟨?_, hC d .refl⟩
          show wp cfg.sem Q C (if content = cfg.pem c then _ else _) d
          split
          next => exact hd
          next => exact wp_publishExport hC hQ
        | error e => exact ⟨wp_publishExport hC hQ, hC d .refl⟩
      next => exact hd
  · intro hn
    rw [hr] at hn
    cases hn

/-- `File::open` and `sync_file` of a generation that can be read. -/
theorem wp_syncExisting (he : ∃ f, d.entries p = some f) (hC : C d) (hC' : C (d.sync p))
    (hQ : Q (.ok ()) (d.sync p)) : wp cfg.sem Q C (syncExisting p) d := by
  obtain ⟨f, hf⟩ := he
  refine wp_call hC ?_
  show wp cfg.sem Q C ((ofExcept (withFile d p d).1).bind _) (withFile d p d).2
  rw [withFile_of_some hf]
  exact wp_call hC ⟨hQ, hC'⟩

theorem wp_syncIfExists (hC : C d) (hC' : C (d.sync p)) (hs : Q (.ok ()) (d.sync p))
    (hn : Q (.ok ()) d) : wp cfg.sem Q C (syncIfExists p) d := by
  refine wp_call hC ?_
  show wp cfg.sem Q C (onlyIf (d.entries p).isSome (syncExisting p)) d
  cases he : d.entries p with
  | none => exact ⟨hn, hC⟩
  | some f => exact wp_syncExisting ⟨f, he⟩ hC hC' hs

/-- The generations of the visible manifest can all be read. -/
structure Recovered (cfg : StoreConfig η α κ γ) (allowed : Generation α κ → Prop)
    (d : StoreDisk η γ) : Prop where
  consistent : Consistent cfg allowed d
  readable : ∃ ids, Visible cfg d ids ∧ ∀ id ∈ ids, ∃ g, readable cfg d id = some g

/-- The last part of `recover_manifest`: the manifest is written without the generations
that cannot be read. -/
theorem wp_rewriteManifest {rest retained : List η} (h : Consistent cfg allowed d)
    (hv : Visible cfg d (id :: rest)) (hsu : retained.Sublist rest)
    (hra : ∀ i ∈ id :: retained, ∃ g, readable cfg d i = some g)
    (hC : ∀ d', Consistent cfg allowed d' → C d')
    (hQ : ∀ d', Recovered cfg allowed d' → shown cfg d' = shown cfg d → Q (.ok ()) d') :
    wp cfg.sem Q C (do
      Program.forEach (fun id => syncExisting (.blob id)) (id :: retained)
      StoreM.syncDirectory .generations
      publishManifest cfg (id :: retained)) d := by
  have hl : Lists cfg (id :: retained) ⟨cfg.manifest (id :: retained), true⟩ := by
    obtain ⟨hln, hd⟩ := hv.valid
    have hle := hsu.length_le
    refine lists_manifest (hd id (.head _)) ?_ fun i hi =>
      hd i (.tail _ (hsu.subset hi))
    simp only [List.length_cons] at hln
    omega
  -- Syncing the retained generations leaves what can be read as it is.
  refine wp_bind (wp_forEach (I := fun bs s => Consistent cfg allowed s ∧
    Visible cfg s (id :: rest) ∧ (∀ i, readable cfg s i = readable cfg d i) ∧
    bs ⊆ id :: retained) ?_ ?_ ⟨h, hv, fun _ => rfl, List.Subset.refl _⟩)
  · intro b bs s ⟨hs, hvs, hre, hbs⟩
    obtain ⟨g, hg⟩ := hra b (hbs (.head _))
    have he := exists_entry_of_readable ((hre b).trans hg)
    refine wp_syncExisting he (hC s hs) (hC _ (hs.sync _)) ⟨hs.sync _, ?_, ?_, ?_⟩
    · exact hvs
    · exact fun i => (readable_sync i).trans (hre i)
    · exact List.Subset.trans (List.subset_cons_self _ _) hbs
  · intro s ⟨hs, hvs, hre, _⟩
    refine ⟨?_, hC s hs⟩
    have hn := narrows_syncDirectory (d := s) .generations
    refine wp_call (hC s hs) ?_
    have hs₁ := hs.narrow hn
    have hw := hs₁.whole (hn.visible hvs)
    refine wp_publishFile (by exact not_false) (by simp) rfl
      (fun d' hr => hC d' (hs₁.replaceManifest hr hl hw)) ?_
    intro d' hr hc
    have hrd : ∀ i, readable cfg d' i = readable cfg d i := fun i =>
      (congrArg (fun v => Option.bind v _) (hr.others (.blob i) trivial (by simp)).1).trans (hre i)
    have hv' : Visible cfg d' (id :: retained) := by
      have he : d'.entries .current = some ⟨cfg.manifest (id :: retained), true⟩ :=
        (List.cons.inj hc).1
      simpa only [Visible, he] using hl
    refine hQ d' ⟨hs₁.replaceManifest hr hl hw, id :: retained, hv', fun i hi => ?_⟩ ?_
    · rw [hrd]
      exact hra i hi
    · simp only [hv'.shown, hv.shown, List.head?_cons, Option.map_some, hrd]

theorem wp_recoverManifest [DecidableEq γ] {valid : η → κ → Bool} (h : Consistent cfg allowed d)
    (hC : ∀ d', Consistent cfg allowed d' → C d')
    (hQ : ∀ d', Recovered cfg allowed d' → shown cfg d' = shown cfg d → Q (.ok ()) d') :
    wp cfg.sem Q C (recoverManifest cfg valid) d := by
  obtain ⟨ids, hv⟩ := h.exists_visible
  refine wp_bind (wp_readManifest hv (hC d h) ?_)
  -- What is retained is what can be read.
  refine wp_bind (wp_filterOk (k := fun id => (readable cfg d id).isSome) (I := (· = d)) ?_ ?_ ?_
    rfl)
  · rintro b s rfl
    refine wp_readGeneration (hC s h) ?_ ?_
    · intro g hg
      exact ⟨rfl, by rw [hg]; rfl⟩
    · intro hno e
      exact ⟨rfl, by rw [hno]; rfl⟩
  · rintro s rfl
    exact hC s h
  · rintro s rfl
    have hk : ∀ i ∈ ids.filter (fun id => (readable cfg s id).isSome),
        ∃ g, readable cfg s i = some g :=
      fun i hi => Option.isSome_iff_exists.mp (List.mem_filter.mp hi).2
    refine wp_bind (wp_forEach (I := fun bs t => Narrows s t ∧
      ∀ i ∈ bs, ∃ g, readable cfg s i = some g) ?_ ?_ ⟨.refl, hk⟩)
    · intro b bs t ⟨hn, hbs⟩
      obtain ⟨g, hg⟩ := hbs b (.head _)
      refine wp_restoreExport ((hn.readable b).trans hg) ?_ ?_
      · exact fun d' hd => hC d' (h.narrow (hn.trans hd))
      · exact fun d' hd => ⟨hn.trans hd, fun i hi => hbs i (.tail _ hi)⟩
    · intro t ⟨hn, _⟩
      have ht := h.narrow hn
      have hm : shown cfg t = shown cfg s := hn.shown
      refine ⟨?_, hC t ht⟩
      show wp cfg.sem Q C (if _ = ids then _ else if _ = [] then _ else _) t
      split
      next heq =>
        refine ⟨hQ t ⟨ht, ids, hn.visible hv, ?_⟩ hm, hC t ht⟩
        intro i hi
        rw [← heq] at hi
        obtain ⟨g, hg⟩ := hk i hi
        exact ⟨g, (hn.readable i).trans hg⟩
      next hne =>
        cases ids with
        | nil => exact (hne rfl).elim
        | cons id rest =>
          obtain ⟨g, hg, -⟩ := (h.whole hv).readable
          have hf : (id :: rest).filter (fun id => (readable cfg s id).isSome) =
              id :: rest.filter fun id => (readable cfg s id).isSome :=
            List.filter_cons_of_pos (by rw [hg]; rfl)
          rw [hf] at hk ⊢
          refine wp_rewriteManifest ht (hn.visible hv) List.filter_sublist ?_ hC
            fun d' hd hm' => hQ d' hd (hm'.trans hm)
          intro i hi
          obtain ⟨g, hg⟩ := hk i hi
          exact ⟨g, (hn.readable i).trans hg⟩

theorem wp_syncGeneration (h : Consistent cfg allowed d) (hr : readable cfg d id = some g)
    (hC : ∀ d', Consistent cfg allowed d' → C d')
    (hQ : ∀ d', Consistent cfg allowed d' → (∀ i, readable cfg d' i = readable cfg d i) →
      shown cfg d' = shown cfg d → Q (.ok ()) d') :
    wp cfg.sem Q C (syncGeneration id) d := by
  have hs := h.sync (.blob id)
  refine wp_bind (wp_syncExisting (exists_entry_of_readable hr) (hC d h) (hC _ hs) ?_)
  refine wp_syncIfExists (hC _ hs) (hC _ (hs.sync _)) (hQ _ (hs.sync _) ?_ ?_) (hQ _ hs ?_ ?_)
  · exact fun i => (readable_sync i).trans (readable_sync i)
  · exact (shown_sync _).trans (shown_sync _)
  · exact fun i => readable_sync i
  · exact shown_sync _

theorem wp_syncCommitted (h : Recovered cfg allowed d)
    (hC : ∀ d', Consistent cfg allowed d' → C d')
    (hQ : ∀ d', Settled cfg allowed d' → (∀ i, d'.old (.blob i) = []) → shown cfg d' = shown cfg d →
      Q (.ok ()) d') :
    wp cfg.sem Q C (syncCommitted cfg) d := by
  obtain ⟨hc, ids, hv, hre⟩ := h
  refine wp_bind (wp_readManifest hv (hC d hc) ?_)
  refine wp_bind (wp_forEach (I := fun bs s => Consistent cfg allowed s ∧
    shown cfg s = shown cfg d ∧ ∀ i ∈ bs, ∃ g, readable cfg s i = some g) ?_ ?_ ⟨hc, rfl, hre⟩)
  · intro b bs s ⟨hs, hm, hbs⟩
    obtain ⟨g, hg⟩ := hbs b (.head _)
    refine wp_syncGeneration hs hg hC fun d' hd hr hm' => ⟨hd, hm'.trans hm, fun i hi => ?_⟩
    obtain ⟨g', hg'⟩ := hbs i (.tail _ hi)
    exact ⟨g', (hr i).trans hg'⟩
  · intro s ⟨hs, hm, _⟩
    refine ⟨wp_call (hC s hs) ?_, hC s hs⟩
    have hs₁ := hs.narrow (narrows_syncDirectory .generations)
    -- The sync of the manifest, if there is one, is followed by that of its directory.
    have hl : ∀ u : StoreDisk η γ, Consistent cfg allowed u → (∀ i, u.old (.blob i) = []) →
        shown cfg u = shown cfg s → wp cfg.sem Q C (StoreM.syncDirectory .committed) u := by
      intro u hu hold hsu
      have hu₁ := hu.narrow (narrows_syncDirectory .committed)
      have hold₁ : ∀ i, (u.syncDirectory Path.directory .committed).old (.blob i) = [] := fun i =>
        (Disk.old_syncDirectory_of_ne (by simp [Path.directory])).trans (hold i)
      exact wp_call (hC u hu)
        ⟨hQ _ ⟨hu₁, Disk.old_syncDirectory rfl⟩ hold₁ (hsu.trans hm), hC _ hu₁⟩
    have hold : ∀ i, (s.syncDirectory Path.directory .generations).old (.blob i) = [] :=
      fun i => Disk.old_syncDirectory rfl
    show wp cfg.sem Q C ((syncIfExists .current).bind _)
      (s.syncDirectory Path.directory .generations)
    exact wp_bind (wp_syncIfExists (hC _ hs₁) (hC _ (hs₁.sync _))
      (hl _ (hs₁.sync _) hold (shown_sync .current)) (hl _ hs₁ hold rfl))

/-- With the manifest durable, what it does not name may go. -/
theorem Settled.remove (h : Settled cfg allowed d) (hv : Visible cfg d ids)
    (hp : referenced ids p = false) (hd : p.directory = .generations) :
    Settled cfg allowed (d.remove p) ∧ Visible cfg (d.remove p) ids ∧
      shown cfg (d.remove p) = shown cfg d := by
  have hne : Path.current ≠ p := by
    rintro rfl
    cases hd
  have he : (d.remove p).entries .current = d.entries .current := Disk.entries_set_of_ne hne
  have hold : (d.remove p).old .current = d.old .current := Function.update_of_ne hne ..
  have hv₁ : Visible cfg (d.remove p) ids := by simpa only [Visible, he] using hv
  have hb : ∀ id ∈ ids, Path.blob id ≠ p := by
    rintro id hi rfl
    simp [referenced, hi] at hp
  refine ⟨⟨fun v hv' => ?_, hold.trans h.current⟩, hv₁, ?_⟩
  · rw [Disk.possible, he, hold] at hv'
    have hl := h.consistent v hv'
    rw [h.current, List.mem_singleton] at hv'
    cases v with
    | none => exact hl
    | some f =>
      obtain ⟨id, rest, hli, hw⟩ := hl
      obtain rfl : ids = id :: rest := by
        simp only [Visible, ← hv'] at hv
        exact Option.some.inj (hv.read.symm.trans hli.read)
      refine ⟨id, rest, hli, hw.mono (fun _ h => h) ?_⟩
      rw [Disk.remove, Disk.possible_set_of_ne (hb id (.head _))]
      exact List.Subset.refl _
  · rw [hv₁.shown, hv.shown]
    cases ids with
    | nil => rfl
    | cons id rest =>
      have hr : (d.remove p).entries (.blob id) = d.entries (.blob id) :=
        Disk.entries_set_of_ne (hb id (.head _))
      simp only [List.head?_cons, Option.map_some, readable, hr]

theorem of_mem_unreferenced
    (hp : p ∈ (d.list Path.directory .generations).filter fun path => !referenced ids path) :
    referenced ids p = false ∧ p.directory = .generations ∧ ∃ f, d.entries p = some f := by
  simp only [Disk.list, List.mem_filter, List.mem_dedup, Bool.and_eq_true,
    decide_eq_true_eq, Bool.not_eq_true'] at hp
  exact ⟨hp.2, hp.1.2.1, Option.isSome_iff_exists.mp hp.1.2.2⟩

theorem wp_prune (h : Settled cfg allowed d) (hC : ∀ d', Settled cfg allowed d' → C d')
    (hQ : ∀ d', Settled cfg allowed d' → shown cfg d' = shown cfg d → Q (.ok ()) d') :
    wp cfg.sem Q C (prune cfg) d := by
  obtain ⟨ids, hv⟩ := h.consistent.exists_visible
  refine wp_bind (wp_readManifest hv (hC d h) ?_)
  refine wp_call (hC d h) ?_
  show wp cfg.sem Q C ((forEach StoreM.removeFile
    ((d.list Path.directory .generations).filter fun path => !referenced ids path)).bind _) d
  -- Every path that is still to be removed is there.
  refine wp_bind (wp_forEach (I := fun bs s => Settled cfg allowed s ∧ Visible cfg s ids ∧
    shown cfg s = shown cfg d ∧ bs.Nodup ∧ ∀ p ∈ bs, referenced ids p = false ∧
      p.directory = .generations ∧ ∃ f, s.entries p = some f) ?_ ?_ ⟨h, hv, rfl, ?_, ?_⟩)
  · intro p bs s ⟨hs, hvs, hsh, hn, hbs⟩
    obtain ⟨hno, hd, f, hf⟩ := hbs p (.head _)
    obtain ⟨hs', hvs', hsh'⟩ := hs.remove hvs hno hd
    refine wp_call (hC s hs) ?_
    show wp cfg.sem _ C (ofExcept (withFile s p (s.remove p)).1) (withFile s p (s.remove p)).2
    rw [withFile_of_some hf]
    refine ⟨⟨hs', hvs', hsh'.trans hsh, hn.of_cons, fun q hq => ?_⟩, hC _ hs'⟩
    obtain ⟨hqn, hqd, f', hf'⟩ := hbs q (.tail _ hq)
    have hne : q ≠ p := by
      rintro rfl
      exact (List.nodup_cons.mp hn).1 hq
    exact ⟨hqn, hqd, f', (Disk.entries_set_of_ne hne).trans hf'⟩
  · intro s ⟨hs, _, hsh, _⟩
    refine ⟨?_, hC s hs⟩
    show wp cfg.sem Q C (onlyIf _ (StoreM.syncDirectory .generations)) s
    unfold onlyIf
    split
    next =>
      have hn := narrows_syncDirectory (d := s) .generations
      exact wp_call (hC s hs) ⟨hQ _ (hs.narrow hn) (hn.shown.trans hsh), hC _ (hs.narrow hn)⟩
    next => exact ⟨hQ s hs hsh, hC s hs⟩
  · exact (List.nodup_dedup _).filter _
  · exact fun p hp => of_mem_unreferenced hp

end

end Runewarp.ServerCertificate
