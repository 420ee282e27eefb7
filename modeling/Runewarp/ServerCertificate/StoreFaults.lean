import Runewarp.ServerCertificate.StoreConsistency

/-!
# The store when calls fail

A call of `CertificateStoreIo` may return an error and damage nothing.  Most of what the
store does leaves the manifest and the generations as they are, whatever its calls are
answered: it reads, it writes candidates, it replaces exports, it syncs (`Calm`).  Two
parts do not.  `recover_manifest` writes the manifest without the generations it could
not read, and `prune` removes what the manifest, as it was read, does not name.

When the reads these two depend on tell the truth, every generation that is named and
can be read stays so (`Keeps`).
-/

namespace Runewarp.ServerCertificate

open Program

section

variable {η α κ γ : Type} {cfg : StoreConfig η α κ γ} {d d₀ d' : StoreDisk η γ}
  {allowed : Generation α κ → Prop} {g : Generation α κ} {id : η} {ids : List η} {f : File γ}

/-- The generations of the manifest that is there. -/
def currentIds (cfg : StoreConfig η α κ γ) (d : StoreDisk η γ) : Option (List η) :=
  (d.entries .current).bind fun f =>
    if maxManifestBytes < cfg.size f.content then none
    else (cfg.readManifest f.content).filter cfg.validManifest

theorem Lists.listed (h : Lists cfg ids f) (hf : d.entries .current = some f) :
    currentIds cfg d = some ids := by
  simp [currentIds, hf, Nat.not_lt.mpr h.size, h.read, h.valid]

theorem exists_of_currentIds (h : currentIds cfg d = some ids) :
    ∃ f, d.entries .current = some f ∧ cfg.size f.content ≤ maxManifestBytes ∧
      cfg.readManifest f.content = some ids ∧ cfg.validManifest ids = true := by
  obtain ⟨f, hf, heq⟩ := Option.bind_eq_some_iff.mp h
  split at heq
  next => cases heq
  next hs =>
    obtain ⟨hread, hv⟩ := Option.filter_eq_some_iff.mp heq
    exact ⟨f, hf, Nat.not_lt.mp hs, hread, hv⟩

theorem Consistent.lists (h : Consistent cfg allowed d) (hl : currentIds cfg d = some ids) :
    ∃ f, d.entries .current = some f ∧ Lists cfg ids f := by
  obtain ⟨f, hf, -, hread, -⟩ := exists_of_currentIds hl
  obtain ⟨id, rest, hli, -⟩ := h (some f) (hf ▸ (.head _))
  obtain rfl : ids = id :: rest := Option.some.inj (hread.symm.trans hli.read)
  exact ⟨f, hf, hli⟩

theorem Consistent.visible_of_listed (h : Consistent cfg allowed d)
    (hl : currentIds cfg d = some ids) :
    Visible cfg d ids := by
  obtain ⟨f, hf, hli⟩ := h.lists hl
  simpa only [Visible, hf] using hli

/-! ## Calls that leave the manifest and the generations -/

/-- A call that changes none of the files recovery depends on. -/
def StoreCall.Spares : StoreCall η γ → Prop
  | .syncFile path | .removeFile path | .create path _ => ¬ path.Key
  | .rename source target => ¬ source.Key ∧ ¬ target.Key
  | .readFile _ _ | .syncDirectory _ | .readPrivate _ _ | .tryExists _ | .openFile _ | .readDir =>
    True

/-- Such a call, or a sync. -/
def StoreCall.Gentle (i : StoreCall η γ) : Prop :=
  (∃ path, i = .syncFile path) ∨ i.Spares

/-- A read or a sync. -/
def StoreCall.Quiet : StoreCall η γ → Prop
  | .rename _ _ | .removeFile _ | .create _ _ => False
  | .readFile _ _ | .syncFile _ | .syncDirectory _ | .readPrivate _ _ | .tryExists _ |
    .openFile _ | .readDir => True

section

variable {ok : StoreCall η γ → Prop}

theorem all_readManifest (hread : ok (.readFile .current maxManifestBytes)) :
    (readManifestWithIo cfg).All ok := by
  refine ⟨hread, fun r => ?_⟩
  cases r with
  | ok content =>
    dsimp only
    split
    next => split <;> trivial
    next => trivial
  | error e =>
    dsimp only
    split <;> trivial

variable [DecidableEq η] (hread : ∀ path limit, ok (.readFile path limit))
include hread

theorem all_readGeneration (id : η) : (readGenerationWithIo cfg id).All ok := by
  refine All.bind ⟨hread _ _, fun r => all_ofExcept r⟩ fun content => ?_
  split
  next => trivial
  next => split <;> trivial

theorem all_loadFirst (ids : List η) : (loadFirst cfg ids).All ok := by
  induction ids with
  | nil => trivial
  | cons id ids ih =>
    refine (all_readGeneration hread id).attempt.bind fun result => ?_
    split
    next => split <;> trivial
    next => exact ih

theorem all_load : (load cfg).All ok := by
  refine (all_readManifest (hread _ _)).bind fun ids => ?_
  split
  next => trivial
  next => exact all_loadFirst hread ids

theorem all_findPrevious (ids : List η) : (findPrevious cfg id ids).All ok := by
  induction ids with
  | nil => trivial
  | cons other ids ih =>
    unfold findPrevious
    split
    next => exact ih
    next =>
      refine (all_readGeneration hread other).attempt.bind fun result => ?_
      split
      next => trivial
      next => exact ih

end

theorem spares_publishBlob (id : η) (content : γ) :
    (publishBlob (.exported id) content).All StoreCall.Spares := by
  have hr : (StoreM.removeFile .candidate : StoreM η γ Unit).All StoreCall.Spares :=
    ⟨not_false, fun r => all_ofExcept r⟩
  have hw : (writePrivate .candidate content).All StoreCall.Spares :=
    ⟨trivial, fun b => (all_onlyIf b hr).bind fun _ => ⟨not_false, fun r => all_ofExcept r⟩⟩
  refine hw.bind fun _ => ?_
  refine All.bind ⟨not_false, fun r => all_ofExcept r⟩ fun _ => ?_
  refine All.bind ⟨⟨not_false, not_false⟩, fun r => all_ofExcept r⟩ fun _ => ?_
  exact ⟨trivial, fun r => all_ofExcept r⟩

theorem spares_publishExport (id : η) (g : Generation α κ) :
    (publishExport cfg id g).All StoreCall.Spares := by
  unfold publishExport
  split
  next => exact spares_publishBlob id _
  next => trivial

theorem spares_restoreExport [DecidableEq η] [DecidableEq γ] (valid : η → κ → Bool) (id : η) :
    (restoreExport cfg valid id).All StoreCall.Spares := by
  refine (all_readGeneration (fun _ _ => trivial) id).bind fun g => ?_
  split
  next => trivial
  next certificate _ =>
    split
    next =>
      have hread : (StoreM.readPrivate (.exported id) maxStateBytes : StoreM η γ γ).All
          StoreCall.Spares :=
        ⟨trivial, fun r => all_ofExcept r⟩
      refine hread.attempt.bind fun result => ?_
      split
      next =>
        split
        next => trivial
        next => exact spares_publishBlob id _
      next => exact spares_publishBlob id _
    next => trivial

theorem quiet_syncDirectory (directory : Directory) :
    (StoreM.syncDirectory directory : StoreM η γ Unit).All StoreCall.Quiet :=
  ⟨trivial, fun r => all_ofExcept r⟩

theorem quiet_syncExisting (path : Path η) :
    (syncExisting path : StoreM η γ Unit).All StoreCall.Quiet :=
  All.bind ⟨trivial, fun r => all_ofExcept r⟩ fun _ => ⟨trivial, fun r => all_ofExcept r⟩

theorem quiet_syncIfExists (path : Path η) :
    (syncIfExists path : StoreM η γ Unit).All StoreCall.Quiet :=
  All.bind ⟨trivial, fun _ => trivial⟩ fun b => all_onlyIf b (quiet_syncExisting path)

theorem quiet_syncGeneration (id : η) :
    (syncGeneration id : StoreM η γ Unit).All StoreCall.Quiet :=
  (quiet_syncExisting _).bind fun _ => quiet_syncIfExists _

theorem quiet_syncCommitted : (syncCommitted cfg).All StoreCall.Quiet := by
  refine (all_readManifest trivial).bind fun ids => ?_
  refine (all_forEach quiet_syncGeneration ids).bind fun _ => ?_
  refine (quiet_syncDirectory .generations).bind fun _ => ?_
  exact (quiet_syncIfExists .current).bind fun _ => quiet_syncDirectory .committed

theorem gentle_of_quiet {β : Type} {program : StoreM η γ β} (h : program.All StoreCall.Quiet) :
    program.All StoreCall.Gentle := by
  refine h.mono fun i hi => ?_
  cases i with
  | syncFile path => exact .inl ⟨path, rfl⟩
  | rename | removeFile | create => exact hi.elim
  | _ => exact .inr trivial

variable [DecidableEq η]

/-- Nothing that is read back has changed, and a consistent disk is still consistent. -/
structure Calm (cfg : StoreConfig η α κ γ) (d d' : StoreDisk η γ) : Prop where
  listed : currentIds cfg d' = currentIds cfg d
  readable : ∀ id, readable cfg d' id = readable cfg d id
  consistent : ∀ allowed : Generation α κ → Prop, Consistent cfg allowed d →
    Consistent cfg allowed d'

theorem Calm.refl : Calm cfg d d := ⟨rfl, fun _ => rfl, fun _ h => h⟩

theorem Calm.trans {d'' : StoreDisk η γ} (h : Calm cfg d d') (h' : Calm cfg d' d'') :
    Calm cfg d d'' where
  listed := h'.listed.trans h.listed
  readable id := (h'.readable id).trans (h.readable id)
  consistent allowed hd := h'.consistent allowed (h.consistent allowed hd)

theorem Narrows.calm (h : Narrows d d') : Calm cfg d d' := by
  refine ⟨?_, h.readable, fun _ hd => hd.narrow h⟩
  have he := (h .current trivial).1
  simp only [currentIds, he]

theorem calm_sync (p : Path η) : Calm cfg d (d.sync p) := by
  refine ⟨?_, fun id => readable_sync id, fun _ hd => hd.sync p⟩
  by_cases hp : p = .current
  · subst hp
    simp only [currentIds, Disk.entries_sync]
    cases d.entries .current <;> rfl
  · have he : (d.sync p).entries .current = d.entries .current :=
      Function.update_of_ne (Ne.symm hp) ..
    simp only [currentIds, he]

variable {may : StoreCall η γ → StoreDisk η γ → Fault → Prop} {i : StoreCall η γ}
  {r : i.Reply}

theorem StoreCall.Spares.narrows (h : i.Spares) : Narrows d (perform cfg.size i d).2 := by
  cases i with
  | syncDirectory directory => exact narrows_syncDirectory directory
  | syncFile path => exact narrows_sync h
  | create path content => exact narrows_set h _
  | openFile path =>
    simp only [perform, withFile]
    split <;> exact .refl
  | removeFile path =>
    simp only [perform, withFile]
    split
    next => exact narrows_set h _
    next => exact .refl
  | rename source target =>
    simp only [perform, withFile]
    split
    next => exact (narrows_set h.2 _).trans (narrows_set h.1 _)
    next => exact .refl
  | _ => exact .refl

theorem StoreCall.Spares.narrows_faulty (h : i.Spares) (hs : cfg.faultySem may i d r d') :
    Narrows d d' := by
  have hn : Narrows d (perform cfg.size i d).2 := h.narrows
  rcases faultySem_cases hs with heq | ⟨f, -, -, rfl | rfl⟩
  · rwa [heq] at hn
  · exact .refl
  · exact hn

theorem StoreCall.Gentle.calm (h : i.Gentle) (hs : cfg.faultySem may i d r d') :
    Calm cfg d d' := by
  rcases h with ⟨path, rfl⟩ | h
  · rcases faultySem_cases hs with heq | ⟨f, -, -, rfl | rfl⟩
    · cases heq
      exact calm_sync path
    · exact .refl
    · exact calm_sync path
  · exact (h.narrows_faulty hs).calm

theorem wp_gentle {β : Type} {program : StoreM η γ β} (h : program.All StoreCall.Gentle) :
    wp (cfg.faultySem may) (fun _ => Calm cfg d) (Calm cfg d) program d :=
  (h.wp returns_true (fun _ _ _ _ hc hd hs => hd.trans (hc.calm hs)) .refl).mono
    (fun _ _ _ hx => hx.1) fun _ => id

section

variable {β β' : Type} {program : StoreM η γ β} {next : β → StoreM η γ β'}
  {C : StoreDisk η γ → Prop} {Q : Except StoreError β' → StoreDisk η γ → Prop}

theorem wp_bind_gentle (hd : Calm cfg d₀ d) (h : program.All StoreCall.Gentle)
    (hC : ∀ t, Calm cfg d₀ t → C t) (hf : ∀ e t, Calm cfg d₀ t → Q (.error e) t)
    (hok : ∀ b t, Calm cfg d₀ t → wp (cfg.faultySem may) Q C (next b) t) :
    wp (cfg.faultySem may) Q C (program.bind next) d := by
  refine wp_bind ((wp_gentle h).mono ?_ fun t ht => hC t (hd.trans ht))
  intro x t _ ht
  cases x with
  | ok b => exact hok b t (hd.trans ht)
  | error e => exact hf e t (hd.trans ht)

/-- A program that spares the files recovery depends on, and what comes after it. -/
theorem wp_bind_spares {good : β → Prop} (hd : Narrows d₀ d) (h : program.All StoreCall.Spares)
    (hr : program.Returns good) (hC : ∀ t, Narrows d₀ t → C t)
    (hf : ∀ e t, Narrows d₀ t → Q (.error e) t)
    (hok : ∀ b t, good b → Narrows d₀ t → wp (cfg.faultySem may) Q C (next b) t) :
    wp (cfg.faultySem may) Q C (program.bind next) d := by
  have hp : wp (cfg.faultySem may) (fun x t => Narrows d₀ t ∧ ∀ b, x = .ok b → good b)
      (Narrows d₀) program d :=
    h.wp hr (fun _ _ _ _ hc hd hs => hd.trans (hc.narrows_faulty hs)) hd
  refine wp_bind (hp.mono ?_ hC)
  intro x t _ ⟨ht, hx⟩
  cases x with
  | ok b => exact hok b t (hx b rfl) ht
  | error e => exact hf e t ht

end

/-! ## Reads -/

variable {C : StoreDisk η γ → Prop} {Q : Except StoreError Unit → StoreDisk η γ → Prop}

/-- A read of the manifest that is not told that there is none. -/
theorem wp_readManifest_listed {Q : Except StoreError (List η) → StoreDisk η γ → Prop}
    (hl : currentIds cfg d = some ids)
    (hm : ∀ f, may (.readFile .current maxManifestBytes) d f → f.error.kind ≠ .notFound)
    (hC : C d) (hQ : Q (.ok ids) d) (hfa : ∀ e, Q (.error e) d) :
    wp (cfg.faultySem may) Q C (readManifestWithIo cfg) d := by
  obtain ⟨file, hfi, hs, hread, hv⟩ := exists_of_currentIds hl
  refine wp_faultyCall hC ?_ ?_
  · simp only [perform, readUpTo, hfi, Nat.not_lt.mpr hs, if_false, hread, hv, if_true]
    exact ⟨hQ, hC⟩
  · rintro f _ d' hf ⟨⟩ (rfl | rfl)
    all_goals
      simp only [if_neg (hm f hf)]
      exact ⟨hfa _, hC⟩

omit [DecidableEq η] in
theorem returns_readManifest :
    (readManifestWithIo cfg).Returns fun ids => ∀ id ∈ ids, cfg.isDigest id = true := by
  intro r
  cases r with
  | ok content =>
    dsimp only
    split
    next =>
      split
      next hv =>
        simp only [StoreConfig.validManifest, Bool.and_eq_true, List.all_eq_true] at hv
        exact hv.2
      next => trivial
    next => trivial
  | error e =>
    dsimp only
    split
    next =>
      intro id hid
      cases hid
    next => trivial

theorem returns_loadFirst (ids : List η) :
    (loadFirst cfg ids).Returns fun g => cfg.accepts g = true := by
  induction ids with
  | nil => trivial
  | cons id ids ih =>
    refine returns_true.bind fun result _ => ?_
    split
    next =>
      split
      next ha => exact ha
      next => trivial
    next => exact ih

theorem returns_load : (load cfg).Returns fun g => cfg.accepts g = true := by
  refine returns_true.bind fun ids _ => ?_
  split
  next => simp [Returns, StoreConfig.accepts, StoreConfig.empty]
  next => exact returns_loadFirst ids

theorem returns_findPrevious (ids : List η) :
    (findPrevious cfg id ids).Returns fun previous => ∀ i ∈ previous, i ∈ ids := by
  induction ids with
  | nil => exact nofun
  | cons other ids ih =>
    have hr := ih.mono fun _ hp i hi => List.mem_cons_of_mem other (hp i hi)
    unfold findPrevious
    split
    next => exact hr
    next =>
      refine returns_true.bind fun result _ => ?_
      split
      next =>
        rintro i ⟨⟩
        exact .head _
      next => exact hr

/-! ## Recovery -/

/-- The generations that can be read. -/
def retained (cfg : StoreConfig η α κ γ) (d : StoreDisk η γ) (ids : List η) : List η :=
  ids.filter fun id => (readable cfg d id).isSome

/-- What `open_with_io` keeps, when it starts with the generations `ids`. -/
structure Keeps (cfg : StoreConfig η α κ γ) (ids : List η) (d₀ d : StoreDisk η γ) : Prop where
  listed : currentIds cfg d = some ids ∨ currentIds cfg d = some (retained cfg d₀ ids)
  readable : ∀ id ∈ ids, readable cfg d id = readable cfg d₀ id
  consistent : ∀ allowed : Generation α κ → Prop, Consistent cfg allowed d₀ →
    Consistent cfg allowed d

theorem Keeps.refl (h : currentIds cfg d = some ids) : Keeps cfg ids d d :=
  ⟨.inl h, fun _ _ => rfl, fun _ h => h⟩

theorem Keeps.calm (h : Keeps cfg ids d₀ d) (hc : Calm cfg d d') : Keeps cfg ids d₀ d' where
  listed := by simpa only [hc.listed] using h.listed
  readable id hid := (hc.readable id).trans (h.readable id hid)
  consistent allowed hd := hc.consistent allowed (h.consistent allowed hd)

/-- The first generation of a consistent disk is retained. -/
theorem Consistent.retained_cons (h : Consistent cfg allowed d) {rest : List η}
    (hl : currentIds cfg d = some (id :: rest)) :
    retained cfg d (id :: rest) = id :: retained cfg d rest ∧ Whole cfg allowed d id := by
  have hw := h.whole (h.visible_of_listed hl)
  obtain ⟨g, hg, -⟩ := hw.readable
  exact ⟨List.filter_cons_of_pos (by rw [hg]; rfl), hw⟩

theorem lists_retained (hl : currentIds cfg d = some ids) (hne : retained cfg d ids ≠ []) :
    Lists cfg (retained cfg d ids) ⟨cfg.manifest (retained cfg d ids), true⟩ := by
  obtain ⟨-, -, -, -, hv⟩ := exists_of_currentIds hl
  simp only [StoreConfig.validManifest, Bool.and_eq_true, decide_eq_true_eq,
    List.all_eq_true] at hv
  have hs : (retained cfg d ids).Sublist ids := List.filter_sublist
  cases hr : retained cfg d ids with
  | nil => exact (hne hr).elim
  | cons id rest =>
    rw [hr] at hs
    have hle := hs.length_le
    simp only [List.length_cons] at hle
    refine lists_manifest (hv.2 id (hs.subset (.head _))) (by omega) ?_
    exact fun i hi => hv.2 i (hs.subset (.tail _ hi))

/-- The manifest may be replaced by one with the generations that can be read. -/
theorem Calm.replaceManifest (h : Calm cfg d₀ d) (hl : currentIds cfg d₀ = some ids)
    (hne : retained cfg d₀ ids ≠ [])
    (hr : Replaces .current ⟨cfg.manifest (retained cfg d₀ ids), true⟩ d d') :
    Keeps cfg ids d₀ d' := by
  have hli := lists_retained hl hne
  refine ⟨?_, fun id _ => ?_, fun allowed hd₀ => ?_⟩
  · rcases hr.entry trivial with he | he
    · exact .inr (hli.listed he)
    · refine .inl ?_
      simp only [currentIds, he]
      exact h.listed.trans hl
  · have he := (hr.others (.blob id) trivial (by simp)).1
    simp only [ServerCertificate.readable, he]
    exact h.readable id
  · have hd := h.consistent allowed hd₀
    cases ids with
    | nil => exact (hne rfl).elim
    | cons id rest =>
      obtain ⟨hc, -⟩ := hd₀.retained_cons hl
      rw [hc] at hli hr
      exact hd.replaceManifest hr hli (hd.retained_cons (h.listed.trans hl)).2

/-- The reads of an `open_with_io` that tell the truth: those of generations do not fail,
and a manifest that is there is not reported missing. -/
structure Truthful (may : StoreCall η γ → StoreDisk η γ → Fault → Prop) : Prop where
  generation : ∀ id limit d f, ¬ may (.readFile (.blob id) limit) d f
  manifest : ∀ limit d f, (d.entries .current).isSome = true →
    may (.readFile .current limit) d f → f.error.kind ≠ .notFound

omit [DecidableEq η] in
theorem isSome_of_currentIds (h : currentIds cfg d = some ids) :
    (d.entries .current).isSome = true := by
  obtain ⟨f, hf, -⟩ := exists_of_currentIds h
  rw [hf]
  rfl

theorem wp_rewriteManifest_faulty (h : Calm cfg d₀ d) (hl : currentIds cfg d₀ = some ids)
    (hne : retained cfg d₀ ids ≠ []) (hC : ∀ d', Keeps cfg ids d₀ d' → C d')
    (hQ : ∀ x d', Keeps cfg ids d₀ d' → Q x d') :
    wp (cfg.faultySem may) Q C (do
      Program.forEach (fun id => syncExisting (.blob id)) (retained cfg d₀ ids)
      StoreM.syncDirectory .generations
      publishManifest cfg (retained cfg d₀ ids)) d := by
  have hk : ∀ t, Calm cfg d₀ t → Keeps cfg ids d₀ t := fun t ht => (Keeps.refl hl).calm ht
  have hC' := fun t ht => hC t (hk t ht)
  have hf := fun e t ht => hQ (.error e) t (hk t ht)
  have hs : (forEach (fun id => syncExisting (.blob id)) (retained cfg d₀ ids) :
      StoreM η γ Unit).All StoreCall.Quiet :=
    all_forEach (fun id => quiet_syncExisting (.blob id)) _
  refine wp_bind_gentle h (gentle_of_quiet hs) hC' hf ?_
  intro _ t ht
  refine wp_bind_gentle ht (gentle_of_quiet (quiet_syncDirectory .generations)) hC' hf ?_
  intro _ u hu
  have hre : ∀ d', Replaces .current ⟨cfg.manifest (retained cfg d₀ ids), true⟩ u d' →
      Keeps cfg ids d₀ d' :=
    fun d' hr => hu.replaceManifest hl hne hr
  exact wp_publishFile_faulty (by exact not_false) (by simp) rfl
    (fun d' hr => hC d' (hre d' hr)) (fun d' hr _ => hQ _ d' (hre d' hr))
    fun _ _ _ _ e d' hr => hQ _ d' (hre d' hr)

theorem wp_recoverManifest_faulty [DecidableEq γ] {valid : η → κ → Bool} (hm : Truthful may)
    (hl : currentIds cfg d = some ids) (hC : ∀ d', Keeps cfg ids d d' → C d')
    (hQ : ∀ x d', Keeps cfg ids d d' → Q x d') :
    wp (cfg.faultySem may) Q C (recoverManifest cfg valid) d := by
  have hd := Keeps.refl hl
  refine wp_bind (wp_readManifest_listed hl ?_ (hC d hd) ?_ fun e => hQ _ d hd)
  · exact fun f hf => hm.manifest _ d f (isSome_of_currentIds hl) hf
  refine wp_bind (wp_filterOk (k := fun id => (readable cfg d id).isSome) (I := (· = d))
    ?_ ?_ ?_ rfl)
  · rintro b s rfl
    refine wp_readGeneration_faulty (hm.generation _ _ _) (hC s hd) ?_ ?_
    · intro g hg
      exact ⟨rfl, by rw [hg]; rfl⟩
    · intro hn e
      exact ⟨rfl, by rw [hn]; rfl⟩
  · rintro s rfl
    exact hC s hd
  · rintro s rfl
    have hr : (forEach (restoreExport cfg valid) (retained cfg s ids)).All StoreCall.Gentle :=
      (all_forEach (spares_restoreExport valid) _).mono fun _ => .inr
    refine wp_bind_gentle .refl hr (fun t ht => hC t (hd.calm ht))
      (fun e t ht => hQ _ t (hd.calm ht)) ?_
    intro _ t ht
    have hk := hd.calm ht
    show wp (cfg.faultySem may) Q C (if retained cfg s ids = ids then _ else
      if retained cfg s ids = [] then _ else _) t
    split
    next => exact ⟨hQ _ t hk, hC t hk⟩
    next =>
      split
      next => exact ⟨hQ _ t hk, hC t hk⟩
      next hne => exact wp_rewriteManifest_faulty ht hl hne hC hQ

/-- The manifest is durable when `sync_committed` succeeds. -/
theorem wp_syncCommitted_faulty (hC : ∀ d', Calm cfg d d' → C d')
    (hok : ∀ d', Calm cfg d d' → d'.old .current = [] → Q (.ok ()) d')
    (hf : ∀ e d', Calm cfg d d' → Q (.error e) d') :
    wp (cfg.faultySem may) Q C (syncCommitted cfg) d := by
  refine wp_bind_gentle .refl (gentle_of_quiet (all_readManifest trivial)) hC hf
    fun ids t ht => ?_
  refine wp_bind_gentle ht (gentle_of_quiet (all_forEach quiet_syncGeneration ids)) hC hf
    fun _ t ht => ?_
  refine wp_bind_gentle ht (gentle_of_quiet (quiet_syncDirectory .generations)) hC hf
    fun _ t ht => ?_
  refine wp_bind_gentle ht (gentle_of_quiet (quiet_syncIfExists .current)) hC hf fun _ t ht => ?_
  have hl := ht.trans (narrows_syncDirectory (d := t) .committed).calm
  refine wp_faultyCall (hC t ht) ⟨hok _ hl (Disk.old_syncDirectory rfl), hC _ hl⟩ ?_
  rintro f _ d' _ ⟨⟩ (rfl | rfl)
  · exact ⟨hf _ _ ht, hC _ ht⟩
  · exact ⟨hf _ _ hl, hC _ hl⟩

/-- What the manifest does not name may go, once it is durable. -/
theorem Keeps.remove {current : List η} {p : Path η} (h : Keeps cfg ids d₀ d)
    (hold : d.old .current = []) (hl : currentIds cfg d = some current)
    (hp : referenced current p = false) (hdi : p.directory = .generations) :
    Keeps cfg ids d₀ (d.remove p) ∧ (d.remove p).old .current = [] ∧
      currentIds cfg (d.remove p) = some current := by
  have hne : Path.current ≠ p := by
    rintro rfl
    cases hdi
  have he : (d.remove p).entries .current = d.entries .current := Disk.entries_set_of_ne hne
  have ho' : (d.remove p).old .current = d.old .current := Function.update_of_ne hne ..
  have hi : currentIds cfg (d.remove p) = currentIds cfg d := by simp only [currentIds, he]
  refine ⟨⟨by simpa only [hi] using h.listed, fun id hid => ?_, fun allowed hd₀ => ?_⟩,
    ho'.trans hold, hi.trans hl⟩
  · by_cases hb : Path.blob id = p
    · -- The generation is not in the manifest, so it could not be read.
      subst hb
      have hn : id ∉ current := by simpa [referenced] using hp
      have hu : ServerCertificate.readable cfg d₀ id = none := by
        rcases h.listed with heq | heq
        · exact (hn (Option.some.inj (heq.symm.trans hl) ▸ hid)).elim
        · cases heq.symm.trans hl
          simpa [retained, hid] using hn
      rw [hu]
      simp [ServerCertificate.readable, Disk.remove]
    · have he : (d.remove p).entries (.blob id) = d.entries (.blob id) :=
        Disk.entries_set_of_ne hb
      rw [← h.readable id hid]
      simp only [ServerCertificate.readable, he]
  · have hd := h.consistent allowed hd₀
    have hs : Settled cfg allowed d := ⟨hd, hold⟩
    exact (hs.remove (hd.visible_of_listed hl) hp hdi).1.consistent

/-- Whatever fails in a `prune`, it keeps what a removal of a file that the manifest does not
name keeps, and a sync of the directory. -/
theorem wp_prune_keeps {I : StoreDisk η γ → Prop} (h : I d)
    (hread : ∀ Q, Q (.ok ids) d → (∀ e, Q (.error e) d) →
      wp (cfg.faultySem may) Q C (readManifestWithIo cfg) d)
    (hremove : ∀ s p, I s → referenced ids p = false → p.directory = .generations → I (s.remove p))
    (hsync : ∀ s, I s → I (s.syncDirectory Path.directory .generations))
    (hC : ∀ d', I d' → C d') (hQ : ∀ x d', I d' → Q x d') :
    wp (cfg.faultySem may) Q C (prune cfg) d := by
  refine wp_bind (hread _ ?_ fun e => hQ _ d h)
  refine wp_steadyCall (hC d h) ?_ fun _ => rfl
  show wp (cfg.faultySem may) Q C ((forEach StoreM.removeFile
    ((d.list Path.directory .generations).filter fun path => !referenced ids path)).bind _) d
  refine wp_bind (wp_forEach (I := fun bs s => I s ∧
    ∀ p ∈ bs, referenced ids p = false ∧ p.directory = .generations) ?_ ?_ ⟨h, ?_⟩)
  · rintro p bs s ⟨hs, hbs⟩
    obtain ⟨hn, hdi⟩ := hbs p (.head _)
    have hs' := hremove s p hs hn hdi
    refine wp_steadyCall (hC s hs) ?_ fun _ => rfl
    show wp (cfg.faultySem may) _ C (ofExcept (withFile s p (s.remove p)).1)
      (withFile s p (s.remove p)).2
    unfold withFile
    split
    next => exact ⟨⟨hs', fun q hq => hbs q (.tail _ hq)⟩, hC _ hs'⟩
    next => exact ⟨hQ _ s hs, hC s hs⟩
  · rintro s ⟨hs, -⟩
    refine ⟨?_, hC s hs⟩
    unfold onlyIf
    split
    next =>
      refine wp_faultyCall (hC s hs) ⟨hQ _ _ (hsync s hs), hC _ (hsync s hs)⟩ ?_
      rintro f _ d' _ ⟨⟩ (rfl | rfl)
      · exact ⟨hQ _ _ hs, hC _ hs⟩
      · exact ⟨hQ _ _ (hsync s hs), hC _ (hsync s hs)⟩
    next => exact ⟨hQ _ s hs, hC s hs⟩
  · intro p hp
    obtain ⟨hn, hdi, -⟩ := of_mem_unreferenced hp
    exact ⟨hn, hdi⟩

theorem wp_prune_faulty (hm : ∀ limit d f, (d.entries .current).isSome = true →
      may (.readFile .current limit) d f → f.error.kind ≠ .notFound)
    {current : List η} (h : Keeps cfg ids d₀ d) (hold : d.old .current = [])
    (hl : currentIds cfg d = some current) (hC : ∀ d', Keeps cfg ids d₀ d' → C d')
    (hQ : ∀ x d', Keeps cfg ids d₀ d' → Q x d') :
    wp (cfg.faultySem may) Q C (prune cfg) d := by
  refine wp_prune_keeps (I := fun s => Keeps cfg ids d₀ s ∧ s.old .current = [] ∧
    currentIds cfg s = some current) ⟨h, hold, hl⟩
    (fun Q => wp_readManifest_listed hl (fun f => hm _ d f (isSome_of_currentIds hl)) (hC d h))
    ?_ ?_ (fun d' hd' => hC d' hd'.1) fun x d' hd' => hQ x d' hd'.1
  · rintro s p ⟨hs, ho, hls⟩ hn hdi
    exact hs.remove ho hls hn hdi
  · rintro s ⟨hs, ho, hls⟩
    refine ⟨hs.calm (narrows_syncDirectory _).calm, ?_, hls⟩
    exact (Disk.old_syncDirectory_of_ne (by simp [Path.directory])).trans ho

/-- Whatever becomes of an `open_with_io`, the generations that could be read are there. -/
theorem wp_recover_faulty [DecidableEq γ] {valid : η → κ → Bool} (hm : Truthful may)
    (hl : currentIds cfg d = some ids) :
    wp (cfg.faultySem may) (fun _ => Keeps cfg ids d) (Keeps cfg ids d) (recover cfg valid) d := by
  refine wp_bind (wp_recoverManifest_faulty hm hl (fun _ => id) ?_)
  intro x d₂ hd₂
  cases x with
  | error e => exact hd₂
  | ok =>
    refine wp_bind (wp_syncCommitted_faulty (fun t ht => hd₂.calm ht) ?_
      fun e t ht => hd₂.calm ht)
    intro d₃ hd₃ hold
    have hd₃ := hd₂.calm hd₃
    obtain ⟨current, hc⟩ : ∃ current, currentIds cfg d₃ = some current := by
      rcases hd₃.listed with heq | heq
      · exact ⟨_, heq⟩
      · exact ⟨_, heq⟩
    exact wp_prune_faulty hm.manifest hd₃ hold hc (fun _ => id) fun _ _ => id

/-! ## Publications -/

/-- The disk has come to a generation, and says so. -/
structure Present (cfg : StoreConfig η α κ γ) (g : Generation α κ) (d : StoreDisk η γ) : Prop where
  consistent : Consistent cfg (· = g) d
  listed : ∃ ids, currentIds cfg d = some ids

theorem Keeps.present (h : Keeps cfg ids d₀ d) (hd₀ : Present cfg g d₀) : Present cfg g d := by
  refine ⟨h.consistent _ hd₀.consistent, ?_⟩
  rcases h.listed with heq | heq
  · exact ⟨_, heq⟩
  · exact ⟨_, heq⟩

theorem Calm.present (h : Calm cfg d₀ d) (hd₀ : Present cfg g d₀) : Present cfg g d := by
  obtain ⟨ids, hl⟩ := hd₀.listed
  exact ((Keeps.refl hl).calm h).present hd₀

/-- A publication that succeeds leaves its generation on the disk. -/
theorem wp_publish_faulty (hm : ∀ limit d f, (d.entries .current).isSome = true →
      may (.readFile .current limit) d f → f.error.kind ≠ .notFound)
    (hg : cfg.accepts g = true) :
    wp (cfg.faultySem may) (fun x d' => x = .ok () → Present cfg g d') (fun _ => True)
      (publish cfg g) d := by
  have hf : ∀ (e : StoreError) (t : StoreDisk η γ),
      (.error e : Except StoreError Unit) = .ok () → Present cfg g t := by
    intro e t he
    cases he
  unfold publish
  dsimp only
  split
  next => exact ⟨hf _ _, trivial⟩
  next hsi =>
    have hs := stored_generation hg hsi
    refine wp_bind_any (fun _ => trivial) hf fun _ d₁ => ?_
    refine wp_bind (wp_publishFile_faulty (by exact not_false) (by simp) rfl (fun _ _ => trivial) ?_
      fun _ _ _ _ e d' _ => hf e d')
    intro d₂ _ hb
    refine wp_bind_spares .refl (spares_publishExport _ g) returns_true (fun _ _ => trivial)
      (fun e t _ => hf e t) fun _ d₃ _ hd₃ => ?_
    refine wp_bind_spares hd₃ (all_readManifest trivial) returns_readManifest (fun _ _ => trivial)
      (fun e t _ => hf e t) fun ids d₄ hid hd₄ => ?_
    refine wp_bind_spares hd₄ (all_findPrevious (fun _ _ => trivial) ids) (returns_findPrevious ids)
      (fun _ _ => trivial) (fun e t _ => hf e t) fun previous d₅ hp hd₅ => ?_
    have hw : Whole cfg (· = g) d₅ (cfg.digest (cfg.generation g)) :=
      hs.whole (hb ▸ hd₅.possible trivial)
    have hli := lists_published (g := g) fun i hi => hid i (hp i hi)
    refine wp_bind (wp_publishFile_faulty (by exact not_false) (by simp) rfl (fun _ _ => trivial) ?_
      fun _ _ _ _ e d' _ => hf e d')
    intro d₆ hr hcu
    have hc := committed_of_manifest hr hcu hli hw
    have hl : currentIds cfg d₆ = some _ := hli.listed (List.cons.inj hcu).1
    have hpr : Present cfg g d₆ := ⟨hc.consistent, _, hl⟩
    exact wp_prune_faulty hm (.refl hl) hc.current hl (fun _ _ => trivial)
      fun x d' hd' _ => hd'.present hpr

end

end Runewarp.ServerCertificate
