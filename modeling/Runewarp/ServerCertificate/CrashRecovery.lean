import Runewarp.ServerCertificate.StoreConsistency

/-!
# Recovery after crashes

Owners of the store follow one another.  Each opens the store, stores accounts and
certificates, and may crash at any filesystem call, in `open_with_io` as well as in a
publication.  The next `open_with_io` that is not interrupted succeeds, and `load` then
gives the generation that was committed last or the one whose publication was
interrupted, as a whole.
-/

namespace Runewarp.ServerCertificate

open Program

section

variable {η α κ γ : Type} [DecidableEq η] {cfg : StoreConfig η α κ γ} {d d' : StoreDisk η γ}
  {allowed : Generation α κ → Prop} {g g' : Generation α κ} {id : η} {f : File γ}
  {C : StoreDisk η γ → Prop} {Q : Except StoreError Unit → StoreDisk η γ → Prop}

/-! ## The calls -/

omit [DecidableEq η] in
/-- A disk without anything that may come back has come to one generation. -/
theorem Settled.committed (h : Settled cfg allowed d) (hold : ∀ i, d.old (.blob i) = []) :
    ∃ g, allowed g ∧ Committed cfg g d := by
  have hc : d.possible .current = [d.entries .current] := by rw [Disk.possible, h.current]
  have hb : ∀ i, d.possible (.blob i) = [d.entries (.blob i)] := by
    intro i
    rw [Disk.possible, hold i]
  have hl := h.consistent _ (.head _)
  cases he : d.entries .current with
  | none =>
    rw [he] at hl
    refine ⟨cfg.empty, hl, ⟨fun v hv => ?_, h.current⟩⟩
    rw [hc, he, List.mem_singleton] at hv
    subst hv
    exact rfl
  | some f =>
    rw [he] at hl
    obtain ⟨id, rest, hli, hwh⟩ := hl
    obtain ⟨f', g, hf', hs, hg⟩ := hwh _ (.head _)
    refine ⟨g, hg, ⟨fun v hv => ?_, h.current⟩⟩
    rw [hc, he, List.mem_singleton] at hv
    subst hv
    refine ⟨id, rest, hli, fun w hw => ?_⟩
    rw [hb, List.mem_singleton] at hw
    exact ⟨f', g, hw.trans hf', hs, rfl⟩

theorem wp_openWithIo [DecidableEq γ] {valid : η → κ → Bool} (h : Consistent cfg allowed d)
    (hC : ∀ d', Consistent cfg allowed d' → C d')
    (hQ : ∀ g d', allowed g → Committed cfg g d' → shown cfg d' = shown cfg d → Q (.ok ()) d') :
    wp cfg.sem Q C (openWithIo cfg valid) d := by
  refine wp_bind (wp_load h (hC d h) fun _ _ _ => ?_)
  refine wp_bind (wp_recoverManifest h hC fun d₁ hd₁ hs₁ => ?_)
  refine wp_bind (wp_syncCommitted hd₁ hC fun d₂ hd₂ hold hs₂ => ?_)
  obtain ⟨g, hg, hc⟩ := hd₂.committed hold
  refine wp_prune hc (fun d' hd => hC d' (hd.consistent.weaken ?_)) fun d' hd' hs₃ =>
    hQ g d' hg hd' (hs₃.trans (hs₂.trans hs₁))
  rintro _ rfl
  exact hg

omit [DecidableEq η] in
/-- A whole generation may take the place of what has its name. -/
theorem Consistent.replaceBlob (h : Consistent cfg allowed d) (hr : Replaces (.blob id) f d d')
    (hs : Stored cfg id g f) (hg : allowed g) : Consistent cfg allowed d' := by
  intro v hv
  have hl := h v (hr.possible .current trivial (by simp) hv)
  cases v with
  | none => exact hl
  | some m =>
    obtain ⟨i, rest, hli, hwh⟩ := hl
    refine ⟨i, rest, hli, fun w hw => ?_⟩
    by_cases hi : i = id
    · subst hi
      rcases List.mem_cons.mp (hr.target trivial hw) with rfl | hw
      · exact ⟨f, g, rfl, hs, hg⟩
      · exact hwh w hw
    · exact hwh w (hr.possible (.blob i) trivial (by simpa using hi) hw)

theorem wp_findPrevious {Q : Except StoreError (Option η) → StoreDisk η γ → Prop} (hC : C d) :
    ∀ {ids : List η}, (∀ previous : Option η, (∀ i ∈ previous, i ∈ ids) → Q (.ok previous) d) →
      wp cfg.sem Q C (findPrevious cfg id ids) d
  | [], hQ => ⟨hQ none (by simp), hC⟩
  | other :: ids, hQ => by
      have hr : wp cfg.sem Q C (findPrevious cfg id ids) d :=
        wp_findPrevious hC fun previous hp =>
          hQ previous fun i hi => .tail _ (hp i hi)
      unfold findPrevious
      split
      next => exact hr
      next =>
        refine wp_bind (wp_attempt (wp_readGeneration hC ?_ fun _ _ => hr))
        intro g _
        exact ⟨hQ (some other) (by simp), hC⟩

/-- The generation that is being published is durable under its name. -/
structure Prepared (cfg : StoreConfig η α κ γ) (g g' : Generation α κ) (d : StoreDisk η γ) :
    Prop where
  consistent : Consistent cfg (fun x => x = g ∨ x = g') d
  whole : Whole cfg (· = g') d (cfg.digest (cfg.generation g'))

omit [DecidableEq η] in
theorem Prepared.narrow (h : Prepared cfg g g' d) (hn : Narrows d d') : Prepared cfg g g' d' :=
  ⟨h.consistent.narrow hn, h.whole.mono (fun _ h => h) (hn.possible trivial)⟩

theorem wp_commit (h : Prepared cfg g g' d)
    (hC : ∀ d', Consistent cfg (fun x => x = g ∨ x = g') d' → C d')
    (hQ : ∀ d', Committed cfg g' d' → Q (.ok ()) d') :
    wp cfg.sem Q C (do
      let previous ← findPrevious cfg (cfg.digest (cfg.generation g')) (← readManifestWithIo cfg)
      publishManifest cfg (cfg.digest (cfg.generation g') :: previous.toList)
      prune cfg) d := by
  obtain ⟨ids, hv⟩ := h.consistent.exists_visible
  have hd := hC d h.consistent
  refine wp_bind (wp_readManifest hv hd ?_)
  refine wp_bind (wp_findPrevious hd fun previous hp => ?_)
  have hl := lists_published (g := g') fun i hi => hv.valid.2 i (hp i hi)
  have hw : Whole cfg (fun x => x = g ∨ x = g') d (cfg.digest (cfg.generation g')) :=
    h.whole.mono (fun _ h => .inr h) (List.Subset.refl _)
  refine wp_bind (wp_publishFile (by exact not_false) (by simp) rfl
    (fun d' hr => hC d' (h.consistent.replaceManifest hr hl hw)) ?_)
  intro d₁ hr hcu
  -- The new manifest is the only one that may be there.
  have hc : Committed cfg g' d₁ := committed_of_manifest hr hcu hl h.whole
  exact wp_prune hc (fun d' hd' => hC d' (hd'.consistent.weaken fun _ => .inr))
    fun d' hd' _ => hQ d' hd'

theorem wp_publish (h : Committed cfg g d) (hg' : cfg.accepts g' = true)
    (hC : ∀ d', Consistent cfg (fun x => x = g ∨ x = g') d' → C d')
    (hQ : ∀ d', Committed cfg g' d' → Q (.ok ()) d')
    (hf : maxStateBytes < cfg.size (cfg.generation g') → ∀ e, Q (.error e) d) :
    wp cfg.sem Q C (publish cfg g') d := by
  have hw : ∀ d', Committed cfg g d' → Consistent cfg (fun x => x = g ∨ x = g') d' :=
    fun d' hd' => hd'.consistent.weaken fun _ => .inl
  unfold publish
  dsimp only
  split
  next hsi => exact ⟨hf hsi _, hC d (hw d h)⟩
  next hsi =>
    have hs := stored_generation hg' hsi
    refine wp_bind (wp_prune h (fun d' hd' => hC d' (hw d' hd')) fun d₁ hd₁ _ => ?_)
    refine wp_bind (wp_publishFile (by exact not_false) (by simp) rfl
      (fun d' hr => hC d' ((hw d₁ hd₁).replaceBlob hr hs (.inr rfl))) ?_)
    intro d₂ hr hb
    have hp : Prepared cfg g g' d₂ :=
      ⟨(hw d₁ hd₁).replaceBlob hr hs (.inr rfl),
        hs.whole (hb ▸ List.Subset.refl _)⟩
    have hre : ∀ d', Narrows d₂ d' → wp cfg.sem Q C _ d' :=
      fun d' hn => wp_commit (hp.narrow hn) hC hQ
    unfold publishExport
    split
    next c _ =>
      exact wp_bind (wp_publishExport (fun d' hn => hC d' (hp.narrow hn).consistent) hre)
    next => exact hre d₂ .refl

/-- `store_account` checks the account first. -/
def Update.accepted (cfg : StoreConfig η α κ γ) : Update α κ → Bool
  | .account a => cfg.accountOk a
  | .certificate _ => true

omit [DecidableEq η] in
theorem Settled.accepts (h : Committed cfg g d) : cfg.accepts g = true := by
  rcases h.consistent.visible with ⟨-, hg⟩ | ⟨id, rest, -, hw⟩
  · rw [← hg]
    simp [StoreConfig.accepts, StoreConfig.empty]
  · obtain ⟨f, g', -, hs, rfl⟩ := hw _ (.head _)
    exact hs.accepted

omit [DecidableEq η] in
theorem Update.accepts_apply {u : Update α κ} (hg : cfg.accepts g = true)
    (hu : u.accepted cfg = true) : cfg.accepts (u.apply g) = true := by
  simp only [StoreConfig.accepts, Bool.and_eq_true] at hg ⊢
  cases u with
  | account a => exact ⟨hg.1, hu⟩
  | certificate c => exact hg

theorem wp_store {u : Update α κ}
    {Q : Except StoreError (Generation α κ × Except StoreError Unit) → StoreDisk η γ → Prop}
    (h : Committed cfg g d) (hu : u.accepted cfg = true)
    (hC : ∀ d', Consistent cfg (fun x => x = g ∨ x = u.apply g) d' → C d')
    (hQ : ∀ d', Committed cfg (u.apply g) d' → Q (.ok (u.apply g, .ok ())) d')
    (hf : maxStateBytes < cfg.size (cfg.generation (u.apply g)) →
      ∀ e, Q (.ok (u.apply g, .error e)) d) :
    wp cfg.sem Q C (store cfg u) d := by
  have hd := hC d (h.consistent.weaken fun _ => .inl)
  refine wp_bind (wp_load h.consistent hd ?_)
  rintro g' rfl -
  refine wp_bind (wp_attempt (wp_publish h (u.accepts_apply h.accepts hu) hC ?_ ?_))
  · exact fun d' hd' => ⟨hQ d' hd', hC d' (hd'.consistent.weaken fun _ => .inr)⟩
  · exact fun hs e => ⟨hf hs e, hd⟩

end

/-! ## Successive owners -/

/-- The call that is under way. -/
inductive Running (η α κ γ : Type) where
  | idle
  | opening (rest : StoreM η γ Unit)
  | storing (rest : StoreM η γ (Generation α κ × Except StoreError Unit))

/-- The store over the time of its owners. -/
structure Session (η α κ γ : Type) where
  disk : StoreDisk η γ := {}
  running : Running η α κ γ := .idle
  /-- There is an owner with an open store that has not failed. -/
  opened : Bool := false
  /-- What was committed last. -/
  committed : Generation α κ
  /-- What is being published, or was when its owner crashed. -/
  publishing : Option (Generation α κ) := none

namespace Session

section

variable {η α κ γ : Type}

def start (cfg : StoreConfig η α κ γ) : Session η α κ γ := { committed := cfg.empty }

inductive Action (η α κ γ : Type) where
  | openStore (valid : η → κ → Bool)
  | store (u : Update α κ)
  /-- The next filesystem call of the call that is under way, or its return. -/
  | proceed
  /-- The process ends, with a power loss or without one. -/
  | crash (loss : Option (Loss (Path η) γ))

/-- What is on the disk after a crash. -/
def crashed (s : Session η α κ γ) : Option (Loss (Path η) γ) → StoreDisk η γ
  | none => s.disk
  | some loss => s.disk.lose loss

variable [DecidableEq η] (cfg : StoreConfig η α κ γ)

/-- What `load` gives. -/
def loaded (s : Session η α κ γ) : Generation α κ :=
  match ((load cfg).run (perform cfg.size) s.disk).1 with
  | .ok g => g
  | .error _ => s.committed

def proceed (s : Session η α κ γ) : Option (Session η α κ γ) :=
  match s.running with
  | .idle => none
  | .opening (.call i next) =>
    some { s with
      disk := (perform cfg.size i s.disk).2
      running := .opening (next (perform cfg.size i s.disk).1) }
  | .opening (.ok _) =>
    some { s with
      running := .idle
      opened := true
      committed := s.loaded cfg
      publishing := none }
  | .opening (.fail _) => some { s with running := .idle }
  | .storing (.call i next) =>
    some { s with
      disk := (perform cfg.size i s.disk).2
      running := .storing (next (perform cfg.size i s.disk).1) }
  | .storing (.ok (g, .ok _)) =>
    some { s with running := .idle, committed := g, publishing := none }
  -- `failed` is set.
  | .storing (.ok (_, .error _)) =>
    some { s with running := .idle, opened := false, publishing := none }
  | .storing (.fail _) => some { s with running := .idle, publishing := none }

variable [DecidableEq γ]

def step (s : Session η α κ γ) : Action η α κ γ → Option (Session η α κ γ)
  | .openStore valid =>
    match s.running with
    | .idle => some { s with running := .opening (openWithIo cfg valid) }
    | _ => none
  | .store u =>
    match s.running with
    | .idle =>
      if s.opened && u.accepted cfg then
        some { s with
          running := .storing (ServerCertificate.store cfg u)
          publishing := some (u.apply s.committed) }
      else none
    | _ => none
  | .proceed => s.proceed cfg
  | .crash loss => some { s with running := .idle, opened := false, disk := s.crashed loss }

def system : Lts (Session η α κ γ) (Action η α κ γ) := ⟨step cfg⟩

end

section

variable {η α κ γ : Type} {cfg : StoreConfig η α κ γ} {s s' : Session η α κ γ}
  {g : Generation α κ}

/-- The generations that may be there after a crash. -/
def Allowed (s : Session η α κ γ) (g : Generation α κ) : Prop :=
  g = s.committed ∨ s.publishing = some g

variable [DecidableEq η]

/-- The disk is consistent now and at every call that is still to come. -/
def Sound (cfg : StoreConfig η α κ γ) (s : Session η α κ γ) : Prop :=
  match s.running with
  | .idle =>
    Consistent cfg s.Allowed s.disk ∧
      (s.opened = true → Committed cfg s.committed s.disk ∧ s.publishing = none)
  | .opening rest =>
    wp cfg.sem (fun x d => x = .ok () ∧ ∃ g, s.Allowed g ∧ Committed cfg g d)
      (Consistent cfg s.Allowed) rest s.disk
  | .storing rest =>
    wp cfg.sem (fun x d =>
        (∃ g, x = .ok (g, .ok ()) ∧ Committed cfg g d) ∨
          ∃ g e, x = .ok (g, .error e) ∧ Committed cfg s.committed d)
      (Consistent cfg s.Allowed) rest s.disk

theorem sound_start : Sound cfg (start cfg) := by
  refine ⟨fun v hv => ?_, by simp [start]⟩
  obtain rfl : v = none := List.mem_singleton.mp hv
  exact .inl rfl

theorem Sound.consistent (h : Sound cfg s) : Consistent cfg s.Allowed s.disk := by
  unfold Sound at h
  split at h
  next => exact h.1
  next => exact h.now
  next => exact h.now

theorem load_of_committed {d : StoreDisk η γ} (h : Committed cfg g d) :
    ((load cfg).run (perform cfg.size) d).1 = .ok g := by
  have hl : wp cfg.sem (fun x _ => x = .ok g) (fun _ => True) (load cfg) d :=
    wp_load h.consistent trivial fun g' hg' _ => by rw [hg']
  exact hl.run

theorem loaded_eq (h : Committed cfg g s.disk) : s.loaded cfg = g := by
  simp only [loaded, load_of_committed h]

theorem Sound.proceed (h : Sound cfg s) (hs : s.proceed cfg = some s') : Sound cfg s' := by
  unfold Session.proceed at hs
  unfold Sound at h
  split at hs
  next => cases hs
  next i next hr =>
    cases hs
    rw [hr] at h
    exact h.2 _ _ rfl
  next hr =>
    cases hs
    rw [hr] at h
    obtain ⟨⟨-, g, -, hg⟩, -⟩ := h
    rw [← loaded_eq hg] at hg
    exact ⟨hg.consistent.weaken fun _ h => .inl h, fun _ => ⟨hg, rfl⟩⟩
  next hr =>
    rw [hr] at h
    cases h.1.1
  next i next hr =>
    cases hs
    rw [hr] at h
    exact h.2 _ _ rfl
  next g _ hr =>
    cases hs
    rw [hr] at h
    rcases h.1 with ⟨g', heq, hg⟩ | ⟨g', e, heq, -⟩
    · cases heq
      exact ⟨hg.consistent.weaken fun _ h => .inl h, fun _ => ⟨hg, rfl⟩⟩
    · cases heq
  next hr =>
    cases hs
    rw [hr] at h
    rcases h.1 with ⟨g', heq, -⟩ | ⟨g', e, heq, hg⟩
    · cases heq
    · exact ⟨hg.consistent.weaken fun _ h => .inl h, by simp⟩
  next hr =>
    rw [hr] at h
    rcases h.1 with ⟨g', heq, -⟩ | ⟨g', e, heq, -⟩
    · cases heq
    · cases heq

theorem Sound.crashed (h : Sound cfg s) (loss : Option (Loss (Path η) γ)) :
    Consistent cfg s.Allowed (s.crashed loss) := by
  cases loss with
  | none => exact h.consistent
  | some loss => exact h.consistent.lose loss

variable [DecidableEq γ]

theorem Sound.step {a : Action η α κ γ} (h : Sound cfg s) (hs : s.step cfg a = some s') :
    Sound cfg s' := by
  cases a with
  | openStore valid =>
    simp only [Session.step] at hs
    split at hs
    next =>
      cases hs
      exact wp_openWithIo h.consistent (fun _ => id) fun g d hg hd _ => ⟨rfl, g, hg, hd⟩
    next => cases hs
  | store u =>
    simp only [Session.step] at hs
    split at hs
    next hi =>
      split at hs
      next hok =>
        cases hs
        simp only [Bool.and_eq_true] at hok
        unfold Sound at h
        rw [hi] at h
        obtain ⟨hc, -⟩ := h.2 hok.1
        refine wp_store hc hok.2 (fun d hd => hd.weaken ?_) ?_ ?_
        · rintro g (rfl | rfl)
          · exact .inl rfl
          · exact .inr rfl
        · exact fun d hd => .inl ⟨_, rfl, hd⟩
        · exact fun _ e => .inr ⟨_, e, rfl, hc⟩
      next => cases hs
    next => cases hs
  | proceed => exact h.proceed hs
  | crash loss =>
    cases hs
    exact ⟨h.crashed loss, by simp⟩

theorem Sound.reaches (h : Sound cfg s) (hr : (system cfg).Reaches s s') : Sound cfg s' :=
  hr.invariant (I := Sound cfg) (fun _ _ _ hu _ hs => hu.step hs) h

/-- What an `open_with_io` that is not interrupted finds after a crash. -/
structure Recovers (cfg : StoreConfig η α κ γ) (s : Session η α κ γ) (valid : η → κ → Bool)
    (d : StoreDisk η γ) : Prop where
  opens : ((openWithIo cfg valid).run (perform cfg.size) d).1 = .ok ()
  /-- The generation that was committed, or the one that was being published. -/
  loads : ∃ g, ((load cfg).run (perform cfg.size)
      ((openWithIo cfg valid).run (perform cfg.size) d).2).1 = .ok g ∧
    (g = s.committed ∨ s.publishing = some g)
  /-- At most two generations are referenced. -/
  references : ∀ f, ((openWithIo cfg valid).run (perform cfg.size) d).2.entries .current = some f →
    ∃ ids, cfg.readManifest f.content = some ids ∧ ids.length ≤ 2

theorem recovers_of_consistent {d : StoreDisk η γ} (h : Consistent cfg s.Allowed d)
    (valid : η → κ → Bool) : Recovers cfg s valid d := by
  have ho : wp cfg.sem (fun x d => x = .ok () ∧ ∃ g, s.Allowed g ∧ Committed cfg g d)
      (Consistent cfg s.Allowed) (openWithIo cfg valid) d :=
    wp_openWithIo h (fun _ => id) fun g d hg hd _ => ⟨rfl, g, hg, hd⟩
  obtain ⟨hok, g, hg, hc⟩ := ho.run
  refine ⟨hok, ⟨g, load_of_committed hc, hg⟩, fun f hf => ?_⟩
  obtain ⟨id, rest, hl, -⟩ := hc.consistent (some f) (hf ▸ (.head _))
  exact ⟨id :: rest, hl.read, hl.ids_valid.1⟩

theorem crash_recovers (hrun : (system cfg).Reaches (start cfg) s) (valid : η → κ → Bool)
    (loss : Option (Loss (Path η) γ)) : Recovers cfg s valid (s.crashed loss) :=
  recovers_of_consistent ((sound_start.reaches hrun).crashed loss) valid

end

/-- An account is committed, and the power is lost while a certificate is published: its
manifest has been renamed into place, and the rename is lost. -/
theorem crash_recovers_lost_rename :
    ∃ s, (system documentConfig).Reaches (start documentConfig) s ∧
      (s.committed.account = some 7 ∧ s.committed.certificate = none ∧
        s.publishing = some { s.committed with certificate := some 8 } ∧
        (s.disk.entries .current).map File.content = some (.manifest [808, 8])) ∧
      Recovers documentConfig s (fun _ _ => true)
        (s.crashed (some ⟨fun _ => 1, fun _ => .pem 0⟩)) := by
  have hr : ∃ s ∈ (system documentConfig).exec (start documentConfig)
      (.openStore (fun _ _ => true) :: List.replicate 9 .proceed ++
        .store (.account 7) :: List.replicate 17 .proceed ++
        .store (.certificate 8) :: List.replicate 20 .proceed),
      s.committed.account = some 7 ∧ s.committed.certificate = none ∧
        s.publishing = some { s.committed with certificate := some 8 } ∧
        (s.disk.entries .current).map File.content = some (.manifest [808, 8]) := by
    decide
  obtain ⟨s, hs, hd⟩ := hr
  exact ⟨s, .of_exec hs, hd, crash_recovers (.of_exec hs) _ _⟩

end Session

end Runewarp.ServerCertificate
