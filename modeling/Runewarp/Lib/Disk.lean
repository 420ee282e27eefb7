import Mathlib.Data.List.Dedup
import Mathlib.Logic.Function.Basic

/-!
# Files that are durable after a sync

A disk is a set of named files in directories.  What is written to a file is durable
once the file is synced, and what is done to a name (a file is created, renamed or
removed) is durable once its directory is synced.  A rename is atomic: the new name has
the old file or the new one.

Until its directory is synced a name may come back, after a power loss, with any of the
values it has had since; `possible` lists these with the present one first.  A file that
was not synced may come back with any contents.  When only the process ends, all is as
it was.
-/

structure File (γ : Type) where
  content : γ
  synced : Bool
deriving DecidableEq

/-- The files with names `π` and contents `γ`. -/
structure Disk (π γ : Type) where
  entries : π → Option (File γ) := fun _ => none
  /-- What each name has had since its directory was last synced. -/
  old : π → List (Option (File γ)) := fun _ => []
  /-- The names that have been used. -/
  names : List π := []

/-- What a power loss leaves of a disk: which of its possible values each name has, and
what is in the files that were not synced. -/
structure Loss (π γ : Type) where
  pick : π → Nat
  torn : π → γ

namespace Disk

variable {π δ γ : Type} {d : Disk π γ} {p q : π}

/-- What a name may have after a power loss. -/
def possible (d : Disk π γ) (p : π) : List (Option (File γ)) := d.entries p :: d.old p

theorem possible_subset {d' : Disk π γ} (he : d'.entries p = d.entries p)
    (hold : d'.old p ⊆ d.old p) : d'.possible p ⊆ d.possible p := by
  rw [possible, possible, he]
  exact List.cons_subset_cons _ hold

variable [DecidableEq π]

/-- A name gets a new value. -/
def set (d : Disk π γ) (p : π) (value : Option (File γ)) : Disk π γ where
  entries := Function.update d.entries p value
  old := Function.update d.old p (d.possible p)
  names := p :: d.names

def write (d : Disk π γ) (p : π) (content : γ) : Disk π γ := d.set p (some ⟨content, false⟩)

def remove (d : Disk π γ) (p : π) : Disk π γ := d.set p none

def rename (d : Disk π γ) (source target : π) : Disk π γ :=
  (d.set target (d.entries source)).set source none

/-- The file that has a name is synced. -/
def sync (d : Disk π γ) (p : π) : Disk π γ :=
  { d with entries := Function.update d.entries p ((d.entries p).map ({ · with synced := true })) }

/-- The names of a directory are synced. -/
def syncDirectory [DecidableEq δ] (directory : π → δ) (d : Disk π γ) (dir : δ) : Disk π γ :=
  { d with old := fun p => if directory p = dir then [] else d.old p }

/-- The names of a directory. -/
def list [DecidableEq δ] (directory : π → δ) (d : Disk π γ) (dir : δ) : List π :=
  (d.names.filter fun p => decide (directory p = dir) && (d.entries p).isSome).dedup

omit [DecidableEq π] in
/-- A power loss. -/
def lose (d : Disk π γ) (loss : Loss π γ) : Disk π γ where
  entries := fun p =>
    ((d.possible p).getD (loss.pick p) (d.entries p)).map fun f =>
      if f.synced then f else ⟨loss.torn p, true⟩
  names := d.names

/-! ## What the operations do to the possible values -/

@[simp] theorem entries_set : (d.set p v).entries p = v := Function.update_self ..

@[simp] theorem entries_set_of_ne (h : q ≠ p) : (d.set p v).entries q = d.entries q :=
  Function.update_of_ne h ..

@[simp] theorem possible_set : (d.set p v).possible p = v :: d.possible p := by
  simp [possible, set]

@[simp] theorem possible_set_of_ne (h : q ≠ p) : (d.set p v).possible q = d.possible q := by
  simp [possible, set, h]

theorem entries_rename (h : q ≠ p) : (d.rename p q).entries q = d.entries p := by
  rw [rename, entries_set_of_ne h, entries_set]

section

variable [DecidableEq δ] {directory : π → δ} {dir : δ}

omit [DecidableEq π] in
theorem old_syncDirectory (h : directory p = dir) : (d.syncDirectory directory dir).old p = [] :=
  if_pos h

omit [DecidableEq π] in
theorem old_syncDirectory_of_ne (h : directory p ≠ dir) :
    (d.syncDirectory directory dir).old p = d.old p :=
  if_neg h

omit [DecidableEq π] in
theorem possible_syncDirectory (h : directory p = dir) :
    (d.syncDirectory directory dir).possible p = [d.entries p] := by
  rw [possible, old_syncDirectory h]
  rfl

end

theorem sync_of_synced (h : ∀ f, d.entries p = some f → f.synced = true) : d.sync p = d := by
  have heq : (d.entries p).map ({ · with synced := true }) = d.entries p := by
    cases hp : d.entries p with
    | none => rfl
    | some f =>
      have hf := h f hp
      rcases f with ⟨content, synced⟩
      cases hf
      rfl
  simp [sync, heq]

@[simp] theorem entries_sync : (d.sync p).entries p =
    (d.entries p).map ({ · with synced := true }) :=
  Function.update_self ..

@[simp] theorem possible_sync_of_ne (h : q ≠ p) : (d.sync p).possible q = d.possible q := by
  simp [possible, sync, h]

omit [DecidableEq π] in
/-- A power loss leaves a name with one of its values, if these were synced. -/
theorem possible_lose_subset {loss : Loss π γ}
    (h : ∀ f, some f ∈ d.possible p → f.synced = true) :
    (d.lose loss).possible p ⊆ d.possible p := by
  intro v hv
  have hm : (d.possible p).getD (loss.pick p) (d.entries p) ∈ d.possible p := by
    rw [List.getD_eq_getElem?_getD]
    cases hp : (d.possible p)[loss.pick p]? with
    | none => exact .head _
    | some w => exact List.mem_of_getElem? hp
  have hva : v = ((d.possible p).getD (loss.pick p) (d.entries p)).map fun f =>
      if f.synced then f else ⟨loss.torn p, true⟩ :=
    List.mem_singleton.mp hv
  generalize (d.possible p).getD (loss.pick p) (d.entries p) = w at hm hva
  cases w with
  | none => rwa [hva]
  | some f =>
    rw [Option.map_some, if_pos (h f hm)] at hva
    rwa [hva]

end Disk
