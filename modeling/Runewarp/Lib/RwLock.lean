import Mathlib.Data.List.Basic

/-!
# Readers-writer locks

The state of a readers-writer lock is the list of its read holders and its
write holder.  A value carries the exclusion it maintains, so a state in which
a writer and a reader hold the lock together cannot be built.

Acquiring is partial.  `none` says the caller has to wait, and the lock makes
no promise on who is served first: every order a fair lock can produce is an
order of these operations.
-/

/-- A readers-writer lock held by names of type `ι`. -/
structure RwLock (ι : Type) where
  /-- The read guards, one entry per guard. -/
  readers : List ι
  /-- The write guard. -/
  writer : Option ι
  /-- A write guard excludes read guards. -/
  exclusive : writer ≠ none → readers = []

namespace RwLock

variable {ι : Type}

/-- The lock nobody holds. -/
def unlocked : RwLock ι := ⟨[], none, fun _ => rfl⟩

/-- Take a read guard. -/
def read (l : RwLock ι) (i : ι) : Option (RwLock ι) :=
  match l.writer with
  | none => some ⟨i :: l.readers, none, fun h => absurd rfl h⟩
  | some _ => none

/-- Take the write guard. -/
def write (l : RwLock ι) (i : ι) : Option (RwLock ι) :=
  match l.writer, l.readers with
  | none, [] => some ⟨[], some i, fun _ => rfl⟩
  | _, _ => none

/-- Drop a read guard of `i`. -/
def releaseRead [DecidableEq ι] (l : RwLock ι) (i : ι) : RwLock ι :=
  ⟨l.readers.erase i, l.writer, fun h => by rw [l.exclusive h]; rfl⟩

/-- Drop the write guard. -/
def releaseWrite (l : RwLock ι) : RwLock ι := ⟨l.readers, none, fun h => absurd rfl h⟩

end RwLock
