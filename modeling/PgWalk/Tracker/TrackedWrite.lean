import Mathlib.Data.Finset.Card
import PgWalk.Wal.Request

/-! A request while it is tracked: what of it is still pending and what waits to be written. -/

namespace PgWalk

structure FailureEntry where
  retries : Nat
  downStreamDownRetries : Nat
deriving DecidableEq

/-- A tracked request; every field's zero value is what is allocated. -/
structure TrackedWriteRequest (V : Type) where
  point : CommitPoint
  write : Option (WriteRequest V)
  size : Nat
  pending : Finset Nat
  -- Each offset that has failed is filed once.
  failures : List (Nat × FailureEntry)
  queued : List (WriteRequest V)
  released : Bool

namespace TrackedWriteRequest

variable {V : Type}

/-- A request's offsets, where an empty one has the single entry zero. -/
def offsets (write : WriteRequest V) : Finset Nat :=
  if write.entries.isEmpty then {0} else (write.entries.map WriteEntry.offset).toFinset

/-- Track a request all of whose entries are pending. -/
def newTrackedWriteRequest (write : WriteRequest V) : TrackedWriteRequest V where
  point := ⟨write.lsn, write.xid⟩
  write := some write
  size := write.size
  pending := offsets write
  failures := []
  queued := []
  released := false

variable (tw : TrackedWriteRequest V)

def hasPendingEntries (write : WriteRequest V) : Bool :=
  if tw.pending.card = 0 then false
  else if write.entries.isEmpty then decide (0 ∈ tw.pending)
  else write.entries.any fun entry => entry.offset ∈ tw.pending

/-- Queue a write of the request, unless none of its entries is pending. -/
def queueWrite (write : WriteRequest V) : Option (TrackedWriteRequest V) :=
  if tw.released || !tw.hasPendingEntries write then none
  else some { tw with queued := tw.queued ++ [write] }

def clearQueued : TrackedWriteRequest V := { tw with queued := [] }

def popQueuedWrite : Option (WriteRequest V × TrackedWriteRequest V) :=
  match tw.queued with
  | [] => none
  | write :: rest => some (write, { tw with queued := rest })

/-- Mark entries as written or skipped. -/
def ack (offsets : List Nat) : TrackedWriteRequest V :=
  { tw with pending := tw.pending \ offsets.toFinset }

def isAcknowledged : Bool := tw.pending.card = 0

def hasFailures : Bool := !tw.failures.isEmpty

def getFailedEntry (offset : Nat) (reason : WriterError) : FailureEntry × TrackedWriteRequest V :=
  match tw.failures.lookup offset with
  | none =>
    -- A first failure uses up a retry whatever its reason.
    let failEntry : FailureEntry := ⟨1, if reason.isDownStreamDown then 1 else 0⟩
    (failEntry, { tw with failures := tw.failures ++ [(offset, failEntry)] })
  | some failEntry =>
    let failEntry : FailureEntry :=
      if reason.isDownStreamDown then
        { failEntry with downStreamDownRetries := failEntry.downStreamDownRetries + 1 }
      else { failEntry with retries := failEntry.retries + 1 }
    (failEntry, { tw with
      failures := tw.failures.map fun item =>
        if item.1 = offset then (offset, failEntry) else item })

def retryWrite (offset : Nat) : Option (WriteRequest V) :=
  match tw.write with
  | none => none
  | some write =>
    if offset ∉ tw.pending then none
    else
      match write.getEntryByOffset offset with
      | none => none
      | some writeEntry => some {
          entries := [writeEntry]
          lsn := write.lsn
          xid := write.xid
          commitTime := write.commitTime
          isSnapshot := false }

/-- The whole request, while something of it is pending. -/
def fullWrite : Option (WriteRequest V) :=
  match tw.write with
  | none => none
  | some write => if tw.released || !tw.hasPendingEntries write then none else some write

/-- Give back what the request holds; return what was queued and held. -/
def release : TrackedWriteRequest V × Nat × List (WriteEntry V) :=
  if tw.released then (tw, 0, [])
  else
    ({ tw with write := none, pending := ∅, failures := [], queued := [], released := true },
      tw.queued.length, (tw.write.map WriteRequest.entries).getD [])

/-- Some entry of a request is pending exactly when one of its offsets is. -/
theorem hasPendingEntries_iff (write : WriteRequest V) :
    tw.hasPendingEntries write = true ↔ ∃ offset ∈ offsets write, offset ∈ tw.pending := by
  -- An empty request counts as one entry with number zero.
  cases entries : write.entries with
  | nil =>
    have member : 0 ∈ tw.pending → tw.pending ≠ ∅ := fun pending => Finset.ne_empty_of_mem pending
    simpa [hasPendingEntries, offsets, entries] using member
  | cons first rest =>
    have member : ∀ offset ∈ tw.pending, tw.pending ≠ ∅ := fun _ => Finset.ne_empty_of_mem
    simp only [hasPendingEntries, offsets, entries, Finset.card_eq_zero, List.isEmpty_cons]
    constructor
    · intro found
      split at found
      · cases found
      · obtain ⟨entry, listed, pending⟩ := List.any_eq_true.mp found
        refine ⟨entry.offset, ?_, of_decide_eq_true pending⟩
        exact List.mem_toFinset.mpr (List.mem_map_of_mem listed)
    · rintro ⟨offset, listed, pending⟩
      obtain ⟨entry, stored, rfl⟩ := List.mem_map.mp (List.mem_toFinset.mp listed)
      rw [if_neg (member entry.offset pending)]
      exact List.any_eq_true.mpr ⟨entry, stored, decide_eq_true pending⟩

theorem getFailedEntry_eq (offset : Nat) (reason : WriterError) :
    ∃ failures, (tw.getFailedEntry offset reason).2 = { tw with failures := failures } := by
  simp only [getFailedEntry]
  split <;> exact ⟨_, rfl⟩

variable {next tw : TrackedWriteRequest V} {write : WriteRequest V}

theorem queueWrite_frame (queued : tw.queueWrite write = some next) :
    next.point = tw.point ∧ next.pending = tw.pending := by
  simp only [queueWrite] at queued
  split at queued
  · cases queued
  · cases queued
    exact ⟨rfl, rfl⟩

theorem popQueuedWrite_eq_some (popped : tw.popQueuedWrite = some (write, next)) :
    ∃ rest, tw.queued = write :: rest ∧ next = { tw with queued := rest } := by
  simp only [popQueuedWrite] at popped
  split at popped
  · cases popped
  · rename_i rest queued
    cases popped
    exact ⟨rest, queued, rfl⟩

theorem release_frame (acknowledged : tw.isAcknowledged = true) :
    tw.release.1.point = tw.point ∧ tw.release.1.pending = tw.pending := by
  have none : tw.pending = ∅ := Finset.card_eq_zero.mp (of_decide_eq_true acknowledged)
  simp only [release]
  split
  · exact ⟨rfl, rfl⟩
  · exact ⟨rfl, none.symm⟩

theorem queueWrite_new (write : WriteRequest V) :
    (newTrackedWriteRequest write).queueWrite write =
      some { newTrackedWriteRequest write with queued := [write] } := by
  have pending : (newTrackedWriteRequest write).hasPendingEntries write = true := by
    cases entries : write.entries with
    | nil => simp [hasPendingEntries, newTrackedWriteRequest, offsets, entries]
    | cons first rest =>
      simp [hasPendingEntries, newTrackedWriteRequest, offsets, entries]
  simp only [queueWrite, pending]
  rfl

end TrackedWriteRequest

end PgWalk
