import PgWalk.Tracker.Ready

/-! The requests a tracker holds and the entries it has given back, kept as in a ledger. -/

namespace PgWalk

open List

variable {V : Type}

namespace PGBufferedLSNTracker

variable {t next : PGBufferedLSNTracker V}

/-- The entries given back at a position, in order. -/
def returnedAt (t : PGBufferedLSNTracker V) (lsn : Nat) : List (WriteEntry V) :=
  (t.releases.filter fun item => item.1 = lsn).map Prod.snd

/-- What the ledger says about the request that was put at an address. -/
structure Booked (acknowledged : List (Nat × Nat)) (t : PGBufferedLSNTracker V) (addr : Nat)
    (req : WriteRequest V) : Prop where
  lsn : (t.heap addr).point.lsn = req.lsn
  -- A request is held as a whole until all of its entries are given back at once.
  held : (t.heap addr).released = false → (t.heap addr).write = some req
  returned : (t.heap addr).released = true → t.returnedAt req.lsn = req.entries
  settled : ∀ offset ∈ TrackedWriteRequest.offsets req,
    offset ∈ (t.heap addr).pending ∨ (req.lsn, offset) ∈ acknowledged

/-- Every address holds its own request, and nothing else was given back. -/
structure Ledger (added : List (WriteRequest V)) (acknowledged : List (Nat × Nat))
    (t : PGBufferedLSNTracker V) : Prop where
  requests : ∀ addr < t.fresh, ∃ req ∈ added, Booked acknowledged t addr req
  distinct : ∀ first < t.fresh, ∀ second < t.fresh,
    (t.heap first).point.lsn = (t.heap second).point.lsn → first = second
  returned : ∀ item ∈ t.releases, ∃ addr < t.fresh,
    (t.heap addr).point.lsn = item.1 ∧ (t.heap addr).released = true

/-- Two states between which no request was acknowledged or given back. -/
structure SameHoldings (t next : PGBufferedLSNTracker V) : Prop where
  fresh : next.fresh = t.fresh
  releases : next.releases = t.releases
  heap : ∀ addr, (next.heap addr).point = (t.heap addr).point ∧
    (next.heap addr).write = (t.heap addr).write ∧
    (next.heap addr).released = (t.heap addr).released ∧
    (next.heap addr).pending = (t.heap addr).pending

namespace SameHoldings

theorem refl (t : PGBufferedLSNTracker V) : SameHoldings t t :=
  ⟨rfl, rfl, fun _ => ⟨rfl, rfl, rfl, rfl⟩⟩

theorem trans {mid : PGBufferedLSNTracker V} (first : SameHoldings t mid)
    (second : SameHoldings mid next) : SameHoldings t next where
  fresh := second.fresh.trans first.fresh
  releases := second.releases.trans first.releases
  heap addr := by
    obtain ⟨point, write, released, pending⟩ := first.heap addr
    obtain ⟨point', write', released', pending'⟩ := second.heap addr
    exact ⟨point'.trans point, write'.trans write, released'.trans released, pending'.trans pending⟩

theorem store {addr : Nat} {tw : TrackedWriteRequest V}
    (same : tw.point = (t.heap addr).point ∧ tw.write = (t.heap addr).write ∧
      tw.released = (t.heap addr).released ∧ tw.pending = (t.heap addr).pending) :
    SameHoldings t (t.store addr tw) :=
  ⟨rfl, rfl, store_heap (R := fun a b => b.point = a.point ∧ b.write = a.write ∧
    b.released = a.released ∧ b.pending = a.pending) (fun _ => ⟨rfl, rfl, rfl, rfl⟩) same⟩

theorem enqueueReadyWrite (t : PGBufferedLSNTracker V) (addr : Nat) (write : WriteRequest V) :
    SameHoldings t (t.enqueueReadyWrite addr write) := by
  rcases enqueueReadyWrite_cases t addr write with ⟨same, -⟩ | ⟨appended, -⟩
  · rw [same]
    exact refl t
  · rw [appended]
    have stored : SameHoldings t (t.store addr
        { t.heap addr with queued := (t.heap addr).queued ++ [write] }) :=
      store ⟨rfl, rfl, rfl, rfl⟩
    exact ⟨rfl, rfl, stored.heap⟩

theorem countFailure (t : PGBufferedLSNTracker V) (addr : Nat) (entry : ErrorResponseEntry) :
    SameHoldings t (t.countFailure addr entry) := by
  obtain ⟨failures, same⟩ := TrackedWriteRequest.getFailedEntry_eq (t.heap addr)
    entry.responseEntry.offset entry.reason
  exact store (by rw [same]; exact ⟨rfl, rfl, rfl, rfl⟩)

theorem processErrorEntries {entries : List ErrorResponseEntry} {acks : AckMap}
    {retries : List (RetryEntry V)} {result : ErrorResult V}
    (processed : t.processErrorEntries acks retries entries = .ok (next, result)) :
    SameHoldings t next :=
  processErrorEntries_invariant
    (fun mid addr entry same => same.trans (countFailure mid addr entry)) (.refl t) processed

theorem scheduleRetry (setTimer : Nat → Bool) (t : PGBufferedLSNTracker V)
    (entry : RetryEntry V) :
    SameHoldings t (PGBufferedLSNTracker.scheduleRetry setTimer t entry) := by
  simp only [PGBufferedLSNTracker.scheduleRetry]
  split
  · exact refl t
  · split <;> exact ⟨rfl, rfl, fun _ => ⟨rfl, rfl, rfl, rfl⟩⟩

theorem popRound {write : Option (WriteRequest V)} (popped : t.popRound = some (write, next)) :
    SameHoldings t next := by
  obtain ⟨queue, ⟨-, rfl⟩ | ⟨addr, _, rest, -, -, rfl⟩⟩ := popRound_eq_some popped
  · exact ⟨rfl, rfl, fun _ => ⟨rfl, rfl, rfl, rfl⟩⟩
  · have stored : SameHoldings t (t.store addr { t.heap addr with queued := rest }) :=
      store ⟨rfl, rfl, rfl, rfl⟩
    exact ⟨rfl, rfl, stored.heap⟩

end SameHoldings

/-- What giving back a request that is held does. -/
structure Returns (t next : PGBufferedLSNTracker V) (addr : Nat) (req : WriteRequest V) :
    Prop where
  fresh : next.fresh = t.fresh
  releases : next.releases = t.releases ++ req.entries.map fun entry => (req.lsn, entry)
  given : (next.heap addr).released = true
  points : ∀ other, (next.heap other).point = (t.heap other).point
  others : ∀ other, other ≠ addr → next.heap other = t.heap other

namespace Returns

variable {addr : Nat} {req : WriteRequest V}

theorem release (held : (t.heap addr).released = false)
    (write : (t.heap addr).write = some req) (lsn : (t.heap addr).point.lsn = req.lsn) :
    Returns t (t.release addr) addr req := by
  have others : ∀ other, other ≠ addr → (t.release addr).heap other = t.heap other := by
    intro other apart
    simp [PGBufferedLSNTracker.release, store, apart]
  refine ⟨rfl, ?_, ?_, fun other => ?_, others⟩
  · simp [PGBufferedLSNTracker.release, TrackedWriteRequest.release, held, write, lsn]
  · simp [PGBufferedLSNTracker.release, TrackedWriteRequest.release, held, store]
  · by_cases same : other = addr
    · subst same
      simp [PGBufferedLSNTracker.release, TrackedWriteRequest.release, held, store]
    · rw [others other same]

theorem returnedAt (returned : Returns t next addr req) (lsn : Nat) :
    next.returnedAt lsn = t.returnedAt lsn ++ if req.lsn = lsn then req.entries else [] := by
  simp only [PGBufferedLSNTracker.returnedAt, returned.releases, filter_append, map_append]
  by_cases same : req.lsn = lsn
  · simp [same, filter_map]
  · simp [same]

end Returns

namespace Ledger

variable {added : List (WriteRequest V)} {acknowledged : List (Nat × Nat)}

theorem start (config : RetryConfig) : Ledger [] [] (newLSNTracker config : PGBufferedLSNTracker V)
    where
  requests _ bound := absurd bound (Nat.not_lt_zero _)
  distinct _ bound := absurd bound (Nat.not_lt_zero _)
  returned := by simp [newLSNTracker]

theorem mono (ledger : Ledger added acknowledged t) {more : List (WriteRequest V)}
    {later : List (Nat × Nat)} (requests : ∀ req ∈ added, req ∈ more)
    (places : ∀ place ∈ acknowledged, place ∈ later) : Ledger more later t where
  requests addr bound := by
    obtain ⟨req, member, booked⟩ := ledger.requests addr bound
    refine ⟨req, requests req member, booked.lsn, booked.held, booked.returned, ?_⟩
    intro offset listed
    exact (booked.settled offset listed).imp_right (places _)
  distinct := ledger.distinct
  returned := ledger.returned

/-- Requests acknowledged in part and not given back stay booked. -/
theorem transfer (ledger : Ledger added acknowledged t) (fresh : next.fresh = t.fresh)
    (releases : next.releases = t.releases)
    (kept : ∀ addr, (next.heap addr).point = (t.heap addr).point ∧
      (next.heap addr).write = (t.heap addr).write ∧
      (next.heap addr).released = (t.heap addr).released)
    (settled : ∀ addr, ∀ offset ∈ (t.heap addr).pending,
      offset ∈ (next.heap addr).pending ∨ ((t.heap addr).point.lsn, offset) ∈ acknowledged) :
    Ledger added acknowledged next where
  requests addr bound := by
    rw [fresh] at bound
    obtain ⟨req, member, booked⟩ := ledger.requests addr bound
    obtain ⟨point, write, released⟩ := kept addr
    refine ⟨req, member, ?_, ?_, ?_, fun offset listed => ?_⟩
    · rw [point]
      exact booked.lsn
    · rw [released, write]
      exact booked.held
    · rw [released, returnedAt, releases]
      exact booked.returned
    · rcases booked.settled offset listed with pending | before
      · have outcome := settled addr offset pending
        rwa [booked.lsn] at outcome
      · exact .inr before
  distinct first bound second bound' equal := by
    rw [fresh] at bound bound'
    rw [(kept first).1, (kept second).1] at equal
    exact ledger.distinct first bound second bound' equal
  returned item member := by
    rw [releases] at member
    obtain ⟨addr, bound, position, released⟩ := ledger.returned item member
    obtain ⟨point, -, same⟩ := kept addr
    refine ⟨addr, ?_, ?_, ?_⟩
    · rw [fresh]
      exact bound
    · rw [point]
      exact position
    · rw [same]
      exact released

theorem same (ledger : Ledger added acknowledged t) (same : SameHoldings t next) :
    Ledger added acknowledged next := by
  refine ledger.transfer same.fresh same.releases (fun addr => ?_) fun addr offset owed => ?_
  · obtain ⟨point, write, released, -⟩ := same.heap addr
    exact ⟨point, write, released⟩
  · rw [(same.heap addr).2.2.2]
    exact .inl owed

variable {addr : Nat} {offsets : List Nat} {req : WriteRequest V}

section

variable (ledger : Ledger added acknowledged t)

include ledger

theorem returnedAt_eq_nil (bound : addr < t.fresh) (held : (t.heap addr).released = false) :
    t.returnedAt (t.heap addr).point.lsn = [] := by
  -- What was given back belongs to a released request.
  rw [returnedAt, map_eq_nil_iff, filter_eq_nil_iff]
  intro item member
  obtain ⟨other, bound', position, released⟩ := ledger.returned item member
  simp only [decide_eq_true_eq]
  intro equal
  obtain rfl := ledger.distinct other bound' addr bound (position.trans equal)
  rw [held] at released
  cases released

theorem acked (addr : Nat)
    (places : ∀ offset ∈ offsets, ((t.heap addr).point.lsn, offset) ∈ acknowledged) :
    Ledger added acknowledged (t.store addr ((t.heap addr).ack offsets)) := by
  -- An entry is still pending, or it is acknowledged now.
  refine ledger.transfer rfl rfl (fun other => ?_) fun other offset owed => ?_
  · by_cases here : other = addr
    · subst here
      simp [store, TrackedWriteRequest.ack]
    · simp [store, here]
  · by_cases here : other = addr
    · subst here
      by_cases named : offset ∈ offsets
      · exact .inr (places offset named)
      · exact .inl (by simp [store, TrackedWriteRequest.ack, owed, named])
    · exact .inl (by simpa [store, here] using owed)

/-- A request that is held and has nothing pending is given back. -/
theorem returns (bound : addr < t.fresh) (done : (t.heap addr).pending = ∅)
    (booked : Booked acknowledged t addr req) (member : req ∈ added)
    (nothing : t.returnedAt req.lsn = []) (returned : Returns t next addr req) :
    Ledger added acknowledged next := by
  -- Only the request at this address is given back.
  refine ⟨fun other inside => ?_, fun first inside second inside' equal => ?_,
    fun item listed => ?_⟩
  · rw [returned.fresh] at inside
    by_cases same : other = addr
    · subst same
      refine ⟨req, member, ?_, ?_, fun _ => ?_, fun offset listed => ?_⟩
      · rw [returned.points]
        exact booked.lsn
      · rw [returned.given]
        intro held
        cases held
      · rw [returned.returnedAt, nothing, if_pos rfl, nil_append]
      · rcases booked.settled offset listed with owed | settled
        · simp [done] at owed
        · exact .inr settled
    · -- Another request is at another position, for which nothing is given back now.
      obtain ⟨own, stored, entry⟩ := ledger.requests other inside
      have apart : req.lsn ≠ own.lsn := by
        intro equal
        refine same (ledger.distinct other inside addr bound ?_)
        rw [entry.lsn, booked.lsn, equal]
      refine ⟨own, stored, ?_, ?_, ?_, ?_⟩ <;> rw [returned.others other same]
      · exact entry.lsn
      · exact entry.held
      · rw [returned.returnedAt, if_neg apart, append_nil]
        exact entry.returned
      · exact entry.settled
  · rw [returned.fresh] at inside inside'
    rw [returned.points, returned.points] at equal
    exact ledger.distinct first inside second inside' equal
  · rw [returned.releases] at listed
    rcases mem_append.mp listed with before | now
    · obtain ⟨other, inside, position, given⟩ := ledger.returned item before
      refine ⟨other, ?_, ?_, ?_⟩
      · rw [returned.fresh]
        exact inside
      · rw [returned.points]
        exact position
      · by_cases same : other = addr
        · rw [same]
          exact returned.given
        · rw [returned.others other same]
          exact given
    · obtain ⟨entry, -, rfl⟩ := mem_map.mp now
      refine ⟨addr, ?_, ?_, returned.given⟩
      · rw [returned.fresh]
        exact bound
      · rw [returned.points]
        exact booked.lsn

theorem release (bound : addr < t.fresh) (done : (t.heap addr).pending = ∅) :
    Ledger added acknowledged (t.release addr) := by
  cases released : (t.heap addr).released with
  | true =>
    have again : (t.heap addr).release = (t.heap addr, 0, []) := by
      simp [TrackedWriteRequest.release, released]
    refine ledger.same ⟨rfl, ?_, fun other => ?_⟩
    · simp [PGBufferedLSNTracker.release, again]
    · simp [PGBufferedLSNTracker.release, again, store]
  | false =>
    obtain ⟨req, member, booked⟩ := ledger.requests addr bound
    have nothing := ledger.returnedAt_eq_nil bound released
    rw [booked.lsn] at nothing
    exact ledger.returns bound done booked member nothing
      (.release released (booked.held released) booked.lsn)

theorem ackAt (bound : addr < t.fresh)
    (places : ∀ offset ∈ offsets, ((t.heap addr).point.lsn, offset) ∈ acknowledged) :
    let acked := t.store addr ((t.heap addr).ack offsets)
    Ledger added acknowledged
      (if (acked.heap addr).isAcknowledged then acked.release addr else acked) := by
  intro acked
  have stored : Ledger added acknowledged acked := ledger.acked addr places
  split
  · rename_i done
    exact stored.release bound (Finset.card_eq_zero.mp (of_decide_eq_true done))
  · exact stored

/-- Acknowledging a map keeps the ledger. -/
theorem ackAll (wf : Wf t) {acks : AckMap}
    (places : ∀ lsn offset, acks.Named lsn offset → (lsn, offset) ∈ acknowledged) :
    Ledger added acknowledged (t.ackAll acks) := by
  induction acks generalizing t with
  | nil => exact ledger
  | cons first rest ih =>
    have acked : Ledger added acknowledged (t.ack first.1 first.2) := by
      simp only [PGBufferedLSNTracker.ack]
      cases found : t.findTrackedWrite first.1.lsn with
      | none => exact ledger
      | some addr =>
        obtain ⟨tracked, position⟩ := wf.findTrackedWrite_eq_some found
        refine ledger.ackAt (wf.allocated addr tracked) fun offset listed => ?_
        rw [position]
        exact places _ _ ((AckMap.named_cons ..).mpr (.inl ⟨rfl, listed⟩))
    refine ih acked ((ack_law wf first.1 first.2).1.wf wf) fun lsn offset named => ?_
    exact places _ _ ((AckMap.named_cons ..).mpr (.inr named))

/-- Bringing the point up to date gives back what is done. -/
theorem advance (wf : Wf t) : Ledger added acknowledged t.advanceMaxAcknowledged := by
  -- The loop gives back requests with nothing pending in turn.
  refine (advance_invariant
    (P := fun next => next.fresh = t.fresh ∧ Ledger added acknowledged next)
    (fun mid addr tracked done kept => ⟨kept.1, ?_⟩)
    (fun _ _ kept => ⟨kept.1, kept.2.same ⟨rfl, rfl, fun _ => ⟨rfl, rfl, rfl, rfl⟩⟩⟩)
    ⟨rfl, ledger⟩).2
  have bound : addr < mid.fresh := by
    rw [kept.1]
    exact wf.allocated addr tracked
  exact (kept.2.release bound (Finset.card_eq_zero.mp (of_decide_eq_true done))).same
    ⟨rfl, rfl, fun _ => ⟨rfl, rfl, rfl, rfl⟩⟩

/-- A request is put at a new address, at a position of its own. -/
theorem allocate (new : req.lsn ∉ added.map WriteRequest.lsn) {tw : TrackedWriteRequest V}
    (lsn : tw.point.lsn = req.lsn) (held : tw.released = false) (write : tw.write = some req)
    (settled : ∀ offset ∈ TrackedWriteRequest.offsets req,
      offset ∈ tw.pending ∨ (req.lsn, offset) ∈ acknowledged) :
    Ledger (added ++ [req]) acknowledged (t.allocate tw) := by
  -- The positions of the other requests have been added before.
  have here : (t.allocate tw).heap t.fresh = tw := Function.update_self ..
  have others : ∀ other < t.fresh, (t.allocate tw).heap other = t.heap other :=
    fun other bound => Function.update_of_ne (Nat.ne_of_lt bound) ..
  have apart : ∀ other < t.fresh, (t.heap other).point.lsn ≠ req.lsn := by
    intro other bound equal
    obtain ⟨own, member, booked⟩ := ledger.requests other bound
    exact new (mem_map.mpr ⟨own, member, booked.lsn.symm.trans equal⟩)
  have split : ∀ other < t.fresh + 1, other < t.fresh ∨ other = t.fresh := by omega
  refine ⟨fun other bound => ?_, fun first bound second bound' equal => ?_, fun item member => ?_⟩
  · rcases split other bound with before | rfl
    · obtain ⟨own, member, booked⟩ := ledger.requests other before
      refine ⟨own, mem_append_left _ member, ?_, ?_, ?_, ?_⟩ <;> rw [others other before]
      · exact booked.lsn
      · exact booked.held
      · exact booked.returned
      · exact booked.settled
    · refine ⟨req, mem_append_right _ (mem_singleton_self req), ?_, ?_, ?_, ?_⟩ <;>
        rw [here]
      · exact lsn
      · exact fun _ => write
      · rw [held]
        intro given
        cases given
      · exact settled
  · rcases split first bound with before | rfl <;> rcases split second bound' with before' | rfl
    · rw [others first before, others second before'] at equal
      exact ledger.distinct first before second before' equal
    · rw [others first before, here, lsn] at equal
      exact absurd equal (apart first before)
    · rw [others second before', here, lsn] at equal
      exact absurd equal.symm (apart second before')
    · rfl
  · obtain ⟨other, bound, position, released⟩ := ledger.returned item member
    refine ⟨other, Nat.lt_succ_of_lt bound, ?_, ?_⟩ <;> rw [others other bound]
    · exact position
    · exact released

end

end Ledger

end PGBufferedLSNTracker

end PgWalk
