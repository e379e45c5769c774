import PgWalk.Lib.Runs
import PgWalk.Tracker.Laws

/-! The acknowledged point is exactly how far the accepted requests are done without a gap. -/

namespace PgWalk

open CommitPoint PGBufferedLSNTracker List Option Frontier

variable {V : Type} (t : PGBufferedLSNTracker V)

/--
The accepted requests after a call, in the order of their positions, with the entries of each
that have been neither written nor given up.
-/
def ledgerAfter (ledger : List TrackedItem) : TrackerOp V → List TrackedItem
  | .add req =>
    if t.accepts req.lsn then
      file CommitPoint.lsn ⟨⟨req.lsn, req.xid⟩, TrackedWriteRequest.offsets req⟩ ledger
    else ledger
  | .addEmpty lsn xid =>
    if t.accepts lsn then file CommitPoint.lsn ⟨⟨lsn, xid⟩, ∅⟩ ledger else ledger
  | .onSuccess resp =>
    settleAll (successAcks resp) ledger
  | .onError resp _ => settleAll (t.skips resp) ledger
  | .onRetryTimer _ | .popRound | .maxAcknowledged => ledger

/-- A call on a tracker together with the record of what was accepted. -/
def ledgerStep (state : PGBufferedLSNTracker V × List TrackedItem) (op : TrackerOp V) :
    Option (PGBufferedLSNTracker V × List TrackedItem) :=
  (trackerStep state.1 op).map fun next => (next, ledgerAfter state.1 state.2 op)

/-- Positive positions, and no empty request where one is tracked. -/
def Admissible : TrackerOp V → Prop
  | .add req => 0 < req.lsn
  | .addEmpty lsn _ => t.findTrackedWrite lsn = none
  | _ => True

/-- The requests a call takes off the queue because they are done. -/
def completed : TrackerOp V → List TrackedItem
  | .onSuccess resp =>
    done (settleAll (successAcks resp) t.tracked)
  | .maxAcknowledged => done t.tracked
  | _ => []

/-- Whether a call comes from writers or timers, not from the source. -/
def TrackerOp.fromWriter : TrackerOp V → Bool
  | .add _ | .addEmpty _ _ => false
  | .onSuccess _ | .onError _ _ | .onRetryTimer _ | .popRound | .maxAcknowledged => true

/-- A request above a point, or an empty one at position zero. -/
def Above (point : CommitPoint) (item : TrackedItem) : Prop :=
  point.lsn < item.tag.lsn ∨ point.lsn = 0 ∧ item.tag.lsn = 0 ∧ item.owed = ∅

/-- The tracker and the record of what was accepted fit together. -/
structure Exact (t : PGBufferedLSNTracker V) (ledger : List TrackedItem) : Prop where
  wf : t.Wf
  ordered : ledger.Pairwise fun a b => a.tag.lsn ≤ b.tag.lsn
  above : ∀ item ∈ t.tracked, Above t.maxAcknowledged item
  -- What is no longer tracked is done, and the acknowledged point is where it ends.
  split : ∃ popped, ledger = popped ++ t.tracked ∧ (∀ item ∈ popped, item.owed = ∅) ∧
    (∀ item ∈ popped, item.tag.lsn ≤ t.maxAcknowledged.lsn) ∧
    frontier .zero popped = t.maxAcknowledged

namespace Exact

open PGBufferedLSNTracker

variable {t next : PGBufferedLSNTracker V} {ledger : List TrackedItem}

theorem start (config : RetryConfig) :
    Exact (newLSNTracker config : PGBufferedLSNTracker V) [] where
  wf := ⟨rfl, rfl, by simp [newLSNTracker, WriteQueue.new],
    by simp [newLSNTracker, WriteQueue.new, tracked]⟩
  ordered := List.Pairwise.nil
  above := by simp [newLSNTracker, WriteQueue.new, tracked]
  split := ⟨[], rfl, by simp, by simp, rfl⟩

theorem same (exact : Exact t ledger) (same : SameTracking t next) : Exact next ledger where
  wf := same.toSameQueue.wf exact.wf
  ordered := exact.ordered
  above := by rw [same.tracked, same.maxAck]; exact exact.above
  split := by rw [same.tracked, same.maxAck]; exact exact.split

variable {item : TrackedItem} {op : TrackerOp V}

/-- A new request goes into the record where it goes into the queue. -/
theorem file (exact : Exact t ledger) (wf : next.Wf) (new : t.accepts item.tag.lsn = true)
    (zero : item.tag.lsn = 0 → item.owed = ∅)
    (tracked : next.tracked = file lsn item t.tracked)
    (point : next.maxAcknowledged = t.maxAcknowledged) :
    Exact next (file lsn item ledger) := by
  -- A new position is not acknowledged, unless nothing has been acknowledged at all.
  have beyond : t.maxAcknowledged.lsn = 0 ∨ t.maxAcknowledged.lsn < item.tag.lsn := by
    simp only [accepts, isAcknowledged, Bool.and_eq_true, Bool.not_eq_true', Bool.and_eq_false_iff,
      decide_eq_false_iff_not] at new
    omega
  refine ⟨wf, file_ordered lsn exact.ordered, ?_, ?_⟩
  · -- The queue gets one more request, which lies above the point unless both are zero.
    intro other member
    rw [tracked] at member
    rw [point]
    rcases (mem_file lsn).mp member with rfl | member
    · by_cases atZero : other.tag.lsn = 0
      · exact .inr ⟨by omega, atZero, zero atZero⟩
      · exact .inl (by omega)
    · exact exact.above other member
  · obtain ⟨popped, rfl, settled, below, reached⟩ := exact.split
    refine ⟨popped, ?_, settled, ?_, ?_⟩
    · -- Everything that was popped lies below, so the request is filed behind it.
      rw [tracked]
      refine file_append lsn (fun other member => ?_) t.tracked
      have bound := below other member
      omega
    · rw [point]
      exact below
    · rw [point]
      exact reached

theorem settleAll_append {front : List TrackedItem} (settled : ∀ item ∈ front, item.owed = ∅)
    (acks : AckMap) (back : List TrackedItem) :
    settleAll acks (front ++ back) = front ++ settleAll acks back := by
  -- By induction on the points; settled requests have nothing left.
  induction acks generalizing back with
  | nil => rfl
  | cons ack rest ih =>
    simp only [settleAll, foldl_cons]
    rw [settle_append, settle_settled lsn settled]
    exact ih _

theorem settleAll_tags (acks : AckMap) (items : List TrackedItem) :
    (settleAll acks items).map Item.tag = items.map Item.tag := by
  induction acks generalizing items with
  | nil => rfl
  | cons ack rest ih => exact (ih _).trans (settle_tags _ _ _ _)

theorem exists_of_mem_settleAll {acks : AckMap} {items : List TrackedItem}
    (member : item ∈ settleAll acks items) :
    ∃ before ∈ items, item.tag = before.tag ∧ item.owed ⊆ before.owed := by
  -- What a point leaves was there before, with no less pending.
  induction acks generalizing items with
  | nil => exact ⟨item, member, rfl, Finset.Subset.refl _⟩
  | cons ack rest ih =>
    obtain ⟨mid, filed, tag, owed⟩ := ih member
    obtain ⟨before, first, midTag, midOwed⟩ := exists_of_mem_settle lsn filed
    exact ⟨before, first, tag.trans midTag, owed.trans midOwed⟩

section

variable (exact : Exact t ledger)

include exact

/-- What is acknowledged in the tracker is settled in the record. -/
theorem settle {acks : AckMap} (frame : SameQueue t next)
    (settled : next.tracked = settleAll acks t.tracked) : Exact next (settleAll acks ledger) where
  wf := frame.wf exact.wf
  ordered := by
    -- Settling does not move the points, nor their order.
    have tags : (ledger.map Item.tag).Pairwise fun a b => a.lsn ≤ b.lsn :=
      pairwise_map.mpr exact.ordered
    rw [← settleAll_tags acks] at tags
    exact (pairwise_map (R := fun a b : CommitPoint => a.lsn ≤ b.lsn)).mp tags
  above item member := by
    rw [settled] at member
    obtain ⟨before, tracked, tag, owed⟩ := exists_of_mem_settleAll member
    rw [frame.maxAck, Above, tag]
    rcases exact.above before tracked with beyond | ⟨none, zero, empty⟩
    · exact .inl beyond
    · exact .inr ⟨none, zero, Finset.subset_empty.mp (empty ▸ owed)⟩
  split := by
    obtain ⟨popped, rfl, done, below, reached⟩ := exact.split
    rw [frame.maxAck, settled]
    exact ⟨popped, settleAll_append done acks t.tracked, done, below, reached⟩

theorem le_frontier : t.maxAcknowledged.lsn ≤ (frontier t.maxAcknowledged t.tracked).lsn := by
  -- The frontier is the old point, or that of a request above it.
  rcases frontier_eq_or_mem t.maxAcknowledged t.tracked with same | ⟨item, done, same⟩
  · rw [same]
  · rw [← same]
    rcases exact.above item ((takeWhile_sublist _).subset done) with beyond | ⟨none, _, _⟩
    · exact beyond.le
    · omega

/-- Bringing the acknowledged point up to date leaves the record alone. -/
theorem advance : Exact t.advanceMaxAcknowledged ledger := by
  -- What the loop drops joins what was popped before.
  obtain ⟨tracked, point, -, wf⟩ := advance_law exact.wf
  have weak : t.tracked.Pairwise fun a b => a.tag.lsn ≤ b.tag.lsn :=
    exact.wf.strict.imp fun less => less.le
  have later := exact.le_frontier
  refine ⟨wf, exact.ordered, ?_, ?_⟩
  · -- What is still tracked comes after the last request that is done.
    intro item member
    rw [tracked] at member
    rw [point]
    rcases frontier_eq_or_mem t.maxAcknowledged t.tracked with same | ⟨last, done, same⟩
    · rw [same]
      exact exact.above item ((dropWhile_sublist _).subset member)
    · have strict := exact.wf.strict
      rw [← done_append_remaining t.tracked, pairwise_append] at strict
      rw [← same]
      exact .inl (strict.2.2 last done item member)
  · obtain ⟨popped, rfl, settled, below, reached⟩ := exact.split
    refine ⟨popped ++ done t.tracked, ?_, ?_, ?_, ?_⟩
    · rw [tracked, append_assoc, done_append_remaining]
    · intro item member
      rcases mem_append.mp member with earlier | now
      · exact settled item earlier
      · exact owed_of_mem_done now
    · intro item member
      rw [point]
      rcases mem_append.mp member with earlier | now
      · exact (below item earlier).trans later
      · exact key_le_frontier lsn weak _ now
    · rw [frontier_append settled, reached, frontier_done, point]

theorem getMaxAcknowledged : t.getMaxAcknowledged.1 = frontier .zero ledger := by
  obtain ⟨-, point, -, -⟩ := advance_law exact.wf
  obtain ⟨popped, rfl, settled, -, reached⟩ := exact.split
  rw [frontier_append settled, reached]
  exact point

/-- A call moves the point only to a request that it completes. -/
theorem point_step (admissible : Admissible t op) (taken : trackerStep t op = some next) :
    next.maxAcknowledged = t.maxAcknowledged ∨
      ∃ item ∈ completed t op, item.tag = next.maxAcknowledged := by
  -- The point moves only behind the settled entries.
  cases op with
  | add req =>
    cases taken
    cases new : t.accepts req.lsn with
    | true => exact .inl (add_accepted exact.wf new).2.1
    | false => exact .inl (add_known exact.wf new).maxAck
  | addEmpty lsn xid =>
    cases taken
    cases new : t.accepts lsn with
    | true => exact .inl (addEmpty_accepted exact.wf new).2.1
    | false =>
      exact .inl (congrArg _ (addEmpty_known exact.wf admissible new))
  | onSuccess resp =>
    cases taken
    obtain ⟨frame, settled⟩ := ackAll_law exact.wf (successAcks resp)
    obtain ⟨-, point, -, -⟩ := advance_law (frame.wf exact.wf)
    rw [settled, frame.maxAck] at point
    simp only [onSuccess, point]
    exact frontier_eq_or_mem _ _
  | onError resp setTimer =>
    exact .inl (onError_law exact.wf (toOption_eq_some.mp taken)).1.maxAck
  | onRetryTimer key => exact .inl (sameTracking_onRetryTimer taken).maxAck
  | popRound =>
    obtain ⟨⟨write, after⟩, popped, rfl⟩ := map_eq_some_iff.mp taken
    exact .inl (sameTracking_popRound popped).maxAck
  | maxAcknowledged =>
    cases taken
    obtain ⟨-, point, -, -⟩ := advance_law exact.wf
    simp only [PGBufferedLSNTracker.getMaxAcknowledged, point]
    exact frontier_eq_or_mem _ _

/-- A call keeps tracker and record together; the point moves forward. -/
theorem step (admissible : Admissible t op) (taken : trackerStep t op = some next) :
    Exact next (ledgerAfter t ledger op) ∧ t.maxAcknowledged.lsn ≤ next.maxAcknowledged.lsn := by
  -- A request with rows never lies at zero, where the point starts.
  cases op with
  | add req =>
    cases taken
    simp only [ledgerAfter]
    cases new : t.accepts req.lsn with
    | true =>
      obtain ⟨tracked, point, -, wf⟩ := add_accepted exact.wf new
      have positive : 0 < req.lsn := admissible
      rw [if_pos rfl, point]
      exact ⟨exact.file wf new (fun zero => by simp only at zero; omega) tracked point, le_refl _⟩
    | false =>
      have same := add_known exact.wf new
      rw [if_neg (by decide), same.maxAck]
      exact ⟨exact.same same, le_refl _⟩
  | addEmpty lsn xid =>
    cases taken
    simp only [ledgerAfter]
    cases new : t.accepts lsn with
    | true =>
      obtain ⟨tracked, point, wf⟩ := addEmpty_accepted exact.wf new
      rw [if_pos rfl, point]
      exact ⟨exact.file wf new (fun _ => rfl) tracked point, le_refl _⟩
    | false =>
      rw [if_neg (by decide), addEmpty_known exact.wf admissible new]
      exact ⟨exact, le_refl _⟩
  | onSuccess resp =>
    cases taken
    obtain ⟨frame, settled⟩ := ackAll_law exact.wf (successAcks resp)
    have acked := exact.settle frame settled
    obtain ⟨-, point, -, -⟩ := advance_law acked.wf
    refine ⟨acked.advance, ?_⟩
    rw [← frame.maxAck]
    exact acked.le_frontier.trans (le_of_eq (congrArg CommitPoint.lsn point.symm))
  | onError resp setTimer =>
    obtain ⟨frame, settled⟩ := onError_law exact.wf (toOption_eq_some.mp taken)
    rw [frame.maxAck]
    exact ⟨exact.settle frame settled, le_refl _⟩
  | onRetryTimer key =>
    have same := sameTracking_onRetryTimer taken
    rw [same.maxAck]
    exact ⟨exact.same same, le_refl _⟩
  | popRound =>
    obtain ⟨⟨write, after⟩, popped, rfl⟩ := map_eq_some_iff.mp taken
    have same := sameTracking_popRound popped
    rw [same.maxAck]
    exact ⟨exact.same same, le_refl _⟩
  | maxAcknowledged =>
    cases taken
    obtain ⟨-, point, -, -⟩ := advance_law exact.wf
    exact ⟨exact.advance, exact.le_frontier.trans (le_of_eq (congrArg CommitPoint.lsn point.symm))⟩

end

theorem ledgerStep {state next : PGBufferedLSNTracker V × List TrackedItem}
    (exact : Exact state.1 state.2) (admissible : Admissible state.1 op)
    (taken : ledgerStep state op = some next) :
    Exact next.1 next.2 ∧ state.1.maxAcknowledged.lsn ≤ next.1.maxAcknowledged.lsn := by
  obtain ⟨after, called, rfl⟩ := map_eq_some_iff.mp taken
  exact exact.step admissible called

theorem mem_ledger (exact : Exact t ledger) (tracked : item ∈ t.tracked) : item ∈ ledger := by
  obtain ⟨popped, rfl, -⟩ := exact.split
  exact mem_append_right _ tracked

/-- A positive position is known when acknowledged or on record. -/
theorem accepts_eq_false_iff (exact : Exact t ledger) {lsn : Nat} (positive : 0 < lsn) :
    t.accepts lsn = false ↔ lsn ≤ t.maxAcknowledged.lsn ∨ ∃ item ∈ ledger, item.tag.lsn = lsn := by
  have acknowledged : t.isAcknowledged lsn = true ↔ lsn ≤ t.maxAcknowledged.lsn := by
    simp only [isAcknowledged, Bool.and_eq_true, decide_eq_true_eq]
    omega
  have untracked := @Wf.findTrackedWrite_eq_none _ _ exact.wf lsn
  simp only [accepts, Bool.and_eq_false_iff, Bool.not_eq_false', acknowledged,
    isNone_eq_false_iff, isSome_iff_ne_none, ne_eq, untracked]
  obtain ⟨popped, rfl, -, below, -⟩ := exact.split
  constructor
  · rintro (done | tracked)
    · exact .inl done
    · push Not at tracked
      obtain ⟨item, member, same⟩ := tracked
      exact .inr ⟨item, mem_append_right _ member, same⟩
  · rintro (done | ⟨item, filed, same⟩)
    · exact .inl done
    · -- What is on record was popped below the point or is still tracked.
      rcases mem_append.mp filed with early | tracked
      · exact .inl (same ▸ below item early)
      · exact .inr fun unused => unused item tracked same

theorem owed_of_le (exact : Exact t ledger) (filed : item ∈ ledger)
    (acknowledged : item.tag.lsn ≤ t.maxAcknowledged.lsn) : item.owed = ∅ := by
  -- A request on record is done, or it is tracked above the point.
  obtain ⟨popped, rfl, settled, -, -⟩ := exact.split
  rcases mem_append.mp filed with done | tracked
  · exact settled item done
  · rcases exact.above item tracked with beyond | ⟨-, -, empty⟩
    · omega
    · exact empty

theorem ledgerAfter_tags (writer : op.fromWriter = true) (t : PGBufferedLSNTracker V)
    (ledger : List TrackedItem) :
    (ledgerAfter t ledger op).map Item.tag = ledger.map Item.tag := by
  cases op with
  | add req => cases writer
  | addEmpty lsn xid => cases writer
  | onSuccess resp => exact settleAll_tags _ _
  | onError resp setTimer => exact settleAll_tags _ _
  | onRetryTimer key => rfl
  | popRound => rfl
  | maxAcknowledged => rfl

/-- What is on record stays on record. -/
theorem exists_mem_ledgerAfter (op : TrackerOp V) (t : PGBufferedLSNTracker V)
    {ledger : List TrackedItem} (filed : item ∈ ledger) :
    ∃ later ∈ ledgerAfter t ledger op, later.tag = item.tag := by
  -- A call of a writer keeps all points, the others file one more.
  cases writer : op.fromWriter with
  | true =>
    have tagged : item.tag ∈ (ledgerAfter t ledger op).map Item.tag :=
      ledgerAfter_tags writer t ledger ▸ List.mem_map_of_mem filed
    exact List.mem_map.mp tagged
  | false =>
    refine ⟨item, ?_, rfl⟩
    cases op with
    | add req | addEmpty lsn xid =>
      simp only [ledgerAfter]
      split
      · exact (mem_file CommitPoint.lsn).mpr (.inr filed)
      · exact filed
    | _ => cases writer

theorem known_step (exact : Exact t ledger) (admissible : Admissible t op)
    (taken : trackerStep t op = some next) {lsn : Nat} (positive : 0 < lsn)
    (known : t.accepts lsn = false) : next.accepts lsn = false := by
  obtain ⟨later, forward⟩ := exact.step admissible taken
  rw [later.accepts_eq_false_iff positive]
  rcases (exact.accepts_eq_false_iff positive).mp known with done | ⟨item, filed, same⟩
  · exact .inl (done.trans forward)
  · obtain ⟨kept, member, tag⟩ := exists_mem_ledgerAfter op t filed
    exact .inr ⟨kept, member, by rw [tag, same]⟩

theorem exists_of_mem_completed (exact : Exact t ledger) (member : item ∈ completed t op) :
    ∃ before ∈ ledger, before.tag = item.tag := by
  -- Settled requests have the points they were tracked with.
  cases op with
  | onSuccess resp =>
    have settled := (takeWhile_sublist _).subset member
    obtain ⟨before, tracked, tag, -⟩ := exists_of_mem_settleAll settled
    exact ⟨before, exact.mem_ledger tracked, tag.symm⟩
  | maxAcknowledged =>
    exact ⟨item, exact.mem_ledger ((takeWhile_sublist _).subset member), rfl⟩
  | _ => simp [completed] at member

theorem writer_law {state next : PGBufferedLSNTracker V × List TrackedItem}
    (exact : Exact state.1 state.2) (writer : op.fromWriter = true)
    (taken : PgWalk.ledgerStep state op = some next) : Exact next.1 next.2 ∧
      next.2.map Item.tag = state.2.map Item.tag ∧
      state.1.maxAcknowledged.lsn ≤ next.1.maxAcknowledged.lsn ∧
      (next.1.maxAcknowledged = state.1.maxAcknowledged ∨
        ∃ item ∈ completed state.1 op, item.tag = next.1.maxAcknowledged) := by
  -- Nothing is asked of the calls that file nothing.
  have admissible : Admissible state.1 op := by cases op <;> trivial
  obtain ⟨after, called, rfl⟩ := map_eq_some_iff.mp taken
  obtain ⟨kept, forward⟩ := exact.step admissible called
  exact ⟨kept, ledgerAfter_tags writer _ _, forward, exact.point_step admissible called⟩

theorem exists_of_tags {before after : List TrackedItem}
    (tags : after.map Item.tag = before.map Item.tag) (member : item ∈ after) :
    ∃ old ∈ before, old.tag = item.tag := by
  have tagged : item.tag ∈ before.map Item.tag := tags ▸ List.mem_map_of_mem member
  exact List.mem_map.mp tagged

end Exact

/--
In every run of admissible calls on a new tracker, the queue is strictly ordered and lies above the
acknowledged point, but for an empty request at zero, the point never moves back, and asking for it
returns the point of the last accepted request before the first one with an entry neither written
nor given up.
-/
theorem maxAcknowledged_exact {config : RetryConfig} {ops : List (TrackerOp V)}
    {t : PGBufferedLSNTracker V} {ledger : List TrackedItem}
    (admissible : Runs.Along ledgerStep (fun state op => Admissible state.1 op)
      (.newLSNTracker config, []) ops)
    (reached : Runs.run ledgerStep (.newLSNTracker config, []) ops = some (t, ledger)) :
    (t.tracked.Pairwise fun a b => a.tag.lsn < b.tag.lsn) ∧
      (∀ item ∈ t.tracked, Above t.maxAcknowledged item) ∧
      (∀ more later,
        Runs.Along ledgerStep (fun state op => Admissible state.1 op) (t, ledger) more →
        Runs.run ledgerStep (t, ledger) more = some later →
        t.maxAcknowledged.lsn ≤ later.1.maxAcknowledged.lsn) ∧
      (ledger.Pairwise fun a b => a.tag.lsn ≤ b.tag.lsn) ∧
      t.getMaxAcknowledged.1 = frontier .zero ledger := by
  -- By the induction over runs, with the exact record as invariant.
  have exact : Exact t ledger :=
    @Runs.invariant _ _ _ _ (fun state => Exact state.1 state.2)
      (fun _ _ _ exact admissible taken => (exact.ledgerStep admissible taken).1) _ _ _
      (Exact.start config) admissible reached
  refine ⟨exact.wf.strict, exact.above, ?_, exact.ordered, exact.getMaxAcknowledged⟩
  intro more later admissible reached
  exact @Runs.monotone _ _ _ _ (fun state => Exact state.1 state.2) Nat _
    (fun state => state.1.maxAcknowledged.lsn)
    (fun _ _ _ exact admissible taken => (exact.ledgerStep admissible taken).1)
    (fun _ _ _ exact admissible taken => (exact.ledgerStep admissible taken).2) _ _ _
    exact admissible reached

namespace Sample

def retryConfig : RetryConfig := ⟨5, 5, 0⟩

/-- A request without rows at a position. -/
def emptyRequest (lsn xid : Nat) : WriteRequest Nat := ⟨[], lsn, xid, 0, false⟩

def rowRequest (lsn xid : Nat) : WriteRequest Nat :=
  ⟨[⟨.absent, .absent, "1", .insert, makeTableName "public" "users", 0⟩], lsn, xid, 0, false⟩

/-- An answer that the first entry of a request has failed. -/
def failure (lsn xid : Nat) (reason : WriterError) : ErrResponse :=
  ⟨[⟨⟨lsn, xid, 0, makeTableName "public" "users"⟩, reason⟩]⟩

/-- Two requests at falling positions; the later one is written. -/
def fallingAdds : List (TrackerOp Nat) :=
  [.add (emptyRequest 5 1), .add (emptyRequest 3 2),
    .onSuccess ⟨[⟨5, 1, 0, makeTableName "public" "users"⟩]⟩]

/-- Nothing to write at position zero. -/
def emptyAtZero : List (TrackerOp Nat) := [.addEmpty 0 1]

end Sample

open Sample

/-- The request at the smaller position holds the point back. -/
theorem maxAcknowledged_exact_falling :
    ∃ t ledger, Runs.run ledgerStep (.newLSNTracker retryConfig, []) fallingAdds =
        some (t, ledger) ∧ t.getMaxAcknowledged.1 = frontier .zero ledger := by
  obtain ⟨t, ledger, reached⟩ : ∃ t ledger, Runs.run ledgerStep
      (.newLSNTracker retryConfig, []) fallingAdds = some (t, ledger) :=
    ⟨_, _, rfl⟩
  have admissible : Runs.Along ledgerStep (fun state op => Admissible state.1 op)
      (.newLSNTracker retryConfig, []) fallingAdds :=
    .cons (show 0 < 5 by decide) rfl (.cons (show 0 < 3 by decide) rfl (.last trivial))
  exact ⟨t, ledger, reached, (maxAcknowledged_exact admissible reached).2.2.2.2⟩

/-- An empty request at zero is not strictly above a new tracker's point. -/
theorem tracked_not_above_zero :
    ∃ t ledger, Runs.Along ledgerStep (fun state op => Admissible state.1 op)
        (.newLSNTracker retryConfig, []) emptyAtZero ∧
      Runs.run ledgerStep (.newLSNTracker retryConfig, []) emptyAtZero =
        some (t, ledger) ∧ ¬ ∀ item ∈ t.tracked, t.maxAcknowledged.lsn < item.tag.lsn :=
  ⟨_, _, .last rfl, rfl, fun above => absurd (above _ mem_cons_self) (by decide)⟩

end PgWalk
