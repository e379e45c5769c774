import Mathlib.Data.Rat.Floor
import PgWalk.Lib.Chunks
import PgWalk.Snapshot.Manager

/-! How a table is cut into tasks, and which rows the tasks read. -/

namespace PgWalk

open List

/-- What the statistics say about a table. -/
structure TableEstimate where
  -- The rows that the query selects.
  estimatedRows : Int
  -- The rows of the whole table.
  baseEstimatedRows : Int
  totalBlocks : Int
deriving DecidableEq

/-- The first and the last place at which the query finds a row. -/
structure CtidBounds where
  min : TID
  max : TID
deriving DecidableEq

/-- One place is not behind another one. -/
def TID.before (a b : TID) : Bool :=
  decide (a.blockNumber < b.blockNumber) ||
    (decide (a.blockNumber = b.blockNumber) && decide (a.offsetNumber ≤ b.offsetNumber))

/-- A place as the default verb prints it. -/
def TID.sprint (tid : TID) : String :=
  "\x7b" ++ toString tid.blockNumber ++ " " ++ toString tid.offsetNumber ++ " true\x7d"

/-- The place in a block whose number is cut to 32 bits. -/
def makeTID (blockNumber : Int) (offsetNumber : Nat) : TID :=
  ⟨(blockNumber % 4294967296).toNat, offsetNumber⟩

def buildBatchQuery (baseQuery : String) (hasWhereClause : Bool) : String :=
  baseQuery ++ (if hasWhereClause then " AND " else " WHERE ") ++ "ctid >= $1 AND ctid <= $2" ++
    " ORDER BY ctid"

/-- A quotient rounded up. -/
def ceilDiv (a b : Int) : Int := if b ≤ 0 then 0 else (a + b - 1).tdiv b

/-- How many blocks hold the rows of a batch. -/
def blocksPerBatch (estimate : TableEstimate) (batchSize : Int) : Int :=
  if estimate.totalBlocks ≤ 0 then 0
  else if batchSize ≤ 0 ∨ estimate.estimatedRows ≤ 0 then 1
  else
    let blocks := ceilDiv (batchSize * estimate.totalBlocks) estimate.estimatedRows
    if blocks ≤ 0 then 1 else blocks

/-- Ranges of whole blocks, from the first to the last one. -/
def ctidRanges (firstBlock lastBlock blocksPerRange : Int) : List CtidRange :=
  if positive : 0 < blocksPerRange then
    (Chunks.chunks blocksPerRange lastBlock firstBlock positive).map fun blocks =>
      ⟨makeTID blocks.1 0, makeTID blocks.2 65535⟩
  else []

def splitCtidRange (totalBlocks blocksPerRange : Int) : List CtidRange :=
  if totalBlocks ≤ 0 then [] else ctidRanges 0 (totalBlocks - 1) blocksPerRange

def CtidBounds.invalid (bounds : CtidBounds) : TaskError :=
  ⟨"invalid ctid bounds: min " ++ bounds.min.sprint ++ " is greater than max " ++
    bounds.max.sprint, false⟩

def splitCtidRangeBetween (bounds : CtidBounds) (blocksPerRange : Int) :
    Except TaskError (List CtidRange) :=
  if bounds.min.blockNumber > bounds.max.blockNumber then .error bounds.invalid
  else .ok (ctidRanges bounds.min.blockNumber bounds.max.blockNumber blocksPerRange)

def ctidBoundsBlockWidth (bounds : CtidBounds) : Except TaskError Int :=
  if bounds.min.blockNumber > bounds.max.blockNumber then .error bounds.invalid
  else .ok (bounds.max.blockNumber - bounds.min.blockNumber + 1)

/-- How much of a table a sparse query selects at most, in percent. -/
def querySnapshotSparseSelectivityPercent : Int := 10

section Plan

variable (config : SnapshotConfig) (estimate : TableEstimate)

/-- Whether the rows of a query fit into one batch for each worker. -/
def shouldRunQuerySnapshotAsSingleTask (maxWorkers : Int) : Bool :=
  if estimate.estimatedRows ≤ 0 then false
  else
    let threshold := config.batchSize * maxWorkers
    if threshold ≤ 0 then false else estimate.estimatedRows ≤ threshold

/-- Whether a query is selective enough to look where its rows are. -/
def shouldProbeSparseQueryBounds : Bool :=
  if estimate.estimatedRows ≤ 0 ∨ estimate.baseEstimatedRows ≤ 0 then false
  else estimate.estimatedRows * 100 <
    estimate.baseEstimatedRows * querySnapshotSparseSelectivityPercent

def planCtidRanges (baseQuery : String) (hasWhereClause : Bool) (estimate : TableEstimate) :
    SnapshotTablePlan where
  query := buildBatchQuery baseQuery hasWhereClause
  ranges := splitCtidRange estimate.totalBlocks (blocksPerBatch estimate config.batchSize)
  usesCtidRanges := true

/-- A plan over the blocks that a probe of the query has found rows in. -/
def planQuerySnapshotFromBounds (baseQuery : String) (estimate : TableEstimate)
    (probe : Except TaskError (Option CtidBounds)) : Except TaskError SnapshotTablePlan := do
  match ← probe with
  | none => return ⟨"", [], false⟩
  | some bounds =>
    -- Without an estimate all blocks are read in one range.
    let perBatch ← if estimate.estimatedRows ≤ 0 then ctidBoundsBlockWidth bounds
      else .ok (blocksPerBatch estimate config.batchSize)
    let ranges ← splitCtidRangeBetween bounds perBatch
    return ⟨buildBatchQuery baseQuery true, ranges, true⟩

/-- Plan how a table is read, given what a probe would find. -/
def planSnapshotTable (st : TableState) (estimate : TableEstimate) (maxWorkers : Int)
    (probe : Except TaskError (Option CtidBounds)) : Except TaskError SnapshotTablePlan :=
  match st.snapshotQuery with
  | none => .error ⟨"snapshot query for table " ++ st.tableName ++ " is not set", false⟩
  | some query =>
    if st.whereClause = "" then .ok (planCtidRanges config query false estimate)
    else if estimate.estimatedRows = 0 then
      planQuerySnapshotFromBounds config query estimate probe
    else if shouldRunQuerySnapshotAsSingleTask config estimate maxWorkers then
      .ok ⟨query, [], false⟩
    else if shouldProbeSparseQueryBounds estimate then
      match planQuerySnapshotFromBounds config query estimate probe with
      | .ok plan => .ok plan
      -- The whole table is read where the probe fails.
      | .error _ => .ok (planCtidRanges config query true estimate)
    else .ok (planCtidRanges config query true estimate)

/-- Whether the query of a table with a clause is probed at all. -/
def probesBounds (maxWorkers : Int) : Bool :=
  decide (estimate.estimatedRows = 0) ||
    (!shouldRunQuerySnapshotAsSingleTask config estimate maxWorkers &&
      shouldProbeSparseQueryBounds estimate)

end Plan

/-- A part of a table that is read at once. -/
structure SnapshotTask where
  query : String
  -- The places that are read, or all of them.
  args : Option CtidRange
deriving DecidableEq

variable (plan : SnapshotTablePlan)

def SnapshotTablePlan.tasks : List SnapshotTask :=
  if plan.usesCtidRanges then plan.ranges.map fun range => ⟨plan.query, some range⟩
  else if plan.query = "" then [] else [⟨plan.query, none⟩]

def SnapshotTask.reads (task : SnapshotTask) (tid : TID) : Bool :=
  task.args.all fun range => range.min.before tid && tid.before range.max

/-- A table as planned, with the query for some of its columns. -/
def TableState.withQuery (st : TableState) (columns : List String) : TableState :=
  { st with snapshotQuery := some (buildSelectQuery st.tableName columns st.whereClause) }

variable {blocksPerRange firstBlock lastBlock : Int} {a b tid : TID} {bounds : CtidBounds}

theorem ctidRanges_eq_nil (inside : firstBlock ≤ lastBlock) :
    ctidRanges firstBlock lastBlock blocksPerRange = [] ↔ blocksPerRange ≤ 0 := by
  simp only [ctidRanges]
  by_cases positive : 0 < blocksPerRange
  · rw [dif_pos positive, map_eq_nil_iff]
    exact iff_of_false (Chunks.chunks_ne_nil inside) (by omega)
  · rw [dif_neg positive]
    exact iff_of_true rfl (by omega)

theorem holds_iff (first : 0 ≤ firstBlock) (inner : firstBlock ≤ lastBlock)
    (last : lastBlock < 4294967296) (offset : tid.offsetNumber ≤ 65535) :
    ((makeTID firstBlock 0).before tid && tid.before (makeTID lastBlock 65535)) = true ↔
      firstBlock ≤ tid.blockNumber ∧ tid.blockNumber ≤ lastBlock := by
  -- The numbers fit into 32 bits, so nothing is cut.
  have firstSame : firstBlock % 4294967296 = firstBlock := Int.emod_eq_of_lt first (by omega)
  have lastSame : lastBlock % 4294967296 = lastBlock := Int.emod_eq_of_lt (by omega) last
  simp only [makeTID, TID.before, firstSame, lastSame, Bool.and_eq_true, Bool.or_eq_true,
    decide_eq_true_eq]
  omega

theorem countP_ctidRanges (first : 0 ≤ firstBlock) (last : lastBlock < 4294967296)
    (positive : 0 < blocksPerRange) (offset : tid.offsetNumber ≤ 65535)
    (above : firstBlock ≤ tid.blockNumber) (below : tid.blockNumber ≤ lastBlock) :
    (ctidRanges firstBlock lastBlock blocksPerRange).countP
      (fun range => range.min.before tid && tid.before range.max) = 1 := by
  -- A range holds the place exactly when its chunk holds the block.
  rw [ctidRanges, dif_pos positive, countP_map,
    ← @Chunks.countP_chunks blocksPerRange lastBlock firstBlock positive _ above below]
  refine countP_congr fun blocks member => ?_
  obtain ⟨lower, inner, upper⟩ := Chunks.mem_chunks member
  simp only [Function.comp_apply, decide_eq_true_eq]
  exact holds_iff (by omega) inner (by omega) offset

def CtidRange.holds (range : CtidRange) (tid : TID) : Bool :=
  range.min.before tid && tid.before range.max

/-- The ranges cover the places of some blocks exactly, with as few as possible. -/
structure ExactCover (ranges : List CtidRange) (firstBlock lastBlock blocksPerRange : Int) :
    Prop where
  ascending : ranges.Pairwise fun range later =>
    range.max.before later.min ∧ range.max ≠ later.min
  disjoint : ranges.Pairwise fun range later => ∀ tid, ¬ (range.holds tid ∧ later.holds tid)
  nonempty : ∀ range ∈ ranges, ∃ tid : TID, tid.offsetNumber ≤ 65535 ∧ range.holds tid
  width : ∀ range ∈ ranges,
    (range.max.blockNumber - range.min.blockNumber + 1 : Int) ≤ blocksPerRange
  covers : ∀ tid : TID, tid.offsetNumber ≤ 65535 → firstBlock ≤ tid.blockNumber →
    tid.blockNumber ≤ lastBlock → ranges.countP (fun range => range.holds tid) = 1
  number : (ranges.length : Int) = ⌈((lastBlock - firstBlock + 1 : Int) / blocksPerRange : ℚ)⌉

theorem makeTID_block {blockNumber : Int} (lower : 0 ≤ blockNumber)
    (upper : blockNumber < 4294967296) (offsetNumber : Nat) :
    ((makeTID blockNumber offsetNumber).blockNumber : Int) = blockNumber := by
  show ((blockNumber % 4294967296).toNat : Int) = blockNumber
  omega

theorem TID.before_trans {c : TID} (first : a.before b) (second : b.before c) : a.before c := by
  simp only [TID.before, Bool.or_eq_true, Bool.and_eq_true, decide_eq_true_eq] at *
  omega

theorem TID.before_antisymm (first : a.before b) (second : b.before a) : a = b := by
  simp only [TID.before, Bool.or_eq_true, Bool.and_eq_true, decide_eq_true_eq] at *
  rcases a with ⟨block, offset⟩
  rcases b with ⟨otherBlock, otherOffset⟩
  simp only [TID.mk.injEq]
  simp only at first second
  omega

theorem CtidRange.disjoint_of_before {range later : CtidRange}
    (apart : range.max.before later.min ∧ range.max ≠ later.min) (tid : TID) :
    ¬ (range.holds tid ∧ later.holds tid) := by
  -- The place would lie between one's end and the other's start.
  simp only [CtidRange.holds, Bool.and_eq_true]
  rintro ⟨⟨-, below⟩, ⟨above, -⟩⟩
  have back : later.min.before range.max := TID.before_trans above below
  exact apart.2 (TID.before_antisymm apart.1 back)

/-- The ranges cover every block once, in order. -/
theorem exactCover_ctidRanges (first : 0 ≤ firstBlock) (inner : firstBlock ≤ lastBlock)
    (last : lastBlock < 4294967296) (positive : 0 < blocksPerRange) :
    ExactCover (ctidRanges firstBlock lastBlock blocksPerRange) firstBlock lastBlock
      blocksPerRange := by
  -- The one ends in an earlier block than the other starts in.
  have ascending : (ctidRanges firstBlock lastBlock blocksPerRange).Pairwise fun range later =>
      range.max.before later.min ∧ range.max ≠ later.min := by
    rw [ctidRanges, dif_pos positive, pairwise_map]
    refine Chunks.chunks_pairwise.imp_of_mem fun {blocks later} member after apart => ?_
    obtain ⟨lower, ordered, upper⟩ := Chunks.mem_chunks member
    obtain ⟨laterLower, laterOrdered, laterUpper⟩ := Chunks.mem_chunks after
    have earlier : (makeTID blocks.2 65535).blockNumber < (makeTID later.1 0).blockNumber := by
      have ends := makeTID_block (show 0 ≤ blocks.2 by omega) (by omega) 65535
      have starts := makeTID_block (show 0 ≤ later.1 by omega) (by omega) 0
      omega
    constructor
    · simp only [TID.before, Bool.or_eq_true, decide_eq_true_eq]
      exact .inl earlier
    · intro same
      have blocksSame : (makeTID blocks.2 65535).blockNumber = (makeTID later.1 0).blockNumber :=
        congrArg TID.blockNumber same
      omega
  refine ⟨ascending, ascending.imp CtidRange.disjoint_of_before, ?_, ?_, ?_, ?_⟩
  · -- A range holds the place it starts at.
    intro range member
    rw [ctidRanges, dif_pos positive, mem_map] at member
    obtain ⟨blocks, piece, rfl⟩ := member
    obtain ⟨lower, ordered, upper⟩ := Chunks.mem_chunks piece
    refine ⟨makeTID blocks.1 0, Nat.zero_le _, ?_⟩
    have block := makeTID_block (show 0 ≤ blocks.1 by omega) (by omega) 0
    apply (holds_iff (by omega) ordered (by omega) (Nat.zero_le _)).mpr
    omega
  · intro range member
    rw [ctidRanges, dif_pos positive, mem_map] at member
    obtain ⟨blocks, piece, rfl⟩ := member
    obtain ⟨lower, ordered, upper⟩ := Chunks.mem_chunks piece
    have short := Chunks.chunks_width piece
    have starts := makeTID_block (show 0 ≤ blocks.1 by omega) (by omega) 0
    have ends := makeTID_block (show 0 ≤ blocks.2 by omega) (by omega) 65535
    show ((makeTID blocks.2 65535).blockNumber - (makeTID blocks.1 0).blockNumber + 1 : Int) ≤ _
    omega
  · intro tid offset above below
    exact countP_ctidRanges first last positive offset above below
  · rw [ctidRanges, dif_pos positive, length_map, eq_comm, Int.ceil_eq_iff]
    obtain ⟨enough, needed⟩ := @Chunks.length_chunks blocksPerRange lastBlock firstBlock positive
      (by omega)
    have width : (0 : ℚ) < blocksPerRange := Int.cast_pos.mpr positive
    constructor
    · -- One range fewer would not reach the last block.
      rw [lt_div_iff₀ width]
      have : ((Chunks.chunks blocksPerRange lastBlock firstBlock positive).length - 1 : Int) *
          blocksPerRange < lastBlock - firstBlock + 1 := by
        rw [Int.sub_mul]
        omega
      exact_mod_cast this
    · -- All ranges together reach it.
      rw [div_le_iff₀ width]
      have : (lastBlock - firstBlock + 1 : Int) ≤
          (Chunks.chunks blocksPerRange lastBlock firstBlock positive).length * blocksPerRange := by
        omega
      exact_mod_cast this

theorem blocksPerBatch_pos {estimate : TableEstimate} {batchSize : Int} :
    0 < blocksPerBatch estimate batchSize ↔ 0 < estimate.totalBlocks := by
  simp only [blocksPerBatch]
  split
  · omega
  · split
    · omega
    · split <;> omega

def CtidBounds.Valid (bounds : CtidBounds) : Prop :=
  bounds.min.blockNumber ≤ bounds.max.blockNumber ∧ bounds.max.blockNumber < 4294967296

/--
Both ways to cut a table into ranges give an exact cover: of all its blocks, or of those between
bounds.
-/
theorem split_exactCover {blocksPerRange : Int} (positive : 1 ≤ blocksPerRange) :
    (∀ totalBlocks : Int, 1 ≤ totalBlocks → totalBlocks ≤ 2 ^ 32 →
      ExactCover (splitCtidRange totalBlocks blocksPerRange) 0 (totalBlocks - 1)
        blocksPerRange) ∧
    ∀ bounds : CtidBounds, bounds.Valid → ∃ ranges,
      splitCtidRangeBetween bounds blocksPerRange = .ok ranges ∧
        ExactCover ranges bounds.min.blockNumber bounds.max.blockNumber blocksPerRange := by
  constructor
  · intro totalBlocks some_block few
    rw [splitCtidRange, if_neg (by omega)]
    exact exactCover_ctidRanges (le_refl _) (by omega) (by omega) (by omega)
  · intro bounds valid
    have ordered := valid.1
    have upper := valid.2
    refine ⟨_, if_neg (by omega), ?_⟩
    exact exactCover_ctidRanges (by omega) (by omega) (by omega) (by omega)

/-- Ten blocks are covered by ranges of three. -/
theorem split_exactCover_three : (1 : Int) ≤ 3 ∧ ExactCover (splitCtidRange 10 3) 0 9 3 :=
  ⟨by decide, (split_exactCover (by decide)).1 10 (by decide) (by decide)⟩

/-- The blocks of a range planned from bounds: all if no rows are expected. -/
def perBatch (config : SnapshotConfig) (estimate : TableEstimate) (bounds : CtidBounds) : Int :=
  if estimate.estimatedRows ≤ 0 then bounds.max.blockNumber - bounds.min.blockNumber + 1
  else blocksPerBatch estimate config.batchSize

/-- Valid bounds are planned as their ranges. -/
theorem planQuerySnapshotFromBounds_found (valid : bounds.Valid) (config : SnapshotConfig)
    (query : String) (estimate : TableEstimate) :
    planQuerySnapshotFromBounds config query estimate (.ok (some bounds)) =
      .ok ⟨buildBatchQuery query true, ctidRanges bounds.min.blockNumber bounds.max.blockNumber
        (perBatch config estimate bounds), true⟩ := by
  have ordered : ¬ bounds.min.blockNumber > bounds.max.blockNumber := by
    have := valid.1
    omega
  have width : ctidBoundsBlockWidth bounds =
      .ok (bounds.max.blockNumber - bounds.min.blockNumber + 1) := if_neg ordered
  have between : ∀ blocks, splitCtidRangeBetween bounds blocks =
      .ok (ctidRanges bounds.min.blockNumber bounds.max.blockNumber blocks) := fun _ =>
    if_neg ordered
  have unfolded : planQuerySnapshotFromBounds config query estimate (.ok (some bounds)) = (do
      let blocks ← if estimate.estimatedRows ≤ 0 then ctidBoundsBlockWidth bounds
        else .ok (blocksPerBatch estimate config.batchSize)
      let ranges ← splitCtidRangeBetween bounds blocks
      return ⟨buildBatchQuery query true, ranges, true⟩) := rfl
  simp only [unfolded, width, between, perBatch]
  split <;> rfl

/-- The plan covers every row in the bounds found, and is empty only without any. -/
structure Covering (plan : SnapshotTablePlan) (probed : Bool) (probe : Option CtidBounds) :
    Prop where
  covers : probed → ∀ bounds ∈ probe, plan.tasks ≠ [] ∧ ∀ tid : TID, tid.offsetNumber ≤ 65535 →
    bounds.min.blockNumber ≤ tid.blockNumber → tid.blockNumber ≤ bounds.max.blockNumber →
    plan.tasks.countP (fun task => task.reads tid) = 1
  empty : plan.tasks = [] → probed ∧ probe = none

/-- A plan from bounds covers them if its ranges take a block. -/
theorem covering_found (valid : bounds.Valid) (query : String) (blocks : Int) :
    Covering ⟨query, ctidRanges bounds.min.blockNumber bounds.max.blockNumber blocks, true⟩ true
      (some bounds) ↔ 0 < blocks := by
  -- Only ranges without a width leave no task.
  have ordered : (bounds.min.blockNumber : Int) ≤ bounds.max.blockNumber := by
    have := valid.1
    omega
  have upper : (bounds.max.blockNumber : Int) < 4294967296 := by
    have := valid.2
    omega
  have nothing : SnapshotTablePlan.tasks ⟨query,
      ctidRanges bounds.min.blockNumber bounds.max.blockNumber blocks, true⟩ = [] ↔ blocks ≤ 0 := by
    rw [SnapshotTablePlan.tasks, if_pos rfl, map_eq_nil_iff]
    exact ctidRanges_eq_nil ordered
  constructor
  · intro covering
    by_contra none
    exact (covering.covers rfl bounds rfl).1 (nothing.mpr (by omega))
  · intro positive
    refine ⟨?_, fun empty => ?_⟩
    · rintro - found ⟨rfl⟩
      refine ⟨fun empty => ?_, fun tid offset above below => ?_⟩
      · have := nothing.mp empty
        omega
      · rw [SnapshotTablePlan.tasks, if_pos rfl, countP_map]
        exact countP_ctidRanges (by omega) upper positive offset (by omega) (by omega)
    · have := nothing.mp empty
      omega

theorem covering_unprobed (probe : Option CtidBounds) :
    Covering plan false probe ↔ plan.tasks ≠ [] :=
  ⟨fun covering empty => by simpa using (covering.empty empty).1,
    fun some_task => ⟨nofun, fun empty => absurd empty some_task⟩⟩

theorem covering_nothing : Covering plan true none := by
  refine ⟨fun _ bounds found => ?_, fun _ => ⟨rfl, rfl⟩⟩
  cases found

theorem planCtidRanges_tasks (config : SnapshotConfig) (query : String) (hasWhereClause : Bool)
    (estimate : TableEstimate) :
    (planCtidRanges config query hasWhereClause estimate).tasks ≠ [] ↔
      0 < estimate.totalBlocks := by
  have shape : (planCtidRanges config query hasWhereClause estimate).tasks =
      (splitCtidRange estimate.totalBlocks (blocksPerBatch estimate config.batchSize)).map
        fun range => ⟨buildBatchQuery query hasWhereClause, some range⟩ := rfl
  rw [shape, Ne, map_eq_nil_iff, splitCtidRange]
  split
  · rename_i no_block
    simpa using no_block
  · rename_i some_block
    have positive := (@blocksPerBatch_pos estimate config.batchSize).mpr (by omega)
    rw [ctidRanges_eq_nil (by omega)]
    omega

theorem buildSelectQuery_ne_empty (tableName : String) (columns : List String)
    (whereClause : String) : buildSelectQuery tableName columns whereClause ≠ "" := by
  -- The keyword at the start is there in any case.
  intro empty
  have length := congrArg String.length empty
  simp only [buildSelectQuery, String.length_append] at length
  have select : "SELECT ".length = 7 := by decide
  simp only [String.length_empty] at length
  omega

theorem shouldRunQuerySnapshotAsSingleTask_iff {config : SnapshotConfig} {estimate : TableEstimate}
    {maxWorkers : Int} (some_row : 0 < estimate.estimatedRows) (batch : 0 < config.batchSize)
    (workers : 0 < maxWorkers) :
    shouldRunQuerySnapshotAsSingleTask config estimate maxWorkers = true ↔
      estimate.estimatedRows ≤ config.batchSize * maxWorkers := by
  have threshold : 0 < config.batchSize * maxWorkers := Int.mul_pos batch workers
  rw [shouldRunQuerySnapshotAsSingleTask, if_neg (by omega)]
  rw [if_neg (by omega), decide_eq_true_eq]

/--
The plan for a query covers the rows it selects exactly when the table has blocks, or the rows fit
into one task, or a probe has told that there are none.
-/
theorem query_plan_covers_iff {config : SnapshotConfig} {st : TableState} {estimate : TableEstimate}
    {maxWorkers : Int} {probe : Option CtidBounds} (filtered : st.whereClause ≠ "")
    (rows : 0 ≤ estimate.estimatedRows) (batch : 0 < config.batchSize) (workers : 0 < maxWorkers)
    (valid : ∀ bounds ∈ probe, bounds.Valid) (columns : List String) :
    ∃ plan, planSnapshotTable config (st.withQuery columns) estimate maxWorkers (.ok probe) =
        .ok plan ∧
      (Covering plan (probesBounds config estimate maxWorkers) probe ↔
        0 < estimate.totalBlocks ∨ estimate.estimatedRows ≤ config.batchSize * maxWorkers ∨
          shouldProbeSparseQueryBounds estimate = true ∧ probe = none) := by
  -- One task reads everything, or the ranges are as wide as told.
  have threshold : 0 < config.batchSize * maxWorkers := Int.mul_pos batch workers
  have clause : ¬ (st.withQuery columns).whereClause = "" := filtered
  have query : (st.withQuery columns).snapshotQuery =
      some (buildSelectQuery st.tableName columns st.whereClause) := rfl
  simp only [planSnapshotTable, query, probesBounds]
  rw [if_neg clause]
  by_cases zero : estimate.estimatedRows = 0
  · -- No rows are expected, so it is the probe that decides.
    rw [if_pos zero, decide_eq_true zero, Bool.true_or]
    cases probe with
    | none => exact ⟨_, rfl, iff_of_true (covering_nothing _) (.inr (.inl (by omega)))⟩
    | some bounds =>
      have fine := valid bounds rfl
      refine ⟨_, planQuerySnapshotFromBounds_found fine _ _ _, ?_⟩
      refine iff_of_true ((covering_found fine _ _).mpr ?_) (.inr (.inl (by omega)))
      rw [perBatch, if_pos (by omega)]
      have := fine.1
      omega
  · rw [if_neg zero, decide_eq_false zero, Bool.false_or]
    have single := shouldRunQuerySnapshotAsSingleTask_iff (show 0 < estimate.estimatedRows by omega)
      batch workers
    cases alone : shouldRunQuerySnapshotAsSingleTask config estimate maxWorkers with
    | true =>
      refine ⟨_, if_pos rfl, ?_⟩
      rw [Bool.not_true, Bool.false_and, covering_unprobed]
      refine iff_of_true ?_ (.inr (.inl (single.mp alone)))
      simp [SnapshotTablePlan.tasks, buildSelectQuery_ne_empty]
    | false =>
      have many : ¬ estimate.estimatedRows ≤ config.batchSize * maxWorkers :=
        fun few => by simp [single.mpr few] at alone
      rw [if_neg Bool.false_ne_true, Bool.not_false, Bool.true_and, or_iff_right_of_imp
        (fun few => absurd few many)]
      cases sparse : shouldProbeSparseQueryBounds estimate with
      | true =>
        cases probe with
        | none => exact ⟨_, rfl, iff_of_true (covering_nothing _) (.inr ⟨rfl, rfl⟩)⟩
        | some bounds =>
          have fine := valid bounds rfl
          rw [planQuerySnapshotFromBounds_found fine]
          refine ⟨_, rfl, ?_⟩
          rw [covering_found fine, perBatch, if_neg (by omega), blocksPerBatch_pos]
          simp
      | false =>
        -- Nobody has looked for the rows, and the whole table is cut into ranges.
        refine ⟨_, if_neg Bool.false_ne_true, ?_⟩
        rw [covering_unprobed, planCtidRanges_tasks]
        simp

namespace Sample

def hundredRows : SnapshotConfig := ⟨.oneTime, [], 100, 2, false, ""⟩

def filteredTable : TableState :=
  { TableState.new "public.events" "app" with whereClause := "id > 7" }

/-- The statistics of a table without blocks, as a partitioned one. -/
def noBlocks : TableEstimate := ⟨300, 100000, 0⟩

def sixBlocks : CtidBounds := ⟨⟨0, 1⟩, ⟨5, 3⟩⟩

end Sample

open Sample

/-- A table of a thousand blocks is covered where rows were found. -/
theorem query_plan_covers_iff_thousand :
    ∃ plan, planSnapshotTable hundredRows (filteredTable.withQuery [])
        ⟨300, 100000, 1000⟩ 2 (.ok (some sixBlocks)) = .ok plan ∧
      plan.tasks ≠ [] := by
  have valid : ∀ bounds ∈ some sixBlocks, bounds.Valid := by
    rintro bounds ⟨rfl⟩
    exact ⟨by decide, by decide⟩
  obtain ⟨plan, planned, covering⟩ := query_plan_covers_iff
    (show filteredTable.whereClause ≠ "" by decide)
    (show 0 ≤ (⟨300, 100000, 1000⟩ : TableEstimate).estimatedRows by decide)
    (show 0 < hundredRows.batchSize by decide) (show (0 : Int) < 2 by decide) valid []
  exact ⟨plan, planned, ((covering.mpr (.inl (by decide))).covers (by decide) _ rfl).1⟩

/--
Without blocks in the statistics there is no task for the rows that a probe has found, nor, where
the query is not sparse, for rows that nobody has looked for.
-/
theorem query_plan_misses_rows :
    (∃ plan, planSnapshotTable hundredRows (filteredTable.withQuery [])
        noBlocks 2 (.ok (some sixBlocks)) = .ok plan ∧
      probesBounds hundredRows noBlocks 2 = true ∧ plan.tasks = []) ∧
    ∃ plan, planSnapshotTable hundredRows (filteredTable.withQuery []) ⟨300, 300, 0⟩ 2
        (.ok (some sixBlocks)) = .ok plan ∧
      probesBounds hundredRows ⟨300, 300, 0⟩ 2 = false ∧ plan.tasks = [] :=
  ⟨⟨_, rfl, by decide, rfl⟩, _, rfl, by decide, rfl⟩

end PgWalk
