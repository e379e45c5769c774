import Mathlib.Algebra.Group.Nat.Defs
import Mathlib.Order.Nat
import PgWalk.Lib.Runs
import PgWalk.Wal.OrderedMap

/-! Where a snapshot and the log meet: exporting the snapshot and reading the position. -/

namespace PgWalk

open List

/-- How positions are written and read as text, the library's choice. -/
structure LSNText where
  string : Nat → String
  parseLSN : String → Except Fault Nat
  reads : ∀ lsn < 2 ^ 64, parseLSN (string lsn) = .ok lsn

/-- The log of the server and the commits in it, oldest first. -/
structure Server where
  -- The position up to which the log is written.
  walLSN : Nat
  commits : List Nat
  fits : walLSN < 2 ^ 64
  below : ∀ commit ∈ commits, commit < walLSN
  ordered : commits.Pairwise (· < ·)

namespace Server

/-- A transaction commits: its record is appended to the log. -/
def commit (server : Server) (commitLSN endLSN : Nat) : Option Server :=
  if appended : server.walLSN ≤ commitLSN ∧ commitLSN < endLSN ∧ endLSN < 2 ^ 64 then
    some {
      walLSN := endLSN
      commits := server.commits ++ [commitLSN]
      fits := appended.2.2
      below := by
        intro commit member
        rcases mem_append.mp member with earlier | now
        · have below := server.below commit earlier
          omega
        · have same := mem_singleton.mp now
          omega
      ordered := by
        refine pairwise_append.mpr ⟨server.ordered, pairwise_singleton _ _, ?_⟩
        intro earlier member last now
        have below := server.below earlier member
        have same := mem_singleton.mp now
        omega }
  else none

/-- Any other record is appended to the log. -/
def write (server : Server) (endLSN : Nat) : Option Server :=
  if appended : server.walLSN ≤ endLSN ∧ endLSN < 2 ^ 64 then
    some { server with
      walLSN := endLSN
      fits := appended.2
      below := fun commit member => Nat.lt_of_lt_of_le (server.below commit member) appended.1 }
  else none

variable {next server : Server} {endLSN : Nat}

theorem commit_eq_some {commitLSN : Nat} (committed : server.commit commitLSN endLSN = some next) :
    server.walLSN ≤ commitLSN ∧ commitLSN < next.walLSN ∧
      next.commits = server.commits ++ [commitLSN] := by
  simp only [commit] at committed
  split at committed
  · rename_i appended
    cases committed
    exact ⟨appended.1, appended.2.1, rfl⟩
  · cases committed

theorem write_eq_some (written : server.write endLSN = some next) :
    server.walLSN ≤ next.walLSN ∧ next.commits = server.commits := by
  simp only [write] at written
  split at written
  · rename_i appended
    cases written
    exact ⟨appended.1, rfl⟩
  · cases written

end Server

/-- The snapshot that came with a new replication slot. -/
structure SlotSnapshot where
  lsn : Nat
  snapshotName : String
  -- The commits that the snapshot sees.
  visible : List Nat

/-- Whether the snapshot of a slot is taken instead of exporting one. -/
def SlotSnapshot.used (slot : SlotSnapshot) : Bool :=
  decide (slot.lsn > 0) && decide (slot.snapshotName ≠ "")

/-- How far the preparation of a snapshot has come. -/
inductive PreparePhase
  | start
  | connected
  | begun
  | exported (snapshotID : String)
  | prepared (lsn snapshotID : String)
  | failed (text : String)
deriving DecidableEq

/-- The preparation of a snapshot next to the server it talks to. -/
structure Preparation where
  server : Server
  phase : PreparePhase
  -- The commits that the exported snapshot sees.
  visible : List Nat

/-- What happens while a snapshot is prepared. -/
inductive PrepareOp
  -- The next statement of the preparation, with its result or the text of its error.
  | statement (result : Except String String)
  -- Another session commits.
  | commit (commitLSN endLSN : Nat)
  -- Any session writes a record that is not a commit.
  | write (endLSN : Nat)

/-- Begin to prepare a snapshot, unless a slot has brought one. -/
def prepareSnapshot (text : LSNText) (slotSnapshot : Option SlotSnapshot) (server : Server) :
    Preparation :=
  match slotSnapshot with
  | some slot =>
    if slot.used then ⟨server, .prepared (text.string slot.lsn) slot.snapshotName, slot.visible⟩
    else ⟨server, .start, []⟩
  | none => ⟨server, .start, []⟩

/-- One step of the preparation or of another session. -/
def prepareStep (text : LSNText) (p : Preparation) : PrepareOp → Option Preparation
  | .statement result =>
    match p.phase, result with
    | .start, .error err =>
      some { p with phase := .failed ("failed to acquire primary connection: " ++ err) }
    | .start, .ok _ => some { p with phase := .connected }
    | .connected, .error err =>
      some { p with phase := .failed ("failed to begin transaction: " ++ err) }
    | .connected, .ok _ => some { p with phase := .begun }
    | .begun, .error err => some { p with phase := .failed ("failed to export snapshot: " ++ err) }
    -- The first query of the transaction fixes what the snapshot sees.
    | .begun, .ok snapshotID =>
      some { p with phase := .exported snapshotID, visible := p.server.commits }
    | .exported _, .error err =>
      some { p with phase := .failed ("failed to get current WAL LSN: " ++ err) }
    | .exported snapshotID, .ok _ =>
      some { p with phase := .prepared (text.string p.server.walLSN) snapshotID }
    | .prepared _ _, _ | .failed _, _ => none
  | .commit commitLSN endLSN => (p.server.commit commitLSN endLSN).map fun server =>
      { p with server := server }
  | .write endLSN => (p.server.write endLSN).map fun server => { p with server := server }

/-- Nothing commits between the snapshot's export and the position's read. -/
def Undisturbed (p : Preparation) : PrepareOp → Prop
  | .commit _ _ => ∀ snapshotID, p.phase ≠ .exported snapshotID
  | _ => True

/-- What every commit that the snapshot does not see has to meet. -/
def Meets (text : LSNText) (p : Preparation) : Prop :=
  match p.phase with
  | .exported _ => p.server.commits = p.visible
  | .prepared lsn _ => ∃ position, lsn = text.string position ∧ position ≤ p.server.walLSN ∧
      ∀ commit ∈ p.server.commits, commit ∉ p.visible → position ≤ commit
  | _ => True

/-- A commit that is neither in the snapshot nor behind the position. -/
def Missed (text : LSNText) (commit : Nat) (p : Preparation) : Prop :=
  commit ∈ p.server.commits ∧ commit ∉ p.visible ∧
    match p.phase with
    | .exported _ | .failed _ => True
    | .prepared lsn _ =>
      ∃ position ≤ p.server.walLSN, lsn = text.string position ∧ commit < position
    | _ => False

variable {text : LSNText} {next p : Preparation} {op : PrepareOp}

/-- But for the preparation's statements, the log only grows. -/
theorem prepareStep_grows (taken : prepareStep text p op = some next) :
    (∃ result, op = .statement result) ∨ ∃ after new, next = { p with server := after } ∧
      p.server.walLSN ≤ after.walLSN ∧ after.commits = p.server.commits ++ new ∧
      (∀ commit ∈ new, p.server.walLSN ≤ commit) ∧
      (new = [] ∨ ∃ commitLSN endLSN, op = .commit commitLSN endLSN) := by
  cases op with
  | statement result => exact .inl ⟨result, rfl⟩
  | commit commitLSN endLSN =>
    obtain ⟨after, committed, rfl⟩ := Option.map_eq_some_iff.mp taken
    obtain ⟨appended, ends, commits⟩ := Server.commit_eq_some committed
    exact .inr ⟨after, [commitLSN], rfl, by omega, commits, by simpa using appended,
      .inr ⟨commitLSN, endLSN, rfl⟩⟩
  | write endLSN =>
    obtain ⟨after, written, rfl⟩ := Option.map_eq_some_iff.mp taken
    obtain ⟨forward, commits⟩ := Server.write_eq_some written
    exact .inr ⟨after, [], rfl, forward, by simpa using commits, by simp, .inl rfl⟩

/-- Undisturbed steps lead to a position that no unseen commit lies before. -/
theorem Meets.step (meets : Meets text p) (undisturbed : Undisturbed p op)
    (taken : prepareStep text p op = some next) : Meets text next := by
  -- While the snapshot sees everything, nothing can be passed over.
  obtain ⟨server, phase, visible⟩ := p
  obtain ⟨result, rfl⟩ | ⟨after, new, rfl, forward, commits, appended, none⟩ :=
    prepareStep_grows taken
  · cases phase with
    | start | connected => cases result <;> cases taken <;> trivial
    | begun =>
      cases result with
      | error err => cases taken; trivial
      | ok snapshotID => cases taken; exact rfl
    | exported snapshotID =>
      cases result with
      | error err => cases taken; trivial
      | ok _ =>
        cases taken
        refine ⟨server.walLSN, rfl, le_refl _, fun commit member unseen => ?_⟩
        have seen : server.commits = visible := meets
        exact absurd (seen ▸ member) unseen
    | prepared lsn snapshotID => cases taken
    | failed err => cases taken
  · cases phase with
    | start | connected | begun | failed => trivial
    | exported snapshotID =>
      obtain rfl | ⟨commitLSN, endLSN, rfl⟩ := none
      · exact (commits.trans (append_nil _)).trans meets
      · exact absurd rfl (undisturbed snapshotID)
    | prepared lsn snapshotID =>
      obtain ⟨position, same, reached, behind⟩ := meets
      refine ⟨position, same, reached.trans forward, fun commit member unseen => ?_⟩
      -- A new commit is behind the position, whatever is seen.
      rcases mem_append.mp (commits ▸ member) with earlier | now
      · exact behind commit earlier unseen
      · exact reached.trans (appended commit now)

/-- A commit that is missed stays missed. -/
theorem Missed.step {commit : Nat} (missed : Missed text commit p)
    (taken : prepareStep text p op = some next) : Missed text commit next := by
  obtain ⟨server, phase, visible⟩ := p
  obtain ⟨member, unseen, passed⟩ := missed
  obtain ⟨result, rfl⟩ | ⟨after, new, rfl, forward, commits, -⟩ := prepareStep_grows taken
  · cases phase with
    | start | connected | begun => exact passed.elim
    | exported snapshotID =>
      cases result with
      | error err => cases taken; exact ⟨member, unseen, trivial⟩
      | ok _ =>
        cases taken
        exact ⟨member, unseen, server.walLSN, le_refl _, rfl, server.below commit member⟩
    | prepared lsn snapshotID => cases taken
    | failed err => cases taken
  · refine ⟨commits ▸ mem_append_left _ member, unseen, ?_⟩
    cases phase with
    | start | connected | begun => exact passed.elim
    | exported | failed => trivial
    | prepared lsn snapshotID =>
      obtain ⟨position, reached, same, behind⟩ := passed
      exact ⟨position, reached.trans forward, same, behind⟩

/-- A disturbed preparation misses a commit. -/
theorem Missed.of_disturbed (meets : Meets text p) (disturbed : ¬ Undisturbed p op)
    (taken : prepareStep text p op = some next) : ∃ commit, Missed text commit next := by
  cases op with
  | statement result | write endLSN => exact absurd trivial disturbed
  | commit commitLSN endLSN =>
    obtain ⟨snapshotID, exported⟩ : ∃ snapshotID, p.phase = .exported snapshotID := by
      by_contra other
      exact disturbed fun snapshotID same => other ⟨snapshotID, same⟩
    obtain ⟨after, committed, rfl⟩ := Option.map_eq_some_iff.mp taken
    obtain ⟨appended, -, commits⟩ := Server.commit_eq_some committed
    simp only [Meets, exported] at meets
    refine ⟨commitLSN, ?_, ?_, by simp only [exported]⟩
    · rw [commits]
      exact mem_append_right _ mem_cons_self
    · -- The snapshot sees what was in the log before, and the record lies behind all of it.
      intro seen
      have below := p.server.below commitLSN (meets ▸ seen)
      omega

/--
When no slot has brought a snapshot, every transaction that the exported snapshot does not see
commits at the returned position or behind it exactly when no transaction commits between the
export of the snapshot and the read of the position.
-/
theorem prepareSnapshot_meets_iff {text : LSNText} {slot : Option SlotSnapshot}
    (unused : slot.all fun snapshot => !snapshot.used) {server : Server} {ops : List PrepareOp}
    {p : Preparation} {lsn snapshotID : String} {position : Nat}
    (reached : Runs.run (prepareStep text) (prepareSnapshot text slot server) ops = some p)
    (prepared : p.phase = .prepared lsn snapshotID) (parsed : text.parseLSN lsn = .ok position) :
    (∀ commit ∈ p.server.commits, commit ∉ p.visible → position ≤ commit) ↔
      Runs.Along (prepareStep text) Undisturbed (prepareSnapshot text slot server) ops := by
  -- Without a slot's snapshot it begins with the connection.
  have begins : prepareSnapshot text slot server = ⟨server, .start, []⟩ := by
    cases slot with
    | none => rfl
    | some snapshot =>
      have idle : snapshot.used = false := by simpa using unused
      simp [prepareSnapshot, idle]
  rw [begins] at reached ⊢
  -- The text that was returned reads as its position.
  have reads : ∀ written ≤ p.server.walLSN, lsn = text.string written → position = written := by
    intro written small same
    have round := text.reads written (Nat.lt_of_le_of_lt small p.server.fits)
    rw [← same, parsed] at round
    exact Except.ok.inj round
  -- While undisturbed, the preparation passes over no commit.
  have undisturbedMeets : ∀ {labels mid},
      Runs.Along (prepareStep text) Undisturbed ⟨server, .start, []⟩ labels →
      Runs.run (prepareStep text) ⟨server, .start, []⟩ labels = some mid → Meets text mid := by
    intro labels mid quiet led
    have begun : Meets text ⟨server, .start, []⟩ := trivial
    exact Runs.invariant (fun _ _ _ meets undisturbed taken => meets.step undisturbed taken) begun
      quiet led
  constructor
  · intro behind
    by_contra broken
    obtain ⟨first, op, rest, mid, rfl, led, quiet, disturbed⟩ := Runs.exists_of_not_along broken
    rw [Runs.run_append, led, Option.bind_some] at reached
    obtain ⟨after, taken, reached⟩ := Runs.run_cons.mp reached
    -- The commit that disturbs is missed to the end of the run.
    obtain ⟨commit, missedFirst⟩ := Missed.of_disturbed (undisturbedMeets quiet led) disturbed taken
    have missed : Missed text commit p := Runs.invariant
      (fun _ _ _ missed _ taken => missed.step taken) missedFirst Runs.along_true reached
    obtain ⟨member, unseen, passed⟩ := missed
    simp only [prepared] at passed
    obtain ⟨written, small, same, less⟩ := passed
    have atLeast := behind commit member unseen
    have same := reads written small same
    omega
  · intro undisturbed
    have meets := undisturbedMeets undisturbed reached
    simp only [Meets, prepared] at meets
    obtain ⟨written, same, small, behind⟩ := meets
    rw [reads written small same]
    exact behind

namespace Sample

/-- Positions as rows of strokes. -/
def lsnText : LSNText where
  string lsn := String.ofList (List.replicate lsn '|')
  parseLSN written := .ok written.length
  reads lsn _ := by rw [String.length_ofList, length_replicate]

/-- A server whose log reaches position 100, without a commit. -/
def server : Server := ⟨100, [], by decide, by simp, List.Pairwise.nil⟩

/-- A commit before the export or right behind it, and the position's read. -/
def prepareAround (early : Bool) : List PrepareOp :=
  let commit := [PrepareOp.commit 100 110]
  let export_ := [PrepareOp.statement (.ok "00000003-1")]
  [.statement (.ok ""), .statement (.ok "")] ++
    (if early then commit ++ export_ else export_ ++ commit) ++ [.statement (.ok "")]

end Sample

open Sample

/-- A commit before the export is in the snapshot. -/
theorem prepareSnapshot_meets_iff_early :
    ∃ p, Runs.run (prepareStep lsnText) (prepareSnapshot lsnText none Sample.server)
        (prepareAround true) = some p ∧
      p.phase = .prepared (lsnText.string 110) "00000003-1" ∧
      ∀ commit ∈ p.server.commits, commit ∉ p.visible → 110 ≤ commit := by
  obtain ⟨p, reached, prepared⟩ : ∃ p, Runs.run (prepareStep lsnText)
      (prepareSnapshot lsnText none Sample.server) (prepareAround true) = some p ∧
      p.phase = .prepared (lsnText.string 110) "00000003-1" := ⟨_, rfl, rfl⟩
  have quiet : Runs.Along (prepareStep lsnText) Undisturbed
      (prepareSnapshot lsnText none Sample.server) (prepareAround true) :=
    .cons trivial rfl (.cons trivial rfl (.cons (fun _ => nofun) rfl
      (.cons trivial rfl (.last trivial))))
  exact ⟨p, reached, prepared, (prepareSnapshot_meets_iff rfl reached prepared
    (lsnText.reads 110 (by decide))).mpr quiet⟩

/-- A commit between export and read is in neither part. -/
theorem prepareSnapshot_missed_commit :
    ∃ p, Runs.run (prepareStep lsnText) (prepareSnapshot lsnText none Sample.server)
        (prepareAround false) = some p ∧
      p.phase = .prepared (lsnText.string 110) "00000003-1" ∧
      100 ∈ p.server.commits ∧ 100 ∉ p.visible ∧
      lsnText.parseLSN (lsnText.string 110) = .ok 110 ∧ ¬ 110 ≤ 100 :=
  ⟨_, rfl, rfl, mem_cons_self, not_mem_nil, lsnText.reads 110 (by decide),
    by decide⟩

end PgWalk
