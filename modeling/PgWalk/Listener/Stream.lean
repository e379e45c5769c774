import PgWalk.Lib.Runs
import PgWalk.Listener.NetEffect
import PgWalk.Listener.Publication

/-! Streamed transactions: what the server means by its blocks, and what the listener keeps. -/

namespace PgWalk

open PGBufferedListener

open Function (update update_eq_self update_self)

variable {V : Type}

/-- What is being sent: nothing, a whole transaction, or a stream block. -/
inductive OpenTx
  | none
  | whole (xid : Nat)
  | block (top : Nat)
deriving DecidableEq

/-- The server's side of the conversation. -/
structure Session (V : Type) where
  opened : OpenTx
  -- The surviving changes of each unfinished transaction, each with the one that made it.
  log : Nat → List (Nat × Change V)
  -- Everything that has sent a change on behalf of an unfinished transaction.
  parts : Nat → List Nat

namespace Session

/-- A server that has sent nothing. -/
def start : Session V := ⟨.none, fun _ => [], fun _ => []⟩

variable (session : Session V)

/-- A change made by a transaction or by one of its subtransactions. -/
def append (top xid : Nat) (change : Change V) : Session V where
  opened := session.opened
  log := update session.log top (session.log top ++ [(xid, change)])
  parts := update session.parts top (session.parts top ++ [xid])

/-- The end of a transaction, whichever way. -/
def finish (top : Nat) : Session V where
  opened := session.opened
  log := update session.log top []
  parts := update session.parts top []

/-- The abort of a subtransaction takes back its own changes only. -/
def rollback (top sub : Nat) : Session V where
  opened := session.opened
  log := update session.log top ((session.log top).filter fun item => item.1 ≠ sub)
  parts := session.parts

/-- The session after a message, read as the listener reads it. -/
def after (rl : PGBufferedListener V) (session : Session V) : LogicalMessage → Session V
  | .txBegin msg => { session with opened := .whole msg.xid }
  | .txCommit _ =>
    match session.opened with
    | .whole xid => { session.finish xid with opened := .none }
    | _ => session
  | .change msg =>
    match session.opened, rl.changeOf msg with
    | .whole xid, .ok change => session.append xid xid change
    | .block top, .ok change => session.append top msg.xid change
    | _, _ => session
  | .streamStart msg => { session with opened := .block msg.xid }
  | .streamStop => { session with opened := .none }
  | .streamCommit msg => session.finish msg.xid
  | .streamAbort msg =>
    if msg.subXid = msg.xid then session.finish msg.xid else session.rollback msg.xid msg.subXid
  | .relation _ _ | .truncate | .type | .origin | .decoding _ => session

/-- The messages a server may send next. -/
def Conforms : LogicalMessage → Prop
  | .txBegin msg => session.opened = .none ∧ 0 < msg.xid
  | .txCommit _ => ∃ xid, session.opened = .whole xid
  | .change msg =>
    -- Only inside a block does a change name the transaction that made it.
    match session.opened with
    | .none => False
    | .whole _ => msg.xid = 0
    | .block _ => 0 < msg.xid
  | .streamStart msg => session.opened = .none ∧ 0 < msg.xid
  | .streamStop => ∃ top, session.opened = .block top
  | .streamCommit _ | .streamAbort _ => session.opened = .none
  | .relation _ _ | .truncate | .type | .origin | .decoding _ => True

/--
No subtransaction matters: those that change rows do not appear, and those that are aborted are
aborted before their transaction has a change.
-/
def TopLevelOnly : LogicalMessage → Prop
  | .change msg => ∀ top, session.opened = .block top → msg.xid = top
  | .streamAbort msg => msg.subXid ≠ msg.xid → session.log msg.xid = []
  | _ => True

/-- The changes of a transaction that were not taken back, in order. -/
def surviving (top : Nat) : List (Change V) :=
  (session.log top).map Prod.snd

end Session

open Session

/-- Listener and server after a message that the listener handles. -/
def sessionStep (state : PGBufferedListener V × Session V) (msg : LogicalMessage) :
    Option (PGBufferedListener V × Session V) :=
  match state.1.handle msg with
  | .ok (next, _) => some (next, state.2.after state.1 msg)
  | .error _ => none

/-- What the end of a streamed transaction, or of a part, has to do. -/
def StreamEndCorrect (rl : PGBufferedListener V) (session : Session V) : LogicalMessage → Prop
  | .streamCommit msg => ∃ next, rl.handle (.streamCommit msg) = .ok (next,
      [requestOf (coalesce (session.surviving msg.xid)).entries msg.commitLSN
        msg.xid msg.commitTime]) ∧
      ∀ part ∈ msg.xid :: session.parts msg.xid, next.txCache part = none
  | .streamAbort msg => ∃ next, rl.handle (.streamAbort msg) = .ok (next, []) ∧
      if msg.subXid = msg.xid then
        ∀ part ∈ msg.xid :: session.parts msg.xid, next.txCache part = none
      else ∀ xid, xid ≠ msg.subXid → next.txCache xid = rl.txCache xid
  | _ => True

/-- The rows cached for a transaction, an empty list when it has none. -/
def PGBufferedListener.cachedList (rl : PGBufferedListener V) (xid : Nat) : TxList V :=
  (rl.txCache xid).getD TxList.newTxList

/-- The listener keeps what survives of every unfinished transaction. -/
structure Agrees (rl : PGBufferedListener V) (session : Session V) : Prop where
  merged : ∀ xid, rl.cachedList xid = coalesce (session.surviving xid)
  absent : ∀ xid, session.log xid = [] → rl.txCache xid = none
  kinds : ∀ xid, ∀ change ∈ session.surviving xid, change.kind ≠ .snapshotRead
  own : ∀ xid, ∀ part ∈ session.parts xid, part = xid
  current : ∀ xid, session.opened = .whole xid → rl.currentXID = xid ∧ 0 < xid

namespace Agrees

variable {rl next : PGBufferedListener V} {session : Session V}

theorem start (clean : rl.txCache = fun _ => none) : Agrees rl Session.start where
  merged xid := by rw [cachedList, clean]; rfl
  absent xid _ := by rw [clean]
  kinds xid change member := by simp [surviving, Session.start] at member
  own xid part member := by simp [Session.start] at member
  current xid opened := by simp [Session.start] at opened

section

variable (agrees : Agrees rl session)

include agrees

theorem transfer {opened : OpenTx} (cache : next.txCache = rl.txCache)
    (current : ∀ xid, opened = .whole xid → next.currentXID = xid ∧ 0 < xid) :
    Agrees next { session with opened := opened } where
  merged xid := by
    have rows : next.cachedList xid = rl.cachedList xid := by
      rw [cachedList, cache]; rfl
    exact rows.trans (agrees.merged xid)
  absent xid gone := by rw [cache]; exact agrees.absent xid gone
  kinds := agrees.kinds
  own := agrees.own
  current := current

/-- A change cached under the transaction that the server counts it for. -/
theorem append (xid : Nat) {change : Change V} (kind : change.kind ≠ .snapshotRead) :
    Agrees (rl.cacheChange xid change) (session.append xid xid change) where
  merged other := by
    -- The list of this transaction grows by the change, the others stay.
    by_cases same : other = xid
    · subst same
      have grown : (session.append other other change).surviving other =
          session.surviving other ++ [change] := by
        simp [Session.append, surviving]
      rw [grown, coalesce_snoc, ← agrees.merged other]
      simp [cachedList, cacheChange]
    · have kept : (session.append xid xid change).surviving other = session.surviving other := by
        simp [Session.append, surviving, same]
      rw [kept, ← agrees.merged other]
      simp [cachedList, cacheChange, same]
  absent other gone := by
    by_cases same : other = xid
    · simp [Session.append, same] at gone
    · have gone : session.log other = [] := by simpa [Session.append, same] using gone
      simpa [cacheChange, same] using agrees.absent other gone
  kinds other found member := by
    by_cases same : other = xid
    · subst same
      simp only [surviving, Session.append, update_self, List.map_append, List.mem_append] at member
      rcases member with earlier | last
      · exact agrees.kinds other found earlier
      · obtain rfl : found = change := by simpa using last
        exact kind
    · have member : found ∈ session.surviving other := by
        simpa [surviving, Session.append, same] using member
      exact agrees.kinds other found member
  own other part member := by
    by_cases same : other = xid
    · subst same
      simp only [Session.append, update_self, List.mem_append, List.mem_singleton] at member
      exact member.elim (agrees.own other part) id
    · exact agrees.own other part (by simpa [Session.append, same] using member)
  current := agrees.current

/-- A transaction whose rows are dropped when the server is done with it. -/
theorem finish (xid : Nat) (cache : next.txCache = update rl.txCache xid none)
    (current : next.currentXID = rl.currentXID) : Agrees next (session.finish xid) where
  merged other := by
    -- Of the finished transaction nothing is left on either side.
    by_cases same : other = xid
    · subst same
      simp [cachedList, cache, surviving, Session.finish, coalesce]
    · have kept := agrees.merged other
      simpa [cachedList, cache, surviving, Session.finish, same]
        using kept
  absent other gone := by
    by_cases same : other = xid
    · simp [cache, same]
    · have gone : session.log other = [] := by simpa [Session.finish, same] using gone
      simpa [cache, same] using agrees.absent other gone
  kinds other change member := by
    by_cases same : other = xid
    · simp [surviving, Session.finish, same] at member
    · have member : change ∈ session.surviving other := by
        simpa [surviving, Session.finish, same] using member
      exact agrees.kinds other change member
  own other part member := by
    by_cases same : other = xid
    · simp [Session.finish, same] at member
    · exact agrees.own other part (by simpa [Session.finish, same] using member)
  current other opened := by rw [current]; exact agrees.current other opened

theorem rollback {top sub : Nat} (none : session.log top = [])
    (cache : next.txCache = update rl.txCache top Option.none)
    (current : next.currentXID = rl.currentXID) : Agrees next (session.rollback top sub) := by
  -- Nothing is logged for the transaction, so rolling back filters nothing.
  have sameLog : update session.log top
      ((session.log top).filter fun item => item.1 ≠ sub) = session.log := by
    rw [none, List.filter_nil, ← none, update_eq_self]
  have sameCache : next.txCache = rl.txCache := by
    rw [cache, ← agrees.absent top none, update_eq_self]
  rw [Session.rollback, sameLog]
  exact agrees.transfer sameCache fun xid opened => by
    rw [current]; exact agrees.current xid opened

end

end Agrees

variable {next rl : PGBufferedListener V} {session : Session V} {msg : LogicalMessage}

/-- A relation message leaves the cache and the current transaction alone. -/
theorem PGBufferedListener.onRelation_frame {msg : RelationMessage}
    {publication : Except Fault (List Table)} (handled : rl.onRelation msg publication = .ok next) :
    next.txCache = rl.txCache ∧ next.currentXID = rl.currentXID := by
  obtain ⟨pubTables, tables, pgTable, -, -, -, -, rfl⟩ := onRelation_eq_ok.mp handled
  exact ⟨rfl, rfl⟩

namespace PGBufferedListener

/-- What handling a message leaves, and the requests it hands over. -/
inductive Handling (rl : PGBufferedListener V) :
    LogicalMessage → PGBufferedListener V → List (WriteRequest V) → Prop
  | relation {msg : RelationMessage} {publication : Except Fault (List Table)}
      {next : PGBufferedListener V} (done : rl.onRelation msg publication = .ok next) :
      Handling rl (.relation msg publication) next []
  | txBegin (msg : BeginMessage) : Handling rl (.txBegin msg) (rl.onTxBegin msg) []
  | txCommit {msg : CommitMessage} {req : WriteRequest V} (positive : 0 < rl.currentXID)
      (sent : sendToLSNTracker (rl.txCache rl.currentXID) msg.transactionEndLSN rl.currentXID
        msg.commitTime = .ok req) :
      Handling rl (.txCommit msg)
        { rl with txCache := update rl.txCache rl.currentXID none, currentXID := 0 } [req]
  -- Outside a transaction a commit is ignored.
  | ignored {msg : CommitMessage} (idle : ¬ 0 < rl.currentXID) : Handling rl (.txCommit msg) rl []
  | change {msg : ChangeMessage} {change : Change V} (read : rl.changeOf msg = .ok change) :
      Handling rl (.change msg) (rl.cacheChange (rl.xidFromMsgOrCurrent msg.xid) change) []
  | streamCommit {msg : StreamCommitMessage} {req : WriteRequest V}
      (sent : sendToLSNTracker (rl.txCache msg.xid) msg.commitLSN msg.xid msg.commitTime =
        .ok req) :
      Handling rl (.streamCommit msg) { rl with txCache := update rl.txCache msg.xid none } [req]
  | streamAbort (msg : StreamAbortMessage) :
      Handling rl (.streamAbort msg) (rl.onStreamAbort msg) []
  | decoding (msg : LogicalDecodingMessage) :
      Handling rl (.decoding msg) rl (rl.onLogicalDecodingMessage msg).toList
  | truncate : Handling rl .truncate rl []
  | type : Handling rl .type rl []
  | origin : Handling rl .origin rl []
  | streamStart (msg : StreamStartMessage) : Handling rl (.streamStart msg) rl []
  | streamStop : Handling rl .streamStop rl []

/-- A message that is handled is handled in one of these ways. -/
theorem handling {reqs : List (WriteRequest V)} (handled : rl.handle msg = .ok (next, reqs)) :
    Handling rl msg next reqs := by
  -- Only four handlers can fail, so only these are taken apart.
  cases msg with
  | relation msg publication =>
    obtain ⟨merged, done, kept⟩ := bind_eq_ok.mp handled
    cases kept
    exact .relation done
  | txCommit msg =>
    obtain ⟨⟨committed, req⟩, done, kept⟩ := bind_eq_ok.mp handled
    cases kept
    simp only [onTxCommit] at done
    split at done
    · rename_i positive
      obtain ⟨req, sent, done⟩ := bind_eq_ok.mp done
      cases done
      exact .txCommit positive sent
    · rename_i idle
      cases done
      exact .ignored idle
  | change msg =>
    obtain ⟨cached, done, kept⟩ := bind_eq_ok.mp handled
    cases kept
    rw [onChange_eq] at done
    obtain ⟨change, read, kept⟩ := bind_eq_ok.mp done
    cases kept
    exact .change read
  | streamCommit msg =>
    obtain ⟨⟨committed, req⟩, done, kept⟩ := bind_eq_ok.mp handled
    cases kept
    obtain ⟨req, sent, done⟩ := bind_eq_ok.mp done
    cases done
    exact .streamCommit sent
  | txBegin | truncate | type | origin | decoding | streamStart | streamStop | streamAbort =>
    cases handled
    constructor

end PGBufferedListener

/-- What is handed over for a transaction are its surviving changes. -/
theorem Agrees.sent (agrees : Agrees rl session) (xid : Nat) (lsn : Nat) (commitTime : Nat) :
    sendToLSNTracker (rl.txCache xid) lsn xid commitTime =
      .ok (requestOf (coalesce (session.surviving xid)).entries lsn xid commitTime) := by
  -- The rows are the merged changes, whether or not there is a list for them.
  have rows : rl.cachedRows xid = (coalesce (session.surviving xid)).entries := by
    rw [← agrees.merged xid]
    cases cached : rl.txCache xid <;>
      simp [cachedRows, cachedList, cached, TxList.newTxList]
  exact sendToLSNTracker_eq rows (agrees.kinds xid) lsn commitTime

/-- Without subtransactions every message keeps listener and server agreed. -/
theorem Agrees.step {reqs : List (WriteRequest V)} (agrees : Agrees rl session)
    (conforms : session.Conforms msg) (top : session.TopLevelOnly msg)
    (handled : rl.handle msg = .ok (next, reqs)) : Agrees next (session.after rl msg) := by
  -- One case for each way to handle a message.
  cases handling handled with
  | relation done =>
    obtain ⟨cache, current⟩ := onRelation_frame done
    exact agrees.transfer cache fun xid opened => current ▸ agrees.current xid opened
  | txBegin msg =>
    refine agrees.transfer rfl fun xid opened => ?_
    cases opened
    exact ⟨rfl, conforms.2⟩
  | ignored idle =>
    obtain ⟨xid, opened⟩ := conforms
    exact absurd (agrees.current xid opened).2 ((agrees.current xid opened).1 ▸ idle)
  | txCommit =>
    -- The commit belongs to the open transaction, the listener's current one.
    obtain ⟨xid, opened⟩ := conforms
    obtain ⟨rfl, -⟩ := agrees.current xid opened
    have finished : Agrees { rl with txCache := update rl.txCache rl.currentXID none }
        (session.finish rl.currentXID) := agrees.finish rl.currentXID rfl rfl
    simp only [after, opened]
    exact finished.transfer rfl fun xid opened => by cases opened
  | @change msg change read =>
    have kind := changeOf_kind read
    simp only [Conforms] at conforms
    cases opened : session.opened with
    | none => simp [opened] at conforms
    | whole xid =>
      -- The change names no transaction, so it is cached under the current one.
      simp only [opened] at conforms
      have target : rl.xidFromMsgOrCurrent msg.xid = xid := by
        rw [xidFromMsgOrCurrent, if_pos conforms]
        exact (agrees.current xid opened).1
      rw [target]
      simp only [after, opened, read]
      exact agrees.append xid kind
    | block block =>
      -- Inside a block the change names the transaction that is streamed.
      simp only [opened] at conforms
      have named : msg.xid = block := top block opened
      have target : rl.xidFromMsgOrCurrent msg.xid = block := by
        rw [xidFromMsgOrCurrent, if_neg (Nat.pos_iff_ne_zero.mp conforms), named]
      rw [target]
      simp only [after, opened, read, named]
      exact agrees.append block kind
  | truncate | type | origin | decoding => exact agrees
  | streamStart | streamStop =>
    exact agrees.transfer rfl fun xid opened => by cases opened
  | streamCommit => exact agrees.finish _ rfl rfl
  | streamAbort msg =>
    simp only [after]
    -- The transaction is dropped as a whole, or only in part.
    by_cases whole : msg.subXid = msg.xid
    · rw [if_pos whole]
      exact agrees.finish msg.xid rfl rfl
    · rw [if_neg whole]
      exact agrees.rollback (top whole) rfl rfl

/-- Agreement is what makes the end of a streamed transaction correct. -/
theorem Agrees.streamEnd (agrees : Agrees rl session) (top : session.TopLevelOnly msg) :
    StreamEndCorrect rl session msg := by
  -- Nothing was cached under any other number.
  have dropped : ∀ xid, ∀ part ∈ xid :: session.parts xid,
      update rl.txCache xid none part = none := by
    intro xid part member
    have named : part = xid := (List.mem_cons.mp member).elim id (agrees.own xid part)
    rw [named, update_self]
  cases msg with
  | streamCommit msg =>
    refine ⟨{ rl with txCache := update rl.txCache msg.xid none }, ?_, dropped msg.xid⟩
    simp only [handle, onStreamCommit, agrees.sent]
    rfl
  | streamAbort msg =>
    refine ⟨_, rfl, ?_⟩
    by_cases whole : msg.subXid = msg.xid
    · rw [if_pos whole]
      exact dropped msg.xid
    · rw [if_neg whole]
      intro xid _
      have absent := agrees.absent msg.xid (top whole)
      simp only [onStreamAbort]
      rw [← absent, update_eq_self]
  | _ => trivial

/--
In every conforming session in which no subtransaction matters, streamed transactions end
correctly: whatever came before, the message that ends one does what it has to.
-/
theorem streamed_end_correct {first rl : PGBufferedListener V} {session : Session V}
    {msgs : List LogicalMessage} {msg : LogicalMessage} (clean : first.txCache = fun _ => none)
    (admitted : Runs.Along sessionStep
      (fun state msg => state.2.Conforms msg ∧ state.2.TopLevelOnly msg)
      (first, start) (msgs ++ [msg]))
    (reached : Runs.run sessionStep (first, start) msgs = some (rl, session)) :
    StreamEndCorrect rl session msg := by
  -- The last message is checked after the run before it.
  obtain ⟨earlier, last⟩ := Runs.along_append.mp admitted
  have agrees : Agrees rl session := by
    refine @Runs.invariant _ _ _ _ (fun state => Agrees state.1 state.2) ?_ _ _ _
      (Agrees.start clean) earlier reached
    rintro ⟨rl, session⟩ msg next agrees ⟨conforms, top⟩ taken
    simp only [sessionStep] at taken
    split at taken
    · rename_i handled
      cases taken
      exact agrees.step conforms top handled
    · cases taken
  exact agrees.streamEnd (last _ reached).1.2

namespace Sample

/-- A new row with id 1, made by the given streamed transaction. -/
def streamedInsert (xid : Nat) : LogicalMessage := .change (.insert ⟨xid, 16384, user 49 97⟩)

/-- A block of the streamed transaction 5 with a change of the given number. -/
def streamedBlock (xid : Nat) : List LogicalMessage :=
  [.streamStart ⟨5⟩, streamedInsert xid, .streamStop]

end Sample

open Sample

/-- A block's change by the transaction itself is handed over. -/
theorem streamed_end_correct_own_change :
    ∃ rl session, Runs.run sessionStep (listener, start) (streamedBlock 5) =
        some (rl, session) ∧ StreamEndCorrect rl session (.streamCommit ⟨5, 100, 110, 0⟩) := by
  have admitted : Runs.Along sessionStep
      (fun state msg => state.2.Conforms msg ∧ state.2.TopLevelOnly msg)
      (listener, start)
      (streamedBlock 5 ++ [.streamCommit ⟨5, 100, 110, 0⟩]) :=
    .cons ⟨⟨rfl, by decide⟩, trivial⟩ rfl
      (.cons ⟨show 0 < 5 by decide, fun _ opened => by cases opened; rfl⟩ rfl
        (.cons ⟨⟨5, rfl⟩, trivial⟩ rfl (.last ⟨rfl, trivial⟩)))
  obtain ⟨rl, session, reached⟩ : ∃ rl session, Runs.run sessionStep
      (listener, start) (streamedBlock 5) = some (rl, session) :=
    ⟨_, _, rfl⟩
  exact ⟨rl, session, reached, streamed_end_correct rfl admitted reached⟩

/-- A subtransaction's change is missing when its transaction commits. -/
theorem streamed_end_subtransaction :
    ∃ rl session, Runs.run sessionStep (listener, start) (streamedBlock 6) = some (rl, session) ∧
      Runs.Along sessionStep (fun state msg => state.2.Conforms msg)
        (listener, start)
        (streamedBlock 6 ++ [.streamCommit ⟨5, 100, 110, 0⟩]) ∧
      ¬ StreamEndCorrect rl session (.streamCommit ⟨5, 100, 110, 0⟩) := by
  -- The request is empty, although one change survives.
  refine ⟨_, _, rfl, .cons ⟨rfl, by decide⟩ rfl
    (.cons (show 0 < 6 by decide) rfl (.cons ⟨5, rfl⟩ rfl (.last rfl))), ?_⟩
  rintro ⟨next, handled, -⟩
  have sizes : [0] = [1] := congrArg (fun result => ((result.toOption.map fun answer =>
    answer.2.map fun req => req.entries.length).getD [])) handled
  exact absurd sizes (by decide)

end PgWalk
