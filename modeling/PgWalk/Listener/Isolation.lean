import PgWalk.Listener.Stream

/-! Transactions do not see each other: what one of them hands over depends on its own messages. -/

namespace PgWalk

open PGBufferedListener Session Function

variable {V : Type}

namespace PGBufferedListener

variable (rl : PGBufferedListener V)

/-- The listener without its cache: what decides how messages are read. -/
def schema : PGBufferedListener V :=
  { rl with
    txCache := fun _ => none
    currentXID := 0 }

theorem changeOf_schema (msg : ChangeMessage) : rl.schema.changeOf msg = rl.changeOf msg := by
  cases msg <;> rfl

variable {next rl : PGBufferedListener V} {reqs : List (WriteRequest V)} {xid : Nat}
  {req : WriteRequest V} {msg : ChangeMessage}

/-- What a relation message does to the schema does not depend on what is cached. -/
theorem onRelation_of_schema {other : PGBufferedListener V} {msg : RelationMessage}
    {publication : Except Fault (List Table)} (same : other.schema = rl.schema)
    (done : rl.onRelation msg publication = .ok next) :
    ∃ otherNext, other.onRelation msg publication = .ok otherNext ∧
      otherNext.schema = next.schema := by
  -- What a relation changes is computed from the schema.
  obtain ⟨pubTables, tables, pgTable, listed, filed, complete, found, rfl⟩ :=
    onRelation_eq_ok.mp done
  have tablesSame : other.schema.tables = rl.schema.tables := by rw [same]
  refine ⟨other.described msg tables pgTable, onRelation_eq_ok.mpr
    ⟨pubTables, tables, pgTable, listed, tablesSame.symm ▸ filed, complete, found, rfl⟩, ?_⟩
  exact congrArg (fun schema => schema.described msg tables pgTable) same

/-- Only a relation message changes the schema. -/
theorem handle_schema {msg : LogicalMessage} (handled : rl.handle msg = .ok (next, reqs))
    (other : ∀ rel publication, msg ≠ .relation rel publication) : next.schema = rl.schema := by
  -- The handlers of other messages change the cache and the current transaction only.
  cases handling handled with
  | relation => exact absurd rfl (other _ _)
  | _ => rfl

theorem handle_txCommit {msg : CommitMessage} (current : rl.currentXID = xid) (positive : 0 < xid)
    (sent : sendToLSNTracker (rl.txCache xid) msg.transactionEndLSN xid msg.commitTime = .ok req) :
    rl.handle (.txCommit msg) = .ok ({ rl with
      txCache := Function.update rl.txCache xid none
      currentXID := 0 }, [req]) := by
  subst current
  simp only [handle, onTxCommit, if_pos positive, sent]
  rfl

theorem handle_streamCommit {msg : StreamCommitMessage}
    (sent : sendToLSNTracker (rl.txCache msg.xid) msg.commitLSN msg.xid msg.commitTime = .ok req) :
    rl.handle (.streamCommit msg) =
      .ok ({ rl with txCache := Function.update rl.txCache msg.xid none }, [req]) := by
  simp only [handle, onStreamCommit, sent]
  rfl

theorem handle_change {change : Change V} (read : rl.changeOf msg = .ok change)
    (target : rl.xidFromMsgOrCurrent msg.xid = xid) :
    rl.handle (.change msg) = .ok (rl.cacheChange xid change, []) := by
  simp only [handle, onChange_eq, read, target]
  rfl

theorem changeOf_of_handle (handled : rl.handle (.change msg) = .ok (next, reqs)) :
    ∃ change, rl.changeOf msg = .ok change := by
  cases handling handled with
  | change read => exact ⟨_, read⟩

end PGBufferedListener

def listenerStep (rl : PGBufferedListener V) (msg : LogicalMessage) :
    Option (PGBufferedListener V) :=
  (rl.handle msg).toOption.map Prod.fst

variable {next rl : PGBufferedListener V} {msg : LogicalMessage}

theorem listenerStep_of_handle {reqs : List (WriteRequest V)}
    (handled : rl.handle msg = .ok (next, reqs)) : listenerStep rl msg = some next := by
  simp [listenerStep, handled, Except.toOption]

def OpenTx.xid : OpenTx → Option Nat
  | .none => Option.none
  | .whole xid => some xid
  | .block top => some top

namespace Session

variable (session : Session V)

/-- A message's transaction, unless the whole session goes on with it. -/
def owner : LogicalMessage → Option Nat
  | .relation _ _ | .type | .origin => none
  | .txBegin msg => some msg.xid
  | .streamStart msg => some msg.xid
  | .streamCommit msg => some msg.xid
  | .streamAbort msg => some msg.xid
  | .txCommit _ | .change _ | .truncate | .decoding _ | .streamStop => session.opened.xid

def NoSubtransactions : LogicalMessage → Prop
  | .change msg => ∀ top, session.opened = .block top → msg.xid = top
  | .streamAbort msg => msg.subXid = msg.xid
  | _ => True

def Commits (xid : Nat) : LogicalMessage → Prop
  | .txCommit _ => session.opened = .whole xid
  | .streamCommit msg => session.opened = .none ∧ msg.xid = xid
  | _ => False

/-- Nothing of a transaction is open: it has ended, or it has not begun. -/
def AtRest (xid : Nat) : Prop :=
  session.log xid = [] ∧ session.opened.xid ≠ some xid

variable (state : PGBufferedListener V × Session V)

/-- Messages as a server sends them that uses no subtransactions. -/
def Plain (msg : LogicalMessage) : Prop :=
  state.2.Conforms msg ∧ state.2.NoSubtransactions msg

/-- Messages that describe relations and types. -/
def isShared (msg : LogicalMessage) : Bool :=
  state.2.owner msg = none

/-- A transaction's messages, and those that describe relations and types. -/
def isOwn (xid : Nat) (state : PGBufferedListener V × Session V) (msg : LogicalMessage) : Bool :=
  state.2.owner msg = none || state.2.owner msg = some xid

variable {session : Session V}

/-- A change belongs to a transaction, under which it is cached. -/
theorem Plain.target {rl : PGBufferedListener V} {msg : ChangeMessage}
    (plain : Plain (rl, session) (.change msg)) : ∃ xid, session.owner (.change msg) = some xid ∧
      ∀ rl : PGBufferedListener V, (session.opened = .whole xid → rl.currentXID = xid) →
        rl.xidFromMsgOrCurrent msg.xid = xid := by
  -- A change names no transaction, so it is one of the current one.
  obtain ⟨conforms, noSub⟩ := plain
  simp only [Conforms, NoSubtransactions] at conforms noSub
  simp only [owner]
  cases opened : session.opened with
  | none => simp [opened] at conforms
  | whole xid =>
    simp only [opened] at conforms
    refine ⟨xid, rfl, fun rl current => ?_⟩
    rw [xidFromMsgOrCurrent, if_pos conforms]
    exact current rfl
  | block top =>
    simp only [opened] at conforms
    refine ⟨top, rfl, fun rl _ => ?_⟩
    rw [xidFromMsgOrCurrent, if_neg (Nat.pos_iff_ne_zero.mp conforms)]
    exact noSub top opened

theorem NoSubtransactions.topLevelOnly {msg : LogicalMessage}
    (noSub : session.NoSubtransactions msg) : session.TopLevelOnly msg := by
  cases msg with
  | change msg => exact noSub
  | streamAbort msg => exact fun part => absurd noSub part
  | _ => trivial

end Session

theorem sessionStep_eq_some {session after : Session V} :
    sessionStep (rl, session) msg = some (next, after) ↔
      ∃ reqs, rl.handle msg = .ok (next, reqs) ∧ session.after rl msg = after := by
  simp only [sessionStep]
  cases rl.handle msg with
  | error fault => simp
  | ok answer =>
    obtain ⟨handled, reqs⟩ := answer
    simp

/-- A listener that takes some of the messages reads them as one that takes all. -/
structure Follows (rl : PGBufferedListener V) (session : Session V)
    (alone : PGBufferedListener V) : Prop where
  agrees : Agrees rl session
  idle : (∀ xid, session.opened ≠ .whole xid) → rl.currentXID = 0
  schema : alone.schema = rl.schema

namespace Follows

variable {rl next alone : PGBufferedListener V} {session : Session V} {msg : LogicalMessage}
  {reqs : List (WriteRequest V)}

/-- Outside a transaction sent whole there is no current transaction. -/
theorem idle_step (follows : Follows rl session alone) (conforms : session.Conforms msg)
    (handled : rl.handle msg = .ok (next, reqs)) :
    (∀ xid, (session.after rl msg).opened ≠ .whole xid) → next.currentXID = 0 := by
  -- A change is logged in the session and leaves open what was open.
  cases handling handled with
  | relation done =>
    rw [(onRelation_frame done).2]
    exact follows.idle
  | txBegin msg => exact fun none => absurd rfl (none msg.xid)
  | txCommit => exact fun _ => rfl
  | ignored idle => exact fun _ => Nat.eq_zero_of_not_pos idle
  | @change msg =>
    have opened : (session.after rl (.change msg)).opened = session.opened := by
      simp only [after]
      split <;> rfl
    rw [opened]
    exact follows.idle
  | streamStart => exact fun _ => follows.idle fun xid opened => by simp [conforms.1] at opened
  | streamStop =>
    obtain ⟨top, block⟩ := conforms
    exact fun _ => follows.idle fun xid opened => by simp [block] at opened
  | streamAbort msg =>
    have opened : (session.after rl (.streamAbort msg)).opened = session.opened := by
      simp only [after]
      split <;> rfl
    rw [opened]
    exact follows.idle
  | streamCommit | truncate | type | origin | decoding => exact follows.idle

theorem unseen (follows : Follows rl session alone) (plain : Plain (rl, session) msg)
    (other : ∀ rel publication, msg ≠ .relation rel publication)
    (handled : rl.handle msg = .ok (next, reqs)) : Follows next (session.after rl msg) alone where
  agrees := follows.agrees.step plain.1 plain.2.topLevelOnly handled
  idle := follows.idle_step plain.1 handled
  schema := (follows.schema).trans (handle_schema handled other).symm

/-- A relation message is taken alike by both. -/
theorem relation (follows : Follows rl session alone) {rel : RelationMessage}
    {publication : Except Fault (List Table)}
    (handled : rl.handle (.relation rel publication) = .ok (next, reqs)) :
    ∃ aloneNext, alone.handle (.relation rel publication) = .ok (aloneNext, []) ∧
      Follows next session aloneNext ∧ aloneNext.txCache = alone.txCache ∧
      aloneNext.currentXID = alone.currentXID ∧ next.txCache = rl.txCache := by
  -- The schema decides what the message does, and both have the same.
  have conforms : session.Conforms (.relation rel publication) := trivial
  have agrees := follows.agrees.step conforms trivial handled
  have idle := follows.idle_step conforms handled
  obtain ⟨merged, done, kept⟩ := bind_eq_ok.mp handled
  cases kept
  obtain ⟨aloneNext, own, described⟩ := onRelation_of_schema follows.schema done
  obtain ⟨cache, current⟩ := onRelation_frame own
  refine ⟨aloneNext, ?_, ⟨agrees, idle, described⟩, cache, current, (onRelation_frame done).1⟩
  simp only [handle, own]
  rfl

/-- A message that belongs to no transaction caches nothing. -/
theorem shared (follows : Follows rl session alone) (plain : Plain (rl, session) msg)
    (none : isShared (rl, session) msg = true)
    (handled : rl.handle msg = .ok (next, reqs)) :
    ∃ aloneNext, listenerStep alone msg = some aloneNext ∧
      Follows next (session.after rl msg) aloneNext ∧ aloneNext.txCache = alone.txCache := by
  simp only [isShared, decide_eq_true_eq] at none
  have conforms : session.Conforms msg := plain.1
  cases msg with
  | relation rel publication =>
    obtain ⟨aloneNext, aloneHandled, later, cache, -, -⟩ := follows.relation handled
    exact ⟨aloneNext, listenerStep_of_handle aloneHandled, later, cache⟩
  | txBegin | streamStart | streamCommit | streamAbort => simp [owner] at none
  | txCommit msg =>
    obtain ⟨xid, opened⟩ := conforms
    simp [owner, opened, OpenTx.xid] at none
  | change msg =>
    obtain ⟨xid, owned, -⟩ := plain.target
    simp [owned] at none
  | streamStop =>
    obtain ⟨top, opened⟩ := conforms
    simp [owner, opened, OpenTx.xid] at none
  | truncate | type | origin | decoding =>
    exact ⟨alone, rfl, follows.unseen plain (by simp) handled, rfl⟩

/-- Nothing is handed over for a streamed transaction before it commits. -/
theorem silent (follows : Follows rl session alone) {xid : Nat} (conforms : session.Conforms msg)
    (own : session.owner msg = some xid) (streamed : session.opened ≠ .whole xid)
    (open_ : ¬ session.Commits xid msg) (handled : rl.handle msg = .ok (next, reqs)) :
    reqs = [] := by
  -- A heartbeat is handed over inside a transaction sent whole only.
  cases handling handled with
  | txCommit =>
    obtain ⟨whole, opened⟩ := conforms
    obtain rfl : whole = xid := by simpa [owner, opened, OpenTx.xid] using own
    exact absurd opened streamed
  | streamCommit => exact absurd ⟨conforms, by simpa [owner] using own⟩ open_
  | decoding msg =>
    have none : rl.currentXID = 0 := follows.idle fun whole opened => by
      obtain rfl : whole = xid := by simpa [owner, opened, OpenTx.xid] using own
      exact streamed opened
    simp [onLogicalDecodingMessage, none]
  | _ => rfl

end Follows

/-- A listener with one transaction's messages has the same cached for it. -/
structure Mirrors (xid : Nat) (rl : PGBufferedListener V) (session : Session V)
    (alone : PGBufferedListener V) : Prop extends Follows rl session alone where
  cached : alone.txCache xid = rl.txCache xid
  current : session.opened = .whole xid → alone.currentXID = xid

namespace Mirrors

variable {rl next alone aloneNext : PGBufferedListener V} {session : Session V}
  {msg : LogicalMessage} {reqs aloneReqs : List (WriteRequest V)} {xid : Nat}

section

variable (mirrors : Mirrors xid rl session alone) (plain : Plain (rl, session) msg)

include mirrors plain

theorem both (other : ∀ rel publication, msg ≠ .relation rel publication)
    (handled : rl.handle msg = .ok (next, reqs))
    (aloneHandled : alone.handle msg = .ok (aloneNext, aloneReqs))
    (cached : aloneNext.txCache xid = next.txCache xid)
    (current : (session.after rl msg).opened = .whole xid → aloneNext.currentXID = xid) :
    Mirrors xid next (session.after rl msg) aloneNext := by
  obtain ⟨agrees, idle, schema⟩ := mirrors.toFollows.unseen plain other handled
  exact ⟨⟨agrees, idle, (handle_schema aloneHandled other).trans schema⟩, cached, current⟩

/-- A message of the transaction itself is taken alike by both. -/
theorem seen (own : isOwn xid (rl, session) msg = true)
    (handled : rl.handle msg = .ok (next, reqs)) :
    ∃ aloneNext, listenerStep alone msg = some aloneNext ∧
      Mirrors xid next (session.after rl msg) aloneNext := by
  -- A change is read alike and cached alike; a commit is that of the open one.
  simp only [isOwn, Bool.or_eq_true, decide_eq_true_eq] at own
  have conforms : session.Conforms msg := plain.1
  cases msg with
  | relation rel publication =>
    obtain ⟨aloneNext, aloneHandled, follows, aloneCache, aloneCurrent, cache⟩ :=
      mirrors.toFollows.relation handled
    refine ⟨aloneNext, listenerStep_of_handle aloneHandled, follows, ?_, fun opened => ?_⟩
    · rw [aloneCache, cache]
      exact mirrors.cached
    · rw [aloneCurrent]
      exact mirrors.current opened
  | txBegin msg =>
    obtain same : msg.xid = xid := by simpa [owner] using own
    refine ⟨_, rfl, ?_⟩
    refine mirrors.both plain (by simp) handled rfl ?_ fun _ => same
    cases handled
    exact mirrors.cached
  | txCommit msg =>
    obtain ⟨open_, opened⟩ := conforms
    obtain rfl : open_ = xid := by simpa [owner, opened, OpenTx.xid] using own
    obtain ⟨current, positive⟩ := mirrors.agrees.current open_ opened
    have sent := mirrors.agrees.sent open_ msg.transactionEndLSN msg.commitTime
    have known := handle_txCommit current positive sent
    have aloneKnown := handle_txCommit (mirrors.current opened) positive
      (mirrors.cached ▸ sent)
    rw [known] at handled
    cases handled
    refine ⟨_, listenerStep_of_handle aloneKnown, ?_⟩
    refine mirrors.both plain (by simp) known aloneKnown (by simp) ?_
    simp [after, opened]
  | change msg =>
    obtain ⟨target, owned, cachedUnder⟩ := plain.target
    obtain rfl : target = xid := by simpa [owned] using own
    obtain ⟨change, read⟩ := changeOf_of_handle handled
    have aloneRead : alone.changeOf msg = .ok change := by
      rw [← changeOf_schema, mirrors.schema, changeOf_schema]
      exact read
    have known := handle_change read
      (cachedUnder rl fun opened => (mirrors.agrees.current target opened).1)
    have aloneKnown := handle_change aloneRead
      (cachedUnder alone mirrors.current)
    rw [known] at handled
    cases handled
    refine ⟨_, listenerStep_of_handle aloneKnown, ?_⟩
    refine mirrors.both plain (by simp) known aloneKnown ?_ fun opened => ?_
    · simp [cacheChange, mirrors.cached]
    · refine mirrors.current ?_
      simp only [after] at opened
      split at opened <;> exact opened
  | streamCommit msg =>
    obtain rfl : msg.xid = xid := by simpa [owner] using own
    have sent := mirrors.agrees.sent msg.xid msg.commitLSN msg.commitTime
    have known := handle_streamCommit sent
    have aloneKnown := handle_streamCommit (mirrors.cached ▸ sent)
    rw [known] at handled
    cases handled
    refine ⟨_, listenerStep_of_handle aloneKnown, ?_⟩
    exact mirrors.both plain (by simp) known aloneKnown (by simp) mirrors.current
  | streamAbort msg =>
    obtain rfl : msg.xid = xid := by simpa [owner] using own
    refine ⟨_, rfl, ?_⟩
    have none : session.opened = .none := conforms
    refine mirrors.both plain (by simp) handled rfl ?_ fun opened => ?_
    · cases handled
      simp [onStreamAbort]
    · simp only [after] at opened
      split at opened <;> simp [finish, rollback, none] at opened
  | streamStart msg | streamStop =>
    refine ⟨_, rfl, ?_⟩
    refine mirrors.both plain (by simp) handled rfl ?_ fun opened => by cases opened
    cases handled
    exact mirrors.cached
  | truncate | type | origin | decoding =>
    refine ⟨_, rfl, ?_⟩
    refine mirrors.both plain (by simp) handled rfl ?_ mirrors.current
    cases handled
    exact mirrors.cached

/-- A message of another transaction touches nothing that is compared. -/
theorem unseen (foreign : isOwn xid (rl, session) msg = false)
    (handled : rl.handle msg = .ok (next, reqs)) :
    Mirrors xid next (session.after rl msg) alone := by
  -- The transaction's cache and its being current stay untouched.
  simp only [isOwn, Bool.or_eq_false_iff, decide_eq_false_iff_not] at foreign
  have conforms : session.Conforms msg := plain.1
  have described : ∀ rel publication, msg ≠ .relation rel publication := by
    rintro rel publication rfl
    exact foreign.1 rfl
  have follows := mirrors.toFollows.unseen plain described handled
  suffices kept : next.txCache xid = rl.txCache xid ∧
      ((session.after rl msg).opened = .whole xid → session.opened = .whole xid) from
    ⟨follows, mirrors.cached.trans kept.1.symm, fun opened => mirrors.current (kept.2 opened)⟩
  cases handling handled with
  | relation => exact absurd rfl (described _ _)
  | txBegin msg =>
    have other : msg.xid ≠ xid := by simpa [owner] using foreign
    exact ⟨rfl, fun opened => absurd (OpenTx.whole.inj opened) other⟩
  | txCommit =>
    obtain ⟨open_, opened⟩ := conforms
    have other : open_ ≠ xid := by simpa [owner, opened, OpenTx.xid] using foreign
    obtain ⟨rfl, -⟩ := mirrors.agrees.current open_ opened
    exact ⟨update_of_ne (Ne.symm other) .., by simp [after, opened]⟩
  | ignored =>
    obtain ⟨open_, opened⟩ := conforms
    exact ⟨rfl, by simp [after, opened]⟩
  | change =>
    obtain ⟨target, owned, cachedUnder⟩ := plain.target
    have other : target ≠ xid := by simpa [owned] using foreign
    rw [cachedUnder rl fun opened => (mirrors.agrees.current target opened).1]
    refine ⟨update_of_ne (Ne.symm other) .., fun opened => ?_⟩
    simp only [after] at opened
    split at opened <;> exact opened
  | streamCommit =>
    exact ⟨update_of_ne (Ne.symm (by simpa [owner] using foreign)) .., id⟩
  | streamAbort =>
    refine ⟨update_of_ne (Ne.symm (by simpa [owner] using foreign)) .., fun opened => ?_⟩
    simp only [after] at opened
    split at opened <;> exact opened
  | streamStart | streamStop => exact ⟨rfl, fun opened => by cases opened⟩
  | truncate | type | origin | decoding => exact ⟨rfl, id⟩

end

theorem commit (mirrors : Mirrors xid rl session alone) (commits : session.Commits xid msg) :
    ∃ next aloneNext reqs, rl.handle msg = .ok (next, reqs) ∧
      alone.handle msg = .ok (aloneNext, reqs) := by
  cases msg with
  | txCommit msg =>
    obtain ⟨current, positive⟩ := mirrors.agrees.current xid commits
    have sent := mirrors.agrees.sent xid msg.transactionEndLSN msg.commitTime
    exact ⟨_, _, _, handle_txCommit current positive sent,
      handle_txCommit (mirrors.current commits) positive
        (mirrors.cached ▸ sent)⟩
  | streamCommit msg =>
    obtain ⟨-, rfl⟩ := commits
    have sent := mirrors.agrees.sent msg.xid msg.commitLSN msg.commitTime
    exact ⟨_, _, _, handle_streamCommit sent, handle_streamCommit (mirrors.cached ▸ sent)⟩
  | _ => exact absurd commits (by simp [Commits])

theorem run {state last : PGBufferedListener V × Session V} {msgs : List LogicalMessage}
    (mirrors : Mirrors xid state.1 state.2 alone)
    (admitted : Runs.Along sessionStep Plain state msgs)
    (reached : Runs.run sessionStep state msgs = some last) :
    ∃ aloneLast, Runs.run listenerStep alone
        (Runs.purge sessionStep (isOwn xid) state msgs) = some aloneLast ∧
      Mirrors xid last.1 last.2 aloneLast := by
  refine Runs.unwinding (fun state alone => Mirrors xid state.1 state.2 alone) ?_ ?_ mirrors
    admitted reached
  · rintro ⟨rl, session⟩ msg ⟨next, after⟩ alone mirrors plain shown taken
    obtain ⟨reqs, handled, rfl⟩ := sessionStep_eq_some.mp taken
    exact mirrors.seen plain shown handled
  · rintro ⟨rl, session⟩ msg ⟨next, after⟩ alone mirrors plain hidden taken
    obtain ⟨reqs, handled, rfl⟩ := sessionStep_eq_some.mp taken
    exact mirrors.unseen plain hidden handled

end Mirrors

/-- The listener of a session and one that takes only its shared messages. -/
theorem follows_shared {first : PGBufferedListener V} {msgs : List LogicalMessage}
    {state : PGBufferedListener V × Session V} (clean : first.txCache = fun _ => none)
    (idle : first.currentXID = 0)
    (admitted : Runs.Along sessionStep Plain (first, start) msgs)
    (reached : Runs.run sessionStep (first, start) msgs = some state) :
    ∃ alone, Runs.run listenerStep first
        (Runs.purge sessionStep isShared (first, start) msgs) = some alone ∧
      Follows state.1 state.2 alone ∧ alone.txCache = fun _ => none := by
  refine Runs.unwinding (fun state alone =>
    Follows state.1 state.2 alone ∧ alone.txCache = fun _ => none) ?_ ?_
    ⟨⟨Agrees.start clean, fun _ => idle, rfl⟩, clean⟩ admitted reached
  · rintro ⟨rl, session⟩ msg ⟨next, after⟩ alone ⟨follows, none⟩ plain shown taken
    obtain ⟨reqs, handled, rfl⟩ := sessionStep_eq_some.mp taken
    obtain ⟨aloneNext, aloneTaken, later, cache⟩ := follows.shared plain shown handled
    exact ⟨aloneNext, aloneTaken, later, cache.trans none⟩
  · rintro ⟨rl, session⟩ msg ⟨next, after⟩ alone ⟨follows, none⟩ plain hidden taken
    obtain ⟨reqs, handled, rfl⟩ := sessionStep_eq_some.mp taken
    refine ⟨follows.unseen plain ?_ handled, none⟩
    rintro rel publication rfl
    simp [isShared, owner] at hidden

/--
Whatever messages of other transactions come in between, a commit hands over what it would hand over
if only those of its own since it was last at rest had come, and the descriptions of relations at
their places; a streamed transaction hands nothing over before; and nothing is cached when all are
at rest.
-/
theorem transactions_isolated {first : PGBufferedListener V} {before since : List LogicalMessage}
    {start state : PGBufferedListener V × Session V} (clean : first.txCache = fun _ => none)
    (idle : first.currentXID = 0)
    (admitted : Runs.Along sessionStep Plain (first, Session.start) (before ++ since))
    (began : Runs.run sessionStep (first, Session.start) before = some start)
    (reached : Runs.run sessionStep start since = some state) :
    (∀ xid commit, start.2.AtRest xid → state.2.Commits xid commit → ∃ alone next aloneNext reqs,
        Runs.run listenerStep first
          (Runs.purge sessionStep isShared (first, Session.start) before ++
            Runs.purge sessionStep (isOwn xid) start since) = some alone ∧
        state.1.handle commit = .ok (next, reqs) ∧
        alone.handle commit = .ok (aloneNext, reqs)) ∧
      (∀ xid msg next reqs, state.2.Conforms msg → state.2.owner msg = some xid →
        state.2.opened ≠ .whole xid → ¬ state.2.Commits xid msg →
        state.1.handle msg = .ok (next, reqs) → reqs = []) ∧
      ((∀ xid, state.2.AtRest xid) → state.1.txCache = fun _ => none) := by
  -- At rest nothing is cached, so both caches agree on the transaction.
  obtain ⟨early, late⟩ := Runs.along_append.mp admitted
  have whole : Runs.run sessionStep (first, Session.start) (before ++ since) = some state := by
    rw [Runs.run_append, began]
    exact reached
  obtain ⟨_, -, follows, -⟩ := follows_shared clean idle admitted whole
  refine ⟨?_, fun xid msg next reqs conforms own streamed open_ handled =>
    follows.silent conforms own streamed open_ handled, fun rest => ?_⟩
  · intro xid commit rest commits
    obtain ⟨aloneStart, aloneBegan, startFollows, none⟩ := follows_shared clean idle early began
    have mirrors : Mirrors xid start.1 start.2 aloneStart := by
      refine ⟨startFollows, ?_, fun opened => absurd ?_ rest.2⟩
      · rw [none, startFollows.agrees.absent xid rest.1]
      · rw [opened]
        rfl
    obtain ⟨alone, aloneReached, mirrored⟩ := mirrors.run (late start began) reached
    obtain ⟨next, aloneNext, reqs, handled, aloneHandled⟩ := mirrored.commit commits
    refine ⟨alone, next, aloneNext, reqs, ?_, handled, aloneHandled⟩
    rw [Runs.run_append, aloneBegan]
    exact aloneReached
  · funext xid
    exact follows.agrees.absent xid (rest xid).1

namespace Sample

/-- The streamed transaction 5 with the whole transaction 8 behind its block. -/
def interleaved : List LogicalMessage :=
  streamedBlock 5 ++ [.txBegin ⟨100, 8⟩, .change updateUser, commit]

/-- A listener between transactions that is configured to send all columns. -/
def sendingAll : PGBufferedListener (List UInt8) :=
  { listener with currentXID := 0, tables := [("public.users", ⟨some users, some ⟨[]⟩⟩)] }

/-- A block of transaction 6 with a relation, after which only the key is published. -/
def foreignBlock : List LogicalMessage :=
  [.streamStart ⟨6⟩, .relation usersRelation (.ok [{ users with columns := users.pk }]),
    .streamStop]

end Sample

open Sample

/-- The streamed transaction hands over what its own block alone does. -/
theorem transactions_isolated_interleaved :
    ∃ state alone next aloneNext reqs,
      Runs.run sessionStep ({ listener with currentXID := 0 }, start)
        interleaved = some state ∧
      Runs.run listenerStep { listener with currentXID := 0 } (streamedBlock 5) = some alone ∧
      state.1.handle (.streamCommit ⟨5, 120, 130, 0⟩) = .ok (next, reqs) ∧
      alone.handle (.streamCommit ⟨5, 120, 130, 0⟩) = .ok (aloneNext, reqs) := by
  have admitted : Runs.Along sessionStep Plain
      ({ listener with currentXID := 0 }, start) ([] ++ interleaved) :=
    .cons ⟨⟨rfl, by decide⟩, trivial⟩ rfl
      (.cons ⟨show 0 < 5 by decide, fun _ opened => by cases opened; rfl⟩ rfl
        (.cons ⟨⟨5, rfl⟩, trivial⟩ rfl (.cons ⟨⟨rfl, by decide⟩, trivial⟩ rfl
          (.cons ⟨rfl, fun _ opened => by cases opened⟩ rfl (.last ⟨⟨8, rfl⟩, trivial⟩)))))
  obtain ⟨state, reached, ended⟩ : ∃ state, Runs.run sessionStep
      ({ listener with currentXID := 0 }, start) interleaved = some state ∧
        state.2.opened = .none := ⟨_, rfl, rfl⟩
  obtain ⟨alone, next, aloneNext, reqs, aloneReached, handled, aloneHandled⟩ :=
    (transactions_isolated rfl rfl admitted rfl reached).1 5 (.streamCommit ⟨5, 120, 130, 0⟩)
      ⟨rfl, by simp [start, OpenTx.xid]⟩ ⟨ended, rfl⟩
  exact ⟨state, alone, next, aloneNext, reqs, reached, aloneReached, handled, aloneHandled⟩

/-- A relation in another transaction's block takes a name out of an entry. -/
theorem transactions_share_relations :
    ∃ state alone next aloneNext req aloneReq,
      Runs.Along sessionStep Plain (sendingAll, start)
        (streamedBlock 5 ++ foreignBlock ++ streamedBlock 5) ∧
      Runs.run sessionStep (sendingAll, start)
        (streamedBlock 5 ++ foreignBlock ++ streamedBlock 5) = some state ∧
      Runs.run listenerStep sendingAll (streamedBlock 5 ++ streamedBlock 5) = some alone ∧
      state.1.handle (.streamCommit ⟨5, 120, 130, 0⟩) = .ok (next, [req]) ∧
      alone.handle (.streamCommit ⟨5, 120, 130, 0⟩) = .ok (aloneNext, [aloneReq]) ∧
      (req.entries.map fun entry => entry.tuple.get "name") = [.ok none] ∧
      (aloneReq.entries.map fun entry => entry.tuple.get "name") = [.ok (some (some [97]))] := by
  refine ⟨_, _, _, _, _, _, ?_, rfl, rfl, rfl, rfl, rfl, rfl⟩
  exact .cons ⟨⟨rfl, by decide⟩, trivial⟩ rfl
    (.cons ⟨show 0 < 5 by decide, fun _ opened => by cases opened; rfl⟩ rfl
      (.cons ⟨⟨5, rfl⟩, trivial⟩ rfl (.cons ⟨⟨rfl, by decide⟩, trivial⟩ rfl
        (.cons ⟨trivial, trivial⟩ rfl (.cons ⟨⟨6, rfl⟩, trivial⟩ rfl
          (.cons ⟨⟨rfl, by decide⟩, trivial⟩ rfl
            (.cons ⟨show 0 < 5 by decide, fun _ opened => by cases opened; rfl⟩ rfl
              (.last ⟨⟨5, rfl⟩, trivial⟩))))))))

end PgWalk
