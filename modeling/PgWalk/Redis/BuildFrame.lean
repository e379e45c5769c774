import PgWalk.Redis.CommandShape

/-! What building the commands of a row does to the row, whether or not the building succeeds. -/

namespace PgWalk.Redis

open RedisCompiledCommand List Function

variable {V F : Type}

/-- A row's tuple after the JSON of the whole row was asked for. -/
def storeCommitTime (lib : RedisLib V F) (txTimeOpts : TxCommitTimeOptions) (commitTime : Nat) :
    EntryTuple V → EntryTuple V
  | .pointer (some om) =>
    match saveCommitTime lib txTimeOpts commitTime om with
    | .ok next => .pointer (some next)
    -- The panic comes before anything is stored.
    | .error _ => .pointer (some om)
  | tuple => tuple

namespace RedisCompiledCommand

/-- Whether an argument is the JSON of the whole row. -/
def isJsonStar : RedisCompiledCommand → Bool
  | .jsonStar => true
  | .literal _ | .pairsStar | .pairsSubset _ | .columnsStar | .jsonSubset _ | .diff _
  | .template _ => false

/-- The tuple of a row after an argument, also where the argument fails. -/
def leaves (lib : RedisLib V F) (txTimeOpts : TxCommitTimeOptions) (commitTime : Nat)
    (tuple : EntryTuple V) (cmd : RedisCompiledCommand) : EntryTuple V :=
  if cmd.isJsonStar then storeCommitTime lib txTimeOpts commitTime tuple else tuple

end RedisCompiledCommand

/-- A call that builds a command: the row's tuple then, and the command. -/
structure BuildCall (V : Type) where
  tuple : EntryTuple V
  cmd : RedisCompiledCommandConfig

namespace RedisDynamicWriter

variable (w : RedisDynamicWriter) (lib : RedisLib V F) (entry : WriteEntry V) (commitTime xid : Nat)

/-- A row's tuple after the arguments, up to the first that fails. -/
def argsLeave (tuple : EntryTuple V) (arr : ArgArray F) (next : Nat) :
    List RedisCompiledCommand → EntryTuple V
  | [] => tuple
  | cmdArg :: rest =>
    match cmdArg.fill lib w.txOpts entry commitTime xid tuple arr next with
    | .ok (tuple, arr, next) => argsLeave tuple arr next rest
    | .error _ => cmdArg.leaves lib w.txOpts commitTime tuple

/-- Whether the whole row's JSON is asked for before an argument fails. -/
def argsAskJson (tuple : EntryTuple V) (arr : ArgArray F) (next : Nat) :
    List RedisCompiledCommand → Bool
  | [] => false
  | cmdArg :: rest => cmdArg.isJsonStar ||
      match cmdArg.fill lib w.txOpts entry commitTime xid tuple arr next with
      | .ok (tuple, arr, next) => argsAskJson tuple arr next rest
      | .error _ => false

/-- The array that the arguments of a command are filled into. -/
def startArray (cmd : RedisCompiledCommandConfig) (lengths : List Nat) : ArgArray F :=
  some (.text cmd.name) :: List.replicate lengths.sum none

/-- A row's tuple after a command was built, or failed to be. -/
def commandLeaves (call : BuildCall V) : EntryTuple V :=
  if call.cmd.name = "" then call.tuple
  else match call.cmd.args.mapM (required w.txOpts call.tuple) with
    | .ok lengths =>
      w.argsLeave lib entry commitTime xid call.tuple (startArray call.cmd lengths) 1 call.cmd.args
    | .error _ => call.tuple

/-- Whether building a command asks for the whole row's JSON. -/
def commandAsksJson (call : BuildCall V) : Bool :=
  if call.cmd.name = "" then false
  else match call.cmd.args.mapM (required w.txOpts call.tuple) with
    | .ok lengths => w.argsAskJson lib entry commitTime xid call.tuple
        (startArray call.cmd lengths) 1 call.cmd.args
    | .error _ => false

/-- The calls that build a group's commands, up to the first failure. -/
def commandsCalls (tuple : EntryTuple V) :
    List RedisCompiledCommandConfig → List (BuildCall V)
  | [] => []
  | cmd :: rest => ⟨tuple, cmd⟩ ::
      match w.buildCommand lib entry commitTime xid tuple cmd with
      | .ok (tuple, _) => commandsCalls tuple rest
      | .error _ => []

/-- The calls that build the commands of a row's executed groups. -/
def groupsCalls (tuple : EntryTuple V) : List RedisCompiledCommandGroup → List (BuildCall V)
  | [] => []
  | group :: rest =>
    match selects lib { entry with tuple := tuple } group with
    | .ok true => w.commandsCalls lib entry commitTime xid tuple group.commands ++
        match w.buildCommands lib entry commitTime xid tuple group.commands with
        | .ok (tuple, _) => groupsCalls tuple rest
        | .error _ => []
    | .ok false => groupsCalls tuple rest
    | .error _ => []

def buildCalls : List (BuildCall V) :=
  w.groupsCalls lib entry commitTime xid entry.tuple (w.getCommands (.ofKind entry.kind))

/-- The tuple after some calls: the last one leaves it. -/
def callsLeave (tuple : EntryTuple V) (calls : List (BuildCall V)) : EntryTuple V :=
  calls.foldl (fun _ call => w.commandLeaves lib entry commitTime xid call) tuple

/-- The row as the writer leaves it, whether or not it can be written. -/
def leftRow : WriteEntry V :=
  let calls := w.buildCalls lib entry commitTime xid
  { entry with tuple := w.callsLeave lib entry commitTime xid entry.tuple calls }

end RedisDynamicWriter

section Storing

variable {lib : RedisLib V F} {txTimeOpts : TxCommitTimeOptions} {commitTime : Nat}

variable {next om : OrderedMap V} {key : String} {value : Option V}

/-- A stored value keeps the keys and no fewer are set. -/
theorem setValue_grows (stored : om.setValue key value = .ok next) :
    om.size ≤ next.size ∧ next.keyMap = om.keyMap ∧
      ∃ index, om.keyMap.getIndex key = some index ∧ next.values = om.values.set index value := by
  obtain ⟨index, found, rfl⟩ := OrderedMap.setValue_eq_ok stored
  refine ⟨?_, rfl, index, found, rfl⟩
  dsimp only
  split <;> omega

/-- A store that changes neither values nor size does nothing. -/
theorem setValue_same (stored : om.setValue key value = .ok next)
    (values : next.values = om.values) (size : next.size = om.size) : next = om := by
  -- The size stays only when the position has been set before.
  obtain ⟨index, -, rfl⟩ := OrderedMap.setValue_eq_ok stored
  dsimp only at values size
  have present : om.set.getD index false = true := by
    by_contra absent
    rw [if_neg absent] at size
    omega
  have inside : index < om.set.length := by
    by_contra outside
    simp [getD_eq_getElem?_getD, getElem?_eq_none (Nat.not_lt.mp outside)] at present
  have marks : om.set.set index true = om.set := by
    have here : om.set[index] = true := by
      simpa [getD_eq_getElem?_getD, getElem?_eq_getElem inside] using present
    rw [← here]
    exact set_getElem_self inside
  rw [values, marks, size]

/-- The commit time is stored in a row, or nothing is. -/
theorem storeCommitTime_cases (tuple : EntryTuple V) :
    storeCommitTime lib txTimeOpts commitTime tuple = tuple ∨
      ∃ om next, tuple = .pointer (some om) ∧
        storeCommitTime lib txTimeOpts commitTime tuple = .pointer (some next) ∧
        om.setValue txTimeOpts.name (some (lib.ofText (lib.formatTime commitTime))) = .ok next := by
  rcases tuple with _ | _ | om
  · exact .inl rfl
  · exact .inl rfl
  · simp only [storeCommitTime, saveCommitTime]
    cases txTimeOpts.save with
    | false => exact .inl rfl
    | true =>
      cases stored : om.setValue txTimeOpts.name
          (some (lib.ofText (lib.formatTime commitTime))) with
      | error fault => exact .inl rfl
      | ok next => exact .inr ⟨om, next, rfl, rfl, stored⟩

/-- A tuple never comes back to what it was before the commit time. -/
theorem storeCommitTime_iterate {tuple : EntryTuple V} {count : Nat}
    (same : (storeCommitTime lib txTimeOpts commitTime)^[count + 1] tuple = tuple) :
    storeCommitTime lib txTimeOpts commitTime tuple = tuple := by
  -- The value stays at its position and the size does not fall.
  rcases storeCommitTime_cases tuple with unchanged | ⟨om, next, rfl, storedAs, stored⟩
  · exact unchanged
  · obtain ⟨grown, keys, index, found, values⟩ := setValue_grows stored
    have later : ∀ count, ∃ last : OrderedMap V,
        (storeCommitTime lib txTimeOpts commitTime)^[count] (.pointer (some next)) =
          .pointer (some last) ∧
        last.values = next.values ∧ last.keyMap = om.keyMap ∧ next.size ≤ last.size := by
      intro count
      induction count with
      | zero => exact ⟨next, rfl, rfl, keys, Nat.le_refl _⟩
      | succ count ih =>
        obtain ⟨last, reached, sameValues, sameKeys, larger⟩ := ih
        rw [iterate_succ_apply', reached]
        rcases @storeCommitTime_cases V F lib txTimeOpts commitTime (.pointer (some last)) with
          unchanged | ⟨_, again, ⟨⟩, storedAgain, repeated⟩
        · exact ⟨last, unchanged, sameValues, sameKeys, larger⟩
        · obtain ⟨grownAgain, keysAgain, place, foundAgain, valuesAgain⟩ := setValue_grows repeated
          obtain rfl : index = place := by
            rw [sameKeys, found] at foundAgain
            exact Option.some.inj foundAgain
          refine ⟨again, storedAgain, ?_, keysAgain.trans sameKeys, larger.trans grownAgain⟩
          rw [valuesAgain, sameValues, values, set_set]
    obtain ⟨last, reached, sameValues, -, larger⟩ := later count
    rw [iterate_succ_apply, storedAs, reached] at same
    cases same
    rw [storedAs, setValue_same stored sameValues.symm (Nat.le_antisymm larger grown)]

end Storing

/-- A filled argument leaves the tuple as a failed one does. -/
theorem fill_leaves {lib : RedisLib V F} {txTimeOpts : TxCommitTimeOptions} {entry : WriteEntry V}
    {commitTime xid : Nat} {tuple after : EntryTuple V} {arr filledArr : ArgArray F}
    {startAt next : Nat} {cmd : RedisCompiledCommand}
    (filled : cmd.fill lib txTimeOpts entry commitTime xid tuple arr startAt =
      .ok (after, filledArr, next)) : after = cmd.leaves lib txTimeOpts commitTime tuple := by
  -- Every argument returns its tuple, but for the JSON of the row.
  cases cmd with
  | jsonStar =>
    obtain ⟨om, found, filled⟩ := bind_eq_ok.mp filled
    obtain ⟨next, saved, filled⟩ := bind_eq_ok.mp filled
    obtain ⟨text, -, filled⟩ := bind_eq_ok.mp filled
    obtain ⟨stored, -, filled⟩ := bind_eq_ok.mp filled
    cases filled
    rcases tuple with _ | _ | map
    · cases found
    · cases found
    · cases found
      simp [leaves, isJsonStar, storeCommitTime, saved]
  | literal value =>
    obtain ⟨stored, -, filled⟩ := bind_eq_ok.mp filled
    cases filled
    rfl
  | pairsStar | columnsStar | pairsSubset cols | template parts =>
    obtain ⟨read, -, filled⟩ := bind_eq_ok.mp filled
    obtain ⟨stored, -, filled⟩ := bind_eq_ok.mp filled
    cases filled
    rfl
  | jsonSubset cols | diff colName =>
    obtain ⟨read, -, filled⟩ := bind_eq_ok.mp filled
    obtain ⟨text, -, filled⟩ := bind_eq_ok.mp filled
    obtain ⟨stored, -, filled⟩ := bind_eq_ok.mp filled
    cases filled
    rfl

namespace RedisDynamicWriter

variable {w : RedisDynamicWriter} {lib : RedisLib V F} {entry : WriteEntry V} {commitTime xid : Nat}

/-- Arguments store the commit time some times, never without JSON. -/
theorem argsLeave_eq (tuple : EntryTuple V) (arr : ArgArray F) (next : Nat)
    (args : List RedisCompiledCommand) :
    ∃ count, w.argsLeave lib entry commitTime xid tuple arr next args =
        (storeCommitTime lib w.txOpts commitTime)^[count] tuple ∧
      (w.argsAskJson lib entry commitTime xid tuple arr next args = true ↔ 0 < count) := by
  -- By induction on the arguments, each of which stores once or not at all.
  induction args generalizing tuple arr next with
  | nil => exact ⟨0, rfl, by simp [argsAskJson]⟩
  | cons arg rest ih =>
    unfold argsLeave argsAskJson
    have once : ∃ count, arg.leaves lib w.txOpts commitTime tuple =
        (storeCommitTime lib w.txOpts commitTime)^[count] tuple ∧
        (arg.isJsonStar = true ↔ 0 < count) := by
      cases star : arg.isJsonStar with
      | true => exact ⟨1, by simp [leaves, star], by simp⟩
      | false => exact ⟨0, by simp [leaves, star], by simp⟩
    obtain ⟨first, left, asks⟩ := once
    cases filled : arg.fill lib w.txOpts entry commitTime xid tuple arr next with
    | error fault => exact ⟨first, left, by simpa using asks⟩
    | ok result =>
      obtain ⟨after, filledArr, place⟩ := result
      obtain ⟨later, leftLater, asksLater⟩ := ih after filledArr place
      refine ⟨later + first, ?_, ?_⟩
      · rw [iterate_add_apply, ← left, ← fill_leaves filled]
        exact leftLater
      · simp only [Bool.or_eq_true, asks, asksLater]
        omega

variable {after tuple : EntryTuple V} {calls : List (BuildCall V)}

/-- Arguments that are filled leave the tuple they return. -/
theorem argsLeave_of_ok {arr filledArr : ArgArray F} {next last : Nat}
    {args : List RedisCompiledCommand}
    (filled : w.fillArgs lib entry commitTime xid tuple arr next args =
      .ok (after, filledArr, last)) :
    w.argsLeave lib entry commitTime xid tuple arr next args = after := by
  induction args generalizing tuple arr next with
  | nil =>
    cases filled
    rfl
  | cons arg rest ih =>
    obtain ⟨first, here, later⟩ := bind_eq_ok.mp filled
    unfold argsLeave
    rw [here]
    exact ih later

/-- A command stores the time if it asks for JSON. -/
theorem commandLeaves_eq (call : BuildCall V) :
    ∃ count, w.commandLeaves lib entry commitTime xid call =
        (storeCommitTime lib w.txOpts commitTime)^[count] call.tuple ∧
      (w.commandAsksJson lib entry commitTime xid call = true ↔ 0 < count) := by
  unfold commandLeaves commandAsksJson
  by_cases unnamed : call.cmd.name = ""
  · simp only [if_pos unnamed]
    exact ⟨0, rfl, by simp⟩
  · simp only [if_neg unnamed]
    cases call.cmd.args.mapM (required w.txOpts call.tuple) with
    | error fault => exact ⟨0, rfl, by simp⟩
    | ok lengths => exact argsLeave_eq call.tuple _ 1 call.cmd.args

/-- A command that is built leaves the tuple it returns. -/
theorem commandLeaves_of_ok {cmd : RedisCompiledCommandConfig}
    {resolved : Option (RedisCommand F)}
    (built : w.buildCommand lib entry commitTime xid tuple cmd = .ok (after, resolved)) :
    w.commandLeaves lib entry commitTime xid ⟨tuple, cmd⟩ = after := by
  unfold buildCommand at built
  unfold commandLeaves
  by_cases unnamed : cmd.name = ""
  · rw [if_pos unnamed] at built ⊢
    cases built
    rfl
  · rw [if_neg unnamed] at built ⊢
    obtain ⟨lengths, counted, built⟩ := bind_eq_ok.mp built
    obtain ⟨filled, here, built⟩ := bind_eq_ok.mp built
    cases built
    simp only [counted]
    exact argsLeave_of_ok here

/-- Calls each of which finds the tuple that the one before it has left. -/
inductive Threaded (w : RedisDynamicWriter) (lib : RedisLib V F) (entry : WriteEntry V)
    (commitTime xid : Nat) : EntryTuple V → List (BuildCall V) → Prop
  | nil (tuple : EntryTuple V) : Threaded w lib entry commitTime xid tuple []
  | cons (call : BuildCall V) {rest : List (BuildCall V)}
      (later : Threaded w lib entry commitTime xid (w.commandLeaves lib entry commitTime xid call)
        rest) : Threaded w lib entry commitTime xid call.tuple (call :: rest)

/-- Threaded calls behind threaded calls are threaded. -/
theorem Threaded.append {more : List (BuildCall V)}
    (threaded : Threaded w lib entry commitTime xid tuple calls)
    (behind : Threaded w lib entry commitTime xid
      (w.callsLeave lib entry commitTime xid tuple calls) more) :
    Threaded w lib entry commitTime xid tuple (calls ++ more) := by
  induction threaded with
  | nil tuple => exact behind
  | cons call later ih => exact .cons call (ih behind)

/-- More calls go on from what the first ones leave. -/
theorem callsLeave_append (tuple : EntryTuple V) (calls more : List (BuildCall V)) :
    w.callsLeave lib entry commitTime xid tuple (calls ++ more) =
      w.callsLeave lib entry commitTime xid (w.callsLeave lib entry commitTime xid tuple calls)
        more := by
  simp [callsLeave]

/-- What a call has built, if it has built anything. -/
def callResult (w : RedisDynamicWriter) (lib : RedisLib V F) (entry : WriteEntry V)
    (commitTime xid : Nat) (call : BuildCall V) : List (RedisCommand F) :=
  ((w.buildCommand lib entry commitTime xid call.tuple call.cmd).toOption.bind Prod.snd).toList

/-- The calls of a group pass the tuple on. -/
theorem commandsCalls_threaded (tuple : EntryTuple V) (cmds : List RedisCompiledCommandConfig) :
    Threaded w lib entry commitTime xid tuple
      (w.commandsCalls lib entry commitTime xid tuple cmds) := by
  induction cmds generalizing tuple with
  | nil => exact .nil tuple
  | cons cmd rest ih =>
    refine .cons ⟨tuple, cmd⟩ ?_
    cases built : w.buildCommand lib entry commitTime xid tuple cmd with
    | error fault => exact .nil _
    | ok result =>
      rw [commandLeaves_of_ok built]
      exact ih result.1

variable {resolved : List (RedisCommand F)}

/-- Built commands are what their calls built, and leave what they leave. -/
theorem commandsCalls_of_ok {cmds : List RedisCompiledCommandConfig}
    (built : w.buildCommands lib entry commitTime xid tuple cmds = .ok (after, resolved)) :
    w.callsLeave lib entry commitTime xid tuple
        (w.commandsCalls lib entry commitTime xid tuple cmds) = after ∧
      resolved = (w.commandsCalls lib entry commitTime xid tuple cmds).flatMap
        (w.callResult lib entry commitTime xid) := by
  induction cmds generalizing tuple resolved with
  | nil =>
    cases built
    exact ⟨rfl, rfl⟩
  | cons cmd rest ih =>
    unfold buildCommands at built
    unfold commandsCalls
    cases first : w.buildCommand lib entry commitTime xid tuple cmd with
    | error fault => cases fault <;> simp [first] at built
    | ok result =>
      rw [first] at built
      obtain ⟨others, later, same⟩ := bind_eq_ok.mp built
      cases same
      obtain ⟨left, results⟩ := ih later
      refine ⟨?_, ?_⟩
      · show w.callsLeave lib entry commitTime xid (w.commandLeaves lib entry commitTime xid _)
          (w.commandsCalls lib entry commitTime xid result.1 rest) = _
        rw [commandLeaves_of_ok first]
        exact left
      · simp [← results, callResult, first, Except.toOption]

/-- The calls of all groups pass the tuple on. -/
theorem groupsCalls_threaded (tuple : EntryTuple V) (groups : List RedisCompiledCommandGroup) :
    Threaded w lib entry commitTime xid tuple
      (w.groupsCalls lib entry commitTime xid tuple groups) := by
  induction groups generalizing tuple with
  | nil => exact .nil tuple
  | cons group rest ih =>
    unfold groupsCalls
    split
    · refine (commandsCalls_threaded tuple group.commands).append ?_
      cases built : w.buildCommands lib entry commitTime xid tuple group.commands with
      | error fault => exact .nil _
      | ok result =>
        rw [(commandsCalls_of_ok built).1]
        exact ih result.1
    · exact ih tuple
    · exact .nil tuple

/-- A row's built commands are what its calls built and leave. -/
theorem groupsCalls_of_ok {groups : List RedisCompiledCommandGroup}
    (built : w.buildGroups lib entry commitTime xid tuple groups = .ok (after, resolved)) :
    w.callsLeave lib entry commitTime xid tuple
        (w.groupsCalls lib entry commitTime xid tuple groups) = after ∧
      resolved = (w.groupsCalls lib entry commitTime xid tuple groups).flatMap
        (w.callResult lib entry commitTime xid) := by
  induction groups generalizing tuple resolved with
  | nil =>
    cases built
    exact ⟨rfl, rfl⟩
  | cons group rest ih =>
    obtain ⟨first, here, later⟩ := bind_eq_ok.mp built
    obtain ⟨others, behind, same⟩ := bind_eq_ok.mp later
    cases same
    obtain ⟨selected, answer, own⟩ := bind_eq_ok.mp here
    obtain ⟨left, results⟩ := ih behind
    unfold groupsCalls
    cases selected with
    | true =>
      rw [if_pos rfl] at own
      obtain ⟨ownLeft, ownResults⟩ := commandsCalls_of_ok own
      simp only [answer, own]
      rw [callsLeave_append, ownLeft, flatMap_append, ← ownResults, ← results]
      exact ⟨left, rfl⟩
    | false =>
      cases own
      simp only [answer]
      exact ⟨left, results⟩

/-- Calls store the time if one of them asks for JSON. -/
theorem Threaded.callsLeave_eq (threaded : Threaded w lib entry commitTime xid tuple calls) :
    ∃ count, w.callsLeave lib entry commitTime xid tuple calls =
        (storeCommitTime lib w.txOpts commitTime)^[count] tuple ∧
      ((∃ call ∈ calls, w.commandAsksJson lib entry commitTime xid call = true) ↔ 0 < count) := by
  induction threaded with
  | nil tuple => exact ⟨0, rfl, by simp⟩
  | @cons call rest later ih =>
    obtain ⟨first, left, asks⟩ := @commandLeaves_eq V F w lib entry commitTime xid call
    obtain ⟨others, leftLater, asksLater⟩ := ih
    refine ⟨others + first, ?_, ?_⟩
    · rw [iterate_add_apply, ← left]
      exact leftLater
    · simp only [exists_mem_cons_iff, asks, asksLater]
      omega

/-- All calls find the first tuple if nothing more is stored. -/
theorem Threaded.unchanged (threaded : Threaded w lib entry commitTime xid tuple calls)
    (condition : (∃ call ∈ calls, w.commandAsksJson lib entry commitTime xid call = true) →
      storeCommitTime lib w.txOpts commitTime tuple = tuple) :
    ∀ call ∈ calls, call.tuple = tuple := by
  -- The first call leaves the tuple as it finds it.
  induction threaded with
  | nil tuple => simp
  | @cons call rest later ih =>
    have kept : w.commandLeaves lib entry commitTime xid call = call.tuple := by
      obtain ⟨count, left, asks⟩ := @commandLeaves_eq V F w lib entry commitTime xid call
      rw [left]
      rcases Nat.eq_zero_or_pos count with none | some_stored
      · rw [none]
        rfl
      · exact iterate_fixed (condition ⟨call, mem_cons_self, asks.mpr some_stored⟩) _
    rw [kept] at ih
    intro other member
    rcases mem_cons.mp member with rfl | behind
    · rfl
    · exact ih (fun ⟨asking, stored, asks⟩ =>
        condition ⟨asking, mem_cons_of_mem _ stored, asks⟩) other behind

end RedisDynamicWriter

/--
Commands are built independently of each other and of retries exactly when no command asks for the
JSON of the whole row while commit times are saved, or the row holds its commit time already.
-/
theorem commands_independent_iff (w : RedisDynamicWriter) (lib : RedisLib V F)
    (entry : WriteEntry V) (commitTime xid : Nat) :
    let calls := w.buildCalls lib entry commitTime xid
    let left := w.leftRow lib entry commitTime xid
    (∀ after cmds, w.buildGroups lib entry commitTime xid entry.tuple
        (w.getCommands (.ofKind entry.kind)) = .ok (after, cmds) →
      left.tuple = after ∧ cmds = calls.flatMap (w.callResult lib entry commitTime xid)) ∧
    (((∀ call ∈ calls, (w.buildCommand lib entry commitTime xid call.tuple call.cmd).map Prod.snd =
          (w.buildCommand lib entry commitTime xid entry.tuple call.cmd).map Prod.snd) ∧
      (w.write lib left commitTime xid).map Prod.snd =
        (w.write lib entry commitTime xid).map Prod.snd ∧
      left.tuple = entry.tuple ∧ left.prevTuple = entry.prevTuple) ↔
    (w.txOpts.save = true →
      (∃ call ∈ calls, w.commandAsksJson lib entry commitTime xid call = true) →
      storeCommitTime lib w.txOpts commitTime entry.tuple = entry.tuple)) := by
  -- A row that is as before has been stored into without an effect.
  intro calls left
  have threaded : RedisDynamicWriter.Threaded w lib entry commitTime xid entry.tuple calls :=
    RedisDynamicWriter.groupsCalls_threaded entry.tuple _
  obtain ⟨count, stores, asks⟩ := threaded.callsLeave_eq
  refine ⟨fun after cmds built => RedisDynamicWriter.groupsCalls_of_ok built, ?_⟩
  constructor
  · rintro ⟨-, -, unchanged, -⟩ - asking
    obtain ⟨more, rfl⟩ := Nat.exists_eq_add_one_of_ne_zero (Nat.ne_of_gt (asks.mp asking))
    exact storeCommitTime_iterate (stores.symm.trans unchanged)
  · intro condition
    have stored : (∃ call ∈ calls, w.commandAsksJson lib entry commitTime xid call = true) →
        storeCommitTime lib w.txOpts commitTime entry.tuple = entry.tuple := by
      intro asking
      cases saves : w.txOpts.save with
      | true => exact condition saves asking
      | false =>
        rcases entry.tuple with _ | _ | om
        · rfl
        · rfl
        · simp [storeCommitTime, saveCommitTime, saves]
    have unchanged : left.tuple = entry.tuple := by
      show w.callsLeave lib entry commitTime xid entry.tuple calls = entry.tuple
      rw [stores]
      rcases Nat.eq_zero_or_pos count with none | some_stored
      · rw [none]
        rfl
      · exact iterate_fixed (stored (asks.mpr some_stored)) _
    have same : left = entry := by
      show ({ entry with tuple := left.tuple } : WriteEntry V) = entry
      rw [unchanged]
    refine ⟨fun call member => ?_, by rw [same], unchanged, rfl⟩
    rw [threaded.unchanged stored call member]

namespace Sample

/-- A row of a table whose rows keep their commit time. -/
def stampedRow : WriteEntry (List UInt8) :=
  { insertedRow with
    tuple := .pointer (some ⟨[some [49], none], [true, false], 1, ⟨["id", "ts"]⟩⟩) }

/-- A writer that stores a row as a hash, as JSON and as a hash again. -/
def threeWayWriter : RedisDynamicWriter :=
  createPipelineWriter { insertOnlyUsers with
    insertCommands := [⟨[["HSET", "a", "\x7bpairs:*\x7d"], ["SET", "b", "\x7bjson:*\x7d"],
      ["HSET", "a", "\x7bpairs:*\x7d"]], none⟩] } ⟨true, "ts"⟩

def textArg (text : String) : Option (RedisArg Nat) := some (.text text)

end Sample

open Redis.Sample

/-- The hash behind the JSON, and a retry's, has the commit time twice. -/
theorem commands_depend_on_json :
    (threeWayWriter.write Sample.lib stampedRow 5 7).map Prod.snd = .ok
        [[textArg "MULTI"],
          ["HSET", "a", "id", "1", "ts", "5"].map textArg,
          ["SET", "b", "\x7bid:1,ts:5\x7d"].map textArg,
          ["HSET", "a", "id", "1", "ts", "5", "ts", "5"].map textArg,
          [textArg "EXEC"]] ∧
      (threeWayWriter.write Sample.lib
          (threeWayWriter.leftRow Sample.lib stampedRow 5 7) 5 7).map Prod.snd = .ok
        [[textArg "MULTI"],
          ["HSET", "a", "id", "1", "ts", "5", "ts", "5"].map textArg,
          ["SET", "b", "\x7bid:1,ts:5\x7d"].map textArg,
          ["HSET", "a", "id", "1", "ts", "5", "ts", "5"].map textArg,
          [textArg "EXEC"]] ∧
      (threeWayWriter.leftRow Sample.lib stampedRow 5 7).tuple ≠ stampedRow.tuple := by
  refine ⟨rfl, rfl, ?_⟩
  decide

end PgWalk.Redis
