import PgWalk.Lib.Runs
import PgWalk.Replicator.Basic

/-! Whether the replicator parses every message in the mode the server sent it in. -/

namespace PgWalk

/-- What happens on the way from the server. -/
inductive LinkEvent
  | message (sent : LogicalMessage)
  -- The connection is lost, and replication goes on over a new one.
  | lost

/-- The replicator, and whether the server is inside a block. -/
structure Link where
  state : ReplicatorState
  inBlock : Bool

/-- Whether the server is inside a block after a message. -/
def blockAfter (inBlock : Bool) : LogicalMessage → Bool
  | .streamStart _ => true
  | .streamStop => false
  | _ => inBlock

/-- One event from the server; a parser error ends replication. -/
def linkStep (parser : Parser) (link : Link) : LinkEvent → Option Link
  | .message sent =>
    match link.state.processV2 parser sent link.inBlock with
    | .ok state => some ⟨state, blockAfter link.inBlock sent⟩
    | .error _ => none
  -- The server starts each connection outside any block.
  | .lost => some ⟨link.state.startReading, false⟩

/-- The messages a server may send next. -/
def LinkConforms (link : Link) : LinkEvent → Prop
  | .message (.streamStop) => link.inBlock = true
  | .message (.streamStart _) | .message (.txBegin _) | .message (.txCommit _)
  | .message (.streamCommit _) | .message (.streamAbort _) => link.inBlock = false
  | _ => True

/-- A message is parsed in the mode it was sent in. -/
def ParsedInMode (link : Link) : LinkEvent → Prop
  | .message _ => link.state.inStream = link.inBlock
  | .lost => True

def noMessage (events : List LinkEvent) : Prop := ∀ sent, LinkEvent.message sent ∉ events

/-- A connection lost inside a block is followed by no message. -/
def LostOutsideBlocks : Bool → List LinkEvent → Prop
  | _, [] => True
  | inBlock, .message sent :: rest => LostOutsideBlocks (blockAfter inBlock sent) rest
  | false, .lost :: rest => LostOutsideBlocks false rest
  | true, .lost :: rest => noMessage rest

variable {link : Link}

theorem linkStep_message (parser : Parser) (agree : link.state.inStream = link.inBlock)
    (sent : LogicalMessage) : linkStep parser link (.message sent) =
      some ⟨link.state.onMessage sent, blockAfter link.inBlock sent⟩ ∧
        (link.state.onMessage sent).inStream = blockAfter link.inBlock sent := by
  constructor
  · simp only [linkStep, ReplicatorState.processV2, agree, parser.agrees]
    rfl
  · cases sent <;> simp [ReplicatorState.onMessage, blockAfter, agree]

/-- With a block's mode left over, only losses keep messages well parsed. -/
theorem along_stale_iff (parser : Parser) (stale : link.state.inStream = true)
    (outside : link.inBlock = false) (events : List LinkEvent) :
    Runs.Along (linkStep parser) ParsedInMode link events ↔ noMessage events := by
  -- The very next message is parsed in the wrong mode.
  induction events generalizing link with
  | nil => simp [Runs.Along, noMessage]
  | cons event rest ih =>
    cases event with
    | message sent =>
      have wrong : ¬ ParsedInMode link (.message sent) := by
        simp [ParsedInMode, stale, outside]
      have present : ¬ noMessage (.message sent :: rest) := fun none => none sent List.mem_cons_self
      exact iff_of_false (fun along => wrong along.1) present
    | lost =>
      have tail := @ih ⟨link.state.startReading, false⟩ stale rfl
      have skip : noMessage (.lost :: rest) ↔ noMessage rest := by simp [noMessage]
      rw [skip, ← tail]
      constructor
      · intro along
        exact along.2 _ rfl
      · intro along
        exact Runs.Along.cons trivial rfl along

/-- The same from any state in which the replicator has the server's mode. -/
theorem along_parsedInMode_iff (parser : Parser) (agree : link.state.inStream = link.inBlock)
    (events : List LinkEvent) : Runs.Along (linkStep parser) ParsedInMode link events ↔
      LostOutsideBlocks link.inBlock events := by
  -- Outside a block the mode left over is that of a new connection.
  induction events generalizing link with
  | nil => simp [Runs.Along, LostOutsideBlocks]
  | cons event rest ih =>
    cases event with
    | message sent =>
      obtain ⟨taken, after⟩ := linkStep_message parser agree sent
      constructor
      · intro along
        exact (ih after).mp (along.2 _ taken)
      · intro survives
        exact Runs.Along.cons agree taken ((ih after).mpr survives)
    | lost =>
      cases inside : link.inBlock with
      | false =>
        have after : (⟨link.state.startReading, false⟩ : Link).state.inStream = false :=
          agree.trans inside
        rw [LostOutsideBlocks, ← ih after]
        constructor
        · intro along
          exact along.2 _ rfl
        · intro along
          exact Runs.Along.cons trivial rfl along
      | true =>
        have stale : (⟨link.state.startReading, false⟩ : Link).state.inStream = true :=
          agree.trans inside
        rw [LostOutsideBlocks, ← along_stale_iff parser stale rfl rest]
        constructor
        · intro along
          exact along.2 _ rfl
        · intro along
          exact Runs.Along.cons trivial rfl along

/--
Every message of a run is parsed in the mode the server sent it in exactly when no connection is
lost inside a stream block, or nothing is received after such a loss.
-/
theorem parsedInMode_iff (parser : Parser) (lsn : Nat) (events : List LinkEvent) :
    Runs.Along (linkStep parser) ParsedInMode ⟨.watchAndRestart lsn, false⟩ events ↔
      LostOutsideBlocks false events :=
  along_parsedInMode_iff parser rfl events

namespace Sample

/-- A parser that recovers every message in both modes. -/
def parser : Parser := ⟨fun sent _ _ => .ok sent, fun _ _ => rfl⟩

/-- A connection lost inside a block, and a whole transaction on the next. -/
def lostInBlock : List LinkEvent :=
  [.message (.streamStart ⟨5⟩), .lost, .message (.txBegin ⟨100, 7⟩)]

end Sample

/-- After a loss inside a block the parser is called in the wrong mode. -/
theorem parsedInMode_lost_in_block :
    Runs.Along (linkStep Sample.parser) LinkConforms ⟨.watchAndRestart 0, false⟩
        Sample.lostInBlock ∧
      ¬ Runs.Along (linkStep Sample.parser) ParsedInMode ⟨.watchAndRestart 0, false⟩
        Sample.lostInBlock := by
  constructor
  · exact .cons rfl rfl (.cons trivial rfl (.last rfl))
  · intro along
    have last := (along.2 _ rfl).2 _ rfl
    exact Bool.false_ne_true last.1.symm

end PgWalk
