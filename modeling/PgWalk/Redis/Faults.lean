import PgWalk.Lib.Avoids
import PgWalk.Redis.Condition

/-! How the commands and the condition of a row can fail. -/

namespace PgWalk.Redis

variable {V F : Type}

/-- Faults without an error and without a panic over a missing place. -/
structure Spares (bad : Fault → Prop) : Prop where
  error : ∀ text, ¬ bad (.error text)
  range : ¬ bad (.panic "index out of range")
  missing : ¬ bad (.panic "(Set) key not found in keymap")
  outside : ¬ bad (.panic "(Set) key index out of range")

variable {bad : Fault → Prop}

theorem storeArg_avoids (spares : Spares bad) (arr : ArgArray F) (index : Nat)
    (arg : RedisArg F) : Avoids bad (storeArg arr index arg) := by
  simp only [storeArg]
  split
  · exact .ok _
  · exact .error spares.range

theorem storeTexts_avoids (spares : Spares bad) (arr : ArgArray F) (startAt : Nat)
    (texts : List String) : Avoids bad (storeTexts arr startAt texts) := by
  induction texts generalizing arr startAt with
  | nil => exact .ok _
  | cons text rest ih => exact (storeArg_avoids spares arr startAt _).bind fun next => ih next _

theorem orError_avoids {α : Type} (spares : Spares bad) (result : Except String α) :
    Avoids bad (orError result) := by
  cases result with
  | error text => exact .error (spares.error text)
  | ok value => exact .ok value

theorem saveCommitTime_avoids (spares : Spares bad) (lib : RedisLib V F)
    (txOpts : TxCommitTimeOptions) (commitTime : Nat) (om : OrderedMap V) :
    Avoids bad (saveCommitTime lib txOpts commitTime om) := by
  simp only [saveCommitTime, OrderedMap.setValue]
  split
  · split
    · exact .error spares.missing
    · split
      · exact .error spares.outside
      · exact .ok _
  · exact .ok _

variable {entry : WriteEntry V} {tuple : EntryTuple V}

theorem get_avoids (row : Avoids bad tuple.deref) (column : String) :
    Avoids bad (tuple.get column) :=
  row.bind fun _ => .ok _

theorem render_avoids (row : Avoids bad tuple.deref)
    (previous : ∀ column, Avoids bad (entry.prevTuple.lookup column)) (lib : RedisLib V F)
    (xid : Nat) (part : TemplatePart) : Avoids bad (part.render lib entry tuple xid) := by
  cases part with
  | literal | table | schema | xid | pk => exact .ok _
  | old colName => exact (previous colName).bind fun _ => .ok _
  | column colName verbatim => exact (get_avoids row colName).bind fun _ => .ok _

theorem required_avoids (row : Avoids bad tuple.deref) (txOpts : TxCommitTimeOptions)
    (cmd : RedisCompiledCommand) : Avoids bad (cmd.required txOpts tuple) := by
  cases cmd with
  | literal | jsonStar | jsonSubset | diff | template | pairsSubset => exact .ok _
  | pairsStar | columnsStar => exact row.bind fun _ => .ok _

/-- Filling an argument raises no excluded fault. -/
theorem fill_avoids (spares : Spares bad) (row : Avoids bad tuple.deref)
    (previous : ∀ column, Avoids bad (entry.prevTuple.lookup column)) (lib : RedisLib V F)
    (txOpts : TxCommitTimeOptions) (commitTime xid : Nat) (arr : ArgArray F) (startAt : Nat)
    (cmd : RedisCompiledCommand) :
    Avoids bad (cmd.fill lib txOpts entry commitTime xid tuple arr startAt) := by
  -- Each argument is a sequence of calls, all of which have been looked at above.
  cases cmd with
  | literal value => exact (storeArg_avoids spares _ _ _).bind fun _ => .ok _
  | pairsStar | columnsStar =>
    exact row.bind fun _ => (storeTexts_avoids spares _ _ _).bind fun _ => .ok _
  | pairsSubset cols =>
    exact (Avoids.mapM (fun col => (get_avoids row col).bind fun _ => .ok _) _).bind fun _ =>
      (storeTexts_avoids spares _ _ _).bind fun _ => .ok _
  | jsonStar =>
    exact row.bind fun _ => (saveCommitTime_avoids spares _ _ _ _).bind fun _ =>
      (orError_avoids spares _).bind fun _ => (storeArg_avoids spares _ _ _).bind fun _ => .ok _
  | jsonSubset cols =>
    exact row.bind fun _ => (orError_avoids spares _).bind fun _ =>
      (storeArg_avoids spares _ _ _).bind fun _ => .ok _
  | diff colName =>
    exact (get_avoids row colName).bind fun _ => (previous colName).bind fun _ =>
      (storeArg_avoids spares _ _ _).bind fun _ => .ok _
  | template parts =>
    exact (Avoids.mapM (render_avoids row previous lib xid) _).bind fun _ =>
      (storeArg_avoids spares _ _ _).bind fun _ => .ok _

section

variable (row : Avoids bad entry.tuple.deref)
  (previous : ∀ column, Avoids bad (entry.prevTuple.lookup column))

include row previous

theorem resolveValueMacro_avoids (lib : RedisLib V F) (operand : String) :
    Avoids bad (resolveValueMacro lib operand entry) := by
  simp only [resolveValueMacro]
  split
  · exact previous _
  · split
    · exact get_avoids row _
    · exact .ok _

theorem resolveValue_avoids (colName : String) : Avoids bad (resolveValue colName entry) := by
  simp only [resolveValue]
  split
  · exact previous _
  · split <;> exact get_avoids row _

end

theorem compare_avoids (spares : Spares bad) (lib : RedisLib V F) (a b : V)
    (op : ConditionOperator) : Avoids bad (compare lib a b op) := by
  cases op with
  | equal | notEqual => exact .ok _
  | less | greater | lessEq | greaterEq =>
    simp only [compare]
    split <;> exact .ok _
  | isIn | notIn | isNull | isNotNull | isDistinctFrom | other =>
    exact .error (spares.error _)

theorem isAmong_avoids (row : Avoids bad entry.tuple.deref)
    (previous : ∀ column, Avoids bad (entry.prevTuple.lookup column)) (lib : RedisLib V F)
    (val : Option V) (operands : List String) : Avoids bad (isAmong lib entry val operands) := by
  induction operands with
  | nil => exact .ok _
  | cons operand rest ih =>
    refine (resolveValueMacro_avoids row previous lib operand).bind fun _ => ?_
    split
    · exact .ok _
    · exact ih

/-- Evaluating a condition raises no excluded fault. -/
theorem evaluate_avoids (spares : Spares bad) (row : Avoids bad entry.tuple.deref)
    (previous : ∀ column, Avoids bad (entry.prevTuple.lookup column)) (lib : RedisLib V F)
    (cond : ConditionConfig) : Avoids bad (evaluate lib cond entry) := by
  -- What follows depends on the operator, and often on the value.
  have operand := resolveValueMacro_avoids row previous lib cond.value
  have among := fun val => isAmong_avoids row previous lib val cond.values
  refine (resolveValue_avoids row previous _).bind fun found => ?_
  cases cond.op with
  | isNull | isNotNull => exact .ok _
  | isDistinctFrom => exact operand.bind fun _ => .ok _
  | equal | notEqual | less | greater | lessEq | greaterEq =>
    cases found.getD none with
    | none => exact .ok _
    | some a =>
      refine operand.bind fun other => ?_
      cases other.getD none with
      | none => exact .ok _
      | some b => exact compare_avoids spares lib a b _
  | isIn =>
    cases found.getD none with
    | none => exact .ok _
    | some a => exact among _
  | notIn =>
    cases found.getD none with
    | none => exact .ok _
    | some a => exact (among _).bind fun _ => .ok _
  | other text =>
    cases found.getD none with
    | none => exact .ok _
    | some a => exact .error (spares.error _)

end PgWalk.Redis
