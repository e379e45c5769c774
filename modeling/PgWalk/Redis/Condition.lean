import PgWalk.Redis.Command
import PgWalk.Redis.Config

/-! The evaluation of the condition of a group of commands for a row. -/

namespace PgWalk.Redis

variable {V F : Type} (operand : String)

/-- Whether an operand names a column of the previous tuple. -/
def readsOld : Bool :=
  hasPrefix operand "\x7bold:" && hasSuffix operand "\x7d"

def isMacro : Bool :=
  hasPrefix operand "\x7b" && hasSuffix operand "\x7d"

/-- A column of the previous tuple. -/
def resolveOld (entry : WriteEntry V) : Except Fault (Option (Option V)) :=
  entry.prevTuple.lookup (between operand "\x7bold:")

/-- The value of the column of a condition, if there is one. -/
def resolveValue (colName : String) (entry : WriteEntry V) : Except Fault (Option (Option V)) :=
  if readsOld colName then resolveOld colName entry
  else if isMacro colName then entry.tuple.get (between colName "\x7b")
  else entry.tuple.get colName

variable (lib : RedisLib V F)

/-- The value of an operand, which may be a literal. -/
def resolveValueMacro (operand : String) (entry : WriteEntry V) :
    Except Fault (Option (Option V)) :=
  if readsOld operand then resolveOld operand entry
  else if isMacro operand then entry.tuple.get (between operand "\x7b")
  else .ok (some (some (lib.ofText operand)))

/-- Whether two values are equal, where nil equals nil only. -/
def isEqual : Option V → Option V → Bool
  | none, none => true
  | none, some _ | some _, none => false
  | some a, some b => lib.conditionText a = lib.conditionText b

/-- Whether two values are distinct, where nil is a value of its own. -/
def isDistinctFrom : Option V → Option V → Bool
  | none, none => false
  | none, some _ | some _, none => true
  | some a, some b => !isEqual lib (some a) (some b)

/-- Compare by an operator: as numbers if both are, else as texts. -/
def compare (a b : V) (op : ConditionOperator) : Except Fault Bool :=
  match op with
  | .equal => .ok (isEqual lib (some a) (some b))
  | .notEqual => .ok (!isEqual lib (some a) (some b))
  | .less | .greater | .lessEq | .greaterEq =>
    match lib.conditionFloat a, lib.conditionFloat b with
    | some af, some bf =>
      match op with
      | .less => .ok (lib.floatLess af bf)
      | .greater => .ok (lib.floatLess bf af)
      | .lessEq => .ok (lib.floatLessEq af bf)
      | _ => .ok (lib.floatLessEq bf af)
    | _, _ =>
      let as := lib.conditionText a
      let bs := lib.conditionText b
      match op with
      | .less => .ok (decide (as < bs))
      | .greater => .ok (decide (bs < as))
      | .lessEq => .ok (decide (as ≤ bs))
      | _ => .ok (decide (bs ≤ as))
  | .isIn | .notIn | .isNull | .isNotNull | .isDistinctFrom | .other _ =>
    .error (.error ("unsupported operator for comparison: " ++ op.text))

/-- Whether a value equals one of some operands, looked up in turn. -/
def isAmong (lib : RedisLib V F) (entry : WriteEntry V) (val : Option V) :
    List String → Except Fault Bool
  | [] => .ok false
  | operand :: rest => do
    let otherVal ← resolveValueMacro lib operand entry
    if isEqual lib val (otherVal.getD none) then return true else isAmong lib entry val rest

def evaluate (cond : ConditionConfig) (entry : WriteEntry V) : Except Fault Bool := do
  -- A column that the tuple does not have counts as null.
  let val := (← resolveValue cond.column entry).getD none
  match cond.op with
  | .isNull => return val.isNone
  | .isNotNull => return val.isSome
  | .isDistinctFrom =>
    let otherVal ← resolveValueMacro lib cond.value entry
    return isDistinctFrom lib val (otherVal.getD none)
  | op =>
    match val with
    | none => return false
    | some a =>
      match op with
      | .isIn => isAmong lib entry val cond.values
      | .notIn => return !(← isAmong lib entry val cond.values)
      | .equal | .notEqual | .less | .greater | .lessEq | .greaterEq =>
        let otherVal ← resolveValueMacro lib cond.value entry
        match otherVal.getD none with
        | none => return false
        | some b => compare lib a b op
      | op => throw (.error ("unsupported operator: " ++ op.text))

end PgWalk.Redis
