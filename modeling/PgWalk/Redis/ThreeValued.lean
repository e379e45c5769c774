import PgWalk.Lib.Kleene
import PgWalk.Redis.PrevTuple

/-! Conditions next to the SQL predicates they are written for. -/

namespace PgWalk

open Kleene (Truth)

variable {V F : Type}

/-- The value of a column, null where the tuple or the column is missing. -/
def EntryTuple.valueOf (column : String) : EntryTuple V → Option V
  | .pointer (some om) => (om.get column).getD none
  | .absent | .pointer none => none

def EntryTuple.hasMap : EntryTuple V → Bool
  | .pointer (some _) => true
  | .absent | .pointer none => false

/-- Whether a tuple compared with nil first can be asked for a column. -/
def EntryTuple.answers : EntryTuple V → Bool
  | .absent | .pointer (some _) => true
  | .pointer none => false

namespace Redis

variable (entry : WriteEntry V)

def sqlColumn (colName : String) : Option V :=
  if readsOld colName then entry.prevTuple.valueOf (between colName "\x7bold:")
  else if isMacro colName then entry.tuple.valueOf (between colName "\x7b")
  else entry.tuple.valueOf colName

variable (lib : RedisLib V F)

/-- The value compared with: a column in braces, or the text itself. -/
def sqlOperand (entry : WriteEntry V) (operand : String) : Option V :=
  if readsOld operand || isMacro operand then sqlColumn entry operand
  else some (lib.ofText operand)

/-- Equality, which is unknown with a null on either side. -/
def sqlEqual : Option V → Option V → Truth
  | some a, some b => some (lib.conditionText a = lib.conditionText b)
  | none, _ | some _, none => none

/-- Distinctness, which takes null for a value and is never unknown. -/
def sqlDistinct : Option V → Option V → Bool
  | none, none => false
  | none, some _ | some _, none => true
  | some a, some b => lib.conditionText a ≠ lib.conditionText b

/-- The operators whose SQL predicate depends on equality only. -/
def sqlOperators : List ConditionOperator :=
  [.equal, .notEqual, .isIn, .notIn, .isNull, .isNotNull, .isDistinctFrom]

variable (cond : ConditionConfig)

/-- The predicate a condition with one of these operators is written for. -/
def sqlPredicate (entry : WriteEntry V) : Truth :=
  let val := sqlColumn entry cond.column
  let other := sqlOperand lib entry cond.value
  let among := Kleene.any (fun operand => sqlEqual lib val (sqlOperand lib entry operand))
    cond.values
  match cond.op with
  | .isNull => some val.isNone
  | .isNotNull => some val.isSome
  | .isDistinctFrom => some (sqlDistinct lib val other)
  | .equal => sqlEqual lib val other
  | .notEqual => Kleene.neg (sqlEqual lib val other)
  | .isIn => among
  | .notIn => Kleene.neg among
  | .less | .greater | .lessEq | .greaterEq | .other _ => none

/-- Whether a condition's column is looked up without a nil pointer. -/
def columnAsked (colName : String) : Bool :=
  if readsOld colName then entry.prevTuple.answers else entry.tuple.hasMap

/-- Whether an operand is looked up without reaching a nil pointer. -/
def operandAsked (operand : String) : Bool :=
  !(readsOld operand || isMacro operand) || columnAsked entry operand

/-- Whether operands up to the first equal one avoid a nil pointer. -/
def searchAsked (lib : RedisLib V F) (entry : WriteEntry V) (val : Option V) : List String → Bool
  | [] => true
  | operand :: rest => operandAsked entry operand &&
      (isEqual lib val (sqlOperand lib entry operand) || searchAsked lib entry val rest)

/-- Whether all of a condition's lookups avoid a nil pointer. -/
def asked (entry : WriteEntry V) : Bool :=
  columnAsked entry cond.column &&
    match cond.op with
    | .isNull | .isNotNull | .other _ => true
    | .isDistinctFrom => operandAsked entry cond.value
    | .isIn | .notIn => (sqlColumn entry cond.column).isNone ||
        searchAsked lib entry (sqlColumn entry cond.column) cond.values
    | .equal | .notEqual | .less | .greater | .lessEq | .greaterEq =>
        (sqlColumn entry cond.column).isNone || operandAsked entry cond.value

/-- What a condition with an SQL predicate answers without nil pointers. -/
def verdict (entry : WriteEntry V) : Bool :=
  let val := sqlColumn entry cond.column
  let other := sqlOperand lib entry cond.value
  let among := cond.values.any fun operand => isEqual lib val (sqlOperand lib entry operand)
  match cond.op with
  | .isNull => val.isNone
  | .isNotNull => val.isSome
  | .isDistinctFrom => isDistinctFrom lib val other
  | .equal => val.isSome && (other.isSome && isEqual lib val other)
  | .notEqual => val.isSome && (other.isSome && !isEqual lib val other)
  | .isIn => val.isSome && among
  | .notIn => val.isSome && !among
  | .less | .greater | .lessEq | .greaterEq | .other _ => false

section Lookups

variable (lib : RedisLib V F) (entry : WriteEntry V)

theorem get_cases (tuple : EntryTuple V) (column : String) :
    (tuple.hasMap = true ∧ ∃ found, tuple.get column = .ok found ∧
        found.getD none = tuple.valueOf column) ∨
      (tuple.hasMap = false ∧ tuple.get column = .error nilDereference) := by
  rcases tuple with _ | _ | om
  · exact .inr ⟨rfl, rfl⟩
  · exact .inr ⟨rfl, rfl⟩
  · exact .inl ⟨rfl, _, rfl, rfl⟩

theorem lookup_cases (tuple : EntryTuple V) (column : String) :
    (tuple.answers = true ∧ ∃ found, tuple.lookup column = .ok found ∧
        found.getD none = tuple.valueOf column) ∨
      (tuple.answers = false ∧ tuple.lookup column = .error nilDereference) := by
  rcases tuple with _ | _ | om
  · exact .inl ⟨rfl, _, rfl, rfl⟩
  · exact .inr ⟨rfl, rfl⟩
  · exact .inl ⟨rfl, _, rfl, rfl⟩

theorem resolveValue_cases (colName : String) :
    (columnAsked entry colName = true ∧ ∃ found, resolveValue colName entry = .ok found ∧
        found.getD none = sqlColumn entry colName) ∨
      (columnAsked entry colName = false ∧ resolveValue colName entry = .error nilDereference) := by
  unfold columnAsked resolveValue sqlColumn
  cases readsOld colName with
  | true => exact lookup_cases entry.prevTuple _
  | false =>
    cases isMacro colName with
    | true | false => exact get_cases entry.tuple _

theorem resolveValueMacro_cases (operand : String) :
    (operandAsked entry operand = true ∧ ∃ found, resolveValueMacro lib operand entry = .ok found ∧
        found.getD none = sqlOperand lib entry operand) ∨
      (operandAsked entry operand = false ∧
        resolveValueMacro lib operand entry = .error nilDereference) := by
  -- A column in braces is looked up as the column of a condition is.
  have column := resolveValue_cases entry operand
  unfold operandAsked resolveValueMacro sqlOperand
  unfold resolveValue at column
  cases old : readsOld operand with
  | true => simpa [old] using column
  | false =>
    cases braces : isMacro operand with
    | true => simpa [old, braces] using column
    | false => exact .inl ⟨rfl, _, rfl, rfl⟩

/-- A search finds an equal operand, or asks in vain. -/
theorem isAmong_eq (val : Option V) (operands : List String) :
    isAmong lib entry val operands =
      if searchAsked lib entry val operands then
        .ok (operands.any fun operand => isEqual lib val (sqlOperand lib entry operand))
      else .error nilDereference := by
  -- By induction on the operands: an equal one ends the search.
  induction operands with
  | nil => rfl
  | cons operand rest ih =>
    unfold isAmong searchAsked
    rcases resolveValueMacro_cases lib entry operand with ⟨reached, found, here, value⟩ |
      ⟨unreached, panics⟩
    · simp only [here, reached, value, ih, bind, Except.bind, Bool.true_and, List.any_cons]
      cases isEqual lib val (sqlOperand lib entry operand) with
      | true => rfl
      | false => simp
    · simp [panics, unreached, bind, Except.bind]

/-- A condition answers by its operands, or reaches a nil pointer. -/
theorem evaluate_eq (cond : ConditionConfig) (listed : cond.op ∈ sqlOperators) :
    evaluate lib cond entry =
      if asked lib cond entry then .ok (verdict lib cond entry) else .error nilDereference := by
  -- Only operators with an operand go on, most only with a value.
  rcases resolveValue_cases entry cond.column with ⟨reached, found, here, value⟩ |
    ⟨unreached, panics⟩
  · have operand := resolveValueMacro_cases lib entry cond.value
    have among := isAmong_eq lib entry (found.getD none) cond.values
    unfold evaluate asked verdict
    simp only [here, reached, ← value, bind, Except.bind, Bool.true_and]
    cases op : cond.op with
    | isNull | isNotNull => rfl
    | isDistinctFrom =>
      rcases operand with ⟨known, other, otherHere, otherValue⟩ | ⟨unknown, panics⟩
      · simp [otherHere, known, ← otherValue, pure, Except.pure]
      · simp [panics, unknown]
    | equal | notEqual =>
      cases column : found.getD none with
      | none => rfl
      | some a =>
        rcases operand with ⟨known, other, otherHere, otherValue⟩ | ⟨unknown, panics⟩
        · simp only [otherHere, known, ← otherValue]
          cases other.getD none <;> rfl
        · simp [panics, unknown]
    | isIn | notIn =>
      rw [among]
      cases column : found.getD none with
      | none => rfl
      | some a => cases searchAsked lib entry (some a) cond.values <;> rfl
    | less | greater | lessEq | greaterEq | other => simp [sqlOperators, op] at listed
  · have nothing : asked lib cond entry = false := by
      unfold asked
      rw [unreached, Bool.false_and]
    rw [nothing, evaluate, panics]
    rfl

end Lookups

/-- Operands with which the negated search answers as SQL does. -/
def ListAgrees (entry : WriteEntry V) : Prop :=
  match sqlColumn entry cond.column with
  | none => cond.values ≠ []
  | some a => (∃ operand ∈ cond.values, sqlOperand lib entry operand = none) →
      ∃ operand ∈ cond.values, isEqual lib (some a) (sqlOperand lib entry operand) = true

section Agreement

variable (lib : RedisLib V F)

theorem sqlEqual_eq_true (a : V) (other : Option V) :
    sqlEqual lib (some a) other = some true ↔ isEqual lib (some a) other = true := by
  cases other with
  | none => simp [sqlEqual, isEqual]
  | some b => simp [sqlEqual, isEqual]

theorem sqlEqual_eq_false (a : V) (other : Option V) :
    sqlEqual lib (some a) other = some false ↔
      other ≠ none ∧ isEqual lib (some a) other = false := by
  cases other with
  | none => simp [sqlEqual]
  | some b => simp [sqlEqual, isEqual]

theorem isDistinctFrom_eq (val other : Option V) :
    isDistinctFrom lib val other = sqlDistinct lib val other := by
  cases val <;> cases other <;> simp [isDistinctFrom, sqlDistinct, isEqual]

theorem sqlEqual_none (other : Option V) : sqlEqual lib none other = none := by
  cases other <;> rfl

/-- A negated search answers as SQL does exactly with such a list. -/
theorem notIn_agrees_iff (cond : ConditionConfig) (entry : WriteEntry V) (op : cond.op = .notIn) :
    (verdict lib cond entry = true ↔ sqlPredicate lib cond entry = some true) ↔
      ListAgrees lib cond entry := by
  -- The source answers no; SQL says yes for the empty list only.
  unfold verdict sqlPredicate ListAgrees
  simp only [op, Kleene.neg_eq_true, Kleene.any_eq_false]
  cases column : sqlColumn entry cond.column with
  | none =>
    cases values : cond.values with
    | nil => simp
    | cons operand rest =>
      refine iff_of_true (iff_of_false (by simp) fun different => ?_) (by simp)
      have unknown := different operand List.mem_cons_self
      cases unknown
  | some a =>
    simp only [sqlEqual_eq_false, Option.isSome_some, Bool.true_and, Bool.not_eq_true',
      List.any_eq_false]
    constructor
    · rintro agrees ⟨operand, member, null⟩
      -- Without an equal operand the source answers yes, and SQL does not.
      by_contra none_equal
      push Not at none_equal
      exact (agrees.mp none_equal operand member).1 null
    · intro equal_beside_null
      constructor
      · intro none_equal operand member
        refine ⟨fun null => ?_, by simpa using none_equal operand member⟩
        obtain ⟨other, listed, equal⟩ := equal_beside_null ⟨operand, member, null⟩
        exact none_equal other listed equal
      · intro different operand member equal
        rw [(different operand member).2] at equal
        cases equal

/-- A condition answers as SQL does, but for negated searches. -/
theorem verdict_agrees_iff (cond : ConditionConfig) (entry : WriteEntry V)
    (listed : cond.op ∈ sqlOperators) :
    (verdict lib cond entry = true ↔ sqlPredicate lib cond entry = some true) ↔
      (cond.op = .notIn → ListAgrees lib cond entry) := by
  by_cases negated : cond.op = .notIn
  · rw [notIn_agrees_iff lib cond entry negated]
    simp [negated]
  · refine iff_of_true ?_ fun same => absurd same negated
    unfold verdict sqlPredicate
    cases op : cond.op with
    | isNull | isNotNull => simp
    | isDistinctFrom => simp [isDistinctFrom_eq]
    | equal =>
      cases sqlColumn entry cond.column with
      | none => simp [sqlEqual_none]
      | some a => cases sqlOperand lib entry cond.value <;> simp [sqlEqual, isEqual]
    | notEqual =>
      cases sqlColumn entry cond.column with
      | none => simp [sqlEqual_none, Kleene.neg]
      | some a => cases sqlOperand lib entry cond.value <;> simp [sqlEqual, isEqual, Kleene.neg]
    | isIn =>
      simp only [Kleene.any_eq_true]
      cases sqlColumn entry cond.column with
      | none => simp [sqlEqual_none]
      | some a => simp [sqlEqual_eq_true]
    | notIn => exact absurd op negated
    | less | greater | lessEq | greaterEq | other => simp [sqlOperators, op] at listed

end Agreement

/--
A condition answers yes exactly when its SQL predicate is true, exactly when no nil pointer is
reached and the list of a negated search agrees with SQL.
-/
theorem conditions_follow_sql_iff
    (listed : cond.op ∈ sqlOperators) (entry : WriteEntry V) :
    (∃ answer, evaluate lib cond entry = .ok answer ∧
        (answer = true ↔ sqlPredicate lib cond entry = some true)) ↔
      asked lib cond entry = true ∧ (cond.op = .notIn → ListAgrees lib cond entry) := by
  rw [← verdict_agrees_iff lib cond entry listed, evaluate_eq lib entry cond listed]
  cases asked lib cond entry with
  | true => simp
  | false => simp

namespace Sample

def namelessRow : WriteEntry (List UInt8) :=
  { insertedRow with
    tuple := .pointer (some ⟨[some [49], none], [true, true], 2, ⟨["id", "name"]⟩⟩) }

end Sample

/-- A value not in a list of literals is not found, as in SQL. -/
theorem conditions_follow_sql_iff_literals :
    ∃ answer, evaluate Sample.lib ⟨.notIn, "id", "", ["2", "3"]⟩ Sample.namelessRow = .ok answer ∧
      (answer = true ↔
        sqlPredicate Sample.lib ⟨.notIn, "id", "", ["2", "3"]⟩ Sample.namelessRow = some true) := by
  -- Neither literal is null.
  have known : ∀ operand ∈ ["2", "3"], sqlOperand Sample.lib Sample.namelessRow operand ≠ none := by
    decide
  apply (conditions_follow_sql_iff Sample.lib ⟨.notIn, "id", "", ["2", "3"]⟩ (by decide) _).mpr
  refine ⟨by decide, fun _ => ?_⟩
  rintro ⟨operand, member, null⟩
  exact absurd null (known operand member)

/-- A negated search passes over a null, where SQL does not know. -/
theorem conditions_differ_from_sql :
    evaluate Sample.lib ⟨.notIn, "id", "", ["2", "\x7bname\x7d"]⟩ Sample.namelessRow = .ok true ∧
      sqlPredicate Sample.lib ⟨.notIn, "id", "", ["2", "\x7bname\x7d"]⟩ Sample.namelessRow =
        none := by
  decide

end Redis

end PgWalk
