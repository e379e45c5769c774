import PgWalk.Listener.Basic
import PgWalk.Redis.Pattern

/-! The arguments of a command: compiled once from their patterns, then filled for every row. -/

namespace PgWalk

/-- The values that are set in a tuple, in the order of its keys. -/
def OrderedMap.iter {V : Type} (om : OrderedMap V) : List (String × Option V) :=
  om.keyMap.keysArr.zipIdx.filterMap fun item =>
    if om.set.getD item.2 false then some (item.1, om.values.getD item.2 none) else none

def EntryTuple.isNil {V : Type} : EntryTuple V → Bool
  | .absent => true
  | .pointer _ => false

/-- A column of a tuple that is asked only if it is not equal to nil. -/
def EntryTuple.lookup {V : Type} (tuple : EntryTuple V) (column : String) :
    Except Fault (Option (Option V)) :=
  if tuple.isNil then .ok none else tuple.get column

namespace Redis

/--
How values are printed, compared and encoded. `stringifyForRedis`, `convertToFloat64` and
`stringifyForCondition` are switches over Go's types, and the rest comes from libraries; results
hold for any of them.
-/
structure RedisLib (V F : Type) where
  -- A text as a value.
  ofText : String → V
  -- A value as it is written into a command.
  stringify : V → String
  -- A value as a number, zero where it is none.
  toFloat : V → F
  zero : F
  sub : F → F → F
  -- A key and a value in JSON.
  encodeKey : String → Except String String
  encodeValue : Option V → Except String String
  -- A commit time.
  formatTime : Nat → String
  -- A value as a condition prints it, and as the number it compares.
  conditionText : V → String
  conditionFloat : V → Option F
  floatLess : F → F → Bool
  floatLessEq : F → F → Bool

inductive RedisArg (F : Type)
  | text (value : String)
  | number (value : F)
deriving DecidableEq

variable {V F : Type} (lib : RedisLib V F)

/-- A value, possibly nil, as it is written into a command. -/
def stringifyForRedis : Option V → String
  | none => "<nil>"
  | some value => lib.stringify value

/-- A value, possibly nil, as a number. -/
def convertToFloat64 : Option V → F
  | none => lib.zero
  | some value => lib.toFloat value

def encodeMembers (lib : RedisLib V F) :
    List (String × Option V) → Except String (List String)
  | [] => .ok []
  | (key, value) :: rest => do
    let name ← lib.encodeKey key
    let text ← lib.encodeValue value
    let others ← encodeMembers lib rest
    return (name ++ ":" ++ text) :: others

def encodeObject (members : List (String × Option V)) : Except String String := do
  let texts ← encodeMembers lib members
  return "\x7b" ++ ",".intercalate texts ++ "\x7d"

def marshalJSON (om : OrderedMap V) : Except String String :=
  encodeObject lib om.iter

/-- Some columns in JSON, without those that have no value. -/
def customMarshalJSON (om : OrderedMap V) (keys : List String) : Except String String :=
  encodeObject lib (keys.filterMap fun key => (om.get key).map fun value => (key, value))

/-- An error of the encoder is returned to the caller. -/
def orError {α : Type} : Except String α → Except Fault α
  | .ok value => .ok value
  | .error text => .error (.error text)

inductive TemplatePart
  | literal (text : String)
  | table
  | schema
  | xid
  | pk
  -- A column of the previous tuple.
  | old (colName : String)
  -- A column of the tuple, kept as written when there is none.
  | column (colName : String) (verbatim : String)
deriving DecidableEq

def placeholderTemplatePart (content : List Char) : TemplatePart :=
  let text := String.ofList content
  if text = "%table%" then .table
  else if text = "%schema%" then .schema
  else if text = "%xid%" then .xid
  else if text = "%pk%" then .pk
  else
    let colName := trimSpace text
    if hasPrefix colName "old:" then .old (trimPrefix colName "old:")
    else .column colName (String.ofList (braced content))

/-- The text a part stands for in a row. -/
def TemplatePart.render (entry : WriteEntry V) (tuple : EntryTuple V)
    (xid : Nat) : TemplatePart → Except Fault String
  | .literal text => .ok text
  | .table => .ok entry.table.name
  | .schema => .ok entry.table.schema
  | .xid => .ok (toString xid)
  | .pk => .ok entry.pk
  | .old colName => do
    let value ← entry.prevTuple.lookup colName
    return (value.map (stringifyForRedis lib)).getD ""
  | .column colName verbatim => do
    let value ← tuple.get colName
    return (value.map (stringifyForRedis lib)).getD verbatim

inductive RedisCompiledCommand
  | literal (value : String)
  | pairsStar
  | pairsSubset (cols : List String)
  | columnsStar
  | jsonStar
  | jsonSubset (cols : List String)
  | diff (colName : String)
  | template (parts : List TemplatePart)
deriving DecidableEq

/-- The columns between commas, without the space around them. -/
def splitPlaceholderColumns (colsStr : String) : List String :=
  (splitCommas colsStr).map trimSpace

def templatePart : Segment → TemplatePart
  | .literal text => .literal (unmark text)
  | .placeholder content => placeholderTemplatePart content

/-- A pattern of text and placeholders; marks stand for doubled braces. -/
def compileTemplateCommand (pattern : List Char) : RedisCompiledCommand :=
  let parts := segments pattern
  if parts.all fun part => match part with
    | .literal _ => true
    | .placeholder _ => false
  then .literal (unmark pattern)
  else .template (parts.map templatePart)

/-- What a pattern that is one placeholder has behind a given start. -/
def wholeForm (pattern start : String) : Option String :=
  if hasPrefix pattern start ∧ hasSuffix pattern "\x7d" ∧ openBrace ∉ (between pattern start).toList
  then some (between pattern start)
  else none

def compileCommand (pattern : String) : RedisCompiledCommand :=
  if pattern = "\x7bpairs:*\x7d" then .pairsStar
  else match wholeForm pattern "\x7bpairs:" with
  | some colsStr => .pairsSubset (splitPlaceholderColumns colsStr)
  | none =>
    if pattern = "\x7bcolumns:*\x7d" then .columnsStar
    else if pattern = "\x7bjson:*\x7d" then .jsonStar
    else match wholeForm pattern "\x7bjson:" with
    | some colsStr => .jsonSubset (splitPlaceholderColumns colsStr)
    | none =>
      match wholeForm pattern "\x7bdiff:" with
      | some colName => .diff (trimSpace colName)
      -- Doubled braces are literal, and hidden from the search.
      | none => compileTemplateCommand
          (replacePair closeBrace '\x01' (replacePair openBrace '\x00' pattern.toList))

/-- A command's arguments while they are filled in, nil before that. -/
abbrev ArgArray (F : Type) := List (Option (RedisArg F))

/-- Store an argument, which panics outside the array. -/
def storeArg (arr : ArgArray F) (index : Nat) (arg : RedisArg F) : Except Fault (ArgArray F) :=
  if index < arr.length then .ok (arr.set index (some arg))
  else .error (.panic "index out of range")

/-- Store texts one by one, and return where the next one goes. -/
def storeTexts (arr : ArgArray F) (startAt : Nat) : List String → Except Fault (ArgArray F × Nat)
  | [] => .ok (arr, startAt)
  | text :: rest => do
    let arr ← storeArg arr startAt (.text text)
    storeTexts arr (startAt + 1) rest

/-- A tuple with the commit time, where commit times are saved. -/
def saveCommitTime (txTimeOpts : TxCommitTimeOptions) (commitTime : Nat)
    (om : OrderedMap V) : Except Fault (OrderedMap V) :=
  if txTimeOpts.save
  then om.setValue txTimeOpts.name (some (lib.ofText (lib.formatTime commitTime)))
  else .ok om

namespace RedisCompiledCommand

/-- How many places of the array an argument asks for. -/
def required (txTimeOpts : TxCommitTimeOptions) (tuple : EntryTuple V) :
    RedisCompiledCommand → Except Fault Nat
  | .literal _ | .jsonStar | .jsonSubset _ | .diff _ | .template _ => .ok 1
  | .pairsStar => do
    let om ← tuple.deref
    return om.size * 2 + if txTimeOpts.save then 2 else 0
  | .pairsSubset cols => .ok (cols.length * 2)
  | .columnsStar => do
    let om ← tuple.deref
    return om.size + if txTimeOpts.save then 1 else 0

/--
Fill an argument in, and return the row's tuple, which it may change for those behind it, the array
and where the next argument goes.
-/
def fill (lib : RedisLib V F) (txTimeOpts : TxCommitTimeOptions) (entry : WriteEntry V)
    (commitTime xid : Nat) (tuple : EntryTuple V) (arr : ArgArray F) (startAt : Nat) :
    RedisCompiledCommand → Except Fault (EntryTuple V × ArgArray F × Nat)
  | .literal value => do
    let arr ← storeArg arr startAt (.text value)
    return (tuple, arr, startAt + 1)
  | .pairsStar => do
    let om ← tuple.deref
    let pairs := om.iter.flatMap fun item => [item.1, stringifyForRedis lib item.2]
    let saved := if txTimeOpts.save then [txTimeOpts.name, lib.formatTime commitTime] else []
    let (arr, next) ← storeTexts arr startAt (pairs ++ saved)
    return (tuple, arr, next)
  | .pairsSubset cols => do
    let values ← cols.mapM fun col => do
      let value ← tuple.get col
      return (value.map fun value => [col, stringifyForRedis lib value]).getD []
    let (arr, next) ← storeTexts arr startAt values.flatten
    return (tuple, arr, next)
  | .columnsStar => do
    let om ← tuple.deref
    let saved := if txTimeOpts.save then [txTimeOpts.name] else []
    let (arr, next) ← storeTexts arr startAt (om.iter.map Prod.fst ++ saved)
    return (tuple, arr, next)
  | .jsonStar => do
    let om ← tuple.deref
    -- The commit time is stored in the tuple itself, where later arguments see it.
    let om ← saveCommitTime lib txTimeOpts commitTime om
    let text ← orError (marshalJSON lib om)
    let arr ← storeArg arr startAt (.text text)
    return (.pointer (some om), arr, startAt + 1)
  | .jsonSubset cols => do
    let om ← tuple.deref
    let text ← orError (customMarshalJSON lib om cols)
    let arr ← storeArg arr startAt (.text text)
    return (tuple, arr, startAt + 1)
  | .diff colName => do
    let cur ← tuple.get colName
    let prev ← entry.prevTuple.lookup colName
    let curVal := (cur.map (convertToFloat64 lib)).getD lib.zero
    let prevVal := (prev.map (convertToFloat64 lib)).getD lib.zero
    let arr ← storeArg arr startAt (.number (lib.sub curVal prevVal))
    return (tuple, arr, startAt + 1)
  | .template parts => do
    let values ← parts.mapM (TemplatePart.render lib entry tuple xid)
    let arr ← storeArg arr startAt (.text (String.join values))
    return (tuple, arr, startAt + 1)

end RedisCompiledCommand

end Redis

end PgWalk
