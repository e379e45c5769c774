import Mathlib.Data.List.Sort
import PgWalk.Wal.OrderedMap

/-! Tables of a publication and the key string a tuple is identified by. -/

namespace PgWalk

structure TableName where
  schema : String
  -- The name inside the schema.
  name : String
  -- Both parts joined by a dot, under which every map of the source files a table.
  fullName : String
deriving DecidableEq

def makeTableName (schema table : String) : TableName where
  schema := schema
  name := table
  fullName := schema ++ "." ++ table

def splitDots (text : String) : List String :=
  (text.toList.splitOn '.').map String.ofList

/-- A table's name as written, in the schema public unless it names another. -/
def parseTableName (fullName : String) : TableName :=
  match splitDots fullName with
  | [schema, table] => makeTableName schema table
  | _ => makeTableName "public" fullName

structure Column where
  name : String
  -- The type's object id.
  typeID : Nat
  -- Whether the column belongs to the primary key.
  isPK : Bool
  -- The ordinal position.
  position : Int
deriving DecidableEq

/-- A table of the publication; its maps are columns with distinct names. -/
structure Table where
  name : TableName
  -- The replicated columns.
  columns : List Column
  -- The columns of the primary key.
  pk : List Column
  -- How many columns the table has in the database, when that is known.
  physicalColumnsCount : Nat
deriving DecidableEq

namespace Table

def fullName (table : Table) : String := table.name.fullName

def hasColumn (table : Table) (column : String) : Bool :=
  table.columns.any fun col => col.name = column

/-- Whether every column the table has in the database is replicated. -/
def hasAllPhysicalColumns (table : Table) : Bool :=
  decide (table.physicalColumnsCount > 0) &&
    decide (table.columns.length = table.physicalColumnsCount)

/-- The same table with other replicated columns. -/
def withColumns (table : Table) (columns : List Column) : Table :=
  { table with columns := columns }

end Table

/-- The configuration of a table: the columns it asks for. -/
structure TableConfig where
  columns : List String
deriving DecidableEq

/-- A character as a case-insensitive comparison with ASCII sees it. -/
def foldChar (c : Char) : Char :=
  -- Two characters outside ASCII fold onto ASCII letters.
  if c = '\u017f' then 's' else if c = '\u212a' then 'k' else c.toLower

/-- Case-insensitive equality with an ASCII word, as the source uses it. -/
def equalFold (s word : String) : Bool :=
  s.toList.map foldChar = word.toList.map foldChar

def allColumnsWord : String := "all"

/-- Whether a configuration asks for every column. -/
def TableConfig.allColumns (cfg : TableConfig) : Bool :=
  match cfg.columns with
  | [] => true
  | first :: _ => equalFold first allColumnsWord

/-- A publication table with its configuration; either may be missing. -/
structure PGTableWithConfig where
  -- The table as the publication has it, once loaded.
  table : Option Table
  -- The configuration, when there is one.
  cfg : Option TableConfig
deriving DecidableEq

/-- How column text is read and a value printed; the source fixes neither. -/
structure ValueCodec (V : Type) where
  -- Decode a column's text under a type's object id.
  decode : List UInt8 → Nat → Except Fault (Option V)
  -- Print a value the way the default verb does.
  sprint : V → String

/-- The default verb, which prints the nil value by name. -/
def ValueCodec.sprintAny {V : Type} (codec : ValueCodec V) : Option V → String
  | none => "<nil>"
  | some value => codec.sprint value

/-- The order of primary key columns: by position, then by name. -/
def Column.before (a b : Column) : Prop :=
  a.position < b.position ∨ a.position = b.position ∧ a.name ≤ b.name

instance : DecidableRel Column.before := fun a b =>
  inferInstanceAs (Decidable (a.position < b.position ∨ a.position = b.position ∧ a.name ≤ b.name))

/-- Read a column through a tuple pointer; a nil pointer panics. -/
def tupleGet {V : Type} (data : Option (OrderedMap V)) (column : String) :
    Except Fault (Option (Option V)) :=
  match data with
  | none => throw (.panic "nil pointer dereference")
  | some tuple => return tuple.get column

/-- The printed values of some columns, joined by colons after a start. -/
def joinKey {V : Type} (codec : ValueCodec V) (data : Option (OrderedMap V)) :
    String → String → List Column → Except Fault String
  | key, _, [] => return key
  | key, colon, col :: rest => do
    let val ← tupleGet data col.name
    joinKey codec data (key ++ (colon ++ codec.sprintAny (val.getD none))) ":" rest

/-- The key string of a tuple: its primary key values in column order. -/
def createPK {V : Type} (codec : ValueCodec V) (table : Table) (data : Option (OrderedMap V)) :
    Except Fault String :=
  joinKey codec data "" "" (table.pk.insertionSort Column.before)

end PgWalk
