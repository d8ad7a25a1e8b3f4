import EntityMapper.Driver.Basic

/-! # Reading scripted rows

How the current row of a scripted result is read into slots, and which table a schema
statement is about.
-/

namespace EntityMapper

/-- Why a row cannot be read. -/
def noCurrentRow : DriverError := ⟨"no current row"⟩

/-- A row of another width than asked for. -/
def wrongWidth (width slots : Nat) : DriverError :=
  ⟨"row has " ++ width.repr ++ " columns, " ++ slots.repr ++ " requested"⟩

/-- A cell of a scripted row; nothing leaves the slot as it was handed in. -/
abbrev ScriptedCell := Option Value

/-- The slots after a row has been read into them. -/
def fillSlots (row : List ScriptedCell) (slots : List Value) : List Value :=
  List.zipWith (fun cell slot => cell.getD slot) row slots

theorem length_fillSlots {row : List ScriptedCell} {slots : List Value}
    (h : row.length = slots.length) : (fillSlots row slots).length = slots.length := by
  simp [fillSlots, h]

/-- Reads the current row, if there is one of the right width. -/
def readRow (row : Option (List ScriptedCell)) (slots : List Value) :
    Except DriverError { values : List Value // values.length = slots.length } :=
  match row with
  | none => .error noCurrentRow
  | some row =>
      if h : row.length = slots.length then .ok ⟨fillSlots row slots, length_fillSlots h⟩
      else .error (wrongWidth row.length slots.length)

/-- The text after the first backquote. -/
def afterBackquote? (cs : List Char) : Option (List Char) :=
  match cs.dropWhile (· ≠ '`') with
  | [] => none
  | _ :: rest => some rest

/-- The characters between the first two backquotes, up to the end if there is only one, and
whether there are two. -/
def quotedName? (sql : String) : Option (String × Bool) :=
  (afterBackquote? sql.toList).map fun rest =>
    (String.ofList (rest.takeWhile (· ≠ '`')), rest.any (· = '`'))

/-- Whether a text contains another. -/
def containsText (fragment text : String) : Bool :=
  let fragment := fragment.toList
  let rec go : List Char → Bool
    | [] => fragment.isEmpty
    | c :: cs => fragment.isPrefixOf (c :: cs) || go cs
  go text.toList

/-- The tables of a database after a schema statement has run. -/
def applySchema (sql : String) (table : String) (tables : List String) : List String :=
  if "CREATE TABLE".toList.isPrefixOf sql.toList then
    if table ∈ tables then tables else table :: tables
  else if "DROP TABLE".toList.isPrefixOf sql.toList then tables.filter (· ≠ table)
  else tables

end EntityMapper
