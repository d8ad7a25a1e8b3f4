import EntityMapper.Number.Decimal

/-! # JSON documents

The values of JSON text. Numbers keep apart what the text keeps apart: natural numbers of 64
bits, negative integers of 64 bits, and everything else as a finite double.
-/

namespace EntityMapper

/-- A JSON number. -/
inductive Json.Number
  | natural (n : UInt64)
  | negative (n : Int64) (lt_zero : n < 0)
  | float (x : Binary64) (finite : x.isFinite)
  deriving DecidableEq

/-- A JSON document. The members of an object stand in the order of their keys. -/
inductive Json
  | null
  | bool (b : Bool)
  | number (n : Json.Number)
  | string (s : String)
  | array (items : List Json)
  | object (members : List (String × Json))
  deriving Inhabited

namespace Json

/-- Adds a member at the place of its key; an earlier member of that key is replaced. -/
def insertMember (key : String) (value : Json) :
    List (String × Json) → List (String × Json)
  | [] => [(key, value)]
  | (other, held) :: members =>
      if key = other then (key, value) :: members
      else if key < other then (key, value) :: (other, held) :: members
      else (other, held) :: insertMember key value members

/-- The object with the given members. -/
def ofMembers (members : List (String × Json)) : Json :=
  .object (members.foldl (fun sorted (key, value) => insertMember key value sorted) [])

/-- The member of an object under a key. -/
def member? (key : String) : Json → Option Json
  | .object members => members.lookup key
  | _ => none

end Json

end EntityMapper
