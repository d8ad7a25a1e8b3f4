import EntityMapper.Storage.Cell

/-! # Comparing records

Two records of one model are equal when all their columns are. Numbers compare by what they
stand for: not-a-number differs from itself, and the two zeros are equal.
-/

namespace EntityMapper

variable {n : Nat} {c : Catalog n}

mutual

/-- Whether two values are equal as numbers and texts are. -/
def Value.equal : Value → Value → Bool
  | .float x, .float y => x.equal y
  | .reference v, .reference w => v.equal w
  | .list vs, .list ws => Value.listEqual vs ws
  | .nil, .nil => true
  | .bool a, .bool b => a == b
  | .int x, .int y => x == y
  | .uint x, .uint y => x == y
  | .text s, .text t => s == t
  | .dateTime s, .dateTime t => s = t
  | _, _ => false

/-- Whether two lists hold equal values. -/
def Value.listEqual : List Value → List Value → Bool
  | [], [] => true
  | v :: vs, w :: ws => v.equal w && Value.listEqual vs ws
  | _, _ => false

end

mutual

/-- Whether two contents of one column type are equal. -/
def Cell.equal : {t : ColumnType n} → Cell c t → Cell c t → Bool
  | _, .bool a, .bool b => a == b
  | _, .integer x _, .integer y _ => x == y
  | _, .float x, .float y => x.equal y
  | _, .double x, .double y => x.equal y
  | _, .text s, .text t => s == t
  | _, .dateTime s, .dateTime t => s = t
  | _, .raw v, .raw w => v.equal w
  | .entity _, .entity left, .entity right => left.equal right
  | _, .absent, .absent => true
  | _, .present left, .present right => left.equal right
  | _, .boxed left, .boxed right => left.equal right
  | _, .list left, .list right => left.equal right
  | _, _, _ => false

/-- Whether two lists hold equal items. -/
def Items.equal : {t : ColumnType n} → Items c t → Items c t → Bool
  | _, .nil, .nil => true
  | _, .cons left lefts, .cons right rights => left.equal right && lefts.equal rights
  | _, _, _ => false

/-- Whether the columns of two records are equal, one by one. -/
def Columns.equal : {ts : List (ColumnType n)} → Columns c ts → Columns c ts → Bool
  | _, .nil, .nil => true
  | _, .cons left lefts, .cons right rights => left.equal right && lefts.equal rights

end

/-- Whether two records are equal; records of different models never are. -/
def Record.equal (left right : Record c) : Bool :=
  if same : left.model = right.model then left.columns.equal (same ▸ right.columns) else false

end EntityMapper
