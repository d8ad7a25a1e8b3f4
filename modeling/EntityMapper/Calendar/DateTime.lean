import EntityMapper.Text.Blank

/-! # Dates with a time of day

Points of the proleptic Gregorian calendar without a zone, between the years -9999 and 9999,
and their text `year-month-day hour:minute:second`. Writing is total; reading reports the
first thing wrong.
-/

namespace EntityMapper

/-- Whether a year has a 29 February. -/
def isLeapYear (year : Int) : Bool :=
  year % 4 = 0 ∧ (year % 100 ≠ 0 ∨ year % 400 = 0)

/-- The number of days of a month. -/
def daysInMonth (year : Int) (month : Nat) : Nat :=
  if month = 2 then (if isLeapYear year then 29 else 28)
  else if month ∈ [4, 6, 9, 11] then 30 else 31

/-- A day of the calendar and a time of that day. -/
structure DateTime where
  year : Int
  month : Nat
  day : Nat
  hour : Nat
  minute : Nat
  second : Nat
  nanosecond : Nat
  year_range : -9999 ≤ year ∧ year ≤ 9999
  month_range : 1 ≤ month ∧ month ≤ 12
  day_range : 1 ≤ day ∧ day ≤ daysInMonth year month
  hour_range : hour ≤ 23
  minute_range : minute ≤ 59
  second_range : second ≤ 59
  nanosecond_range : nanosecond ≤ 999999999
  deriving DecidableEq

namespace DateTime

/-- The start of the first of January 1970. -/
def epoch : DateTime where
  year := 1970
  month := 1
  day := 1
  hour := 0
  minute := 0
  second := 0
  nanosecond := 0
  year_range := by decide
  month_range := by decide
  day_range := by decide
  hour_range := by decide
  minute_range := by decide
  second_range := by decide
  nanosecond_range := by decide

instance : Inhabited DateTime := ⟨epoch⟩

/-- The date-time with these components, if there is one. -/
def ofComponents? (year : Int) (month day hour minute second nanosecond : Nat) :
    Option DateTime :=
  if h : (-9999 ≤ year ∧ year ≤ 9999) ∧ (1 ≤ month ∧ month ≤ 12) ∧
      (1 ≤ day ∧ day ≤ daysInMonth year month) ∧ hour ≤ 23 ∧ minute ≤ 59 ∧ second ≤ 59 ∧
      nanosecond ≤ 999999999 then
    some { year, month, day, hour, minute, second, nanosecond
           year_range := h.1
           month_range := h.2.1
           day_range := h.2.2.1
           hour_range := h.2.2.2.1
           minute_range := h.2.2.2.2.1
           second_range := h.2.2.2.2.2.1
           nanosecond_range := h.2.2.2.2.2.2 }
  else none

/-! ## Writing -/

/-- The decimal digits of a number, filled up with zeros on the left. -/
def padded (width n : Nat) : String :=
  String.ofList (List.leftpad width '0' n.repr.toList)

/-- The canonical text. A fraction of a second is not written. -/
def text (t : DateTime) : String :=
  (if t.year < 0 then "-" else "") ++ padded 4 t.year.natAbs ++ "-" ++ padded 2 t.month ++
    "-" ++ padded 2 t.day ++ " " ++ padded 2 t.hour ++ ":" ++ padded 2 t.minute ++ ":" ++
    padded 2 t.second

/-! ## Reading -/

/-- The parts of the text that are read as numbers. -/
inductive Component
  | year | month | day | hour | minute | second
  deriving DecidableEq

/-- The name of a component in messages. -/
def Component.name : Component → String
  | year => "year"
  | month => "month"
  | day => "day"
  | hour => "hour"
  | minute => "minute"
  | second => "second"

/-- Why a text is no date-time. -/
inductive Fault
  /-- The digits of a component are missing or outside its range. -/
  | component (c : Component)
  /-- A separator is missing. -/
  | separator
  /-- The text goes on after the second. -/
  | trailing
  /-- The month has no such day. -/
  | dayOutOfRange
  /-- The second is a leap second. -/
  | secondOutOfRange
  deriving DecidableEq

/-- The reason in words. -/
def Fault.message : Fault → String
  | component c => "the '" ++ c.name ++ "' component could not be parsed"
  | separator => "a character literal was not valid"
  | trailing => "unexpected trailing characters; the end of input was expected"
  | dayOutOfRange => "day was not in range"
  | secondOutOfRange => "second was not in range"

/-- The value of an ASCII digit. -/
def digitValue? (c : Char) : Option Nat :=
  if '0' ≤ c ∧ c ≤ '9' then some (c.toNat - '0'.toNat) else none

/-- Reads `width` digits onto the number read so far. -/
def readDigits : (width : Nat) → (soFar : Nat) → List Char → Option (Nat × List Char)
  | 0, soFar, cs => some (soFar, cs)
  | _ + 1, _, [] => none
  | width + 1, soFar, c :: cs => do
      let digit ← digitValue? c
      readDigits width (10 * soFar + digit) cs

/-- Reads a component of a fixed width and range. -/
def readComponent (c : Component) (width low high : Nat) (cs : List Char) :
    Except Fault ({ n : Nat // low ≤ n ∧ n ≤ high } × List Char) :=
  match readDigits width 0 cs with
  | some (n, rest) => if h : low ≤ n ∧ n ≤ high then .ok (⟨n, h⟩, rest) else .error (.component c)
  | none => .error (.component c)

/-- Reads the year: an optional sign and four digits. -/
def readYear (cs : List Char) :
    Except Fault ({ y : Int // -9999 ≤ y ∧ y ≤ 9999 } × List Char) := do
  match cs with
  | '-' :: cs =>
      let (n, rest) ← readComponent .year 4 0 9999 cs
      return (⟨-n.val, by omega⟩, rest)
  | '+' :: cs =>
      let (n, rest) ← readComponent .year 4 0 9999 cs
      return (⟨n.val, by omega⟩, rest)
  | cs =>
      let (n, rest) ← readComponent .year 4 0 9999 cs
      return (⟨n.val, by omega⟩, rest)

/-- Reads one separator. -/
def readSeparator (expected : Char) : List Char → Except Fault (List Char)
  | c :: cs => if c = expected then .ok cs else .error .separator
  | [] => .error .separator

/-- The date-time written as exactly these characters. The components are read from left to
right; only then are the day and a leap second refused. -/
def ofChars (cs : List Char) : Except Fault DateTime := do
  let (year, cs) ← readYear cs
  let cs ← readSeparator '-' cs
  let (month, cs) ← readComponent .month 2 1 12 cs
  let cs ← readSeparator '-' cs
  let (day, cs) ← readComponent .day 2 1 31 cs
  let cs ← readSeparator ' ' cs
  let (hour, cs) ← readComponent .hour 2 0 23 cs
  let cs ← readSeparator ':' cs
  let (minute, cs) ← readComponent .minute 2 0 59 cs
  let cs ← readSeparator ':' cs
  let (second, cs) ← readComponent .second 2 0 60 cs
  if cs ≠ [] then throw .trailing
  if day_range : 1 ≤ day.val ∧ day.val ≤ daysInMonth year.val month.val then
    if second_range : second.val ≤ 59 then
      return { year := year.val, month := month.val, day := day.val, hour := hour.val
               minute := minute.val, second := second.val, nanosecond := 0
               year_range := year.property
               month_range := month.property
               day_range := day_range
               hour_range := hour.property.2
               minute_range := minute.property.2
               second_range := second_range
               nanosecond_range := by decide }
    else throw .secondOutOfRange
  else throw .dayOutOfRange

/-- The date-time written in a text, blank characters around it aside. -/
def ofText (text : String) : Except Fault DateTime :=
  ofChars (trimBlank text.toList)

end DateTime

end EntityMapper
