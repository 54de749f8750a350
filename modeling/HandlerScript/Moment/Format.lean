import HandlerScript.Moment.Basic
import HandlerScript.Number.Decimal
import HandlerScript.Text.Pieces

/-! Formats of moments.

    A format is a text in which a percent sign and a letter stand for a field of the clock time.
    Between the two a mark may set the padding of a number. A format that is not understood
    throughout is no format. -/

namespace HandlerScript.Moment

/-- How a number is filled up to its width. -/
inductive Pad where
  | none
  | zero
  | space
  deriving DecidableEq, Repr

/-- The fields of a clock time that are numbers. -/
inductive Numeric where
  | year
  | century
  | yearOfCentury
  | isoYear
  | isoYearOfCentury
  | quarter
  | month
  | day
  | weekFromSunday
  | weekFromMonday
  | isoWeek
  | weekdayFromSunday
  | weekdayFromMonday
  | ordinal
  | hour
  | hour12
  | minute
  | second
  | nanosecond
  | timestamp
  deriving DecidableEq, Repr

/-- How an offset from universal time is written. -/
inductive OffsetStyle where
  | minutes
  | colonMinutes
  | colonSeconds
  | hours
  deriving DecidableEq, Repr

/-- An element of a format. -/
inductive Item where
  | literal (c : Char)
  | numeric (field : Numeric) (pad : Pad)
  | shortMonth
  | longMonth
  | shortWeekday
  | longWeekday
  | lowerHalf
  | upperHalf
  | fraction (point : Bool) (places : Nat)
  | shortestFraction
  | zoneOffset (style : OffsetStyle)
  | standardTime
  deriving DecidableEq, Repr

/-! ### Reading -/

def padOf? : Char → Option Pad
  | '-' => some .none
  | '0' => some .zero
  | '_' => some .space
  | _ => none

/-- The numeric fields of one letter with their usual padding. -/
def numericOf? : Char → Option (Numeric × Pad)
  | 'C' => some (.century, .zero)
  | 'G' => some (.isoYear, .zero)
  | 'H' => some (.hour, .zero)
  | 'I' => some (.hour12, .zero)
  | 'M' => some (.minute, .zero)
  | 'S' => some (.second, .zero)
  | 'U' => some (.weekFromSunday, .zero)
  | 'V' => some (.isoWeek, .zero)
  | 'W' => some (.weekFromMonday, .zero)
  | 'Y' => some (.year, .zero)
  | 'd' => some (.day, .zero)
  | 'e' => some (.day, .space)
  | 'f' => some (.nanosecond, .zero)
  | 'g' => some (.isoYearOfCentury, .zero)
  | 'j' => some (.ordinal, .zero)
  | 'k' => some (.hour, .space)
  | 'l' => some (.hour12, .space)
  | 'm' => some (.month, .zero)
  | 'q' => some (.quarter, .none)
  | 's' => some (.timestamp, .none)
  | 'u' => some (.weekdayFromMonday, .none)
  | 'w' => some (.weekdayFromSunday, .none)
  | 'y' => some (.yearOfCentury, .zero)
  | _ => none

def monthDayYear : List Item :=
  [.numeric .month .zero, .literal '/', .numeric .day .zero, .literal '/',
    .numeric .yearOfCentury .zero]

def hourMinute : List Item := [.numeric .hour .zero, .literal ':', .numeric .minute .zero]

def hourMinuteSecond : List Item := hourMinute ++ [.literal ':', .numeric .second .zero]

/-- The other letters, some of which stand for several elements. -/
def itemsOf? : Char → Option (List Item)
  | 'A' => some [.longWeekday]
  | 'B' => some [.longMonth]
  | 'D' | 'x' => some monthDayYear
  | 'F' => some [.numeric .year .zero, .literal '-', .numeric .month .zero, .literal '-',
      .numeric .day .zero]
  | 'P' => some [.lowerHalf]
  | 'R' => some hourMinute
  | 'T' | 'X' => some hourMinuteSecond
  | 'Z' => some [.zoneOffset .colonMinutes]
  | 'a' => some [.shortWeekday]
  | 'b' | 'h' => some [.shortMonth]
  | 'c' => some ([.shortWeekday, .literal ' ', .shortMonth, .literal ' ', .numeric .day .space,
      .literal ' '] ++ hourMinuteSecond ++ [.literal ' ', .numeric .year .zero])
  | 'n' => some [.literal '\n']
  | 'p' => some [.upperHalf]
  | 'r' => some ([.numeric .hour12 .zero, .literal ':', .numeric .minute .zero, .literal ':',
      .numeric .second .zero, .literal ' ', .upperHalf])
  | 't' => some [.literal '\t']
  | 'v' => some [.numeric .day .space, .literal '-', .shortMonth, .literal '-',
      .numeric .year .zero]
  | 'z' => some [.zoneOffset .minutes]
  | '+' => some [.standardTime]
  | '%' => some [.literal '%']
  | _ => none

/-- The places of a fraction in front of its letter. -/
def placesOf? : Char → Option Nat
  | '3' => some 3
  | '6' => some 6
  | '9' => some 9
  | _ => none

/-- The elements behind a percent sign, and how many characters they take. -/
def directive? : List Char → Option (List Item × Nat)
  | ':' :: ':' :: ':' :: 'z' :: _ => some ([.zoneOffset .hours], 4)
  | ':' :: ':' :: 'z' :: _ => some ([.zoneOffset .colonSeconds], 3)
  | ':' :: 'z' :: _ => some ([.zoneOffset .colonMinutes], 2)
  | '.' :: 'f' :: _ => some ([.shortestFraction], 2)
  | '.' :: d :: 'f' :: _ => (placesOf? d).map fun n => ([.fraction true n], 3)
  | d :: 'f' :: rest =>
    match placesOf? d with
    | some n => some ([.fraction false n], 2)
    | none => plain? (d :: 'f' :: rest)
  | cs => plain? cs
where
  /-- A letter, with a mark for the padding before it if it stands for a number. -/
  plain? : List Char → Option (List Item × Nat)
    | [] => none
    | c :: cs =>
      match padOf? c with
      | some pad =>
        match cs with
        | [] => none
        | d :: _ => (numericOf? d).map fun f => ([.numeric f.1 pad], 2)
      | none =>
        match numericOf? c with
        | some (field, pad) => some ([.numeric field pad], 1)
        | none => (itemsOf? c).map fun items => (items, 1)

/-- Reads a format; `skip` counts the characters of a directive that are still to be passed over. -/
def itemsFrom : Nat → List Char → Option (List Item)
  | _, [] => some []
  | skip + 1, _ :: cs => itemsFrom skip cs
  | 0, c :: cs =>
    if c = '%' then do
      let (items, n) ← directive? cs
      return items ++ (← itemsFrom n cs)
    else (itemsFrom 0 cs).map (.literal c :: ·)

/-- The elements of a format, if all of it is understood. -/
def format? (text : String) : Option (List Item) := itemsFrom 0 text.toList

/-- The format that stands in for one that is missing or not understood. -/
def usualFormat : List Item :=
  [.numeric .year .zero, .literal '-', .numeric .month .zero, .literal '-', .numeric .day .zero,
    .literal ' '] ++ hourMinuteSecond

/-! ### Writing -/

def monthNames : List String :=
  ["January", "February", "March", "April", "May", "June", "July", "August", "September",
    "October", "November", "December"]

def weekdayNames : List String :=
  ["Monday", "Tuesday", "Wednesday", "Thursday", "Friday", "Saturday", "Sunday"]

/-- Digits filled up to a width. -/
def padded (pad : Pad) (width : Nat) (ds : List Char) : List Char :=
  match pad with
  | .none => ds
  | .zero => List.replicate (width - ds.length) '0' ++ ds
  | .space => List.replicate (width - ds.length) ' ' ++ ds

/-- An integer filled up to a width, its sign before the zeros. -/
def paddedInt (pad : Pad) (width : Nat) (n : Int) : List Char :=
  if 0 ≤ n then padded pad width (Decimal.digits n.toNat)
  else match pad with
    | .zero => '-' :: padded .zero (width - 1) (Decimal.digits n.natAbs)
    | _ => padded pad width (Decimal.intDigits n)

/-- A year filled up to four digits; from ten thousand on it carries a sign. -/
def yearChars (pad : Pad) (year : Int) : List Char :=
  if 10000 ≤ year then '+' :: Decimal.digits year.toNat else paddedInt pad 4 year

def hourOfHalf (hour : Nat) : Nat := if hour % 12 = 0 then 12 else hour % 12

/-- The width and value of a numeric field. -/
def Numeric.chars (t : ClockTime) (pad : Pad) : Numeric → List Char
  | .year => yearChars pad t.date.year
  | .isoYear => yearChars pad (t.date.isoWeek t.weekday).1
  | .century => paddedInt pad 2 (t.date.year.fdiv 100)
  | .yearOfCentury => paddedInt pad 2 (t.date.year.fmod 100)
  | .isoYearOfCentury => paddedInt pad 2 ((t.date.isoWeek t.weekday).1.fmod 100)
  | .quarter => paddedInt pad 1 ((t.date.month - 1) / 3 + 1 : Nat)
  | .month => paddedInt pad 2 t.date.month
  | .day => paddedInt pad 2 t.date.day
  | .weekFromSunday => paddedInt pad 2 ((t.date.ordinal + 6 - (t.weekday + 1) % 7) / 7 : Nat)
  | .weekFromMonday => paddedInt pad 2 ((t.date.ordinal + 6 - t.weekday) / 7 : Nat)
  | .isoWeek => paddedInt pad 2 (t.date.isoWeek t.weekday).2
  | .weekdayFromSunday => paddedInt pad 1 ((t.weekday + 1) % 7 : Nat)
  | .weekdayFromMonday => paddedInt pad 1 (t.weekday + 1 : Nat)
  | .ordinal => paddedInt pad 3 t.date.ordinal
  | .hour => paddedInt pad 2 t.hour
  | .hour12 => paddedInt pad 2 (hourOfHalf t.hour)
  | .minute => paddedInt pad 2 t.minute
  | .second => paddedInt pad 2 t.second
  | .nanosecond => paddedInt pad 9 t.nanosecond
  | .timestamp => paddedInt pad 1 t.timestamp

def twoDigits (n : Nat) : List Char := padded .zero 2 (Decimal.digits n)

/-- An offset from universal time. -/
def OffsetStyle.chars (offset : Int) (style : OffsetStyle) : List Char :=
  let sign := if offset < 0 then '-' else '+'
  let seconds := offset.natAbs
  let hours := twoDigits (seconds / 3600)
  let minutes := twoDigits (seconds / 60 % 60)
  sign :: match style with
    | .minutes => hours ++ minutes
    | .colonMinutes => hours ++ ':' :: minutes
    | .colonSeconds => hours ++ ':' :: minutes ++ ':' :: twoDigits (seconds % 60)
    | .hours => hours

/-- The leading places of the second's fraction. -/
def fractionChars (t : ClockTime) (places : Nat) : List Char :=
  (padded .zero 9 (Decimal.digits t.nanosecond)).take places

/-- The second's fraction with a point and three, six or nine places, whichever are enough; nothing
    if there is none. -/
def shortestFractionChars (t : ClockTime) : List Char :=
  if t.nanosecond = 0 then []
  else if t.nanosecond % 1000000 = 0 then '.' :: fractionChars t 3
  else if t.nanosecond % 1000 = 0 then '.' :: fractionChars t 6
  else '.' :: fractionChars t 9

/-- An element of a format as it is written. -/
def Item.chars (t : ClockTime) : Item → List Char
  | .literal c => [c]
  | .numeric field pad => field.chars t pad
  | .shortMonth => (monthNames.getD (t.date.month - 1) "").toList.take 3
  | .longMonth => (monthNames.getD (t.date.month - 1) "").toList
  | .shortWeekday => (weekdayNames.getD t.weekday "").toList.take 3
  | .longWeekday => (weekdayNames.getD t.weekday "").toList
  | .lowerHalf => (if t.hour < 12 then "am" else "pm").toList
  | .upperHalf => (if t.hour < 12 then "AM" else "PM").toList
  | .fraction point places => if point then '.' :: fractionChars t places else fractionChars t places
  | .shortestFraction => shortestFractionChars t
  | .zoneOffset style => style.chars t.offset
  | .standardTime =>
    Numeric.chars t .zero .year ++ '-' :: twoDigits t.date.month ++ '-' :: twoDigits t.date.day ++
      'T' :: twoDigits t.hour ++ ':' :: twoDigits t.minute ++ ':' :: twoDigits t.second ++
      shortestFractionChars t ++ OffsetStyle.chars t.offset .colonMinutes

/-- A moment in a format. -/
def write (m : Moment) (items : List Item) : String :=
  let t := m.clockTime
  String.ofList (items.flatMap (·.chars t))

end HandlerScript.Moment
