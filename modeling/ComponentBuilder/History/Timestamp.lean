import ComponentBuilder.Number.Digits
import ComponentBuilder.Schema.Shape

/-!
# Timestamps

A date and a time of day, to the microsecond, with or without the distance of its zone from universal
time.  A timestamp is written in the form of ISO 8601; it is also read from a date alone, which stands
for its midnight, and from a number, which counts seconds from 1970 on or, when it is large,
milliseconds.
-/

namespace ComponentBuilder

namespace History

open Schema

/-- Whether a year has a leap day. -/
def isLeapYear (year : Nat) : Bool :=
  year % 4 == 0 && (year % 100 != 0 || year % 400 == 0)

/-- The number of days of a month. -/
def daysInMonth (year month : Nat) : Nat :=
  match month with
  | 2 => if isLeapYear year then 29 else 28
  | 4 | 6 | 9 | 11 => 30
  | _ => 31

/-- Whether there is such a day between the years 1 and 9999. -/
def isDay (year month day : Nat) : Bool :=
  1 ≤ year && year ≤ 9999 && 1 ≤ month && month ≤ 12 && 1 ≤ day && day ≤ daysInMonth year month

/-- Whether there is such a time of day. -/
def isTime (hour minute second micro : Nat) : Bool :=
  hour < 24 && minute < 60 && second < 60 && micro < 1000000

/-- Whether a zone, in minutes east of universal time, is less than a day away. -/
def isZone (zone : Option Int) : Bool :=
  zone.all fun minutes => minutes.natAbs < 1440

/-- A day, a time of day, and a zone in minutes east of universal time. -/
structure Timestamp where
  year : Nat
  month : Nat
  day : Nat
  hour : Nat
  minute : Nat
  second : Nat
  micro : Nat
  zone : Option Int
  valid : (isDay year month day && isTime hour minute second micro && isZone zone) = true
deriving DecidableEq, Repr

namespace Timestamp

/-- A timestamp from its parts, when there is such a time. -/
def ofParts? (year month day hour minute second micro : Nat) (zone : Option Int) :
    Option Timestamp :=
  if h : (isDay year month day && isTime hour minute second micro && isZone zone) = true then
    some ⟨year, month, day, hour, minute, second, micro, zone, h⟩
  else none

/-! ## Writing -/

/-- The last `width` decimal digits of a number. -/
def decimals : Nat → Nat → List Char
  | 0, _ => []
  | width + 1, n => decimals width (n / 10) ++ [Char.ofNat (48 + n % 10)]

/-- The text of a zone. -/
def zoneText : Option Int → List Char
  | none => []
  | some minutes =>
      if minutes = 0 then ['Z']
      else
        (if minutes < 0 then '-' else '+') ::
          (decimals 2 (minutes.natAbs / 60) ++ [':'] ++ decimals 2 (minutes.natAbs % 60))

/-- The text of microseconds; none are not written. -/
def microText (micro : Nat) : List Char :=
  if micro = 0 then [] else '.' :: decimals 6 micro

/-- The characters of a timestamp. -/
def chars (t : Timestamp) : List Char :=
  decimals 4 t.year ++ ['-'] ++ decimals 2 t.month ++ ['-'] ++ decimals 2 t.day ++ ['T'] ++
    decimals 2 t.hour ++ [':'] ++ decimals 2 t.minute ++ [':'] ++ decimals 2 t.second ++
    microText t.micro ++ zoneText t.zone

/-- The text of a timestamp. -/
def text (t : Timestamp) : String :=
  String.ofList t.chars

/-! ## Reading -/

/-- Why a text is no date. -/
inductive DateFault where
  | tooShort
  | badYear
  | badSeparator
  | badMonth
  | badDay
  | noSuchMonth
  | noSuchDay
  | tooLong
deriving DecidableEq, Repr

/-- The wording of a fault. -/
def DateFault.message : DateFault → String
  | tooShort => "input is too short"
  | badYear => "invalid character in year"
  | badSeparator => "invalid date separator, expected `-`"
  | badMonth => "invalid character in month"
  | badDay => "invalid character in day"
  | noSuchMonth => "month value is outside expected range of 1-12"
  | noSuchDay => "day value is outside expected range"
  | tooLong => "unexpected extra characters at the end of the input"

/-- The number of exactly `count` digits in front, and the rest. -/
def digits? : Nat → Nat → List Char → Option (Nat × List Char)
  | 0, value, text => some (value, text)
  | _ + 1, _, [] => none
  | count + 1, value, c :: rest =>
      if c.isDigit then digits? count (value * 10 + (c.toNat - 48)) rest else none

/-- A year, a month and a day in front of a text, and the rest. -/
def date (text : List Char) : Except DateFault (Nat × Nat × Nat × List Char) :=
  match digits? 4 0 text with
  | none => .error .badYear
  | some (year, rest) =>
      match rest with
      | '-' :: rest =>
          match digits? 2 0 rest with
          | none => .error .badMonth
          | some (month, rest) =>
              match rest with
              | '-' :: rest =>
                  match digits? 2 0 rest with
                  | none => .error .badDay
                  | some (day, rest) =>
                      if month < 1 || 12 < month then .error .noSuchMonth
                      else if day < 1 || daysInMonth year month < day then .error .noSuchDay
                      else .ok (year, month, day, rest)
              | _ => .error .badSeparator
      | _ => .error .badSeparator

/-- Microseconds from the digits of a fraction: six of them count, missing ones are zeros. -/
def microOf (fraction : List Char) : Nat :=
  ((fraction ++ List.replicate 6 '0').take 6).foldl (fun n c => n * 10 + (c.toNat - 48)) 0

/-- Seconds with a fraction, which may be left out, and the rest. -/
def seconds? : List Char → Option (Nat × Nat × List Char)
  | ':' :: rest =>
      match digits? 2 0 rest with
      | none => none
      | some (second, rest) =>
          if rest.head? == some '.' || rest.head? == some ',' then
            let (fraction, rest) := Text.spanWhile Char.isDigit rest.tail
            if fraction.isEmpty then none else some (second, microOf fraction, rest)
          else some (second, 0, rest)
  | rest => some (0, 0, rest)

/-- A zone that takes up the whole text. -/
def zone? : List Char → Option (Option Int)
  | [] => some none
  | c :: rest =>
      if c == 'Z' || c == 'z' then (if rest.isEmpty then some (some 0) else none)
      else if c == '+' || c == '-' || c == '\u2212' then
        match digits? 2 0 rest with
        | none => none
        | some (hours, rest) =>
            match digits? 2 0 (if rest.head? == some ':' then rest.tail else rest) with
            | some (minutes, []) =>
                if 59 < minutes then none
                else
                  let distance : Int := hours * 60 + minutes
                  some (some (if c == '+' then distance else -distance))
            | _ => none
      else none

/-- The characters that may stand between a date and a time of day. -/
def dateMarks : List Char :=
  ['T', 't', ' ', '_']

/-- A timestamp in the form of ISO 8601. -/
def ofIso? (text : List Char) : Option Timestamp :=
  match date text with
  | .error _ => none
  | .ok (year, month, day, rest) =>
      match rest with
      | [] => none
      | mark :: rest =>
          if !dateMarks.contains mark then none
          else
            match digits? 2 0 rest with
            | some (hour, ':' :: rest) =>
                match digits? 2 0 rest with
                | none => none
                | some (minute, rest) =>
                    match seconds? rest with
                    | none => none
                    | some (second, micro, rest) =>
                        (zone? rest).bind fun zone =>
                          ofParts? year month day hour minute second micro zone
            | _ => none

/-- The day that lies a number of days after the first of March of the year 0. -/
def dayOfMarchYear (days : Nat) : Nat × Nat × Nat :=
  let era := days / 146097
  let inEra := days % 146097
  let yearOfEra := (inEra - inEra / 1460 + inEra / 36524 - inEra / 146096) / 365
  let inYear := inEra - (365 * yearOfEra + yearOfEra / 4 - yearOfEra / 100)
  let monthFromMarch := (5 * inYear + 2) / 153
  let day := inYear - (153 * monthFromMarch + 2) / 5 + 1
  let month := if monthFromMarch < 10 then monthFromMarch + 3 else monthFromMarch - 9
  (yearOfEra + era * 400 + (if month ≤ 2 then 1 else 0), month, day)

/-- Days from the first of March of the year 0 to the first of January 1970. -/
def epochDays : Int := 719468

/-- The time in universal time that lies a number of seconds and microseconds after 1970 began. -/
def ofSeconds? (seconds : Int) (micro : Nat) : Option Timestamp :=
  let seconds := seconds + (micro / 1000000 : Nat)
  let days := Int.fdiv seconds 86400 + epochDays
  let inDay := (Int.fmod seconds 86400).toNat
  let (year, month, day) := dayOfMarchYear days.toNat
  if days < 0 then none
  else
    ofParts? year month day (inDay / 3600) (inDay / 60 % 60) (inDay % 60) (micro % 1000000)
      (some 0)

/-- Numbers above this one count milliseconds. -/
def largestSeconds : Nat := 20000000000

/-- Why a number is no timestamp. -/
def rangeMessage (n : Int) : String :=
  if n < 0 then "dates before 0000 are not supported as unix timestamps"
  else "dates after 9999 are not supported as unix timestamps"

/-- The time of a number with a fraction in microseconds. -/
def ofNumber (n : Int) (micro : Nat) : Checked Timestamp :=
  let found :=
    if largestSeconds < n.natAbs then
      ofSeconds? (Int.fdiv n 1000) ((Int.fmod n 1000).toNat * 1000 + micro)
    else ofSeconds? n micro
  match found with
  | some t => .accepted t
  | none => .refuse (.unreadableTimestamp (rangeMessage n))

/-- The time of a double: its whole part, with the rest rounded to microseconds. -/
def ofDouble (x : Double) : Checked Timestamp :=
  if x.isNaN then .refuse (.unreadableTimestamp "NaN values not permitted")
  else if !x.isFinite then
    .refuse (.unreadableTimestamp (rangeMessage (if x.isNegative then -1 else 1)))
  else
    let size : Int := ((2 * x.magnitude.1 * 1000000 + x.magnitude.2) / (2 * x.magnitude.2) : Nat)
    let micros := if x.isNegative then -size else size
    ofNumber (Int.fdiv micros 1000000) (Int.fmod micros 1000000).toNat

/-- The number of a text of digits with a sign and a fraction, in front of everything else. -/
def numberOf? (text : List Char) : Option (Int × Nat) :=
  let unsigned := if text.head?.any (['-', '+'].contains ·) then text.tail else text
  let (whole, rest) := Text.spanWhile Char.isDigit unsigned
  let fraction := rest.tail
  if whole.isEmpty || !(rest.isEmpty || rest.head? == some '.') || !fraction.all Char.isDigit then
    none
  else
    let n : Int := plainDigits whole
    let micro := microOf fraction
    if text.head? == some '-' then
      some (if micro = 0 then (-n, 0) else (-n - 1, 1000000 - micro))
    else some (n, micro)

/-- The midnight of a date that takes up a whole text. -/
def ofDate (text : String) : Checked Timestamp :=
  if text.utf8ByteSize < 10 then .refuse (.unreadableDate DateFault.tooShort.message)
  else
    match date text.toList with
    | .error fault => .refuse (.unreadableDate fault.message)
    | .ok (year, month, day, []) =>
        match ofParts? year month day 0 0 0 0 none with
        | some t => .accepted t
        | none => .refuse (.unreadableDate DateFault.badYear.message)
    | .ok _ => .refuse (.unreadableDate DateFault.tooLong.message)

/-- The time of a text: a timestamp, a number or a date. -/
def ofText (text : String) : Checked Timestamp :=
  match ofIso? text.toList with
  | some t => .accepted t
  | none =>
      match numberOf? text.toList with
      | some (n, micro) => ofNumber n micro
      | none => ofDate text

/-- The time of a stored value. -/
def ofJson : Json → Checked Timestamp
  | .str text => ofText text
  | .int n => ofNumber n 0
  | .double x => ofDouble x
  | _ => .refuse .notTimestamp

end Timestamp

end History

end ComponentBuilder
