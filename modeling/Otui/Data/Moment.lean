import Otui.Text.Lines

/-!
# Days and moments

Files of data may have days of the calendar and moments of a day among their values. Both have a
text, and another form in which messages show them inside of other values.
-/

namespace Otui

/-- The digits of a number, with noughts in front up to a width. -/
def paddedDigits (width n : Nat) : String :=
  let ds := Nat.toDigits 10 n
  String.ofList (List.replicate (width - ds.length) '0' ++ ds)

/-- A day of the calendar. -/
structure Day where
  /-- The year. -/
  year : Nat
  /-- The month, from one. -/
  month : Nat
  /-- The day of the month, from one. -/
  day : Nat
  deriving DecidableEq

namespace Day

/-- The text of a day. -/
def text (d : Day) : String :=
  paddedDigits 4 d.year ++ "-" ++ paddedDigits 2 d.month ++ "-" ++ paddedDigits 2 d.day

/-- The numbers of a day. -/
def numbers (d : Day) : List Nat := [d.year, d.month, d.day]

/-- A day as messages show it inside another value. -/
def shown (d : Day) : String :=
  "datetime.date(" ++ Text.join ", " (d.numbers.map toString) ++ ")"

end Day

/-- A moment of a day. -/
structure Moment where
  /-- The day. -/
  day : Day
  /-- The hour. -/
  hour : Nat
  /-- The minute. -/
  minute : Nat
  /-- The second. -/
  second : Nat
  /-- The millionth of a second. -/
  micro : Nat
  /-- The seconds by which the clock is ahead of universal time, if that is known. -/
  ahead : Option Int
  deriving DecidableEq

namespace Moment

/-- The text of a distance from universal time. -/
def aheadText (seconds : Int) : String :=
  let sign := if seconds < 0 then "-" else "+"
  let minutes := seconds.natAbs / 60
  sign ++ paddedDigits 2 (minutes / 60) ++ ":" ++ paddedDigits 2 (minutes % 60)

/-- The text of a moment. -/
def text (m : Moment) : String :=
  let clock := Text.join ":" ([m.hour, m.minute, m.second].map (paddedDigits 2))
  let fraction := if m.micro = 0 then "" else "." ++ paddedDigits 6 m.micro
  m.day.text ++ " " ++ clock ++ fraction ++ m.ahead.elim "" aheadText

/-- A distance from universal time as messages show it: full days, rounded down, and seconds. -/
def aheadShown (seconds : Int) : String :=
  let days := if seconds / 86400 = 0 then [] else ["days=" ++ toString (seconds / 86400)]
  let rest := if seconds % 86400 = 0 then [] else ["seconds=" ++ toString (seconds % 86400)]
  if seconds = 0 then "datetime.timezone.utc"
  else "datetime.timezone(datetime.timedelta(" ++ Text.join ", " (days ++ rest) ++ "))"

/-- A moment as messages show it inside another value; noughts at its end are left out. -/
def shown (m : Moment) : String :=
  let small := if m.micro ≠ 0 then [m.second, m.micro] else if m.second ≠ 0 then [m.second] else []
  let numbers := (m.day.numbers ++ [m.hour, m.minute] ++ small).map toString
  let zone := m.ahead.elim [] fun seconds => ["tzinfo=" ++ aheadShown seconds]
  "datetime.datetime(" ++ Text.join ", " (numbers ++ zone) ++ ")"

end Moment

end Otui
