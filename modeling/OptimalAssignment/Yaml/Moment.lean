import OptimalAssignment.Text.Digit

/-!
# Days and times of day

The texts that write a day, or a day with a time and perhaps a time zone.
-/

namespace OptimalAssignment.Yaml

open Text

structure Clock where
  hour : Nat
  minute : Nat
  second : Nat
  /-- The distance of the time zone in minutes. -/
  zone : Nat

structure Moment where
  year : Nat
  month : Nat
  day : Nat
  clock : Option Clock

namespace Moment

/-! ## Reading -/

/-- A number of at least `least` and at most `most` digits, and the rest. -/
def number? (least most : Nat) (cs : List Char) : Option (Nat × List Char) :=
  let digits := (cs.take most).takeWhile Char.isDigit
  if digits.length < least then none else some (ofDigits digits, cs.drop digits.length)

/-- What follows one of some characters. -/
def after? (marks : List Char) : List Char → Option (List Char)
  | c :: cs => if marks.contains c then some cs else none
  | [] => none

def dropBlanks (cs : List Char) : List Char :=
  cs.dropWhile fun c => c == ' ' || c == '\t'

/-- A time zone up to the end; nothing at all is one, but blanks alone are not. -/
def zone? (cs : List Char) : Option Nat :=
  match cs, dropBlanks cs with
  | [], _ => some 0
  | _, ['Z'] => some 0
  | _, rest => do
      let (hours, rest) ← number? 1 2 (← after? ['+', '-'] rest)
      if rest.isEmpty then return 60 * hours
      let (minutes, rest) ← number? 2 2 (← after? [':'] rest)
      if rest.isEmpty then some (60 * hours + minutes) else none

def clock? (cs : List Char) : Option Clock := do
  let (hour, cs) ← number? 1 2 cs
  let (minute, cs) ← number? 2 2 (← after? [':'] cs)
  let (second, cs) ← number? 2 2 (← after? [':'] cs)
  let cs := match cs with
    | '.' :: rest => rest.dropWhile Char.isDigit
    | rest => rest
  return ⟨hour, minute, second, ← zone? cs⟩

/-- The time after a day, behind a letter or blanks. -/
def time? (cs : List Char) : Option Clock :=
  match after? ['T', 't'] cs with
  | some rest => clock? rest
  | none => (after? [' ', '\t'] cs).bind fun rest => clock? (dropBlanks rest)

def read? (cs : List Char) : Option Moment := do
  let (year, cs) ← number? 4 4 cs
  let (month, cs) ← number? 1 2 (← after? ['-'] cs)
  let (day, cs) ← number? 1 2 (← after? ['-'] cs)
  if cs.isEmpty then return ⟨year, month, day, none⟩
  return ⟨year, month, day, some (← time? cs)⟩

/-- Whether a text is taken for a moment without being called one: a day alone has all its
digits. -/
def isImplicit (cs : List Char) : Bool :=
  (read? cs).any fun m => m.clock.isSome || cs.length == 10

/-! ## Validity -/

def isLeap (year : Nat) : Bool :=
  year % 4 == 0 && (year % 100 != 0 || year % 400 == 0)

def daysIn (year month : Nat) : Nat :=
  if month == 2 then if isLeap year then 29 else 28
  else if [4, 6, 9, 11].contains month then 30
  else 31

def isTimeOfDay (c : Clock) : Bool :=
  c.hour < 24 && c.minute < 60 && c.second < 60 && c.zone < 24 * 60

def isValid (m : Moment) : Bool :=
  0 < m.year && 0 < m.month && m.month ≤ 12 && 0 < m.day && m.day ≤ daysIn m.year m.month &&
    m.clock.all isTimeOfDay

end Moment
end OptimalAssignment.Yaml
