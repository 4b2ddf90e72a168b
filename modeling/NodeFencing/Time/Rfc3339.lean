import NodeFencing.Text.Character
import NodeFencing.Time.Instant

/-!
# RFC 3339

Instants as text, such as `2024-05-06T07:08:09Z`.  Every field has its full number
of digits.  A second may be numbered 60: it is then a leap second.  Of a fraction nine
digits count.

## Main Definitions

* `Instant.read?` — read a text, with any offset from universal time
* `Instant.text` — the text with an offset of zero and as many digits as needed
* `Instant.textInSeconds`, `Instant.textInMicros` — the texts with a fixed precision
-/

namespace NodeFencing

namespace Instant

/-! ### Reading -/

/-- The number in the first `n` characters, all digits. -/
private def number? (n : Nat) (text : List Char) : Option (Nat × List Char) :=
  if text.length < n then none
  else (natOfDigits? 10 (text.take n)).map (·, text.drop n)

/-- The rest of a text behind a character. -/
private def behind? (c : Char) : List Char → Option (List Char)
  | d :: rest => if c == d then some rest else none
  | [] => none

/-- The date that a text begins with. -/
private def date? (text : List Char) : Option (Date × List Char) := do
  let (year, text) ← number? 4 text
  let text ← behind? '-' text
  let (month, text) ← number? 2 text
  let text ← behind? '-' text
  let (day, text) ← number? 2 text
  let date : Date := { year, month, day }
  if date.valid then return (date, text) else none

/-- The time of day that a text begins with, as seconds of the day and whether it is a leap
second. -/
private def time? (text : List Char) : Option (Nat × Bool × List Char) := do
  let (hour, text) ← number? 2 text
  let text ← behind? ':' text
  let (minute, text) ← number? 2 text
  let text ← behind? ':' text
  let (second, text) ← number? 2 text
  if 23 < hour || 59 < minute || 60 < second then none
  else return ((hour * 60 + minute) * 60 + min second 59, second == 60, text)

/-- The fraction that a text begins with, if any, in nanoseconds. -/
private def fraction? (text : List Char) : Option (Nat × List Char) :=
  match text with
  | '.' :: text =>
    let digits := text.takeWhile Char.isDigit
    if digits.isEmpty then none
    else
      let counted := digits.take 9
      (natOfDigits? 10 (counted ++ List.replicate (9 - counted.length) '0')).map
        (·, text.dropWhile Char.isDigit)
  | _ => some (0, text)

/-- The offset that a text consists of, in seconds. -/
private def offset? (text : List Char) : Option Int :=
  match text with
  | ['Z'] | ['z'] => some 0
  | sign :: text => do
    let negative ← if sign == '+' then some false
      else if sign == '-' || sign == '\u2212' then some true
      else none
    let (hours, text) ← number? 2 text
    let text ← behind? ':' text
    let (minutes, text) ← number? 2 text
    if 23 < hours || 59 < minutes || !text.isEmpty then none
    else
      let seconds : Int := (hours * 60 + minutes) * 60
      return if negative then -seconds else seconds
  | [] => none

/-- Read a text. -/
def read? (text : String) : Option Instant := do
  let (date, text) ← date? text.toList
  let text ← match text with
    | 'T' :: text | 't' :: text | ' ' :: text => some text
    | _ => none
  let (secondOfDay, leap, text) ← time? text
  let (fraction, text) ← fraction? text
  let offset ← offset? text
  return {
    seconds := date.dayNumber * day + secondOfDay - offset
    nanos := if leap then Duration.second + fraction else fraction }

/-! ### Writing -/

/-- A year: four digits, or a sign and at least as many digits for those beyond. -/
private def yearText (year : Int) : List Char :=
  let digits := paddedDigits 4 year.natAbs
  if year < 0 then '-' :: digits else if 9999 < year then '+' :: digits else digits

/-- Date and time of day. -/
private def clockText (t : Instant) : List Char :=
  let date := Date.ofDayNumber (t.seconds / day)
  let second := (t.seconds % day).toNat
  yearText date.year ++ '-' :: paddedDigits 2 date.month ++ '-' :: paddedDigits 2 date.day
    ++ 'T' :: paddedDigits 2 (second / 3600) ++ ':' :: paddedDigits 2 (second / 60 % 60)
    ++ ':' :: paddedDigits 2 (second % 60 + if t.inLeapSecond then 1 else 0)

/-- A fraction with the fewest digits of 0, 3, 6 and 9. -/
private def fractionText (nanos : Nat) : List Char :=
  if nanos == 0 then []
  else if nanos % 1000000 == 0 then '.' :: paddedDigits 3 (nanos / 1000000)
  else if nanos % 1000 == 0 then '.' :: paddedDigits 6 (nanos / 1000)
  else '.' :: paddedDigits 9 nanos

/-- The text of an instant with all of its fraction. -/
def text (t : Instant) : String :=
  String.ofList (clockText t ++ fractionText (t.nanos % Duration.second)) ++ "+00:00"

/-- The text of an instant without its fraction. -/
def textInSeconds (t : Instant) : String :=
  String.ofList (clockText t) ++ "Z"

/-- The text of an instant in microseconds. -/
def textInMicros (t : Instant) : String :=
  String.ofList (clockText t ++ '.' :: paddedDigits 6 (t.nanos % Duration.second / 1000)) ++ "Z"

/-- What is beyond the microseconds is not written. -/
theorem textInMicros_inMicros (t : Instant) : t.inMicros.textInMicros = t.textInMicros := by
  have leap : t.inMicros.inLeapSecond = t.inLeapSecond := by
    refine decide_eq_decide.mpr ?_
    simp only [inMicros, Duration.second]
    omega
  have fraction : t.inMicros.nanos % Duration.second / 1000 = t.nanos % Duration.second / 1000 := by
    simp only [inMicros, Duration.second]
    omega
  have clock : clockText t.inMicros = clockText t := by
    rw [clockText, leap]
    rfl
  rw [textInMicros, clock, fraction]
  rfl

end Instant

end NodeFencing
