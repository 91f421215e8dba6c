import DocPromotion.Text.Utf8

/-!
Points in time.

A point in time is a date, alone or with a time of day, which may have a fraction of a second and
the offset of a time zone.  `Timestamp.ofChars?` reads one, and `Timestamp.text` writes it in full:
every number has all of its digits, and a fraction has none too many.
-/

namespace DocPromotion.Yaml

/-- A point in time.  The offset of its zone is in minutes. -/
structure Timestamp where
  year : Nat
  month : Nat
  day : Nat
  hour : Nat
  minute : Nat
  second : Nat
  /-- The digits of the fraction of a second. -/
  fraction : List Char
  offset : Int
deriving Repr, DecidableEq

/-- The value of a decimal digit. -/
def decimalDigit (c : Char) : Nat := c.toNat - '0'.toNat

/-- The digits at the start of a text, and the rest. -/
def spanDigits (cs : List Char) : List Char × List Char := cs.span Char.isDigit

/-- A number of one or two digits and what follows it. -/
def twoDigits? : List Char → Option (Nat × List Char)
  | a :: b :: cs =>
    if a.isDigit then
      if b.isDigit then some (decimalDigit a * 10 + decimalDigit b, cs)
      else some (decimalDigit a, b :: cs)
    else none
  | [a] => if a.isDigit then some (decimalDigit a, []) else none
  | [] => none

/-- What follows a character, if it is the first one. -/
def after? (c : Char) : List Char → Option (List Char)
  | [] => none
  | d :: cs => if d = c then some cs else none

namespace Timestamp

/-- The number of days of a month. -/
def daysIn (year month : Nat) : Nat :=
  if month = 2 then
    if year % 4 = 0 ∧ (year % 100 ≠ 0 ∨ year % 400 = 0) then 29 else 28
  else if month = 4 ∨ month = 6 ∨ month = 9 ∨ month = 11 then 30
  else 31

/-- The start of a day, and what follows the date.  A year has four digits. -/
def date? (cs : List Char) : Option (Timestamp × List Char) :=
  let (digits, rest) := spanDigits cs
  if digits.length ≠ 4 then none
  else do
    let year := digits.foldl (fun n c => n * 10 + decimalDigit c) 0
    let (month, rest) ← twoDigits? (← after? '-' rest)
    let (day, rest) ← twoDigits? (← after? '-' rest)
    if 1 ≤ month ∧ month ≤ 12 ∧ 1 ≤ day ∧ day ≤ daysIn year month then
      some (⟨year, month, day, 0, 0, 0, [], 0⟩, rest)
    else none

/-- A fraction of a second without the zeros at its end, and what follows it.  Digits after the
ninth do not count. -/
def fractionOf : List Char → List Char × List Char
  | mark :: c :: cs =>
    if (mark = '.' ∨ mark = ',') ∧ c.isDigit then
      let (digits, rest) := spanDigits (c :: cs)
      (((digits.take 9).reverse.dropWhile (· == '0')).reverse, rest)
    else ([], mark :: c :: cs)
  | cs => ([], cs)

/-- A time on a day, and what follows it. -/
def clock? (day : Timestamp) (cs : List Char) : Option (Timestamp × List Char) := do
  let (hour, rest) ← twoDigits? cs
  let (minute, rest) ← twoDigits? (← after? ':' rest)
  let (second, rest) ← twoDigits? (← after? ':' rest)
  let (fraction, rest) := fractionOf rest
  if hour < 24 ∧ minute < 60 ∧ second < 60 then
    some ({ day with hour, minute, second, fraction }, rest)
  else none

/-- The offset of a time zone. -/
def zone? : List Char → Option Int
  | ['Z'] => some 0
  | [sign, a, b, ':', c, d] =>
    if (sign = '+' ∨ sign = '-') ∧ [a, b, c, d].all Char.isDigit then
      let hours := decimalDigit a * 10 + decimalDigit b
      let minutes := decimalDigit c * 10 + decimalDigit d
      if hours ≤ 24 ∧ minutes ≤ 60 then
        some (if sign = '-' then -((hours * 60 + minutes : Nat) : Int) else hours * 60 + minutes)
      else none
    else none
  | _ => none

/-- The point in time that a text stands for.  Between date and time there is a letter if a zone
follows, and a space if none does. -/
def ofChars? (cs : List Char) : Option Timestamp := do
  let (day, rest) ← date? cs
  match rest with
  | [] => return day
  | sep :: rest =>
    let (time, rest) ← clock? day rest
    if sep = 'T' ∨ sep = 't' then return { time with offset := ← zone? rest }
    else if sep = ' ' ∧ rest = [] then return time
    else none

/-- A number with at least `width` digits. -/
def padded (width n : Nat) : Text :=
  let digits := Nat.toDigits 10 n
  Text.ofChars (List.replicate (width - digits.length) '0' ++ digits)

/-- The offset of a zone, in hours and minutes. -/
def offsetText (offset : Int) : Text :=
  if offset = 0 then "Z"
  else
    let sign : Text := if offset < 0 then "-" else "+"
    sign ++ padded 2 (offset.natAbs / 60) ++ ":" ++ padded 2 (offset.natAbs % 60)

/-- A point in time in full. -/
def text (t : Timestamp) : Text :=
  let fraction : Text := if t.fraction.isEmpty then [] else "." ++ Text.ofChars t.fraction
  padded 4 t.year ++ "-" ++ padded 2 t.month ++ "-" ++ padded 2 t.day ++ "T" ++ padded 2 t.hour
    ++ ":" ++ padded 2 t.minute ++ ":" ++ padded 2 t.second ++ fraction ++ offsetText t.offset

end Timestamp

end DocPromotion.Yaml
