import ManifestChain.Calendar.Date

/-!
# Timestamps

A timestamp is a date and a time of day, to the microsecond, with or without an offset from
Coordinated Universal Time. One without an offset is read as universal time where an instant is
asked for. `Timestamp.rfc3339?` writes the universal time of a timestamp, which exists unless it
lies outside years 1 to 9999; `Timestamp.instant` counts microseconds instead of naming fields.
-/

namespace ManifestChain

structure Clock where
  hour : Nat
  minute : Nat
  second : Nat
  micros : Nat
  hour_lt : hour < 24
  minute_lt : minute < 60
  second_lt : second < 60
  micros_lt : micros < 1000000
deriving DecidableEq, Repr

namespace Clock

def ofParts? (hour minute second micros : Int) : Option Clock :=
  if hour < 0 ∨ minute < 0 ∨ second < 0 ∨ micros < 0 then none
  else if h : hour.toNat < 24 ∧ minute.toNat < 60 ∧ second.toNat < 60 ∧ micros.toNat < 1000000 then
    some ⟨hour.toNat, minute.toNat, second.toNat, micros.toNat, h.1, h.2.1, h.2.2.1, h.2.2.2⟩
  else none

def seconds (c : Clock) : Nat := c.hour * 3600 + c.minute * 60 + c.second

/-- The time of day at a number of seconds since midnight, a day taken off as often as needed. -/
def ofSeconds (seconds : Nat) (micros : Nat) (h : micros < 1000000) : Clock :=
  ⟨seconds / 3600 % 24, seconds / 60 % 60, seconds % 60, micros, Nat.mod_lt _ (by decide),
    Nat.mod_lt _ (by decide), Nat.mod_lt _ (by decide), h⟩

/-- Hours, minutes and seconds with colons, and microseconds in six digits unless they are zero. -/
def text (c : Clock) : Text :=
  Text.ofNatPadded 2 c.hour ++ ":" ++ Text.ofNatPadded 2 c.minute ++ ":" ++
    Text.ofNatPadded 2 c.second ++
    (if c.micros = 0 then [] else "." ++ Text.ofNatPadded 6 c.micros : Text)

end Clock

/-- An offset from universal time in whole seconds, east positive, of less than a day. -/
structure Offset where
  seconds : Int
  bounds : -86400 < seconds ∧ seconds < 86400
deriving DecidableEq, Repr

namespace Offset

def ofSeconds? (seconds : Int) : Option Offset :=
  if h : -86400 < seconds ∧ seconds < 86400 then some ⟨seconds, h⟩ else none

/-- A sign, hours and minutes, and seconds unless they are zero. -/
def text (o : Offset) : Text :=
  let s := o.seconds.natAbs
  (if o.seconds < 0 then "-" else "+" : Text) ++ Text.ofNatPadded 2 (s / 3600) ++ ":" ++
    Text.ofNatPadded 2 (s / 60 % 60) ++
    (if s % 60 = 0 then [] else ":" ++ Text.ofNatPadded 2 (s % 60) : Text)

end Offset

/-- A date and a time of day, at an offset from universal time if one is known. -/
structure Timestamp where
  date : Date
  clock : Clock
  offset : Option Offset
deriving DecidableEq, Repr

namespace Timestamp

/-- The offset in seconds, none counting as universal time. -/
def shift (t : Timestamp) : Int := (t.offset.map Offset.seconds).getD 0

/-- The microseconds from the start of the day before year 1 to the timestamp. -/
def instant (t : Timestamp) : Int :=
  ((t.date.number : Int) * 86400 + t.clock.seconds - t.shift) * 1000000 + t.clock.micros

/-- Date and time of day in universal time, unless they lie outside years 1 to 9999. An offset is
less than a day, so the date moves by one day at most. -/
def universal? (t : Timestamp) : Option (Date × Clock) :=
  let s : Int := t.clock.seconds - t.shift
  let clock (s : Int) := Clock.ofSeconds s.toNat t.clock.micros t.clock.micros_lt
  if s < 0 then t.date.previous?.map (·, clock (s + 86400))
  else if s < 86400 then some (t.date, clock s)
  else t.date.next?.map (·, clock (s - 86400))

/-- The universal time in the form of RFC 3339, closed by a `Z`. -/
def rfc3339? (t : Timestamp) : Option Text :=
  t.universal?.map fun (date, clock) => date.text ++ "T" ++ clock.text ++ "Z"

/-- Date, time of day and offset as they stand, with a text between the first two. -/
def text (separator : Text) (t : Timestamp) : Text :=
  t.date.text ++ separator ++ t.clock.text ++ (t.offset.map Offset.text).getD []

/-- Whether two timestamps are equal: the same fields if neither has an offset, the same instant if
both have one. -/
def equal (t u : Timestamp) : Bool :=
  match t.offset, u.offset with
  | none, none => t.date == u.date && t.clock == u.clock
  | some _, some _ => t.instant == u.instant
  | _, _ => false

end Timestamp

end ManifestChain
