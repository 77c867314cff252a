import Phrasebook.Text.Pieces

namespace Phrasebook

structure Span where
  nanoseconds : Int
deriving DecidableEq, Repr

namespace Span

def ofSeconds (seconds nanoseconds : Int) : Span :=
  ⟨seconds * 1000000000 + nanoseconds⟩

def whole (d : Span) (unit : Int) : Int :=
  d.nanoseconds.tdiv unit

def milliseconds (d : Span) : Int := d.whole 1000000
def seconds (d : Span) : Int := d.whole 1000000000
def minutes (d : Span) : Int := d.whole 60000000000
def hours (d : Span) : Int := d.whole 3600000000000
def days (d : Span) : Int := d.whole 86400000000000

def isNegative (d : Span) : Bool :=
  d.nanoseconds < 0

structure Parts where
  days : Nat
  hours : Nat
  minutes : Nat
  seconds : Nat
  nanoseconds : Nat
deriving DecidableEq, Repr

def parts (d : Span) : Parts :=
  let n := d.nanoseconds.natAbs
  let s := n / 1000000000
  ⟨s / 86400, s / 3600 % 24, s / 60 % 60, s % 60, n % 1000000000⟩

/-- Sign, days where there are any, the clock, and ticks of 100 ns where there are any. -/
def text (d : Span) : String :=
  let p := d.parts
  let ticks := p.nanoseconds / 100
  (if d.isNegative then "-" else "") ++
    (if p.days = 0 then "" else toString p.days ++ ".") ++
    Text.padded p.hours 2 ++ ":" ++ Text.padded p.minutes 2 ++ ":" ++ Text.padded p.seconds 2 ++
    (if ticks = 0 then "" else "." ++ Text.padded ticks 7)

end Span

end Phrasebook
