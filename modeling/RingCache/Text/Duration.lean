/-!
# Durations

A whole number of milliseconds is shown in the largest unit that it fills: in seconds with up to
three places, of which closing zeros are dropped, else in milliseconds. No time at all is `0ns`.
-/

namespace RingCache.Text

/-- The places after the point for `ms` thousandths, without closing zeros; nothing for none. -/
def thousandths (ms : Nat) : String :=
  if ms = 0 then ""
  else if ms % 100 = 0 then s!".{ms / 100}"
  else if ms % 10 = 0 then s!".{ms / 100}{ms / 10 % 10}"
  else s!".{ms / 100}{ms / 10 % 10}{ms % 10}"

/-- The text of a duration of `ms` milliseconds. -/
def duration (ms : Nat) : String :=
  if ms = 0 then "0ns"
  else if ms < 1000 then s!"{ms}ms"
  else s!"{ms / 1000}" ++ thousandths (ms % 1000) ++ "s"

end RingCache.Text
