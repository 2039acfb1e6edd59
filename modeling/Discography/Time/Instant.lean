/-!
# Instants

A clock reads a signed 64-bit number of milliseconds since 1970. The calendar does not reach as far
as such numbers do; a reading outside the calendar is the instant zero.

## Main definitions

* `Time.instant`: the instant of a clock reading
* `Time.seconds`: the whole seconds before an instant
-/

namespace Discography.Time

/-- The first and the last instant of the calendar, in milliseconds. -/
def calendarBounds : Int × Int := (-8334601228800000, 8210266876799999)

/-- The instant of a clock reading, in milliseconds. -/
def instant (millis : Int64) : Int :=
  if calendarBounds.1 ≤ millis.toInt ∧ millis.toInt ≤ calendarBounds.2 then millis.toInt else 0

/-- The second that an instant lies in. -/
def seconds (instant : Int) : Int := instant / 1000

end Discography.Time
