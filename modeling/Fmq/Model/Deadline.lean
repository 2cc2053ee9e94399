import Fmq.Model.EventFlag

/-!
# Absolute times

`addNanosecondsToCurrentTime`, which turns the timeout of a `FUTEX_WAIT_BITSET` into a deadline.
-/
namespace Fmq

/-- `struct timespec`. -/
structure Timespec where
  tv_sec : Int64
  tv_nsec : Int64
  deriving DecidableEq, Repr

namespace EventFlag

def kNanosPerSecond : Int64 := 1000000000

/-- The current time of the MSVC build, from the value of `GetTickCount64`. Elsewhere it is what
`clock_gettime(CLOCK_MONOTONIC)` returns. -/
def currentTimeOfTicks (cnt : Int64) : Timespec :=
  let tv_sec := cnt / 1000
  ⟨tv_sec, (cnt - tv_sec * 1000) * 1000000⟩

def addNanosecondsToCurrentTime (nanoSeconds : Int64) (currentTime : Timespec) : Timespec :=
  -- Division and remainder round towards zero, so both are negative for a negative value.
  let tv_sec := currentTime.tv_sec + nanoSeconds / kNanosPerSecond
  let tv_nsec := currentTime.tv_nsec + nanoSeconds % kNanosPerSecond
  if tv_nsec ≥ kNanosPerSecond then ⟨tv_sec + 1, tv_nsec - kNanosPerSecond⟩
  else ⟨tv_sec, tv_nsec⟩

/-- The time that `waitHelper` passes to `FUTEX_WAIT_BITSET`, `none` for a null pointer. -/
def WaitCall.waitTimeAbsolute (call : WaitCall) (currentTime : Timespec) : Option Timespec :=
  if call.timeoutNanoSeconds ≠ 0 then
    some (addNanosecondsToCurrentTime call.timeoutNanoSeconds currentTime)
  else none

end EventFlag
end Fmq
