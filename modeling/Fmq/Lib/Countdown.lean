import Mathlib.Algebra.Group.Int.Defs

/-!
# Countdowns

A remaining time in a machine word, from which a loop subtracts what a clock has moved on since its
last reading. On a clock that counts from 0 and never goes back nothing overflows, and the remaining
time is the distance to a fixed deadline.
-/
namespace Countdown

/-- The remaining time after the reading `now`, when the last one was `prev`. -/
def tick (remaining prev now : Int64) : Int64 := remaining - (now - prev)

def deadline (remaining prev : Int64) : Int := remaining.toInt + prev.toInt

variable {remaining prev now : Int64}

theorem toInt_elapsed (boot : 0 ≤ prev) (later : prev ≤ now) :
    (now - prev).toInt = now.toInt - prev.toInt := by
  rw [Int64.le_iff_toInt_le, Int64.toInt_zero] at boot
  rw [Int64.le_iff_toInt_le] at later
  have below := now.toInt_lt
  rw [Int64.toInt_sub]
  exact Int.bmod_eq_of_le (by omega) (by omega)

theorem toInt_tick (pos : 0 < remaining) (boot : 0 ≤ prev) (later : prev ≤ now) :
    (tick remaining prev now).toInt = remaining.toInt - (now.toInt - prev.toInt) := by
  have passed := toInt_elapsed boot later
  rw [Int64.lt_iff_toInt_lt, Int64.toInt_zero] at pos
  rw [Int64.le_iff_toInt_le, Int64.toInt_zero] at boot
  rw [Int64.le_iff_toInt_le] at later
  have below := now.toInt_lt
  have small := remaining.toInt_lt
  unfold tick
  rw [Int64.toInt_sub, passed]
  exact Int.bmod_eq_of_le (by omega) (by omega)

/-- A reading does not move the deadline. -/
theorem deadline_tick (pos : 0 < remaining) (boot : 0 ≤ prev) (later : prev ≤ now) :
    deadline (tick remaining prev now) now = deadline remaining prev := by
  unfold deadline
  rw [toInt_tick pos boot later]
  omega

theorem deadline_mono (remaining : Int64) (later : prev ≤ now) :
    deadline remaining prev ≤ deadline remaining now :=
  Int.add_le_add_left (Int64.le_iff_toInt_le.mp later) _

theorem tick_le (pos : 0 < remaining) (boot : 0 ≤ prev) (later : prev ≤ now) :
    tick remaining prev now ≤ remaining := by
  rw [Int64.le_iff_toInt_le, toInt_tick pos boot later]
  rw [Int64.le_iff_toInt_le] at later
  omega

/-! ## Loops that wait -/

/-- The waits so far had some time left, at most `limit`, and never more than the one before. -/
structure Descending (limit : Int64) (log : List Int64) : Prop where
  bounds : ∀ t ∈ log, 0 < t ∧ t ≤ limit
  sorted : log.Pairwise (· ≥ ·)

variable {limit clock t : Int64} {log : List Int64} {due : Int}

theorem Descending.nil (limit : Int64) : Descending limit [] := ⟨nofun, .nil⟩

theorem Descending.append (descending : Descending limit log) (pos : 0 < t) (le : t ≤ limit)
    (below : ∀ s ∈ log, t ≤ s) : Descending limit (log ++ [t]) := by
  constructor
  · intro s mem
    rcases List.mem_append.mp mem with old | new
    · exact descending.bounds s old
    · rw [List.mem_singleton.mp new]
      exact ⟨pos, le⟩
  · rw [List.pairwise_append]
    refine ⟨descending.sorted, List.pairwise_singleton _ _, fun s mem u new => ?_⟩
    rw [List.mem_singleton.mp new]
    exact below s mem

/-- A loop with `remaining` time since its last reading `prev`, before its next wait. It is not
over before `due`. -/
structure Counting (limit : Int64) (due : Int) (log : List Int64) (clock remaining prev : Int64) :
    Prop where
  pos : 0 < remaining
  le : remaining ≤ limit
  boot : 0 ≤ prev
  read : prev ≤ clock
  due : due ≤ deadline remaining prev
  below : ∀ t ∈ log, remaining ≤ t

/-- The remaining time counted from now on reaches `due` as well. -/
theorem Counting.reaches (counting : Counting limit due log clock remaining prev) :
    due ≤ deadline remaining clock :=
  Int.le_trans counting.due (deadline_mono remaining counting.read)

/-- A loop that reads the clock for the first time. -/
theorem Counting.start (counting : Counting limit due log clock remaining clock)
    (later : clock ≤ now) : Counting limit due log now remaining now :=
  { counting with
    boot := Int64.le_trans counting.boot later
    read := Int64.le_refl _
    due := Int.le_trans counting.due (deadline_mono remaining later) }

/-- A loop that has read the clock and goes on. -/
theorem Counting.tick (counting : Counting limit due log clock remaining prev)
    (later : clock ≤ now) (left : 0 < tick remaining prev now) :
    Counting limit due log now (tick remaining prev now) now := by
  have ordered := Int64.le_trans counting.read later
  have less := tick_le counting.pos counting.boot ordered
  refine ⟨left, Int64.le_trans less counting.le, Int64.le_trans counting.boot ordered,
    Int64.le_refl _, ?_, fun t mem => Int64.le_trans less (counting.below t mem)⟩
  rw [deadline_tick counting.pos counting.boot ordered]
  exact counting.due

/-- A loop that waits for its remaining time. -/
theorem Counting.wait (counting : Counting limit due log clock remaining prev) :
    Counting limit due (log ++ [remaining]) clock remaining prev := by
  refine { counting with below := fun t mem => ?_ }
  rcases List.mem_append.mp mem with old | new
  · exact counting.below t old
  · exact Int64.le_of_eq (List.mem_singleton.mp new).symm

end Countdown
