import WezuBackend.Core.Base

/-!
# The calendar

Times in microseconds, before and after the beginning of the clock, and `datetime` arithmetic on
them.  The calendar has a first and a last moment.
-/

namespace WezuBackend.Core.Calendar

def datetimeMin : ℤ := -62135596800000000

def datetimeMax : ℤ := 253402300799999999

def second : ℤ := 1000000

def hour : ℤ := 3600 * second

/-- `time.hour`. -/
def hourOf (time : ℤ) : ℤ := time / hour % 24

/-- `time + timedelta(seconds=seconds)`, unless it raises. -/
def later (time seconds : ℤ) : Option ℤ :=
  let sum := time + seconds * second
  if datetimeMin ≤ sum ∧ sum ≤ datetimeMax then some sum else none

theorem later_eq_some {time seconds sum : ℤ} (h : later time seconds = some sum) :
    sum = time + seconds * second := by
  unfold later at h
  dsimp only at h
  split_ifs at h
  exact (Option.some.inj h).symm

end WezuBackend.Core.Calendar
