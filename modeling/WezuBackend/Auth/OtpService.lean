import WezuBackend.Core.Base
import Mathlib.Data.List.Sort

/-!
# One-time passwords

`createOtpRecord` counts what the target was sent in the last half hour, makes it wait between two
codes, and switches off the older codes; `verifyOtp` looks for the code that is still open and
counts wrong guesses against it.  Times are microseconds of the clock.

`createOtpRecord_ok` and `stepped` say once what each of the two does to the table; the facts about
runs use only these.
-/

namespace WezuBackend.Auth.OtpService

open Lib.Tables Core.Base

/-- A row of `otps`. -/
structure Otp where
  id : ℕ
  target : String
  code : String
  purpose : String
  isActive : Bool
  isUsed : Bool
  attempts : ℕ
  expiresAt : ℤ
  createdAt : ℤ
  deriving DecidableEq, Repr

instance : Row Otp ℕ := ⟨Otp.id⟩

def second : ℤ := 1000000

def minute : ℤ := 60 * second

/-- The first and the last `datetime`. -/
def datetimeMin : ℤ := -62135596800 * second

def datetimeMax : ℤ := 253402300800 * second - 1

/-- The times at which one call reads the clock: for the window, for the delay, for the expiry and
for the row's `created_at`. -/
structure CreateClock where
  counted : ℤ
  waited : ℤ
  expiry : ℤ
  created : ℤ
  ordered : counted ≤ waited ∧ waited ≤ expiry ∧ expiry ≤ created

/-- `order_by(OTP.created_at.desc())` over the rows of the last 30 minutes. -/
def recentOtps (otps : Table Otp) (target purpose : String) (now : ℤ) : List Otp :=
  let windowStart := now - 30 * minute
  (otps.filter fun r =>
    r.target = target ∧ r.purpose = purpose ∧ r.createdAt > windowStart).insertionSort
      fun a b => b.createdAt ≤ a.createdAt

def tooManyOtps : Exc :=
  .http 429 "Maximum OTP limit reached. Please try again after 30 minutes."

def waitSeconds (timeSinceLast : ℤ) : Exc :=
  .http 429 s!"Please wait {60 - timeSinceLast.tdiv second} seconds before requesting a new OTP."

def waitMinutes (timeSinceLast : ℤ) : Exc :=
  .http 429 s!"Please wait {5 - timeSinceLast.tdiv minute} minutes before requesting a new OTP."

/-- Whether the request comes too soon after the newest of the recent codes. -/
def delay (recent : List Otp) (now : ℤ) : Except Exc Unit :=
  match recent with
  | [] => .ok ()
  | last :: _ =>
    let timeSinceLast := now - last.createdAt
    if recent.length = 1 ∧ timeSinceLast < minute then .error (waitSeconds timeSinceLast)
    else if recent.length = 2 ∧ timeSinceLast < 5 * minute then .error (waitMinutes timeSinceLast)
    else .ok ()

/-- The older codes of the target and purpose are switched off. -/
def deactivate (otps : Table Otp) (target purpose : String) : Table Otp :=
  otps.update (fun r => r.target = target && r.purpose = purpose && r.isActive)
    (fun r => { r with isActive := false }) fun _ => rfl

def newOtp (target code purpose : String) (expiresAt createdAt : ℤ) (id : ℕ) : Otp where
  id := id
  target := target
  code := code
  purpose := purpose
  isActive := true
  isUsed := false
  attempts := 0
  expiresAt := expiresAt
  createdAt := createdAt

/-- `OTPService.create_otp_record`: the record and the table with it. -/
def createOtpRecord (otps : Table Otp) (target code purpose : String) (validityMinutes : ℤ)
    (clock : CreateClock) : Except Exc (Otp × Table Otp) := do
  let recent := recentOtps otps target purpose clock.counted
  if recent.length ≥ 3 then throw tooManyOtps
  delay recent clock.waited
  let kept := deactivate otps target purpose
  let expiresAt := clock.expiry + validityMinutes * minute
  if expiresAt < datetimeMin ∨ datetimeMax < expiresAt then throw .overflowError
  let record := newOtp target code purpose expiresAt clock.created
  return (record kept.freshKey, kept.add record)

/-- The statement by which `verify_otp` looks for the open code. -/
def openOtp (otps : Table Otp) (target purpose : String) (now : ℤ) : Option Otp :=
  otps.find? fun r =>
    r.target = target ∧ r.purpose = purpose ∧ r.isActive = true ∧ r.isUsed = false ∧
      r.expiresAt > now

/-- A wrong guess; the fifth switches the code off. -/
def failed (r : Otp) : Otp :=
  { r with
    attempts := r.attempts + 1
    isActive := if r.attempts + 1 ≥ 5 then false else r.isActive }

/-- The right code, which is used up. -/
def used (r : Otp) : Otp := { r with isUsed := true, isActive := false }

/-- `OTPService.verify_otp`: the answer and the table after it. -/
def verifyOtp (otps : Table Otp) (target code purpose : String) (now : ℤ) : Bool × Table Otp :=
  match openOtp otps target purpose now with
  | none => (false, otps)
  | some r => if r.code ≠ code then (false, otps.set (failed r)) else (true, otps.set (used r))

/-! ## Requests -/

/-- A call.  With `auto_commit=False` the record is kept if the caller commits. -/
inductive Request where
  | create (target code purpose : String) (validityMinutes : ℤ) (clock : CreateClock)
    (autoCommit callerCommits : Bool)
  | verify (target code purpose : String) (now : ℤ)

/-- What a call did. -/
inductive Event where
  | created (record : Otp)
  | refused (e : Exc)
  /-- the caller rolled back -/
  | dropped
  | accepted (id : ℕ) (code : String) (now : ℤ)
  | guessed (id : ℕ) (code : String) (now : ℤ)
  /-- no code was open -/
  | unmatched
  deriving DecidableEq

/-- What the call does and the stored rows after it. -/
def exec (otps : Table Otp) : Request → Event × Table Otp
  | .create target code purpose validityMinutes clock autoCommit callerCommits =>
    match createOtpRecord otps target code purpose validityMinutes clock with
    | .error e => (.refused e, otps)
    | .ok (record, otps') =>
      if autoCommit || callerCommits then (.created record, otps') else (.dropped, otps)
  | .verify target code purpose now =>
    let (answer, otps') := verifyOtp otps target code purpose now
    match openOtp otps target purpose now with
    | none => (.unmatched, otps')
    | some r => (if answer then .accepted r.id code now else .guessed r.id code now, otps')

/-! ## What one call does -/

theorem openOtp_eq_some {otps : Table Otp} {target purpose : String} {now : ℤ} {r : Otp}
    (h : openOtp otps target purpose now = some r) :
    r ∈ otps ∧ r.target = target ∧ r.purpose = purpose ∧ r.isActive = true ∧ r.isUsed = false ∧
      now < r.expiresAt := by
  exact Table.find?_spec h

theorem createOtpRecord_ok {otps otps' : Table Otp} {target code purpose : String}
    {validityMinutes : ℤ} {clock : CreateClock} {record : Otp}
    (h : createOtpRecord otps target code purpose validityMinutes clock = .ok (record, otps')) :
    (recentOtps otps target purpose clock.counted).length < 3 ∧
    ∃ expiresAt, record = newOtp target code purpose expiresAt clock.created
        (deactivate otps target purpose).freshKey ∧
      otps' = (deactivate otps target purpose).add
        (newOtp target code purpose expiresAt clock.created) := by
  simp only [createOtpRecord, bind, Except.bind, pure, Except.pure, throw, throwThe,
    MonadExceptOf.throw] at h
  split_ifs at h with hcount hrange
  · split at h <;> cases h
  · split at h
    · cases h
    · cases h
      have hfew : (recentOtps otps target purpose clock.counted).length < 3 := by omega
      exact ⟨hfew, _, rfl, rfl⟩

/-- What a call can do to the rows. -/
inductive Stepped (otps : Table Otp) : Event → Table Otp → Prop where
  | refused {e} : Stepped otps (.refused e) otps
  | dropped : Stepped otps .dropped otps
  | unmatched : Stepped otps .unmatched otps
  | created {target code purpose expiresAt counted createdAt}
    (hcount : (recentOtps otps target purpose counted).length < 3) (hclock : counted ≤ createdAt) :
    Stepped otps
      (.created (newOtp target code purpose expiresAt createdAt
        (deactivate otps target purpose).freshKey))
      ((deactivate otps target purpose).add (newOtp target code purpose expiresAt createdAt))
  | guessed {r code now} (hr : r ∈ otps) :
    Stepped otps (.guessed r.id code now) (otps.set (failed r))
  | accepted {r now} (hr : r ∈ otps) (hactive : r.isActive = true) (hunused : r.isUsed = false)
    (hnow : now < r.expiresAt) :
    Stepped otps (.accepted r.id r.code now) (otps.set (used r))

theorem stepped (otps : Table Otp) (q : Request) :
    Stepped otps (exec otps q).1 (exec otps q).2 := by
  cases q with
  | create target code purpose validityMinutes clock autoCommit callerCommits =>
    rcases hcreate : createOtpRecord otps target code purpose validityMinutes clock with
      e | ⟨record, otps'⟩
    · simp only [exec, hcreate]
      exact .refused
    · obtain ⟨hcount, expiresAt, rfl, rfl⟩ := createOtpRecord_ok hcreate
      have hclock : clock.counted ≤ clock.created := by
        have := clock.ordered
        omega
      by_cases hcommit : (autoCommit || callerCommits) = true
      · simp only [exec, hcreate, if_pos hcommit]
        exact .created hcount hclock
      · simp only [exec, hcreate, if_neg hcommit]
        exact .dropped
  | verify target code purpose now =>
    rcases hopen : openOtp otps target purpose now with _ | r
    · simp only [exec, verifyOtp, hopen]
      exact .unmatched
    · obtain ⟨hr, -, -, hactive, hunused, hnow⟩ := openOtp_eq_some hopen
      by_cases hcode : r.code = code
      · subst hcode
        simp only [exec, verifyOtp, hopen, ne_eq, not_true_eq_false, if_false, if_true]
        exact .accepted hr hactive hunused hnow
      · simp only [exec, verifyOtp, hopen, ne_eq, hcode, not_false_eq_true, if_true,
          Bool.false_eq_true, if_false]
        exact .guessed hr

end WezuBackend.Auth.OtpService
