import WezuBackend.Orders.Announcements
import WezuBackend.Orders.Records
import WezuBackend.Streams.JsonCodec

/-!
# Requests that are repeated

A request that was carried out under a key has left its response in the records (`filed`), and no
request removes a record that has not expired (`lasting_record`).  So when the request is repeated,
whatever has come in between, it gets the same response and changes nothing (`repeated_same`).  A
record knows a request by its fingerprint, which tells payloads apart (`fingerprints_eq_iff`).
-/

namespace WezuBackend.Orders.Replays

open Lib.Tables Lib.Atomicity Lib.Atomicity.Tx Lib.Runs Core.Letters Fleet.Model
open Fleet.Transitions Orders.Service Orders.Requests
open Orders.Records Orders.Lifecycle Orders.Announcements

variable {scope : RequestScope} {key : String} {order : Order} {db : Db} {now : ℕ}

/-! ## The fingerprint of a request -/

section

open Core.Base Lib.Results Streams.JsonNumbers Streams.JsonCodec
open Streams.Events (Json)

/-- `_fingerprint_payload` of an encoded payload; `sha256` is the digest of a text. -/
def fingerprintPayload (sha256 : String → String) (encoded : Json) : Except Exc String :=
  (jsonDumps encoded).map sha256

/-- **Fingerprints are equal** exactly if the payloads are, once the keys of all their dictionaries
are in order, where the digests of the two texts do not collide. -/
theorem fingerprints_eq_iff [Floats] {sha256 : String → String} {a b : Json} {x y : String}
    (ha : Proper a) (hb : Proper b) (hx : fingerprintPayload sha256 a = .ok x)
    (hy : fingerprintPayload sha256 b = .ok y)
    (hapart : sha256 (dumps a) = sha256 (dumps b) → dumps a = dumps b) :
    x = y ↔ sortKeys a = sortKeys b := by
  obtain ⟨text, htext, rfl⟩ := except_map_ok.mp hx
  obtain ⟨text', htext', rfl⟩ := except_map_ok.mp hy
  obtain ⟨hshort, rfl⟩ := jsonDumps_ok.mp htext
  obtain ⟨hshort', rfl⟩ := jsonDumps_ok.mp htext'
  constructor
  · intro h
    have hloads := loads_dumps ha hshort
    rw [hapart h, loads_dumps hb hshort'] at hloads
    exact (Except.ok.inj hloads).symm
  · intro h
    rw [dumps, dumps, h]

/-- The status and the driver of a body, in either order. -/
theorem fingerprints_eq_iff_sample :
    dumps (.dict [("status", .str "failed"), ("driver", .int 7)]) =
        dumps (.dict [("driver", .int 7), ("status", .str "failed")]) ↔
      sortKeys (.dict [("status", .str "failed"), ("driver", .int 7)]) =
        sortKeys (.dict [("driver", .int 7), ("status", .str "failed")]) :=
  @fingerprints_eq_iff written id _ _ _ _
    ⟨show ["status", "driver"].Nodup by decide, trivial, trivial, trivial⟩
    ⟨show ["driver", "status"].Nodup by decide, trivial, trivial, trivial⟩
    (except_map_ok.mpr ⟨_, jsonDumps_ok.mpr
      ⟨⟨trivial, trivial, isShort_of_lt (by decide), trivial⟩, rfl⟩, rfl⟩)
    (except_map_ok.mpr ⟨_, jsonDumps_ok.mpr
      ⟨⟨trivial, isShort_of_lt (by decide), trivial, trivial⟩, rfl⟩, rfl⟩) id

end

/-! ## Repeated requests -/

/-- What the record answers to a request under the key. -/
structure Answers (scope : RequestScope) (key : String) (order : Order) (record : IdempotencyKey) :
    Prop where
  isRecord : isRecordOf scope key record = true
  fingerprint : record.requestFingerprint = scope.requestFingerprint
  response : record.responsePayload = .order order

/-- **A request that is carried out** leaves its response. -/
theorem answered_filed {x request : Option String → FleetTx Order}
    (hx : ∀ key, CommitsLast (request key) (x key)) (hfiles : ∀ key, Files now scope key (x key))
    (hkey : normalizeIdempotencyKey scope.idempotencyKey = .ok (some key)) (hone : OneRecord db)
    (hnew : ¬ Replayed now scope db) {db' : Db}
    (h : (answered now scope request).call db = (.ok order, db')) :
    ∃ record ∈ db'.idempotencyKeys, Answers scope key order record ∧
      record.expiresAt = now + idempotencyLifetime := by
  obtain ⟨key', db₀, t, hkey', -, -, hlook, hrun, rfl⟩ := answered_carriedOut hx hnew h
  obtain rfl := Except.ok.inj (hkey'.symm.trans hkey)
  obtain ⟨db₁, heq, -, -, hnone⟩ := replay_none hone hlook
  obtain rfl : db₀ = db₁ := congrArg Session.working heq
  obtain ⟨u, v, ⟨-, hsame⟩, hrecord, htail⟩ := (hfiles (some key)).recorded hrun
  replace hsame : u.working.idempotencyKeys = db₀.idempotencyKeys := hsame
  rcases record_cases hrecord with ⟨-, hold⟩ | ⟨k, hk, -, rfl⟩
  · exact absurd (hsame ▸ hnone key rfl) (hold key rfl)
  · obtain rfl := Option.some.inj hk
    replace htail : t.working.idempotencyKeys =
        (recorded now scope key order u.working).idempotencyKeys := htail
    rw [htail]
    exact ⟨_, Table.mem_add.mpr (.inr rfl), ⟨isRecordOf_iff.mpr ⟨rfl, rfl, rfl, rfl⟩, rfl, rfl⟩,
      rfl⟩

/-- **A response that is there** is given, and nothing is done. -/
theorem answered_again {record : IdempotencyKey} (hu : UniqueIndexes db) (hone : OneRecord db)
    (hkey : normalizeIdempotencyKey scope.idempotencyKey = .ok (some key))
    (hmem : record ∈ db.idempotencyKeys) (h : Answers scope key order record)
    (hnow : now < record.expiresAt) (request : Option String → FleetTx Order) :
    (answered now scope request).call db = (.ok order, db) := by
  have hfound : db.idempotencyKeys.find? (isRecordOf scope key) = some record := by
    rcases hfind : db.idempotencyKeys.find? (isRecordOf scope key) with _ | other
    · have hno := h.isRecord
      rw [Table.find?_eq_none.mp hfind record hmem] at hno
      cases hno
    · rw [hone other (Table.find?_mem hfind) record hmem
        (sameScope_of_isRecordOf (Table.find?_prop hfind) h.isRecord)]
  have hanswer : answerOf now scope record (.fresh db) = (.ok (some order), .fresh db) := by
    unfold answerOf
    rw [if_neg (not_le.mpr hnow), ensure_bind h.fingerprint, h.response]
    rfl
  have hlook : getIdempotentReplay now scope (some key) (.fresh db) =
      (.ok (some order), .fresh db) := by
    have hquery : query (.fresh db) = (.ok db, .fresh db) := query_ok.mpr ⟨hu, rfl, rfl⟩
    rw [getIdempotentReplay, bind_of_ok hquery, hfound]
    exact hanswer
  unfold call answered
  rw [lift_bind hkey, bind_of_ok hlook]
  rfl

section

variable [Casing]

theorem filed {request : Request} (hone : OneRecord db)
    (hkey : normalizeIdempotencyKey request.scope.idempotencyKey = .ok (some key))
    (hnew : ¬ request.Replays db) (h : (request.program.call db).1 = .ok order) :
    ∃ record ∈ (request.step db).idempotencyKeys, Answers request.scope key order record ∧
      record.expiresAt = request.now + idempotencyLifetime := by
  rcases request.program_cases with ⟨e, hprogram⟩ | ⟨f, hprogram, hlast⟩
  · rw [call_eq (hprogram _)] at h
    cases h
  · refine answered_filed hlast request.files_body hkey hone (Request.replays_eq ▸ hnew) ?_
    rw [← hprogram]
    exact Prod.ext h rfl

/-- **Repeated requests.**  A request that was carried out under a key is answered in the same way,
and changes nothing, when it is repeated within the lifetime of its record, after any other requests
within that time. -/
theorem repeated_same (hu : UniqueIndexes db) (hone : OneRecord db) (request : Request)
    (hkey : normalizeIdempotencyKey request.scope.idempotencyKey = .ok (some key))
    (hnew : ¬ request.Replays db) (h : (request.program.call db).1 = .ok order)
    (requests : List Request)
    (hsoon : ∀ r ∈ requests, r.now < request.now + idempotencyLifetime) {later : ℕ}
    (hlater : later < request.now + idempotencyLifetime) :
    (request.again later).program.call (runRequests db (request :: requests)) =
      (.ok order, runRequests db (request :: requests)) := by
  obtain ⟨record, hmem, hanswers, hexpires⟩ := filed hone hkey hnew h
  rw [← hexpires] at hsoon hlater
  obtain ⟨hu', hone', hmem'⟩ :
      UniqueIndexes (runRequests (request.step db) requests) ∧
        OneRecord (runRequests (request.step db) requests) ∧
        record ∈ (runRequests (request.step db) requests).idempotencyKeys :=
    run_invariant_of_along
      (I := fun db => UniqueIndexes db ∧ OneRecord db ∧ record ∈ db.idempotencyKeys)
      (C := fun _ r => r.now < record.expiresAt)
      (fun db r hinv hr => ⟨step_uniqueIndexes r hinv.1, step_oneRecord r hinv.2.1,
        r.step_lasting (lasting_record hr) hinv.2.2⟩)
      ⟨step_uniqueIndexes request hu, step_oneRecord request hone, hmem⟩
      (along_iff.mpr fun before r after heq => hsoon r (heq ▸ by simp))
  rcases request.program_again with ⟨e, hprogram⟩ | ⟨f, hprogram, -⟩
  · rw [← request.again_now, call_eq (hprogram _ _)] at h
    cases h
  · rw [hprogram]
    exact answered_again hu' hone' hkey hmem' hanswers hlater _

end

/-- The retry of order `B`, another user's change of it, and the retry again. -/
theorem repeated_same_sample :
    ((changedBy 1 "pending").again 5).program.call
        (runRequests failedOrder [changedBy 1 "pending", changedBy 2 "cancelled"]) =
      (.ok (orderIn "pending"),
        runRequests failedOrder [changedBy 1 "pending", changedBy 2 "cancelled"]) := by
  refine repeated_same ⟨?_, ?_, ?_⟩ (fun r hr => absurd hr (Table.not_mem_empty r))
    (changedBy 1 "pending") (show normalizeIdempotencyKey (some "k") = .ok (some "k") by decide)
    (not_replays_of_unknown (by decide)) (by decide +kernel) [changedBy 2 "cancelled"] (by decide)
    (by decide)
  all_goals decide +kernel

end WezuBackend.Orders.Replays
