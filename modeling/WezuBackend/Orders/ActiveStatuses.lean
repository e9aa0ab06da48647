import WezuBackend.Orders.Normalise

/-!
# Which orders count as active

Four places decide whether an order is still under way: the endpoints by its canonical status, the
driver queries by a list of spellings, the battery locks by a list of normalised spellings, and the
route planner by the two canonical words themselves.  Whatever one of the last three counts as
active is canonically active (`canonicallyActive_of_driver`, `canonicallyActive_of_locking`), but
not conversely.
-/

namespace WezuBackend.Orders.ActiveStatuses

open Core.Text Core.Letters Fleet.Consistency Orders.Normalise

def activeDriverOrderStatuses : List String := ["pending", "in_transit"]

def routableOrderStatuses : List String := ["pending", "in_transit"]

def CanonicallyActive (status : String) : Prop :=
  canonicalOrderStatus status ∈ activeDriverOrderStatuses

def DriverActive (status : String) : Prop := status ∈ activeDriverOrderStatusesDb

def Locking (status : String) : Prop := sqlOrderStatus status ∈ activeOrderStatuses

def Routable (status : String) : Prop := status ∈ routableOrderStatuses

instance : DecidablePred CanonicallyActive := fun status =>
  inferInstanceAs (Decidable (canonicalOrderStatus status ∈ activeDriverOrderStatuses))

instance : DecidablePred DriverActive := fun status =>
  inferInstanceAs (Decidable (status ∈ activeDriverOrderStatusesDb))

instance : DecidablePred Locking := fun status =>
  inferInstanceAs (Decidable (sqlOrderStatus status ∈ activeOrderStatuses))

instance : DecidablePred Routable := fun status =>
  inferInstanceAs (Decidable (status ∈ routableOrderStatuses))

/-- All four classify the status the same way. -/
def Agree (status : String) : Prop :=
  (CanonicallyActive status ↔ DriverActive status) ∧
    (CanonicallyActive status ↔ Locking status) ∧ (CanonicallyActive status ↔ Routable status)

/-! ## The lists of spellings -/

variable {status : String}

theorem canonicallyActive_of_driver (h : DriverActive status) :
    CanonicallyActive status := by
  have hall : ∀ s ∈ activeDriverOrderStatusesDb, CanonicallyActive s := by decide +kernel
  exact hall status h

/-- Lowering before or after the separators are replaced makes no difference. -/
theorem sqlOrderStatus_eq (status : String) :
    sqlOrderStatus status = String.ofList (status.toList.map plain) := by
  unfold sqlOrderStatus underscored lower
  rw [String.toList_ofList, List.map_map]
  refine congrArg String.ofList (List.map_congr_left fun c _ => ?_)
  show (if c.toLower = '-' ∨ c.toLower = ' ' then '_' else c.toLower) = plain c
  by_cases hsep : c = '-' ∨ c = ' '
  · rcases hsep with rfl | rfl <;> decide
  · have hlower : ¬ (c.toLower = '-' ∨ c.toLower = ' ') := by
      rintro (h | h)
      · exact hsep (.inl (eq_of_toLower h (by decide)))
      · exact hsep (.inr (eq_of_toLower h (by decide)))
    rw [if_neg hlower, plain, if_neg hsep]

/-- A character that becomes neither an underscore nor a blank is no blank. -/
theorem isSpace_of_plain {c : Char} (h : plain c ≠ '_') (h' : isSpace (plain c) = false) :
    isSpace c = false := by
  have hsep : ¬ (c = '-' ∨ c = ' ') := by
    rintro (rfl | rfl) <;> exact h (by decide)
  rwa [plain, if_neg hsep, isSpace_toLower] at h'

theorem strip_of_locking (h : Locking status) : strip status = status := by
  have hends : ∀ w ∈ activeOrderStatuses,
      w.toList.head?.all (fun c => c ≠ '_' ∧ isSpace c = false) = true ∧
        w.toList.getLast?.all (fun c => c ≠ '_' ∧ isSpace c = false) = true := by decide +kernel
  obtain ⟨hfirst, hlast⟩ := hends _ h
  simp only [Option.all_eq_true, decide_eq_true_eq] at hfirst hlast
  rw [sqlOrderStatus_eq, String.toList_ofList] at hfirst hlast
  rw [List.head?_map] at hfirst
  rw [List.getLast?_map] at hlast
  refine strip_of_ends (fun c hc => ?_) fun c hc => ?_
  · obtain ⟨hne, hspace⟩ := hfirst (plain c) (Option.mem_map_of_mem plain hc)
    exact isSpace_of_plain hne hspace
  · obtain ⟨hne, hspace⟩ := hlast (plain c) (Option.mem_map_of_mem plain hc)
    exact isSpace_of_plain hne hspace

theorem canonicallyActive_of_locking (h : Locking status) :
    CanonicallyActive status := by
  have hwords : ∀ w ∈ activeOrderStatuses,
      (statusMapping.lookup (compacted w)).getD w ∈ activeDriverOrderStatuses := by decide +kernel
  have hnormal : lower (underscored (strip status)) = sqlOrderStatus status := by
    rw [strip_of_locking h, lower_underscored, sqlOrderStatus_eq]
  unfold CanonicallyActive canonicalOrderStatus
  dsimp only
  rw [hnormal]
  exact hwords _ h

/-! ## Agreement -/

theorem agree_of_routable (h : Routable status) : Agree status := by
  have hall : ∀ s ∈ routableOrderStatuses, Agree s := by
    unfold Agree
    decide +kernel
  exact hall status h

/-- **The four classifiers agree** on a status if and only if it is one of the two canonical words,
or its canonical status is not active. -/
theorem classifiers_agree_iff (status : String) :
    Agree status ↔ status = "pending" ∨ status = "in_transit" ∨ ¬ CanonicallyActive status := by
  have hwords : Routable status ↔ status = "pending" ∨ status = "in_transit" := by
    simp [Routable, routableOrderStatuses]
  constructor
  · rintro ⟨-, -, hroute⟩
    by_cases hactive : CanonicallyActive status
    · have hexact := hwords.mp (hroute.mp hactive)
      tauto
    · exact .inr (.inr hactive)
  · intro h
    by_cases hexact : Routable status
    · exact agree_of_routable hexact
    · have hinactive : ¬ CanonicallyActive status := by tauto
      refine ⟨iff_of_false hinactive fun hd => ?_, iff_of_false hinactive fun hl => ?_,
        iff_of_false hinactive hexact⟩
      · exact hinactive (canonicallyActive_of_driver hd)
      · exact hinactive (canonicallyActive_of_locking hl)

/-- An order that has just been given to a driver: active for everyone but the route planner. -/
theorem assigned_disagree :
    ¬ Agree "assigned" ∧ CanonicallyActive "assigned" ∧ DriverActive "assigned" ∧
      Locking "assigned" ∧ ¬ Routable "assigned" := by
  unfold Agree
  decide +kernel

/-- A driver with such an order is busy, but its batteries are free. -/
example : DriverActive "intransit" ∧ ¬ Locking "intransit" := by decide +kernel

/-- Its batteries are locked, but the driver is free. -/
example : Locking "In Transit" ∧ ¬ DriverActive "In Transit" := by decide +kernel

end WezuBackend.Orders.ActiveStatuses
