import WezuBackend.Lib.Results
import WezuBackend.Fleet.Transitions

/-!
# Lists of serials

What the normalisation of a list of serials returns and what it raises.
-/

namespace WezuBackend.Fleet.Serials

open Lib.Results Core.Base Core.Letters Fleet.Consistency Fleet.Transitions

variable [Casing]

variable {e : Exc}

theorem normalizeBatterySerial_error {raw field : String}
    (h : normalizeBatterySerial raw field = .error e) : ∃ code detail, e = .http code detail := by
  unfold normalizeBatterySerial at h
  split_ifs at h
  exact ⟨_, _, (Except.error.inj h).symm⟩

variable {field : String} {index : ℕ} {seen raws serials : List String}

theorem normalizeFrom_cons
    {raw : String} : normalizeFrom field index seen (raw :: raws) = .ok serials ↔
      normal raw ≠ "" ∧ normal raw ∉ seen ∧
        ∃ rest, normalizeFrom field (index + 1) (normal raw :: seen) raws = .ok rest ∧
          serials = normal raw :: rest := by
  rw [normalizeFrom, except_bind_ok]
  constructor
  · rintro ⟨serial, hserial, h⟩
    obtain ⟨hne, rfl⟩ := normalizeBatterySerial_ok.mp hserial
    dsimp only at h
    split_ifs at h with hseen
    · cases h
    · obtain ⟨rest, hrest, h⟩ := except_bind_ok.mp h
      exact ⟨hne, hseen, rest, hrest, (Except.ok.inj h).symm⟩
  · rintro ⟨hne, hseen, rest, hrest, rfl⟩
    refine ⟨normal raw, normalizeBatterySerial_ok.mpr ⟨hne, rfl⟩, ?_⟩
    dsimp only
    rw [if_neg hseen, except_bind_ok]
    exact ⟨rest, hrest, rfl⟩

theorem normalizeFrom_ok (h : normalizeFrom field index seen raws = .ok serials) :
    serials = raws.map normal ∧ serials.Nodup ∧ ∀ s ∈ serials, s ∉ seen := by
  induction raws generalizing index seen serials with
  | nil =>
    obtain rfl := Except.ok.inj h
    exact ⟨rfl, List.nodup_nil, nofun⟩
  | cons raw raws ih =>
    obtain ⟨-, hseen, rest, hrest, rfl⟩ := normalizeFrom_cons.mp h
    obtain ⟨rfl, hnodup, hnew⟩ := ih hrest
    refine ⟨rfl, List.nodup_cons.mpr ⟨fun hmem => hnew _ hmem List.mem_cons_self, hnodup⟩, ?_⟩
    intro s hs
    rcases List.mem_cons.mp hs with rfl | hs
    · exact hseen
    · exact fun hmem => hnew s hs (List.mem_cons_of_mem _ hmem)

theorem normalizeFrom_error {seen raws : List String}
    (h : normalizeFrom field index seen raws = .error e) :
      ∃ code detail, e = .http code detail := by
  induction raws generalizing index seen with
  | nil => cases h
  | cons raw raws ih =>
    rw [normalizeFrom] at h
    rcases except_bind_error.mp h with h | ⟨serial, -, h⟩
    · exact normalizeBatterySerial_error h
    dsimp only at h
    split_ifs at h
    · exact ⟨_, _, (Except.error.inj h).symm⟩
    · rcases except_bind_error.mp h with h | ⟨rest, -, h⟩
      · exact ih h
      · cases h

theorem normalizeFrom_iff :
    normalizeFrom field index seen raws = .ok serials ↔ (∀ raw ∈ raws, normal raw ≠ "") ∧
      (∀ raw ∈ raws, normal raw ∉ seen) ∧ (raws.map normal).Nodup ∧ raws.map normal = serials := by
  induction raws generalizing index seen serials with
  | nil => simp [normalizeFrom]
  | cons raw raws ih =>
    rw [normalizeFrom_cons, List.map_cons, List.nodup_cons]
    constructor
    · rintro ⟨hne, hseen, rest, hrest, rfl⟩
      obtain ⟨hnes, hnew, hnodup, rfl⟩ := ih.mp hrest
      refine ⟨List.forall_mem_cons.mpr ⟨hne, hnes⟩, List.forall_mem_cons.mpr ⟨hseen, fun r hr =>
        fun hmem => hnew r hr (List.mem_cons_of_mem _ hmem)⟩, ⟨fun hmem => ?_, hnodup⟩, rfl⟩
      obtain ⟨r, hr, hsame⟩ := List.mem_map.mp hmem
      exact hnew r hr (hsame ▸ List.mem_cons_self)
    · rintro ⟨hnes, hseen, ⟨hnew, hnodup⟩, rfl⟩
      rw [List.forall_mem_cons] at hnes hseen
      refine ⟨hnes.1, hseen.1, raws.map normal, ih.mpr ⟨hnes.2, fun r hr hmem => ?_, hnodup, rfl⟩,
        rfl⟩
      rcases List.mem_cons.mp hmem with heq | hmem
      · exact hnew (List.mem_map.mpr ⟨r, hr, heq⟩)
      · exact hseen.2 r hr hmem

theorem normalizeBatterySerials_iff {raws serials : List String} :
    normalizeBatterySerials raws field = .ok serials ↔ raws ≠ [] ∧ (∀ raw ∈ raws, normal raw ≠ "") ∧
      (raws.map normal).Nodup ∧ raws.map normal = serials := by
  rw [normalizeBatterySerials, except_bind_ok]
  constructor
  · rintro ⟨normalized, hnormalized, h⟩
    obtain ⟨hnes, -, hnodup, rfl⟩ := normalizeFrom_iff.mp hnormalized
    dsimp only at h
    split_ifs at h with hempty
    · cases h
    · obtain rfl := Except.ok.inj h
      exact ⟨fun hnil => hempty ⟨rfl, by rw [hnil]; rfl⟩, hnes, hnodup, rfl⟩
  · rintro ⟨hne, hnes, hnodup, rfl⟩
    refine ⟨raws.map normal,
      normalizeFrom_iff.mpr ⟨hnes, fun _ _ => List.not_mem_nil, hnodup, rfl⟩, ?_⟩
    dsimp only
    rw [if_neg fun h => hne (List.map_eq_nil_iff.mp h.2)]
    rfl

variable {required : Bool}

theorem normalizeBatterySerials_ok {raws serials : List String}
    (h : normalizeBatterySerials raws field required = .ok serials) :
    serials = raws.map normal ∧ serials.Nodup := by
  rw [normalizeBatterySerials, except_bind_ok] at h
  obtain ⟨normalized, hnormalized, h⟩ := h
  obtain ⟨hmap, hnodup, -⟩ := normalizeFrom_ok hnormalized
  dsimp only at h
  split_ifs at h
  · cases h
  · obtain rfl := Except.ok.inj h
    exact ⟨hmap, hnodup⟩

theorem normalizeBatterySerials_error {raws : List String}
    (h : normalizeBatterySerials raws field required = .error e) :
    ∃ code detail, e = .http code detail := by
  rw [normalizeBatterySerials] at h
  rcases except_bind_error.mp h with h | ⟨normalized, -, h⟩
  · exact normalizeFrom_error h
  · dsimp only at h
    split_ifs at h
    · exact ⟨_, _, (Except.error.inj h).symm⟩
    · cases h

theorem map_normal {serials : List String} (h : ∀ serial ∈ serials, normal serial = serial) :
    serials.map normal = serials := by
  conv_rhs => rw [← List.map_id serials]
  exact List.map_congr_left h

theorem mapM_normal {raws serials : List String}
    (h : (raws.mapM fun raw => normalizeBatterySerial raw) = .ok serials) :
    serials = raws.map normal := by
  have hpairs := forall₂_of_mapM h
  clear h
  induction hpairs with
  | nil => rfl
  | cons hraw _ ih => rw [ih, List.map_cons, (normalizeBatterySerial_ok.mp hraw).2]

end WezuBackend.Fleet.Serials
